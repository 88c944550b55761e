import Mathlib.Data.Int.Log
import Mathlib.Data.List.DropRight
import Mathlib.Data.Rat.Floor
import Mathlib.Tactic.FieldSimp
import Z2wRpc.Foundation.Decimal

/-!
# Double-precision numbers and their text

A finite `double` is the rational number it denotes.  Conversions from exact
values round to the nearest representable number, ties to even, and overflow to
an infinity; `%.{P}g` prints the significant digits of the exact value.  The
results below cover the integers that a `double` and the printed digits hold
exactly.
-/

namespace Z2wRpc
namespace Foundation

inductive Double where
  | finite (q : ℚ)
  | infinite (negative : Bool)
  | nan
deriving DecidableEq

namespace Double

def roundHalfEven (q : ℚ) : ℤ :=
  let below := ⌊q⌋
  let rest := q - below
  if rest < 1 / 2 then below
  else if 1 / 2 < rest then below + 1
  else if below % 2 = 0 then below
  else below + 1

/-- The `double` nearest an exact value. -/
def ofRat (q : ℚ) : Double :=
  if q = 0 then finite 0
  else
    -- the unit in the last place; `-1074` is that of the subnormal numbers
    let unit : ℚ := 2 ^ max (Int.log 2 |q| - 52) (-1074)
    let magnitude := roundHalfEven (|q| / unit) * unit
    if 2 ^ 1024 <= magnitude then infinite (decide (q < 0))
    else finite (if q < 0 then -magnitude else magnitude)

/--
The `float` nearest an integer value of moderate size: 24 significant bits,
ties to even.
-/
def single (q : ℚ) : ℚ :=
  if q = 0 then 0
  else
    let unit : ℚ := 2 ^ (Int.log 2 |q| - 23)
    let magnitude := roundHalfEven (|q| / unit) * unit
    if q < 0 then -magnitude else magnitude

def sub : Double -> Double -> Double
  | finite a, finite b => ofRat (a - b)
  | infinite s, infinite t => if s = t then nan else infinite s
  | infinite s, finite _ => infinite s
  | finite _, infinite t => infinite (!t)
  | nan, _ => nan
  | _, nan => nan

def mul : Double -> Double -> Double
  | finite a, finite b => ofRat (a * b)
  | infinite s, infinite t => infinite (s != t)
  | infinite s, finite b => if b = 0 then nan else infinite (s != decide (b < 0))
  | finite a, infinite t => if a = 0 then nan else infinite (t != decide (a < 0))
  | nan, _ => nan
  | _, nan => nan

/-- `strtod`: the value of the longest literal and what follows it. -/
def strtod (bs : List Byte) : Option (Double × List Byte) :=
  (readFloat bs).map fun r => (ofRat r.1, r.2)

/-- `atof` and `strtod` without an end pointer; no number reads as zero. -/
def atof (s : CString) : Double :=
  ((strtod (s.bytes.dropWhile fun b =>
    b = 0x20#8 ∨ (9 <= b.toNat ∧ b.toNat <= 13))).map Prod.fst).getD (finite 0)

/-- The conversion to `float`, with its range. -/
def toFloat : Double -> Double
  | finite q =>
      if q = 0 then finite 0
      else
        let unit : ℚ := 2 ^ max (Int.log 2 |q| - 23) (-149)
        let magnitude := roundHalfEven (|q| / unit) * unit
        if 2 ^ 128 <= magnitude then infinite (decide (q < 0))
        else finite (if q < 0 then -magnitude else magnitude)
  | infinite negative => infinite negative
  | nan => nan

/-!
## The `%g` conversion
-/

/--
The decimal exponent and the `digits` significant digits of a positive value.
A carry out of the first digit moves to the next exponent.
-/
def significand (digits : Nat) (a : ℚ) : ℤ × ℕ :=
  let exponent := Int.log 10 a
  let m := (roundHalfEven (a / 10 ^ (exponent - (digits - 1 : ℤ)))).toNat
  if m = 10 ^ digits then (exponent + 1, 10 ^ (digits - 1)) else (exponent, m)

def withPoint (whole decimals : List Byte) : List Byte :=
  match decimals.rdropWhile (· = 0x30#8) with
  | [] => whole
  | kept => whole ++ 0x2e#8 :: kept

def exponentSuffix (x : ℤ) : List Byte :=
  let ds := decimal x.natAbs
  0x65#8 :: (if x < 0 then 0x2d#8 else 0x2b#8) ::
    (if ds.length < 2 then 0x30#8 :: ds else ds)

def formatG (digits : Nat) (q : ℚ) : List Byte :=
  if q = 0 then [0x30#8]
  else
    let (x, m) := significand digits |q|
    let ds := decimal m
    let body :=
      if -4 <= x ∧ x < digits then
        if 0 <= x then
          withPoint (ds.take (x.toNat + 1)) (ds.drop (x.toNat + 1))
        else
          withPoint [0x30#8] (List.replicate (-x - 1).toNat 0x30#8 ++ ds)
      else
        withPoint (ds.take 1) (ds.drop 1) ++ exponentSuffix x
    if q < 0 then 0x2d#8 :: body else body

/-!
## A printed number is a C string
-/

theorem decimal_noNul (n : Nat) : 0#8 ∉ decimal n := by
  intro h
  exact absurd (isDigit_of_mem_decimal h) (by decide)

theorem withPoint_noNul {whole decimals : List Byte} (hwhole : 0#8 ∉ whole)
    (hdecimals : 0#8 ∉ decimals) : 0#8 ∉ withPoint whole decimals := by
  unfold withPoint
  split
  · exact hwhole
  · intro h
    rcases List.mem_append.mp h with h | h
    · exact hwhole h
    · rcases List.mem_cons.mp h with h | h
      · exact absurd h (by decide)
      · apply hdecimals
        exact (List.rdropWhile_prefix _ _).subset h

theorem exponentSuffix_noNul (x : ℤ) : 0#8 ∉ exponentSuffix x := by
  have hdigits := decimal_noNul x.natAbs
  unfold exponentSuffix
  simp only
  split_ifs <;> simp [hdigits]

theorem formatG_noNul (digits : Nat) (q : ℚ) : 0#8 ∉ formatG digits q := by
  unfold formatG
  split
  · decide
  · rcases hsignificand : significand digits |q| with ⟨x, m⟩
    simp only
    have hdigits := decimal_noNul m
    have htake : forall n, 0#8 ∉ (decimal m).take n := fun n h =>
      hdigits (List.mem_of_mem_take h)
    have hdrop : forall n, 0#8 ∉ (decimal m).drop n := fun n h =>
      hdigits (List.mem_of_mem_drop h)
    have hpadded : forall n, 0#8 ∉ List.replicate n 0x30#8 ++ decimal m := by
      intro n
      simp [hdigits]
    have hscientific : 0#8 ∉ withPoint ((decimal m).take 1)
        ((decimal m).drop 1) ++ exponentSuffix x := by
      intro h
      rcases List.mem_append.mp h with h | h
      · exact withPoint_noNul (htake 1) (hdrop 1) h
      · exact exponentSuffix_noNul x h
    split
    · intro h
      rcases List.mem_cons.mp h with h | h
      · exact absurd h (by decide)
      · revert h
        split_ifs
        · exact withPoint_noNul (htake _) (hdrop _)
        · exact withPoint_noNul (by decide) (hpadded _)
        · exact hscientific
    · split_ifs
      · exact withPoint_noNul (htake _) (hdrop _)
      · exact withPoint_noNul (by decide) (hpadded _)
      · exact hscientific

/-!
## Exact integers
-/

@[simp] theorem roundHalfEven_intCast (i : ℤ) : roundHalfEven (i : ℚ) = i := by
  simp [roundHalfEven]

theorem abs_intCast_eq (i : ℤ) : |(i : ℚ)| = (i.natAbs : ℚ) := by
  rw [← Int.cast_abs, Int.abs_eq_natAbs, Int.cast_natCast]

theorem signed_natAbs_rat (i : ℤ) :
    (if (i : ℚ) < 0 then -(i.natAbs : ℚ) else (i.natAbs : ℚ)) = i := by
  have h := congrArg (Int.cast : ℤ -> ℚ) (signed_natAbs i)
  by_cases hneg : i < 0
  · rw [if_pos (Int.cast_lt_zero.mpr hneg)]
    simpa [hneg] using h
  · rw [if_neg (mt Int.cast_lt_zero.mp hneg)]
    simpa [hneg] using h

theorem natCast_div_zpow_neg (n b k : ℕ) :
    (n : ℚ) / (b : ℚ) ^ (-(k : ℤ)) = ((n * b ^ k : ℕ) : ℤ) := by
  rw [zpow_neg, div_inv_eq_mul, zpow_natCast, Int.cast_natCast, Nat.cast_mul,
    Nat.cast_pow]

theorem ofRat_intCast {i : ℤ} (h : i.natAbs < 2 ^ 53) :
    ofRat (i : ℚ) = finite i := by
  by_cases hi : i = 0
  · rw [hi]
    rfl
  · have hn : i.natAbs ≠ 0 := Int.natAbs_ne_zero.mpr hi
    have hlog : Nat.log 2 i.natAbs < 53 := Nat.log_lt_of_lt_pow hn h
    have hunit : max (Int.log 2 (i.natAbs : ℚ) - 52) (-1074) =
        -((52 - Nat.log 2 i.natAbs : ℕ) : ℤ) := by
      rw [Int.log_natCast]
      omega
    have hscaled : (i.natAbs : ℚ) / 2 ^ (-((52 - Nat.log 2 i.natAbs : ℕ) : ℤ)) =
        ((i.natAbs * 2 ^ (52 - Nat.log 2 i.natAbs) : ℕ) : ℤ) :=
      natCast_div_zpow_neg i.natAbs 2 _
    have hback : (((i.natAbs * 2 ^ (52 - Nat.log 2 i.natAbs) : ℕ) : ℤ) : ℚ) *
        2 ^ (-((52 - Nat.log 2 i.natAbs : ℕ) : ℤ)) = i.natAbs := by
      rw [← hscaled]
      exact div_mul_cancel₀ _ (zpow_ne_zero _ (by norm_num))
    have hsmall : ¬ ((2 : ℚ) ^ 1024 <= (i.natAbs : ℚ)) := by
      rw [not_le]
      calc (i.natAbs : ℚ) < 2 ^ 53 := by exact_mod_cast h
        _ <= 2 ^ 1024 := pow_le_pow_right₀ (by norm_num) (by norm_num)
    have hq : (i : ℚ) ≠ 0 := Int.cast_ne_zero.mpr hi
    simp only [ofRat, if_neg hq, abs_intCast_eq, hunit, hscaled,
      roundHalfEven_intCast, hback, if_neg hsmall, signed_natAbs_rat]

/-!
## Rounding integers to `float`
-/

theorem single_intMax : single (2147483647 : ℚ) = 2147483648 := by decide +kernel
theorem single_intMin : single (-2147483648 : ℚ) = -2147483648 := by decide +kernel

theorem exists_single_intCast (n : ℤ) : exists m : ℤ, single (n : ℚ) = m := by
  by_cases hn : n = 0
  · exact ⟨0, by rw [hn]; rfl⟩
  · have hq : (n : ℚ) ≠ 0 := Int.cast_ne_zero.mpr hn
    have hmagnitude : exists m : ℤ,
        (roundHalfEven ((n.natAbs : ℚ) /
          2 ^ (Int.log 2 (n.natAbs : ℚ) - 23)) : ℚ) *
            2 ^ (Int.log 2 (n.natAbs : ℚ) - 23) = m := by
      rw [Int.log_natCast]
      by_cases hlog : 23 <= Nat.log 2 n.natAbs
      · have hexp : ((Nat.log 2 n.natAbs : ℤ) - 23) =
            ((Nat.log 2 n.natAbs - 23 : ℕ) : ℤ) := by omega
        rw [hexp, zpow_natCast]
        generalize roundHalfEven _ = r
        exact ⟨r * 2 ^ (Nat.log 2 n.natAbs - 23), by push_cast; ring⟩
      · have hexp : ((Nat.log 2 n.natAbs : ℤ) - 23) =
            -((23 - Nat.log 2 n.natAbs : ℕ) : ℤ) := by omega
        have hscaled : (n.natAbs : ℚ) /
            2 ^ (-((23 - Nat.log 2 n.natAbs : ℕ) : ℤ)) =
              ((n.natAbs * 2 ^ (23 - Nat.log 2 n.natAbs) : ℕ) : ℤ) :=
          natCast_div_zpow_neg n.natAbs 2 _
        rw [hexp, hscaled, roundHalfEven_intCast, ← hscaled]
        exact ⟨n.natAbs, by
          rw [div_mul_cancel₀ _ (zpow_ne_zero _ (by norm_num))]; simp⟩
    rcases hmagnitude with ⟨m, hm⟩
    simp only [single, if_neg hq, abs_intCast_eq, hm]
    split
    · exact ⟨-m, by push_cast; rfl⟩
    · exact ⟨m, rfl⟩

/-!
## Printed integers
-/

theorem decimal_mul_pow {n : Nat} (hn : n ≠ 0) (k : Nat) :
    decimal (n * 10 ^ k) = decimal n ++ List.replicate k 0x30#8 := by
  have hne : n * 10 ^ k ≠ 0 := Nat.mul_ne_zero hn (by positivity)
  rw [decimal, decimal, if_neg hne, if_neg hn, Nat.mul_comm,
    Nat.digits_base_pow_mul (by omega) (Nat.pos_of_ne_zero hn)]
  simp [digitByte]

theorem withPoint_zeros (whole : List Byte) (k : Nat) :
    withPoint whole (List.replicate k 0x30#8) = whole := by
  have hzeros : (List.replicate k 0x30#8).rdropWhile (· = 0x30#8) = [] := by
    rw [List.rdropWhile_eq_nil_iff]
    intro b hb
    simpa using List.eq_of_mem_replicate hb
  rw [withPoint, hzeros]

theorem significand_natCast {digits n : Nat} (hn : n ≠ 0)
    (h : n < 10 ^ digits) :
    significand digits (n : ℚ) =
      ((Nat.log 10 n : ℤ), n * 10 ^ (digits - 1 - Nat.log 10 n)) := by
  have hlog : Nat.log 10 n < digits := Nat.log_lt_of_lt_pow hn h
  have hexp : ((Nat.log 10 n : ℤ) - (digits - 1 : ℤ)) =
      -((digits - 1 - Nat.log 10 n : ℕ) : ℤ) := by
    omega
  have hscaled : (n : ℚ) / 10 ^ (-((digits - 1 - Nat.log 10 n : ℕ) : ℤ)) =
      ((n * 10 ^ (digits - 1 - Nat.log 10 n) : ℕ) : ℤ) :=
    natCast_div_zpow_neg n 10 _
  have hnocarry : n * 10 ^ (digits - 1 - Nat.log 10 n) ≠ 10 ^ digits := by
    have hlt : n < 10 ^ (Nat.log 10 n + 1) :=
      Nat.lt_pow_succ_log_self (by omega) n
    have : n * 10 ^ (digits - 1 - Nat.log 10 n) <
        10 ^ (Nat.log 10 n + 1) * 10 ^ (digits - 1 - Nat.log 10 n) :=
      Nat.mul_lt_mul_of_pos_right hlt (by positivity)
    rw [← pow_add] at this
    rw [show Nat.log 10 n + 1 + (digits - 1 - Nat.log 10 n) = digits by omega]
      at this
    omega
  simp only [significand, Int.log_natCast, hexp, hscaled, roundHalfEven_intCast,
    Int.toNat_natCast, if_neg hnocarry]

theorem decimal_length {n : Nat} (hn : n ≠ 0) :
    (decimal n).length = Nat.log 10 n + 1 := by
  rw [decimal, if_neg hn, List.length_map, List.length_reverse,
    Nat.length_digits 10 n (by omega) hn]

theorem formatG_intCast {digits : Nat} {i : ℤ} (hi : i ≠ 0)
    (h : i.natAbs < 10 ^ digits) :
    formatG digits (i : ℚ) = decimalInt i := by
  have hn : i.natAbs ≠ 0 := Int.natAbs_ne_zero.mpr hi
  have hq : (i : ℚ) ≠ 0 := Int.cast_ne_zero.mpr hi
  have hlog : Nat.log 10 i.natAbs < digits := Nat.log_lt_of_lt_pow hn h
  have hfixed : -4 <= (Nat.log 10 i.natAbs : ℤ) ∧
      (Nat.log 10 i.natAbs : ℤ) < digits := by
    omega
  have hwhole : 0 <= (Nat.log 10 i.natAbs : ℤ) := by omega
  simp only [formatG, if_neg hq, abs_intCast_eq, significand_natCast hn h,
    decimal_mul_pow hn, if_pos hfixed, if_pos hwhole, Int.toNat_natCast]
  rw [List.take_left' (decimal_length hn), List.drop_left' (decimal_length hn),
    withPoint_zeros]
  simp [decimalInt]

/-!
## Integers with more digits than are printed
-/

theorem abs_sub_roundHalfEven_le (q : ℚ) :
    |q - roundHalfEven q| <= 1 / 2 := by
  have hbelow : (⌊q⌋ : ℚ) <= q := Int.floor_le q
  have habove : q < ⌊q⌋ + 1 := Int.lt_floor_add_one q
  rw [abs_le]
  unfold roundHalfEven
  simp only
  split_ifs
  all_goals
    push_cast
    constructor
    · linarith
    · linarith

theorem roundHalfEven_div_ten (n : ℕ) :
    (n : ℤ) - 5 <= 10 * roundHalfEven ((n : ℚ) / 10) ∧
      10 * roundHalfEven ((n : ℚ) / 10) <= (n : ℤ) + 5 := by
  have hnear := abs_le.mp (abs_sub_roundHalfEven_le ((n : ℚ) / 10))
  generalize roundHalfEven ((n : ℚ) / 10) = m at hnear
  constructor
  · have h : (n : ℚ) - 5 <= 10 * m := by linarith
    exact_mod_cast h
  · have h : 10 * (m : ℚ) <= n + 5 := by linarith
    exact_mod_cast h

theorem significand_of_log {digits n : ℕ} (hlog : Nat.log 10 n = digits)
    (hcarry : 10 * 10 ^ digits > n + 5) :
    significand digits (n : ℚ) =
      ((digits : ℤ), (roundHalfEven ((n : ℚ) / 10)).toNat) := by
  have hnear := (roundHalfEven_div_ten n).right
  have hexp : (digits : ℤ) - ((digits : ℤ) - 1) = 1 := by omega
  have hnocarry : (roundHalfEven ((n : ℚ) / 10)).toNat ≠ 10 ^ digits := by
    omega
  simp only [significand, Int.log_natCast, hlog, hexp, zpow_one,
    if_neg hnocarry]

theorem formatG_of_significand {digits m : ℕ} {x : ℤ} {q : ℚ} (hq : q ≠ 0)
    (hsignificand : significand digits |q| = (x, m)) (hx : digits <= x) :
    formatG digits q = (if q < 0 then [0x2d#8] else []) ++
      (withPoint ((decimal m).take 1) ((decimal m).drop 1) ++
        exponentSuffix x) := by
  have hscientific : ¬ (-4 <= x ∧ x < digits) := by omega
  simp only [formatG, if_neg hq, hsignificand, if_neg hscientific]
  split
  · rfl
  · rfl

theorem withPoint_eq (whole decimals : List Byte) :
    exists kept k, decimals = kept ++ List.replicate k 0x30#8 ∧
      withPoint whole decimals =
        whole ++ if kept = [] then [] else 0x2e#8 :: kept := by
  have hsplit : exists k, decimals =
      decimals.rdropWhile (· = 0x30#8) ++ List.replicate k 0x30#8 := by
    induction decimals using List.reverseRecOn with
    | nil => exact ⟨0, rfl⟩
    | append_singleton ds b ih =>
        rw [List.rdropWhile_concat]
        split
        · rename_i hb
          rcases ih with ⟨k, hk⟩
          exists k + 1
          rw [List.replicate_succ', <- List.append_assoc, <- hk,
            of_decide_eq_true hb]
        · exact ⟨0, (List.append_nil _).symm⟩
  rcases hsplit with ⟨k, hk⟩
  refine ⟨_, k, hk, ?_⟩
  unfold withPoint
  split
  · rename_i hnone
    rw [hnone, if_pos rfl, List.append_nil]
  · rename_i hsome
    rw [if_neg hsome]

end Double

end Foundation
end Z2wRpc
