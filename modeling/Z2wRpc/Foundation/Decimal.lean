import Mathlib.Data.Nat.Digits.Lemmas
import Mathlib.Data.Rat.Defs
import Mathlib.Tactic.Linarith
import Mathlib.Tactic.NormNum
import Mathlib.Tactic.Ring
import Z2wRpc.Foundation.Bytes

/-!
# Decimal numerals

Numerals as `printf` writes them and as `strtod` and `atoi` read them.  A
numeral is a list of ASCII bytes; a reader takes the longest run of digits, so
what it reads back is exactly the numeral whenever the next byte is no digit.
-/

namespace Z2wRpc
namespace Foundation

def digitByte (d : Nat) : Byte :=
  BitVec.ofNat 8 (48 + d)

def isDigit (b : Byte) : Bool :=
  48 <= b.toNat && b.toNat <= 57

def digitValue (b : Byte) : Nat :=
  b.toNat - 48

/-- The numeral of a natural number, as `%u` prints it. -/
def decimal (n : Nat) : List Byte :=
  if n = 0 then [digitByte 0]
  else (Nat.digits 10 n).reverse.map digitByte

/-- The numeral of an integer, as `%d` prints it. -/
def decimalInt (i : Int) : List Byte :=
  if i < 0 then 0x2d#8 :: decimal i.natAbs else decimal i.natAbs

def digitsValue (bs : List Byte) : Nat :=
  bs.foldl (fun acc b => 10 * acc + digitValue b) 0

/-!
## Digits
-/

theorem digitByte_toNat {d : Nat} (h : d < 10) :
    (digitByte d).toNat = 48 + d := by
  rw [digitByte, BitVec.toNat_ofNat]
  omega

theorem isDigit_digitByte {d : Nat} (h : d < 10) :
    isDigit (digitByte d) = true := by
  rw [isDigit, digitByte_toNat h]
  simp
  omega

theorem digitValue_digitByte {d : Nat} (h : d < 10) :
    digitValue (digitByte d) = d := by
  rw [digitValue, digitByte_toNat h]
  omega

theorem isDigit_of_mem_decimal {n : Nat} {b : Byte} (h : b ∈ decimal n) :
    isDigit b = true := by
  unfold decimal at h
  split at h
  · rw [List.mem_singleton] at h
    rw [h]
    exact isDigit_digitByte (by omega)
  · rcases List.mem_map.mp h with ⟨d, hd, rfl⟩
    exact isDigit_digitByte
      (Nat.digits_lt_base (by omega) (List.mem_reverse.mp hd))

theorem decimal_ne_nil (n : Nat) : decimal n ≠ [] := by
  unfold decimal
  split
  · simp
  · rename_i h
    simpa [Nat.digits_eq_nil_iff_eq_zero] using h

theorem digitsValue_map_digitByte {ds : List Nat}
    (h : forall d, d ∈ ds -> d < 10) :
    digitsValue (ds.reverse.map digitByte) = Nat.ofDigits 10 ds := by
  rw [digitsValue, List.map_reverse, List.foldl_reverse]
  induction ds with
  | nil => rfl
  | cons d ds ih =>
      rw [List.map_cons, List.foldr_cons,
        ih fun e he => h e (List.mem_cons_of_mem d he),
        digitValue_digitByte (h d (List.mem_cons_self ..)), Nat.ofDigits_cons]
      omega

@[simp] theorem digitsValue_decimal (n : Nat) : digitsValue (decimal n) = n := by
  unfold decimal
  split
  · rename_i h
    rw [h]
    rfl
  · rw [digitsValue_map_digitByte fun d hd =>
      Nat.digits_lt_base (by omega) hd, Nat.ofDigits_digits]

theorem digitsValue_append_zeros (ds : List Byte) (k : Nat) :
    digitsValue (ds ++ List.replicate k 0x30#8) = digitsValue ds * 10 ^ k := by
  induction k with
  | zero => simp
  | succ k ih =>
      rw [List.replicate_succ', <- List.append_assoc, digitsValue,
        List.foldl_append, <- digitsValue, ih, pow_succ]
      show 10 * (digitsValue ds * 10 ^ k) + 0 = _
      ring

/-!
## Length of numerals
-/

theorem decimal_length_le {n k : Nat} (h : n < 10 ^ k) (hk : 0 < k) :
    (decimal n).length <= k := by
  unfold decimal
  split
  · exact hk
  · rw [List.length_map, List.length_reverse]
    exact Nat.digits_length_le_iff (by omega) n |>.mpr h

theorem decimalInt_length_le {i : Int} {k : Nat} (h : i.natAbs < 10 ^ k)
    (hk : 0 < k) : (decimalInt i).length <= k + 1 := by
  unfold decimalInt
  split
  · simpa using decimal_length_le h hk
  · have := decimal_length_le h hk
    omega

/-!
## Readers of the C library
-/

def readSign : List Byte -> Bool × List Byte
  | [] => (false, [])
  | b :: bs =>
      if b = 0x2d#8 then (true, bs)
      else if b = 0x2b#8 then (false, bs)
      else (false, b :: bs)

def readExponent (bs : List Byte) : Int × List Byte :=
  match bs with
  | [] => (0, [])
  | e :: rest =>
      let (negative, digits) := readSign rest
      let ds := digits.takeWhile isDigit
      if (e = 0x65#8 ∨ e = 0x45#8) ∧ ds ≠ [] then
        ((if negative then -(digitsValue ds : Int) else digitsValue ds),
          digits.dropWhile isDigit)
      else (0, bs)

def readFraction : List Byte -> Option (List Byte × List Byte)
  | [] => none
  | b :: bs =>
      if b = 0x2e#8 then some (bs.takeWhile isDigit, bs.dropWhile isDigit)
      else none

/--
The longest floating literal at the front of a text: its exact decimal value
and what follows it.  Without a digit nothing is converted.
-/
def readFloat (bs : List Byte) : Option (ℚ × List Byte) :=
  let (negative, unsigned) := readSign bs
  let whole := unsigned.takeWhile isDigit
  let afterWhole := unsigned.dropWhile isDigit
  let (fraction, afterFraction) := (readFraction afterWhole).getD ([], afterWhole)
  if whole = [] ∧ fraction = [] then none
  else
    let (exponent, rest) := readExponent afterFraction
    let mantissa : ℚ := digitsValue (whole ++ fraction)
    let value := mantissa * 10 ^ (exponent - fraction.length)
    some (if negative then -value else value, rest)

/-- `atoi`: leading white space, a sign, digits; anything after is ignored. -/
def atoi (s : CString) : Int32 :=
  let (negative, digits) := readSign (s.bytes.dropWhile fun b =>
    b = 0x20#8 ∨ (9 <= b.toNat ∧ b.toNat <= 13))
  let value : Int := digitsValue (digits.takeWhile isDigit)
  Int32.ofInt (if negative then -value else value)

/-- `atol` and `atoll`: a number outside 64 bits becomes the nearest one. -/
def atol (s : CString) : Int64 :=
  let (negative, digits) := readSign (s.bytes.dropWhile fun b =>
    b = 0x20#8 ∨ (9 <= b.toNat ∧ b.toNat <= 13))
  let value : Int := digitsValue (digits.takeWhile isDigit)
  Int64.ofInt (max (-9223372036854775808)
    (min 9223372036854775807 (if negative then -value else value)))

theorem isDigit_ne {b c : Byte} (hb : isDigit b = true)
    (hc : isDigit c = false) : b ≠ c := by
  intro heq
  subst heq
  rw [hb] at hc
  cases hc

theorem decimal_eq_cons (n : Nat) :
    exists b bs, decimal n = b :: bs ∧ isDigit b = true := by
  cases h : decimal n with
  | nil => exact absurd h (decimal_ne_nil n)
  | cons b bs =>
      exact ⟨b, bs, rfl, isDigit_of_mem_decimal (n := n) (by simp [h])⟩

theorem readSign_decimal (n : Nat) (rest : List Byte) :
    readSign (decimal n ++ rest) = (false, decimal n ++ rest) := by
  rcases decimal_eq_cons n with ⟨b, bs, hn, hb⟩
  rw [hn, List.cons_append, readSign,
    if_neg (isDigit_ne hb (by decide)), if_neg (isDigit_ne hb (by decide))]

theorem readSign_decimalInt (i : Int) (rest : List Byte) :
    readSign (decimalInt i ++ rest) =
      (decide (i < 0), decimal i.natAbs ++ rest) := by
  unfold decimalInt
  split
  · rename_i h
    simp [readSign, h]
  · rename_i h
    simp [readSign_decimal, h]

theorem signed_natAbs (i : Int) :
    (if decide (i < 0) = true then -(i.natAbs : Int) else (i.natAbs : Int)) =
      i := by
  split
  · rename_i h
    have := of_decide_eq_true h
    omega
  · rename_i h
    have : ¬ i < 0 := fun hlt => h (decide_eq_true hlt)
    omega

def EndsFloat (rest : List Byte) : Prop :=
  forall b, rest.head? = some b ->
    isDigit b = false ∧ b ≠ 0x2e#8 ∧ b ≠ 0x65#8 ∧ b ≠ 0x45#8

theorem readFloat_decimalInt (i : Int) {rest : List Byte}
    (hrest : EndsFloat rest) :
    readFloat (decimalInt i ++ rest) = some ((i : ℚ), rest) := by
  have hdigits : forall b, b ∈ decimal i.natAbs -> isDigit b = true :=
    fun b hb => isDigit_of_mem_decimal hb
  have hspan := span_append hdigits fun b hb => (hrest b hb).left
  have hfraction : readFraction rest = none := by
    cases rest with
    | nil => rfl
    | cons b bs => simp [readFraction, (hrest b rfl).right.left]
  have hexponent : readExponent rest = (0, rest) := by
    cases rest with
    | nil => rfl
    | cons b bs =>
        have hb := (hrest b rfl).right.right
        simp [readExponent, hb.left, hb.right]
  have hsign : (if decide (i < 0) = true then -(i.natAbs : ℚ)
      else (i.natAbs : ℚ)) = i := by
    rw [← congrArg (Int.cast : Int -> ℚ) (signed_natAbs i)]
    split <;> simp
  simp [readFloat, readSign_decimalInt, hspan.left, hspan.right, hfraction,
    hexponent, decimal_ne_nil]
  simpa using hsign

theorem digitsValue_takeWhile_decimal (n : Nat) :
    digitsValue ((decimal n).takeWhile isDigit) = n := by
  have hdigits : forall b, b ∈ decimal n -> isDigit b = true :=
    fun _ => isDigit_of_mem_decimal
  have h := (span_append hdigits (stopsAt_nil _)).left
  rw [List.append_nil] at h
  rw [h, digitsValue_decimal]

theorem decimalInt_eq_cons (i : Int) :
    exists b bs, decimalInt i = b :: bs ∧ (b = 0x2d#8 ∨ isDigit b = true) := by
  rcases decimal_eq_cons i.natAbs with ⟨b, bs, hn, hb⟩
  unfold decimalInt
  split
  · exact ⟨0x2d#8, decimal i.natAbs, rfl, Or.inl rfl⟩
  · exact ⟨b, bs, hn, Or.inr hb⟩

theorem dropSpace_of_head {b : Byte} (hb : b = 0x2d#8 ∨ isDigit b = true)
    (bs : List Byte) :
    (b :: bs).dropWhile (fun b =>
        decide (b = 0x20#8 ∨ (9 <= b.toNat ∧ b.toNat <= 13))) = b :: bs := by
  rcases hb with rfl | hb
  · rfl
  · rw [List.dropWhile_cons_of_neg]
    intro hspace
    rw [isDigit, Bool.and_eq_true, decide_eq_true_eq] at hb
    rcases of_decide_eq_true hspace with hb' | hb'
    · rw [hb'] at hb
      exact absurd hb.left (by decide)
    · omega

theorem dropSpace_decimalInt (i : Int) :
    (decimalInt i).dropWhile (fun b =>
        decide (b = 0x20#8 ∨ (9 <= b.toNat ∧ b.toNat <= 13))) =
      decimalInt i := by
  rcases decimalInt_eq_cons i with ⟨b, bs, hi, hb⟩
  rw [hi]
  exact dropSpace_of_head hb bs

theorem atoi_decimalInt {s : CString} (i : Int32)
    (h : s.bytes = decimalInt i.toInt) : atoi s = i := by
  have hsign := readSign_decimalInt i.toInt []
  rw [List.append_nil, List.append_nil] at hsign
  rw [atoi, h, dropSpace_decimalInt, hsign]
  simp only [digitsValue_takeWhile_decimal]
  rw [signed_natAbs, Int32.ofInt_toInt]

theorem atol_decimalInt {s : CString} (i : Int64)
    (h : s.bytes = decimalInt i.toInt) : atol s = i := by
  have hsign := readSign_decimalInt i.toInt []
  have hmin := i.le_toInt
  have hmax := i.toInt_lt
  have hclamp : max (-9223372036854775808) (min 9223372036854775807 i.toInt) =
      i.toInt := by
    omega
  rw [List.append_nil, List.append_nil] at hsign
  rw [atol, h, dropSpace_decimalInt, hsign]
  simp only [digitsValue_takeWhile_decimal]
  rw [signed_natAbs, hclamp, Int64.ofInt_toInt]

theorem atol_digit {s : CString} {sign rest : List Byte} {b : Byte}
    (h : s.bytes = sign ++ (b :: rest)) (hsign : sign = [] ∨ sign = [0x2d#8])
    (hb : isDigit b = true) (hrest : StopsAt isDigit rest) :
    (atol s).toInt.natAbs <= 9 := by
  have hdigit : digitsValue [b] <= 9 := by
    rw [isDigit, Bool.and_eq_true, decide_eq_true_eq, decide_eq_true_eq] at hb
    show 10 * 0 + digitValue b <= 9
    rw [digitValue]
    omega
  have hrun : forall c, c ∈ [b] -> isDigit c = true :=
    List.forall_mem_singleton.mpr hb
  have htake : (b :: rest).takeWhile isDigit = [b] :=
    (span_append hrun hrest).left
  have hread : exists negative, readSign (s.bytes.dropWhile fun b =>
      decide (b = 0x20#8 ∨ (9 <= b.toNat ∧ b.toNat <= 13))) =
        (negative, b :: rest) := by
    rw [h]
    rcases hsign with rfl | rfl
    · refine ⟨false, ?_⟩
      rw [List.nil_append, dropSpace_of_head (Or.inr hb), readSign,
        if_neg (isDigit_ne hb (by decide)), if_neg (isDigit_ne hb (by decide))]
    · exact ⟨true, rfl⟩
  rcases hread with ⟨negative, hread⟩
  rw [atol, hread]
  simp only [htake]
  generalize digitsValue [b] = value at hdigit
  rw [Int64.toInt_ofInt_of_le]
  all_goals
    split
    · omega
    · omega

end Foundation
end Z2wRpc
