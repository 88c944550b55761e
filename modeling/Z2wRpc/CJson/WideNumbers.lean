import Z2wRpc.CJson.NumberText

/-!
# Integers of sixteen digits

From `10^15` on `%1.15g` rounds the last digit away and writes an exponent.
The rounded text is kept when `compare_double` takes its value for the number;
otherwise `%1.17g` writes all digits.
-/

namespace Z2wRpc

open Foundation

namespace CJson

def tens (n : Nat) : Nat :=
  (Double.roundHalfEven ((n : ℚ) / 10)).toNat

def offTen (n : Nat) : Nat :=
  min (n % 10) (10 - n % 10)

def KeepsDigits (n : Nat) : Prop :=
  n < 10 ^ 15 ∨ n < 2 ^ 52 * offTen n

/-- `%1.15g` of a number of sixteen digits. -/
def shortText (sign : List Byte) (k : Nat) : List Byte :=
  sign ++ (Double.withPoint ((decimal k).take 1) ((decimal k).drop 1) ++
    Double.exponentSuffix 15)

/-!
## The rounded text
-/

section

variable {k : Nat}

theorem readFloat_shortText {sign : List Byte} (hsign : IsSign sign)
    (hlength : (decimal k).length = 15) :
    readFloat (shortText sign k) =
      some (if sign = [] then ((10 * k : ℕ) : ℚ) else -((10 * k : ℕ) : ℚ),
        []) := by
  have hdigits := digits_decimal k
  have hne : (decimal k).take 1 ≠ [] := by
    intro hnil
    have hzero := congrArg List.length hnil
    rw [List.length_take, hlength] at hzero
    cases hzero
  have hexponent : (readExponent (Double.exponentSuffix 15)).1 = 15 := by
    decide
  have hten : (k : ℚ) * 10 ^ ((15 : ℤ) - ((15 - 1 : ℕ) : ℤ)) =
      ((10 * k : ℕ) : ℚ) := by
    push_cast
    ring
  rw [shortText, readFloat_withPoint hsign hne
    (fun b hb => hdigits b (List.mem_of_mem_take hb))
    (fun b hb => hdigits b (List.mem_of_mem_drop hb))
    (isExponent_exponentSuffix 15)]
  simp only [List.take_append_drop, digitsValue_decimal, List.length_drop,
    hlength, hexponent, hten]

def signed (negative : Bool) (n : Nat) : ℤ :=
  if negative then -(n : ℤ) else n

def signText (negative : Bool) : List Byte :=
  if negative then [0x2d#8] else []

theorem strtod_shortText (negative : Bool) (hlength : (decimal k).length = 15)
    (hk : 10 * k < 2 ^ 53) :
    Double.strtod (shortText (signText negative) k) =
      some (.finite (signed negative (10 * k) : ℤ), []) := by
  have hsmall : (signed negative (10 * k)).natAbs < 2 ^ 53 := by
    unfold signed
    split
    · omega
    · omega
  have hsign : IsSign (signText negative) := by
    cases negative with
    | false => exact Or.inl rfl
    | true => exact Or.inr rfl
  have hvalue : (if signText negative = [] then ((10 * k : ℕ) : ℚ)
      else -((10 * k : ℕ) : ℚ)) = (signed negative (10 * k) : ℤ) := by
    cases negative with
    | false => simp [signText, signed]
    | true => simp [signText, signed]
  rw [Double.strtod, readFloat_shortText hsign hlength, hvalue,
    Option.map_some, Double.ofRat_intCast hsmall]

theorem atol_shortText {s : CString} {negative : Bool}
    (h : s.bytes = shortText (signText negative) k) :
    (atol s).toInt.natAbs <= 9 := by
  rcases Double.withPoint_eq ((decimal k).take 1) ((decimal k).drop 1) with
    ⟨kept, _, _, hpoint⟩
  rcases decimal_eq_cons k with ⟨b, bs, hdecimal, hb⟩
  have htake : (decimal k).take 1 = [b] := by
    rw [hdecimal]
    rfl
  have hsign : signText negative = [] ∨ signText negative = [0x2d#8] := by
    cases negative with
    | false => exact Or.inl rfl
    | true => exact Or.inr rfl
  rw [shortText, hpoint, htake, List.append_assoc, List.singleton_append] at h
  apply atol_digit h hsign hb
  split
  · exact stopsAt_cons (by decide) _
  · exact stopsAt_cons (by decide) _

end

/-!
## What is printed
-/

/-- The magnitudes of sixteen digits that a `double` holds exactly. -/
def Wide (n : Nat) : Prop :=
  10 ^ 15 <= n ∧ n <= 2 ^ 53

section

variable {n : Nat} {i : ℤ}

theorem tens_bounds (h : Wide n) :
    n <= 10 * tens n + 5 ∧ 10 * tens n <= n + 5 := by
  have hbounds := Double.roundHalfEven_div_ten n
  have hlow := h.left
  unfold tens
  omega

theorem decimal_tens_length (h : Wide n) : (decimal (tens n)).length = 15 := by
  have hbounds := tens_bounds h
  rcases h with ⟨hlow, hhigh⟩
  have hlog : Nat.log 10 (tens n) = 14 := by
    rw [Nat.log_eq_iff (Or.inl (by omega))]
    omega
  rw [Double.decimal_length (by omega), hlog]

theorem tens_small (h : Wide n) : 10 * tens n < 2 ^ 53 := by
  have hbounds := tens_bounds h
  rcases h with ⟨hlow, hhigh⟩
  omega

theorem formatG_wide (h : Wide i.natAbs) :
    Double.formatG 15 (i : ℚ) =
      shortText (signText (decide (i < 0))) (tens i.natAbs) := by
  have hlog : Nat.log 10 i.natAbs = 15 := by
    rcases h with ⟨hlow, hhigh⟩
    rw [Nat.log_eq_iff (Or.inl (by omega))]
    omega
  have hcarry : 10 * 10 ^ 15 > i.natAbs + 5 := by
    rcases h with ⟨hlow, hhigh⟩
    omega
  have hzero : (i : ℚ) ≠ 0 := by
    rcases h with ⟨hlow, _⟩
    apply Int.cast_ne_zero.mpr
    omega
  have hsignificand : Double.significand 15 |(i : ℚ)| =
      ((15 : ℤ), tens i.natAbs) := by
    rw [Double.abs_intCast_eq, Double.significand_of_log hlog hcarry]
    rfl
  rw [Double.formatG_of_significand hzero hsignificand (Int.le_refl 15),
    shortText]
  congr 1
  simp [signText]

theorem compareDouble_intCast (a b : ℤ) :
    compareDouble (a : ℚ) (b : ℚ) = true <->
      |a - b| * 2 ^ 52 <= max |a| |b| := by
  rw [compareDouble, decide_eq_true_eq, mul_one_div,
    le_div_iff₀ (by positivity)]
  exact_mod_cast Iff.rfl

theorem tens_cases (h : Wide n) :
    exists d, d <= 5 ∧ offTen n = d ∧
      (n = 10 * tens n + d ∨ 10 * tens n = n + d) := by
  have hbounds := tens_bounds h
  unfold offTen
  rcases Nat.le_total (10 * tens n) n with hle | hle
  · refine ⟨n - 10 * tens n, ?_, ?_, ?_⟩
    all_goals omega
  · refine ⟨10 * tens n - n, ?_, ?_, ?_⟩
    all_goals omega

/-- In units of the last place of a `double`, the error of the rounded number
is compared with the larger of both. -/
theorem tens_restored_iff (h : Wide n) :
    ((10 * tens n : ℤ) - n).natAbs * 2 ^ 52 <= max (10 * tens n) n <->
      ¬ n < 2 ^ 52 * offTen n := by
  rcases tens_cases h with ⟨d, hd, hoff, hcases⟩
  rcases h with ⟨hlow, hhigh⟩
  rw [hoff]
  generalize tens n = k at hcases
  rcases hcases with hcase | hcase
  · have hdiff : ((10 * k : ℤ) - n).natAbs = d := by omega
    rw [hdiff]
    omega
  · have hdiff : ((10 * k : ℤ) - n).natAbs = d := by omega
    rw [hdiff]
    interval_cases d
    all_goals omega

theorem restores_shortText_iff (h : Wide i.natAbs) :
    restores (shortText (signText (decide (i < 0))) (tens i.natAbs)) (i : ℚ) =
        true <-> ¬ i.natAbs < 2 ^ 52 * offTen i.natAbs := by
  have hread := strtod_shortText (decide (i < 0)) (decimal_tens_length h)
    (tens_small h)
  rw [restores, hread]
  simp only
  rw [compareDouble_intCast, <- tens_restored_iff h, signed,
    Int.abs_eq_natAbs, Int.abs_eq_natAbs, Int.abs_eq_natAbs]
  generalize tens i.natAbs = k
  split
  · rename_i hsign
    have hneg := of_decide_eq_true hsign
    omega
  · rename_i hsign
    have hpos : ¬ i < 0 := fun hneg => hsign (decide_eq_true hneg)
    omega

theorem printNumber_wide (h : Wide i.natAbs) :
    printNumber (.finite (i : ℚ)) =
      if i.natAbs < 2 ^ 52 * offTen i.natAbs then decimalInt i
      else shortText (signText (decide (i < 0))) (tens i.natAbs) := by
  have hvalueint : ¬ (i : ℚ) = ((saturate (.finite (i : ℚ))).toInt : ℚ) := by
    intro heq
    have hi := Int.cast_inj.mp heq
    have hmin := intMin_le_toInt (saturate (.finite (i : ℚ)))
    have hmax := toInt_le_intMax (saturate (.finite (i : ℚ)))
    have hlow := h.left
    rw [intMin] at hmin
    rw [intMax] at hmax
    omega
  have hall : Double.formatG 17 (i : ℚ) = decimalInt i := by
    rcases h with ⟨hlow, hhigh⟩
    apply Double.formatG_intCast
    · omega
    · omega
  rw [printNumber, formatG_wide h]
  simp only [if_neg hvalueint, restores_shortText_iff h, hall, ite_not]

theorem wide_of_not_keepsDigits (hrange : n <= 2 ^ 53)
    (h : ¬ KeepsDigits n) : Wide n := by
  rw [KeepsDigits, not_or, not_lt] at h
  exact ⟨h.left, hrange⟩

theorem printNumber_of_keepsDigits (hrange : i.natAbs <= 2 ^ 53)
    (h : KeepsDigits i.natAbs) :
    printNumber (.finite (i : ℚ)) = decimalInt i := by
  rcases Nat.lt_or_ge i.natAbs (10 ^ 15) with hsmall | hlarge
  · exact printNumber_intCast hsmall
  · have hkeeps : i.natAbs < 2 ^ 52 * offTen i.natAbs := by
      rcases h with hsmall | hkeeps
      · omega
      · exact hkeeps
    rw [printNumber_wide ⟨hlarge, hrange⟩, if_pos hkeeps]

theorem strtod_of_keepsDigits (hrange : i.natAbs <= 2 ^ 53)
    (h : KeepsDigits i.natAbs) :
    Double.strtod (printNumber (.finite (i : ℚ))) =
      some (.finite (i : ℚ), []) := by
  have hlast : i.natAbs ≠ 2 ^ 53 := by
    intro heq
    rw [heq] at h
    exact absurd h (by unfold KeepsDigits offTen; decide)
  rw [printNumber_of_keepsDigits hrange h]
  exact strtod_decimalInt (by omega)

theorem natAbs_signed (negative : Bool) (n : Nat) :
    (signed negative n).natAbs = n := by
  cases negative with
  | false => simp [signed]
  | true => simp [signed]

theorem signed_neg {negative : Bool} (h : 0 < n) :
    decide (signed negative n < 0) = negative := by
  cases negative with
  | false => simp [signed]
  | true => simpa [signed] using h

theorem printNumber_tens (negative : Bool) {k : Nat} (h : Wide (10 * k)) :
    printNumber (.finite (signed negative (10 * k) : ℤ)) =
      shortText (signText negative) k := by
  have hnear : offTen (10 * k) = 0 := by
    unfold offTen
    omega
  have htens : tens (10 * k) = k := by
    have hbounds := tens_bounds h
    omega
  have hpos : 0 < 10 * k := by
    have hlow := h.left
    omega
  have hrounded : ¬ 10 * k < 2 ^ 52 * 0 := Nat.not_lt_zero _
  rw [printNumber_wide (by rw [natAbs_signed]; exact h), natAbs_signed,
    signed_neg hpos, hnear, htens, if_neg hrounded]

/--
The others are printed rounded, and what is read from that text is printed in
the same way.
-/
theorem printNumber_of_not_keepsDigits (hrange : i.natAbs <= 2 ^ 53)
    (h : ¬ KeepsDigits i.natAbs) :
    exists j : ℤ,
      Double.strtod (printNumber (.finite (i : ℚ))) =
        some (.finite (j : ℚ), []) ∧
      printNumber (.finite (j : ℚ)) =
        shortText (signText (decide (i < 0))) (tens i.natAbs) := by
  have hwide := wide_of_not_keepsDigits hrange h
  have hbounds := tens_bounds hwide
  have hsmall := tens_small hwide
  have hlow := hwide.left
  have hrounded : ¬ i.natAbs < 2 ^ 52 * offTen i.natAbs := fun hkeeps =>
    h (Or.inr hkeeps)
  exists signed (decide (i < 0)) (10 * tens i.natAbs)
  constructor
  · rw [printNumber_wide hwide, if_neg hrounded]
    exact strtod_shortText _ (decimal_tens_length hwide) hsmall
  · apply printNumber_tens
    constructor
    · omega
    · omega

end

end CJson
end Z2wRpc
