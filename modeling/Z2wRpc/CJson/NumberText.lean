import Z2wRpc.CJson.RoundTrip

/-!
# Printed numbers are literals

`print_number` may lose digits, but what it writes is always a literal that
`parse_number` takes to its end: a numeral with an optional fraction and
exponent, or `null` for what is not finite.
-/

namespace Z2wRpc

open Foundation

namespace CJson

/-!
## Floating literals
-/

def Digits (ds : List Byte) : Prop :=
  forall b, b ∈ ds -> isDigit b = true

def IsSign (bs : List Byte) : Prop :=
  bs = [] ∨ bs = [0x2d#8]

def IsFraction (bs : List Byte) : Prop :=
  bs = [] ∨ exists ds, bs = 0x2e#8 :: ds ∧ Digits ds

def IsExponent (bs : List Byte) : Prop :=
  bs = [] ∨ exists sign ds, bs = 0x65#8 :: sign :: ds ∧
    (sign = 0x2d#8 ∨ sign = 0x2b#8) ∧ ds ≠ [] ∧ Digits ds

structure FloatLiteral (text : List Byte) : Prop where
  parts : exists sign whole fraction exponent,
    text = sign ++ (whole ++ (fraction ++ exponent)) ∧ IsSign sign ∧
      whole ≠ [] ∧ Digits whole ∧ IsFraction fraction ∧ IsExponent exponent

theorem readExponent_of_isExponent {bs : List Byte} (h : IsExponent bs) :
    (readExponent bs).2 = [] := by
  rcases h with rfl | ⟨sign, ds, rfl, hsign, hne, hds⟩
  · rfl
  · have hread : exists negative, readSign (sign :: ds) = (negative, ds) := by
      rcases hsign with rfl | rfl
      · exact ⟨true, rfl⟩
      · exact ⟨false, rfl⟩
    rcases hread with ⟨negative, hread⟩
    have hspan := span_append hds (stopsAt_nil _)
    rw [List.append_nil] at hspan
    rw [readExponent, hread]
    simp only [hspan.left, hspan.right]
    rw [if_pos ⟨Or.inl trivial, hne⟩]

theorem isDigit_head_isExponent {bs : List Byte} (h : IsExponent bs) :
    StopsAt isDigit bs := by
  rcases h with rfl | ⟨sign, ds, rfl, _⟩
  · exact stopsAt_nil _
  · exact stopsAt_cons (by decide) _

theorem readFraction_of_isFraction {fraction exponent : List Byte}
    (hfraction : IsFraction fraction) (hexponent : IsExponent exponent) :
    StopsAt isDigit (fraction ++ exponent) ∧
      (readFraction (fraction ++ exponent)).getD
        ([], fraction ++ exponent) = (fraction.drop 1, exponent) := by
  rcases hfraction with rfl | ⟨ds, rfl, hds⟩
  · refine ⟨isDigit_head_isExponent hexponent, ?_⟩
    rcases hexponent with rfl | ⟨sign, ds, rfl, _⟩
    · rfl
    · rfl
  · have hspan := span_append hds (isDigit_head_isExponent hexponent)
    refine ⟨stopsAt_cons (by decide) _, ?_⟩
    rw [List.cons_append, readFraction, if_pos rfl, hspan.left, hspan.right]
    rfl

theorem readSign_of_isSign {sign digits : List Byte} (hsign : IsSign sign)
    (hne : digits ≠ []) (hdigits : Digits digits) (rest : List Byte) :
    readSign (sign ++ (digits ++ rest)) =
      (decide (sign ≠ []), digits ++ rest) := by
  rcases List.exists_cons_of_ne_nil hne with ⟨b, bs, rfl⟩
  have hb := hdigits b List.mem_cons_self
  rcases hsign with rfl | rfl
  · rw [List.nil_append, List.cons_append, readSign,
      if_neg (isDigit_ne hb (by decide)), if_neg (isDigit_ne hb (by decide))]
    rfl
  · rfl

theorem readFloat_of_parts {sign whole fraction exponent : List Byte}
    (hsign : IsSign sign) (hne : whole ≠ []) (hwhole : Digits whole)
    (hfraction : IsFraction fraction) (hexponent : IsExponent exponent) :
    readFloat (sign ++ (whole ++ (fraction ++ exponent))) =
      let value : ℚ := digitsValue (whole ++ fraction.drop 1) *
        10 ^ ((readExponent exponent).1 - ((fraction.drop 1).length : ℤ))
      some (if sign = [] then value else -value, []) := by
  rcases readFraction_of_isFraction hfraction hexponent with ⟨hstops, hread⟩
  have hspan := span_append hwhole hstops
  have hrest := readExponent_of_isExponent hexponent
  rcases hexp : readExponent exponent with ⟨x, rest⟩
  rw [hexp] at hrest
  obtain rfl : rest = [] := hrest
  rw [readFloat, readSign_of_isSign hsign hne hwhole]
  simp only [hspan.left, hspan.right, hread, hexp]
  rw [if_neg (fun h => hne h.left)]
  rcases hsign with rfl | rfl
  · rfl
  · rfl

theorem readFloat_of_floatLiteral {text : List Byte} (h : FloatLiteral text) :
    exists value, readFloat text = some (value, []) := by
  rcases h.parts with
    ⟨sign, whole, fraction, exponent, rfl, hsign, hne, hwhole, hfraction,
      hexponent⟩
  exact ⟨_, readFloat_of_parts hsign hne hwhole hfraction hexponent⟩

theorem isNumberByte_of_isDigit {b : Byte} (h : isDigit b = true) :
    isNumberByte b = true := by
  simp [isNumberByte, h]

theorem isNumberByte_of_floatLiteral {text : List Byte}
    (h : FloatLiteral text) {b : Byte} (hb : b ∈ text) :
    isNumberByte b = true := by
  rcases h.parts with
    ⟨sign, whole, fraction, exponent, rfl, hsign, _, hwhole, hfraction,
      hexponent⟩
  simp only [List.mem_append] at hb
  rcases hb with hb | hb | hb | hb
  · rcases hsign with rfl | rfl
    · cases hb
    · rw [List.mem_singleton.mp hb]
      decide
  · exact isNumberByte_of_isDigit (hwhole b hb)
  · rcases hfraction with rfl | ⟨ds, rfl, hds⟩
    · cases hb
    · rcases List.mem_cons.mp hb with rfl | hb
      · decide
      · exact isNumberByte_of_isDigit (hds b hb)
  · rcases hexponent with rfl | ⟨s, ds, rfl, hs, _, hds⟩
    · cases hb
    · rcases List.mem_cons.mp hb with rfl | hb
      · decide
      rcases List.mem_cons.mp hb with rfl | hb
      · rcases hs with rfl | rfl <;> decide
      · exact isNumberByte_of_isDigit (hds b hb)

theorem floatLiteral_head {text : List Byte} (h : FloatLiteral text) :
    exists b bs, text = b :: bs ∧ (b = 0x2d#8 ∨ isDigit b = true) := by
  rcases h.parts with ⟨sign, whole, fraction, exponent, rfl, hsign, hne, hwhole,
    _, _⟩
  rcases hsign with rfl | rfl
  · rcases List.exists_cons_of_ne_nil hne with ⟨b, bs, rfl⟩
    exact ⟨b, _, rfl, Or.inr (hwhole b (List.mem_cons_self ..))⟩
  · exact ⟨0x2d#8, _, rfl, Or.inl rfl⟩

/-!
## What `%d` and `%g` write
-/

theorem digits_decimal (n : Nat) : Digits (decimal n) :=
  fun _ => isDigit_of_mem_decimal

theorem floatLiteral_decimalInt (i : Int) : FloatLiteral (decimalInt i) := by
  constructor
  have hne := decimal_ne_nil i.natAbs
  have hdigits := digits_decimal i.natAbs
  unfold decimalInt
  split
  · exact ⟨[0x2d#8], _, [], [], by simp, Or.inr rfl, hne, hdigits, Or.inl rfl,
      Or.inl rfl⟩
  · exact ⟨[], _, [], [], by simp, Or.inl rfl, hne, hdigits, Or.inl rfl,
      Or.inl rfl⟩

theorem withPoint_parts (whole : List Byte) {decimals : List Byte}
    (h : Digits decimals) :
    exists fraction, Double.withPoint whole decimals = whole ++ fraction ∧
      IsFraction fraction := by
  unfold Double.withPoint
  split
  · exact ⟨[], by simp, Or.inl rfl⟩
  · exact ⟨_, rfl, Or.inr ⟨_, rfl, fun b hb =>
      h b ((List.rdropWhile_prefix _ _).subset hb)⟩⟩

theorem isExponent_exponentSuffix (x : ℤ) :
    IsExponent (Double.exponentSuffix x) := by
  have hne := decimal_ne_nil x.natAbs
  have hdigits := digits_decimal x.natAbs
  have hzero : isDigit 0x30#8 = true := by decide
  right
  unfold Double.exponentSuffix
  refine ⟨_, _, rfl, ?_, ?_, ?_⟩
  · split_ifs
    · exact Or.inl rfl
    · exact Or.inr rfl
  · split_ifs
    · exact List.cons_ne_nil _ _
    · exact hne
  · split_ifs
    · intro b hb
      rcases List.mem_cons.mp hb with rfl | hb
      · exact hzero
      · exact hdigits b hb
    · exact hdigits

theorem floatLiteral_body {sign whole decimals exponent : List Byte}
    (hsign : IsSign sign) (hne : whole ≠ []) (hwhole : Digits whole)
    (hdecimals : Digits decimals) (hexponent : IsExponent exponent) :
    FloatLiteral (sign ++ (Double.withPoint whole decimals ++ exponent)) := by
  rcases withPoint_parts whole hdecimals with ⟨fraction, htext, hfraction⟩
  refine ⟨sign, whole, fraction, exponent, ?_, hsign, hne, hwhole, hfraction,
    hexponent⟩
  rw [htext, List.append_assoc]

theorem digitsValue_shift (ds : List Byte) (k : Nat) (x : ℤ) :
    (digitsValue (ds ++ List.replicate k 0x30#8) : ℚ) * 10 ^ (x - k) =
      digitsValue ds * 10 ^ x := by
  have hpow : (10 : ℚ) ^ k * 10 ^ (x - k) = 10 ^ x := by
    rw [<- zpow_natCast, <- zpow_add₀ (by norm_num : (10 : ℚ) ≠ 0)]
    congr 1
    omega
  calc
    (digitsValue (ds ++ List.replicate k 0x30#8) : ℚ) * 10 ^ (x - k) =
        digitsValue ds * (10 ^ k * 10 ^ (x - k)) := by
      rw [digitsValue_append_zeros, <- mul_assoc]
      push_cast
      rfl
    _ = digitsValue ds * 10 ^ x := by rw [hpow]

theorem readFloat_withPoint {sign whole decimals exponent : List Byte}
    (hsign : IsSign sign) (hne : whole ≠ []) (hwhole : Digits whole)
    (hdecimals : Digits decimals) (hexponent : IsExponent exponent) :
    readFloat (sign ++ (Double.withPoint whole decimals ++ exponent)) =
      let value : ℚ := digitsValue (whole ++ decimals) *
        10 ^ ((readExponent exponent).1 - (decimals.length : ℤ))
      some (if sign = [] then value else -value, []) := by
  rcases Double.withPoint_eq whole decimals with ⟨kept, k, rfl, hpoint⟩
  have hfraction : IsFraction (if kept = [] then [] else 0x2e#8 :: kept) := by
    split
    · exact Or.inl rfl
    · exact Or.inr ⟨kept, rfl, fun b hb =>
        hdecimals b (List.mem_append_left _ hb)⟩
  have hdrop : (if kept = [] then [] else 0x2e#8 :: kept).drop 1 = kept := by
    split
    · rename_i hnil
      rw [hnil]
      rfl
    · rfl
  have hcount : ((kept ++ List.replicate k 0x30#8).length : ℤ) =
      (kept.length : ℤ) + k := by
    rw [List.length_append, List.length_replicate]
    push_cast
    rfl
  rw [hpoint, List.append_assoc,
    readFloat_of_parts hsign hne hwhole hfraction hexponent]
  simp only [hdrop, hcount]
  rw [<- List.append_assoc, <- sub_sub, digitsValue_shift]

theorem floatLiteral_formatG (digits : Nat) (q : ℚ) :
    FloatLiteral (Double.formatG digits q) := by
  have hzero : isDigit 0x30#8 = true := by decide
  have hzeros : forall n, Digits (List.replicate n 0x30#8) := by
    intro n b hb
    rw [List.eq_of_mem_replicate hb]
    exact hzero
  unfold Double.formatG
  split
  · exact ⟨[], [0x30#8], [], [], rfl, Or.inl rfl, List.cons_ne_nil _ _,
      hzeros 1, Or.inl rfl, Or.inl rfl⟩
  rcases Double.significand digits |q| with ⟨x, m⟩
  have hne := decimal_ne_nil m
  have htake : forall n, Digits ((decimal m).take n) := fun n b hb =>
    digits_decimal m b (List.mem_of_mem_take hb)
  have hdrop : forall n, Digits ((decimal m).drop n) := fun n b hb =>
    digits_decimal m b (List.mem_of_mem_drop hb)
  have hsome : forall n, (decimal m).take (n + 1) ≠ [] := by
    intro n
    rcases List.exists_cons_of_ne_nil hne with ⟨b, bs, h⟩
    rw [h]
    exact List.cons_ne_nil _ _
  have hpadded : forall n, Digits (List.replicate n 0x30#8 ++ decimal m) := by
    intro n b hb
    rcases List.mem_append.mp hb with hb | hb
    · exact hzeros n b hb
    · exact digits_decimal m b hb
  have hbody : forall sign, IsSign sign -> FloatLiteral (sign ++
      (if -4 <= x ∧ x < digits then
        if 0 <= x then
          Double.withPoint ((decimal m).take (x.toNat + 1))
            ((decimal m).drop (x.toNat + 1))
        else
          Double.withPoint [0x30#8]
            (List.replicate (-x - 1).toNat 0x30#8 ++ decimal m)
      else
        Double.withPoint ((decimal m).take 1) ((decimal m).drop 1) ++
          Double.exponentSuffix x)) := by
    intro sign hsign
    split_ifs
    · rw [← List.append_nil (Double.withPoint _ _)]
      exact floatLiteral_body hsign (hsome _) (htake _) (hdrop _) (Or.inl rfl)
    · rw [← List.append_nil (Double.withPoint _ _)]
      exact floatLiteral_body hsign (List.cons_ne_nil _ _) (hzeros 1)
        (hpadded _) (Or.inl rfl)
    · exact floatLiteral_body hsign (hsome 0) (htake _) (hdrop _)
        (isExponent_exponentSuffix x)
  simp only
  split
  · exact hbody [0x2d#8] (Or.inr rfl)
  · exact hbody [] (Or.inl rfl)

theorem floatLiteral_printNumber (q : ℚ) :
    FloatLiteral (printNumber (.finite q)) := by
  unfold printNumber
  simp only
  split_ifs
  · exact floatLiteral_decimalInt _
  · exact floatLiteral_formatG 15 q
  · exact floatLiteral_formatG 17 q

theorem strtod_of_floatLiteral {text : List Byte} (h : FloatLiteral text) :
    exists d, Double.strtod text = some (d, []) := by
  rcases readFloat_of_floatLiteral h with ⟨value, hvalue⟩
  exists Double.ofRat value
  rw [Double.strtod, hvalue]
  rfl

theorem parseNumber_of_floatLiteral {text : List Byte}
    (h : FloatLiteral text) {d : Double}
    (hread : Double.strtod text = some (d, [])) {rest : List Byte}
    (hrest : StopsAt isNumberByte rest) :
    parseNumber (text ++ rest) = some (.number d, rest) := by
  have hsplit := span_append
    (fun b hb => isNumberByte_of_floatLiteral h hb) hrest
  rw [parseNumber, hsplit.left, hsplit.right, hread]
  rfl

theorem readsAs_null {depth level : Nat} {item : CJson}
    (htext : printValue depth item = ascii "null") :
    ReadsAs depth level item .null where
  starts := ⟨0x6e#8, ascii "ull", htext, by decide⟩
  reads := by
    intro fuel rest hfuel _
    exact parseValue_printedLiteral (Or.inl ⟨rfl, rfl⟩) htext hfuel rest

theorem readsAs_of_strtod {q : ℚ} {d : Double}
    (hread : Double.strtod (printNumber (.finite q)) = some (d, []))
    (depth level : Nat) :
    ReadsAs depth level (.number (.finite q)) (.number d) := by
  have hliteral := floatLiteral_printNumber q
  rcases floatLiteral_head hliteral with ⟨b, bs, htext, hb⟩
  refine ⟨⟨b, bs, by rw [printValue, htext], ?_⟩, ?_⟩
  · rcases hb with rfl | hdigit
    · decide
    · rw [isDigit, Bool.and_eq_true, decide_eq_true_eq] at hdigit
      omega
  · intro fuel rest hfuel hstop
    rw [printValue] at hfuel ⊢
    rw [parseValue_numberText htext hb hfuel]
    exact parseNumber_of_floatLiteral hliteral hread hstop

theorem readsAs_number (d : Double) :
    exists item, forall depth level, ReadsAs depth level (.number d) item := by
  cases d with
  | finite q =>
      rcases strtod_of_floatLiteral (floatLiteral_printNumber q) with
        ⟨read, hread⟩
      exact ⟨.number read, readsAs_of_strtod hread⟩
  | infinite negative => exact ⟨.null, fun _ _ => readsAs_null rfl⟩
  | nan => exact ⟨.null, fun _ _ => readsAs_null rfl⟩

end CJson
end Z2wRpc
