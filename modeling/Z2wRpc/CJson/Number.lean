import Z2wRpc.CJson.Tree

/-!
# Numbers as text

`print_number` writes an integer that fits `valueint` with `%d`, and any other
finite number with 15 significant digits, or 17 when 15 do not restore it.
`parse_number` hands the longest run of number characters to `strtod`.
-/

namespace Z2wRpc

open Foundation

namespace CJson

/-- `compare_double`, with `DBL_EPSILON` the spacing of the doubles above 1. -/
def compareDouble (a b : ℚ) : Bool :=
  |a - b| <= max |a| |b| * (1 / 2 ^ 52)

/-- `sscanf(text, "%lg", &test)` restores the number. -/
def restores (text : List Byte) (q : ℚ) : Bool :=
  match Double.strtod text with
  | some (.finite test, _) => compareDouble test q
  -- both sides of `compare_double` are infinite
  | some (.infinite _, _) => true
  | _ => false

def printNumber : Double -> List Byte
  | .finite q =>
      let valueint := (saturate (.finite q)).toInt
      if q = valueint then decimalInt valueint
      else if restores (Double.formatG 15 q) q then Double.formatG 15 q
      else Double.formatG 17 q
  | _ => ascii "null"

/-- The characters collected by the loop of `parse_number`. -/
def isNumberByte (b : Byte) : Bool :=
  isDigit b || b == 0x2b#8 || b == 0x2d#8 || b == 0x65#8 || b == 0x45#8 ||
    b == 0x2e#8

def parseNumber (bs : List Byte) : Option (CJson × List Byte) :=
  (Double.strtod (bs.takeWhile isNumberByte)).map fun r =>
    (.number r.1, r.2 ++ bs.dropWhile isNumberByte)

/-!
## Numbers that survive printing and parsing
-/

structure NumberExact (d : Double) : Prop where
  literal : forall b, b ∈ printNumber d -> isNumberByte b = true
  restored : Double.strtod (printNumber d) = some (d, [])
  starts : exists b bs, printNumber d = b :: bs ∧
    (b = 0x2d#8 ∨ isDigit b = true)

theorem parseNumber_printNumber {d : Double} (h : NumberExact d)
    {rest : List Byte} (hrest : StopsAt isNumberByte rest) :
    parseNumber (printNumber d ++ rest) = some (.number d, rest) := by
  have hsplit := span_append h.literal hrest
  rw [parseNumber, hsplit.left, hsplit.right, h.restored]
  rfl

/-!
## Integers
-/

theorem decimalInt_noNul (i : Int) : 0#8 ∉ decimalInt i := by
  unfold decimalInt
  split
  · intro h
    rcases List.mem_cons.mp h with h | h
    · exact absurd h (by decide)
    · exact Double.decimal_noNul _ h
  · exact Double.decimal_noNul _

theorem printNumber_noNul (d : Double) : 0#8 ∉ printNumber d := by
  have hnull : 0#8 ∉ ascii "null" := by decide
  cases d with
  | finite q =>
      unfold printNumber
      simp only
      split_ifs
      · exact decimalInt_noNul _
      · exact Double.formatG_noNul 15 q
      · exact Double.formatG_noNul 17 q
  | infinite negative => exact hnull
  | nan => exact hnull

theorem strtod_decimalInt {i : Int} (h : i.natAbs < 2 ^ 53) :
    Double.strtod (decimalInt i) = some (.finite (i : ℚ), []) := by
  have hends : EndsFloat [] := by
    intro b hb
    simp at hb
  have hread := readFloat_decimalInt i hends
  rw [List.append_nil] at hread
  rw [Double.strtod, hread, Option.map_some, Double.ofRat_intCast h]

theorem printNumber_intCast {i : Int} (h : i.natAbs < 10 ^ 15) :
    printNumber (.finite (i : ℚ)) = decimalInt i := by
  unfold printNumber
  simp only
  split
  · rename_i heq
    rw [← Int.cast_inj.mp heq]
  · rename_i hne
    have hi : i ≠ 0 := by
      intro heq
      subst heq
      apply hne
      rw [show (0 : Int) = (0 : Int32).toInt from rfl, saturate_toInt]
    have htext : Double.formatG 15 (i : ℚ) = decimalInt i :=
      Double.formatG_intCast hi h
    have hrestores : restores (decimalInt i) (i : ℚ) = true := by
      simp [restores, strtod_decimalInt (Nat.lt_trans h (by norm_num)),
        compareDouble]
    rw [htext, if_pos hrestores]

theorem printNumber_toInt (i : Int32) :
    printNumber (.finite (i.toInt : ℚ)) = decimalInt i.toInt := by
  simp [printNumber]

theorem isNumberByte_of_mem_decimalInt {i : Int} {b : Byte}
    (h : b ∈ decimalInt i) : isNumberByte b = true := by
  have hdigit : forall c, c ∈ decimal i.natAbs -> isNumberByte c = true := by
    intro c hc
    simp [isNumberByte, isDigit_of_mem_decimal hc]
  unfold decimalInt at h
  split at h
  · rcases List.mem_cons.mp h with rfl | hmem
    · decide
    · exact hdigit b hmem
  · exact hdigit b h

theorem numberExact_of_decimalInt {i : Int} (h : i.natAbs < 2 ^ 53)
    (htext : printNumber (.finite (i : ℚ)) = decimalInt i) :
    NumberExact (.finite (i : ℚ)) where
  literal := by
    intro b hb
    rw [htext] at hb
    exact isNumberByte_of_mem_decimalInt hb
  restored := by
    rw [htext, strtod_decimalInt h]
  starts := by
    rw [htext]
    exact decimalInt_eq_cons i

theorem numberExact_intCast {i : Int} (h : i.natAbs < 10 ^ 15) :
    NumberExact (.finite (i : ℚ)) :=
  numberExact_of_decimalInt (Nat.lt_trans h (by norm_num))
    (printNumber_intCast h)

theorem numberExact_toInt (i : Int32) :
    NumberExact (.finite (i.toInt : ℚ)) := by
  have hmin := intMin_le_toInt i
  have hmax := toInt_le_intMax i
  unfold intMin at hmin
  unfold intMax at hmax
  exact numberExact_intCast (by omega)

theorem numberExact_toNat (callerid : UInt32) :
    NumberExact (.finite (callerid.toNat : ℚ)) := by
  have hlt := callerid.toNat_lt
  have hexact : NumberExact (.finite ((callerid.toNat : ℤ) : ℚ)) :=
    numberExact_intCast (by omega)
  rw [Int.cast_natCast] at hexact
  exact hexact

end CJson
end Z2wRpc
