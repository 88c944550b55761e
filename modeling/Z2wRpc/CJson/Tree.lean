import Z2wRpc.Foundation.Binary64

/-!
# cJSON items

The trees that `cJSON.c` parses, prints and searches.  An item keeps the fields
its kind fills in: `valuestring` is `NULL` unless the item is a string, and
`valueint` is the saturated number, `1` for `true` and `0` otherwise.  Lookup
by name takes the first member whose name agrees up to letter case.
-/

namespace Z2wRpc

open Foundation

inductive CJson where
  | null
  | bool (b : Bool)
  | number (d : Double)
  | string (s : CString)
  | array (items : List CJson)
  | object (members : List (CString × CJson))

namespace CJson

def intMax : Int := 2147483647

def intMin : Int := -2147483648

/-- The conversion of a `double` to `valueint`: saturation, then truncation. -/
def saturate : Double -> Int32
  | .finite q =>
      if (intMax : ℚ) <= q then Int32.ofInt intMax
      else if q <= (intMin : ℚ) then Int32.ofInt intMin
      else Int32.ofInt (q.num.tdiv q.den)
  | .infinite negative => Int32.ofInt (if negative then intMin else intMax)
  -- no comparison holds of a NaN, and the cast yields the smallest integer
  | .nan => Int32.ofInt intMin

def valuestring : CJson -> Option CString
  | string s => some s
  | _ => none

def valueint : CJson -> Int32
  | number d => saturate d
  | bool true => 1
  | _ => 0

def children : CJson -> List CJson
  | array items => items
  | object members => members.map Prod.snd
  | _ => []

def getArraySize : Option CJson -> Nat
  | none => 0
  | some item => item.children.length

def getArrayItem (array : Option CJson) (index : Nat) : Option CJson :=
  array.bind fun item => item.children[index]?

def itemsOf (container : Option CJson) : List CJson :=
  (container.map children).getD []

theorem getArraySize_eq (container : Option CJson) :
    getArraySize container = (itemsOf container).length := by
  cases container <;> rfl

theorem drop_zero_itemsOf_array (items : List CJson) :
    (itemsOf (some (.array items))).drop 0 = items := rfl

theorem getArrayItem_of_drop {container : Option CJson} {next : CJson}
    {rest : List CJson} {j : Nat}
    (h : (itemsOf container).drop j = next :: rest) :
    getArrayItem container j = some next ∧
      (itemsOf container).drop (j + 1) = rest := by
  have hget := List.head?_drop (l := itemsOf container) (i := j)
  rw [h, List.head?_cons] at hget
  rw [← List.drop_drop, h]
  refine ⟨?_, rfl⟩
  cases container with
  | none => simp [itemsOf] at h
  | some item => exact hget.symm

def toLower (b : Byte) : Byte :=
  if 65 <= b.toNat ∧ b.toNat <= 90 then b + 32#8 else b

/-- `case_insensitive_strcmp` returns zero. -/
def sameName (a b : CString) : Bool :=
  a.bytes.map toLower == b.bytes.map toLower

/-- The walk of `get_object_item` along the members. -/
def findMember (name : CString) (members : List (CString × CJson)) :
    Option CJson :=
  (members.find? fun m => sameName name m.1).map Prod.snd

/--
`cJSON_GetObjectItem`.  The items of an array carry no name and never match.
-/
def getObjectItem (object : Option CJson) (name : CString) : Option CJson :=
  match object with
  | some (.object members) => findMember name members
  | _ => none

/-!
## Construction

Objects under construction are member lists; a `NULL` name or item is refused.
-/

abbrev Members := List (CString × CJson)

def createObject : Members := []

def addItemToObject (object : Members) (name : Option CString)
    (item : Option CJson) : Members :=
  match name, item with
  | some name, some item => object ++ [(name, item)]
  | _, _ => object

def addNumberToObject (object : Members) (name : Option CString)
    (d : Double) : Members :=
  addItemToObject object name (some (.number d))

/-- `cJSON_AddStringToObject`; no item is created from a `NULL` string. -/
def addStringToObject (object : Members) (name : Option CString)
    (s : Option CString) : Members :=
  addItemToObject object name (s.map .string)

/-!
## Lookup
-/

theorem sameName_refl (a : CString) : sameName a a = true := by
  simp [sameName]

theorem sameName_symm {a b : CString} (h : sameName a b = true) :
    sameName b a = true := by
  simp only [sameName, beq_iff_eq] at h ⊢
  exact h.symm

theorem sameName_trans {a b c : CString} (h : sameName a b = true)
    (h' : sameName b c = true) : sameName a c = true := by
  simp only [sameName, beq_iff_eq] at h h' ⊢
  exact h.trans h'

theorem findMember_cons_of_same {name key : CString} (item : CJson)
    (rest : Members) (h : sameName name key = true) :
    findMember name ((key, item) :: rest) = some item := by
  simp [findMember, h]

theorem findMember_cons_of_other {name key : CString} (item : CJson)
    (rest : Members) (h : sameName name key = false) :
    findMember name ((key, item) :: rest) = findMember name rest := by
  simp [findMember, h]

/-!
## Saturation
-/

theorem intMin_le_toInt (i : Int32) : intMin <= i.toInt :=
  Int32.le_toInt i

theorem toInt_le_intMax (i : Int32) : i.toInt <= intMax := by
  have := Int32.toInt_lt i
  unfold intMax
  omega

@[simp] theorem saturate_toInt (i : Int32) :
    saturate (.finite (i.toInt : ℚ)) = i := by
  have hmin := intMin_le_toInt i
  have hmax := toInt_le_intMax i
  unfold saturate
  simp only [Int.cast_le]
  split
  · rename_i h
    rw [show intMax = i.toInt by omega, Int32.ofInt_toInt]
  · split
    · rename_i h
      rw [show intMin = i.toInt by omega, Int32.ofInt_toInt]
    · simp

theorem saturate_eq_iff (q : ℚ) :
    ((saturate (.finite q)).toInt : ℚ) = q <->
      exists i : Int32, q = i.toInt := by
  constructor
  · intro h
    exact ⟨saturate (.finite q), h.symm⟩
  · intro h
    rcases h with ⟨i, rfl⟩
    rw [saturate_toInt]

end CJson
end Z2wRpc
