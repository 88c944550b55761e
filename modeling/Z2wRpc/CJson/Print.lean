import Z2wRpc.CJson.Number

/-!
# Rendering

`cJSON_Print`: the formatted text of an item.  Members stand on lines of their
own behind as many tabs as the object is deep; array items share a line.
-/

namespace Z2wRpc

open Foundation

namespace CJson

def hexDigit (n : Nat) : Byte :=
  BitVec.ofNat 8 (if n < 10 then 48 + n else 87 + n)

/-- One character of the copying loop of `print_string_ptr`. -/
def escapeByte (b : Byte) : List Byte :=
  if 31 < b.toNat ∧ b ≠ 0x22#8 ∧ b ≠ 0x5c#8 then [b]
  else if b = 0x5c#8 then [0x5c#8, 0x5c#8]
  else if b = 0x22#8 then [0x5c#8, 0x22#8]
  else if b = 0x08#8 then [0x5c#8, 0x62#8]
  else if b = 0x0c#8 then [0x5c#8, 0x66#8]
  else if b = 0x0a#8 then [0x5c#8, 0x6e#8]
  else if b = 0x0d#8 then [0x5c#8, 0x72#8]
  else if b = 0x09#8 then [0x5c#8, 0x74#8]
  else
    [0x5c#8, 0x75#8, 0x30#8, 0x30#8, hexDigit (b.toNat / 16),
      hexDigit (b.toNat % 16)]

def escape (bs : List Byte) : List Byte :=
  bs.flatMap escapeByte

/-- `print_string_ptr`: the quoted, escaped literal. -/
def printString (s : CString) : List Byte :=
  0x22#8 :: (escape s.bytes ++ [0x22#8])

def tabs (depth : Nat) : List Byte :=
  List.replicate depth 0x09#8

mutual

def printValue (depth : Nat) : CJson -> List Byte
  | .null => ascii "null"
  | .bool false => ascii "false"
  | .bool true => ascii "true"
  | .number d => printNumber d
  | .string s => printString s
  | .array items => 0x5b#8 :: (printItems (depth + 1) items ++ [0x5d#8])
  | .object members =>
      0x7b#8 :: 0x0a#8 ::
        (printMembers (depth + 1) members ++ tabs depth ++ [0x7d#8])

def printItems (depth : Nat) : List CJson -> List Byte
  | [] => []
  | item :: rest =>
      printValue depth item ++
        (if rest.isEmpty then [] else [0x2c#8, 0x20#8]) ++
        printItems depth rest

def printMembers (depth : Nat) : List (CString × CJson) -> List Byte
  | [] => []
  | (name, item) :: rest =>
      tabs depth ++ printString name ++ [0x3a#8, 0x09#8] ++
        printValue depth item ++
        (if rest.isEmpty then [] else [0x2c#8]) ++ [0x0a#8] ++
        printMembers depth rest

end

def print (item : CJson) : CString :=
  CString.ofBytes (printValue 0 item)

/-!
## Trees whose text can be read back
-/

/--
Every number prints to a literal that restores it, and at most `depth` arrays
and objects are nested.
-/
inductive Readable : Nat -> CJson -> Prop where
  | null {depth : Nat} : Readable depth .null
  | bool {depth : Nat} (b : Bool) : Readable depth (.bool b)
  | number {depth : Nat} {d : Double} (exact : NumberExact d) :
      Readable depth (.number d)
  | string {depth : Nat} (s : CString) : Readable depth (.string s)
  | array {depth : Nat} {items : List CJson}
      (readable : forall item, item ∈ items -> Readable depth item) :
      Readable (depth + 1) (.array items)
  | object {depth : Nat} {members : List (CString × CJson)}
      (readable : forall m, m ∈ members -> Readable depth m.2) :
      Readable (depth + 1) (.object members)

theorem escapeByte_noNul {b : Byte} (hb : b ≠ 0#8) : 0#8 ∉ escapeByte b := by
  revert hb
  revert b
  decide +kernel

theorem printString_noNul (s : CString) : 0#8 ∉ printString s := by
  intro h
  simp only [printString, escape, List.mem_cons, List.mem_append,
    List.mem_flatMap, List.not_mem_nil, or_false] at h
  rcases h with h | ⟨b, hb, h⟩ | h
  · exact absurd h (by decide)
  · exact escapeByte_noNul (fun hzero => s.noNul (hzero ▸ hb)) h
  · exact absurd h (by decide)

theorem tabs_noNul (depth : Nat) : 0#8 ∉ tabs depth := by
  intro h
  exact absurd (List.eq_of_mem_replicate h) (by decide)

mutual

theorem printValue_noNul (depth : Nat) (t : CJson) :
    0#8 ∉ printValue depth t := by
  cases t with
  | null =>
      rw [printValue]
      decide
  | bool b =>
      cases b <;> rw [printValue] <;> decide
  | number d =>
      rw [printValue]
      exact printNumber_noNul d
  | string s =>
      rw [printValue]
      exact printString_noNul s
  | array items =>
      simpa [printValue] using printItems_noNul (depth + 1) items
  | object members =>
      simpa [printValue, tabs_noNul] using printMembers_noNul (depth + 1) members

theorem printItems_noNul (depth : Nat) (items : List CJson) :
    0#8 ∉ printItems depth items := by
  match items with
  | [] => simp [printItems]
  | item :: rest =>
      have hitem := printValue_noNul depth item
      have hrest := printItems_noNul depth rest
      cases rest <;> simp [printItems, hitem] at hrest ⊢
      exact hrest

theorem printMembers_noNul (depth : Nat) (members : List (CString × CJson)) :
    0#8 ∉ printMembers depth members := by
  match members with
  | [] => simp [printMembers]
  | (name, item) :: rest =>
      have hitem := printValue_noNul depth item
      have hrest := printMembers_noNul depth rest
      cases rest <;>
        simp [printMembers, tabs_noNul, printString_noNul, hitem] at hrest ⊢
      exact hrest

end

theorem print_bytes (t : CJson) : (print t).bytes = printValue 0 t :=
  CString.ofBytes_bytes_of_noNul (printValue_noNul 0 t)

end CJson
end Z2wRpc
