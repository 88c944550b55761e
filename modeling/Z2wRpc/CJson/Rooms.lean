import Z2wRpc.CJson.ParseFuel

/-!
# The blocks of parsed strings

`parse_string` allocates what the literal can need at most, so a block goes on
behind the terminator of its string.  A NUL that an escape produces ends the
string early; the bytes after it have been written, and those behind the last
terminator have not.  An allocator may give more than it is asked for.
-/

namespace Z2wRpc

open Foundation

namespace CJson

structure Room where
  written : List Byte
  unwritten : Nat
  -- the size of the block that `malloc` was asked for, if it was
  request : Option Nat
deriving DecidableEq

def Room.empty : Room where
  written := []
  unwritten := 0
  request := none

/-- What `malloc` gives: the bytes that a block holds until they are written, and
how many more there are than it was asked for. -/
class FreshMemory where
  byte : Nat -> Byte
  surplus : Nat -> Nat

instance (priority := low) FreshMemory.zeroed : FreshMemory where
  byte _ := 0#8
  surplus _ := 0

section

variable [FreshMemory]

def Room.surplus (room : Room) : Nat :=
  (room.request.map FreshMemory.surplus).getD 0

def Room.bytes (room : Room) : List Byte :=
  room.written ++
    (List.range (room.unwritten + room.surplus)).map FreshMemory.byte

def Room.size (room : Room) : Nat :=
  room.written.length + room.unwritten + room.surplus

@[simp] theorem Room.bytes_length (room : Room) :
    room.bytes.length = room.size := by
  simp [bytes, size, Nat.add_assoc]

@[simp] theorem Room.bytes_empty : Room.empty.bytes = [] := rfl

@[simp] theorem Room.size_empty : Room.empty.size = 0 := rfl

end

/-!
## One literal
-/

/-- `skipped_bytes` of `parse_string` over the characters of a literal. -/
def skippedBytes : List Byte -> Nat
  | [] => 0
  | b :: rest =>
      if b = 0x5c#8 then
        match rest with
        | [] => 0
        | _ :: rest => skippedBytes rest + 1
      else skippedBytes rest

/-- `allocation_length`: the opening quote is counted too. -/
def allocationLength (literal : List Byte) : Nat :=
  literal.length + 1 - skippedBytes literal

def literalRoom (literal : List Byte) : Room :=
  let output := (unescape (literal.length + 1) literal).getD [] ++ [0#8]
  let stored := (CString.ofBytes output).stored
  { written := output.drop stored.length
    unwritten := allocationLength literal + 1 - output.length
    request := some (allocationLength literal + 1) }

/-- The block that `parse_string` allocates. -/
def stringRoom (bs : List Byte) : Room :=
  match scanLiteral bs.tail with
  | none => .empty
  | some r => literalRoom r.1

/-!
## All literals of a text
-/

mutual

/-- The blocks of the strings that `parse_value` reads, in their order. -/
def valueRooms (fuel depth : Nat) (bs : List Byte) : List Room :=
  match fuel with
  | 0 => []
  | fuel + 1 =>
      match bs with
      | [] => []
      | b :: rest =>
          if b = 0x22#8 then [stringRoom bs]
          else if b = 0x5b#8 then
            match skipWhitespace rest with
            | [] => []
            | c :: rest =>
                if c = 0x5d#8 then []
                else itemsRooms fuel (depth + 1) (c :: rest)
          else if b = 0x7b#8 then
            match skipWhitespace rest with
            | [] => []
            | c :: rest =>
                if c = 0x7d#8 then []
                else membersRooms fuel (depth + 1) (c :: rest)
          else []

def itemsRooms (fuel depth : Nat) (bs : List Byte) : List Room :=
  match fuel with
  | 0 => []
  | fuel + 1 =>
      match parseValue fuel depth (skipWhitespace bs) with
      | none => []
      | some (_, rest) =>
          valueRooms fuel depth (skipWhitespace bs) ++
            match skipWhitespace rest with
            | [] => []
            | c :: rest => if c = 0x2c#8 then itemsRooms fuel depth rest else []

def membersRooms (fuel depth : Nat) (bs : List Byte) : List Room :=
  match fuel with
  | 0 => []
  | fuel + 1 =>
      match parseString (skipWhitespace bs) with
      | none => []
      | some (_, rest) =>
          let value := skipWhitespace (skipWhitespace rest).tail
          match parseValue fuel depth value with
          | none => []
          | some (_, rest) =>
              stringRoom (skipWhitespace bs) :: (valueRooms fuel depth value ++
                match skipWhitespace rest with
                | [] => []
                | c :: rest =>
                    if c = 0x2c#8 then membersRooms fuel depth rest else [])

end

/-- The blocks that `cJSON_Parse` allocates for strings, in their order. -/
def rooms (value : CString) : List Room :=
  let buffer := value.stored
  valueRooms (2 * buffer.length + 2) 0 (skipWhitespace (skipUtf8Bom buffer))

mutual

def stringCount : CJson -> Nat
  | .string _ => 1
  | .array items => itemsCount items
  | .object members => membersCount members
  | _ => 0

def itemsCount : List CJson -> Nat
  | [] => 0
  | item :: rest => item.stringCount + itemsCount rest

def membersCount : List (CString × CJson) -> Nat
  | [] => 0
  | (_, item) :: rest => 1 + item.stringCount + membersCount rest

end

/-!
## Every string has its block
-/

def Allots (fuel : Nat) : Prop :=
  (forall depth bs r, parseValue fuel depth bs = some r ->
      (valueRooms fuel depth bs).length = r.1.stringCount) ∧
    (forall depth bs r, parseItems fuel depth bs = some r ->
      (itemsRooms fuel depth bs).length = itemsCount r.1) ∧
    (forall depth bs r, parseMembers fuel depth bs = some r ->
      (membersRooms fuel depth bs).length = membersCount r.1)

theorem valueRooms_of_literal {name : String} {bs : List Byte} {b : Byte}
    {tail : List Byte} (hname : ascii name = b :: tail)
    (h : (ascii name).isPrefixOf bs = true)
    (hb : b ≠ 0x22#8 ∧ b ≠ 0x5b#8 ∧ b ≠ 0x7b#8) (fuel depth : Nat) :
    valueRooms (fuel + 1) depth bs = [] := by
  rw [hname, List.isPrefixOf_iff_prefix] at h
  rcases h with ⟨rest, rfl⟩
  rw [List.cons_append, valueRooms, if_neg hb.left, if_neg hb.right.left,
    if_neg hb.right.right]

theorem length_valueRooms {fuel : Nat} (ih : Allots fuel) {depth : Nat}
    {bs : List Byte} {r : CJson × List Byte}
    (h : parseValue (fuel + 1) depth bs = some r) :
    (valueRooms (fuel + 1) depth bs).length = r.1.stringCount := by
  rw [parseValue.eq_def] at h
  simp only at h
  split at h
  · rename_i hnull
    rw [valueRooms_of_literal rfl hnull (by decide), <- Option.some.inj h]
    rfl
  split at h
  · rename_i hfalse
    rw [valueRooms_of_literal rfl hfalse (by decide), <- Option.some.inj h]
    rfl
  split at h
  · rename_i htrue
    rw [valueRooms_of_literal rfl htrue (by decide), <- Option.some.inj h]
    rfl
  cases bs with
  | nil => cases h
  | cons b bs =>
      simp only at h
      rw [valueRooms]
      split_ifs at h with hquote hnumber hitems hlimit hmembers hlimit
      · rcases Option.map_eq_some_iff.mp h with ⟨x, _, rfl⟩
        rw [if_pos hquote]
        rfl
      · rcases parseNumber_eq_some h with ⟨d, _, hd, _⟩
        have hother : b ≠ 0x5b#8 ∧ b ≠ 0x7b#8 := by
          rcases hnumber with rfl | hdigit
          · decide
          · exact ⟨isDigit_ne hdigit (by decide), isDigit_ne hdigit (by decide)⟩
        rw [if_neg hquote, if_neg hother.left, if_neg hother.right, hd]
        rfl
      · rw [if_neg hquote, if_pos hitems]
        cases hskip : skipWhitespace bs with
        | nil =>
            rw [hskip] at h
            cases h
        | cons c rest =>
            rw [hskip] at h
            simp only at h ⊢
            split_ifs at h with hclose
            · rw [if_pos hclose, <- Option.some.inj h]
              rfl
            · rcases Option.map_eq_some_iff.mp h with ⟨x, hx, rfl⟩
              rw [if_neg hclose, ih.right.left _ _ _ hx]
              rfl
      · rw [if_neg hquote, if_neg hitems, if_pos hmembers]
        cases hskip : skipWhitespace bs with
        | nil =>
            rw [hskip] at h
            cases h
        | cons c rest =>
            rw [hskip] at h
            simp only at h ⊢
            split_ifs at h with hclose
            · rw [if_pos hclose, <- Option.some.inj h]
              rfl
            · rcases Option.map_eq_some_iff.mp h with ⟨x, hx, rfl⟩
              rw [if_neg hclose, ih.right.right _ _ _ hx]
              rfl

theorem length_itemsRooms {fuel : Nat} (ih : Allots fuel) {depth : Nat}
    {bs : List Byte} {r : List CJson × List Byte}
    (h : parseItems (fuel + 1) depth bs = some r) :
    (itemsRooms (fuel + 1) depth bs).length = itemsCount r.1 := by
  rw [parseItems] at h
  rcases Option.bind_eq_some_iff.mp h with ⟨⟨item, tail⟩, hitem, htail⟩
  have hfirst := ih.left _ _ _ hitem
  rw [itemsRooms, hitem]
  simp only [List.length_append] at htail ⊢
  cases hskip : skipWhitespace tail with
  | nil =>
      rw [hskip] at htail
      cases htail
  | cons c rest =>
      rw [hskip] at htail
      simp only at htail ⊢
      split_ifs at htail with hcomma hclose
      · rcases Option.map_eq_some_iff.mp htail with ⟨x, hx, rfl⟩
        rw [if_pos hcomma, hfirst, ih.right.left _ _ _ hx, itemsCount]
      · rw [if_neg hcomma, hfirst, <- Option.some.inj htail]
        rfl

theorem length_membersRooms {fuel : Nat} (ih : Allots fuel) {depth : Nat}
    {bs : List Byte} {r : List (CString × CJson) × List Byte}
    (h : parseMembers (fuel + 1) depth bs = some r) :
    (membersRooms (fuel + 1) depth bs).length = membersCount r.1 := by
  rw [parseMembers] at h
  rcases Option.bind_eq_some_iff.mp h with ⟨⟨name, tail⟩, hname, htail⟩
  rw [membersRooms, hname]
  simp only at htail ⊢
  cases hskip : skipWhitespace tail with
  | nil =>
      rw [hskip] at htail
      cases htail
  | cons colon rest =>
      rw [hskip] at htail
      simp only [List.tail_cons] at htail ⊢
      split_ifs at htail
      rcases Option.bind_eq_some_iff.mp htail with ⟨⟨item, after⟩, hitem, hafter⟩
      have hfirst : (valueRooms fuel depth (skipWhitespace rest)).length =
          item.stringCount := ih.left _ _ _ hitem
      rw [hitem]
      simp only [List.length_cons, List.length_append] at hafter ⊢
      cases hnext : skipWhitespace after with
      | nil =>
          rw [hnext] at hafter
          cases hafter
      | cons c rest =>
          rw [hnext] at hafter
          simp only at hafter ⊢
          split_ifs at hafter with hcomma hclose
          · rcases Option.map_eq_some_iff.mp hafter with ⟨x, hx, rfl⟩
            rw [if_pos hcomma, hfirst, ih.right.right _ _ _ hx, membersCount]
            omega
          · rw [if_neg hcomma, hfirst, <- Option.some.inj hafter]
            simp [membersCount]
            omega

theorem allots (fuel : Nat) : Allots fuel := by
  induction fuel with
  | zero =>
      refine ⟨?_, ?_, ?_⟩
      · intro depth bs r h
        cases h
      · intro depth bs r h
        cases h
      · intro depth bs r h
        cases h
  | succ fuel ih =>
      exact ⟨fun _ _ _ => length_valueRooms ih, fun _ _ _ => length_itemsRooms ih,
        fun _ _ _ => length_membersRooms ih⟩

theorem length_rooms {value : CString} {root : CJson}
    (h : parse value = some root) : (rooms value).length = root.stringCount := by
  rcases Option.map_eq_some_iff.mp h with ⟨r, hr, rfl⟩
  exact (allots _).left _ _ _ hr

/-!
## The block of a member
-/

/-- The strings in front of the item that `findMember` takes. -/
def memberOffset (name : CString) : List (CString × CJson) -> Nat
  | [] => 0
  | (key, item) :: rest =>
      if sameName name key then 1
      else 1 + item.stringCount + memberOffset name rest

def itemOffset (name : CString) : CJson -> Nat
  | .object members => memberOffset name members
  | _ => 0

end CJson
end Z2wRpc
