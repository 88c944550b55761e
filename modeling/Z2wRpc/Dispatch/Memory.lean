import Z2wRpc.CJson.Rooms

/-!
# Parsed items in memory

The strings of a parsed document are blocks of a memory that all requests
share, and an item points to them.  Parsing puts every string into a block of
its own behind those that were there before; the block may go on behind the
terminator.
-/

namespace Z2wRpc

open Foundation

namespace Dispatch

open CJson

/-- The blocks that `malloc` has handed out, oldest first. -/
abbrev Memory := List (List Byte)

inductive Node where
  | null
  | bool (b : Bool)
  | number (d : Double)
  | string (block : Nat)
  | array (items : List Node)
  | object (members : List (Nat × Node))

def textAt (memory : Memory) (block : Nat) : CString :=
  CString.ofBytes (memory[block]?.getD [])

/-!
## Parsing into memory
-/

mutual

def place (behind : Nat -> List Byte) : CJson -> Memory -> Node × Memory
  | .null, memory => (.null, memory)
  | .bool b, memory => (.bool b, memory)
  | .number d, memory => (.number d, memory)
  | .string s, memory =>
      (.string memory.length, memory ++ [s.stored ++ behind memory.length])
  | .array items, memory =>
      let placed := placeItems behind items memory
      (.array placed.1, placed.2)
  | .object members, memory =>
      let placed := placeMembers behind members memory
      (.object placed.1, placed.2)

def placeItems (behind : Nat -> List Byte) :
    List CJson -> Memory -> List Node × Memory
  | [], memory => ([], memory)
  | item :: rest, memory =>
      let first := place behind item memory
      let others := placeItems behind rest first.2
      (first.1 :: others.1, others.2)

def placeMembers (behind : Nat -> List Byte) :
    List (CString × CJson) -> Memory -> List (Nat × Node) × Memory
  | [], memory => ([], memory)
  | (name, item) :: rest, memory =>
      let first := place behind item
        (memory ++ [name.stored ++ behind memory.length])
      let others := placeMembers behind rest first.2
      ((memory.length, first.1) :: others.1, others.2)

end

mutual

def Node.blocks : Node -> List Nat
  | .string block => [block]
  | .array items => blocksOfItems items
  | .object members => blocksOfMembers members
  | _ => []

def blocksOfItems : List Node -> List Nat
  | [] => []
  | item :: rest => item.blocks ++ blocksOfItems rest

def blocksOfMembers : List (Nat × Node) -> List Nat
  | [] => []
  | (name, item) :: rest => name :: (item.blocks ++ blocksOfMembers rest)

end

mutual

def Denotes (behind : Nat -> List Byte) (memory : Memory) :
    Node -> CJson -> Prop
  | .null, .null => True
  | .bool b, .bool b' => b = b'
  | .number d, .number d' => d = d'
  | .string block, .string s => memory[block]? = some (s.stored ++ behind block)
  | .array items, .array items' => DenotesItems behind memory items items'
  | .object members, .object members' =>
      DenotesMembers behind memory members members'
  | _, _ => False

def DenotesItems (behind : Nat -> List Byte) (memory : Memory) :
    List Node -> List CJson -> Prop
  | [], [] => True
  | item :: rest, item' :: rest' =>
      Denotes behind memory item item' ∧ DenotesItems behind memory rest rest'
  | _, _ => False

def DenotesMembers (behind : Nat -> List Byte) (memory : Memory) :
    List (Nat × Node) -> List (CString × CJson) -> Prop
  | [], [] => True
  | (block, item) :: rest, (name, item') :: rest' =>
      memory[block]? = some (name.stored ++ behind block) ∧
        Denotes behind memory item item' ∧
          DenotesMembers behind memory rest rest'
  | _, _ => False

end

/-!
## Blocks of their own

What parsing allocates lies behind the memory it started from, block by block.
-/

/-- `blocks` are the next ones behind `memory`, up to the end of `memory'`. -/
def Appends (memory memory' : Memory) (blocks : List Nat) : Prop :=
  memory <+: memory' ∧
    blocks = List.range' memory.length (memory'.length - memory.length)

theorem appends_refl (memory : Memory) : Appends memory memory [] := by
  simp [Appends]

theorem appends_single (memory : Memory) (bytes : List Byte) :
    Appends memory (memory ++ [bytes]) [memory.length] := by
  simp [Appends]

theorem Appends.append {memory memory' memory'' : Memory}
    {blocks blocks' : List Nat} (h : Appends memory memory' blocks)
    (h' : Appends memory' memory'' blocks') :
    Appends memory memory'' (blocks ++ blocks') := by
  rcases h with ⟨hextends, hblocks⟩
  rcases h' with ⟨hextends', hblocks'⟩
  have hle := hextends.length_le
  have hle' := hextends'.length_le
  refine ⟨hextends.trans hextends', ?_⟩
  have hstart : memory'.length =
      memory.length + (memory'.length - memory.length) := by omega
  have hsize : memory''.length - memory.length =
      (memory'.length - memory.length) +
        (memory''.length - memory'.length) := by omega
  rw [hblocks, hblocks', hsize, <- List.range'_append_1, <- hstart]

mutual

theorem place_appends (behind : Nat -> List Byte) (item : CJson)
    (memory : Memory) : Appends memory (place behind item memory).2
      (place behind item memory).1.blocks := by
  cases item with
  | null => exact appends_refl memory
  | bool b => exact appends_refl memory
  | number d => exact appends_refl memory
  | string s => exact appends_single memory _
  | array items =>
      rw [place, Node.blocks]
      exact placeItems_appends behind items memory
  | object members =>
      rw [place, Node.blocks]
      exact placeMembers_appends behind members memory

theorem placeItems_appends (behind : Nat -> List Byte) (items : List CJson)
    (memory : Memory) :
    Appends memory (placeItems behind items memory).2
      (blocksOfItems (placeItems behind items memory).1) := by
  match items with
  | [] => exact appends_refl memory
  | item :: rest =>
      have hfirst := place_appends behind item memory
      have hrest := placeItems_appends behind rest (place behind item memory).2
      rw [placeItems, blocksOfItems]
      exact hfirst.append hrest

theorem placeMembers_appends (behind : Nat -> List Byte)
    (members : List (CString × CJson)) (memory : Memory) :
    Appends memory (placeMembers behind members memory).2
      (blocksOfMembers (placeMembers behind members memory).1) := by
  match members with
  | [] => exact appends_refl memory
  | (name, item) :: rest =>
      have hname := appends_single memory (name.stored ++ behind memory.length)
      have hfirst := place_appends behind item
        (memory ++ [name.stored ++ behind memory.length])
      have hrest := placeMembers_appends behind rest
        (place behind item (memory ++ [name.stored ++ behind memory.length])).2
      rw [placeMembers, blocksOfMembers]
      exact hname.append (hfirst.append hrest)

end

/-!
## What an item stands for
-/

/-- The blocks that `memory` has among these are the same in `memory'`. -/
def Agree (memory memory' : Memory) (blocks : List Nat) : Prop :=
  forall block, block ∈ blocks -> forall bytes,
    memory[block]? = some bytes -> memory'[block]? = some bytes

theorem getElem?_of_extends {memory memory' : Memory} {block : Nat}
    {bytes : List Byte} (h : memory <+: memory')
    (hbytes : memory[block]? = some bytes) : memory'[block]? = some bytes := by
  rcases h with ⟨more, rfl⟩
  rcases List.getElem?_eq_some_iff.mp hbytes with ⟨hlt, _⟩
  rw [List.getElem?_append_left hlt, hbytes]

theorem agree_of_extends {memory memory' : Memory} (h : memory <+: memory')
    (blocks : List Nat) : Agree memory memory' blocks :=
  fun _ _ _ => getElem?_of_extends h

theorem Agree.left {memory memory' : Memory} {blocks blocks' : List Nat}
    (h : Agree memory memory' (blocks ++ blocks')) :
    Agree memory memory' blocks :=
  fun block hblock => h block (List.mem_append_left _ hblock)

theorem Agree.right {memory memory' : Memory} {blocks blocks' : List Nat}
    (h : Agree memory memory' (blocks ++ blocks')) :
    Agree memory memory' blocks' :=
  fun block hblock => h block (List.mem_append_right _ hblock)

section

variable {behind : Nat -> List Byte}

section

variable {memory memory' : Memory}

mutual

theorem denotes_of_agree {node : Node} {item : CJson}
    (h : Agree memory memory' node.blocks)
    (hdenotes : Denotes behind memory node item) :
    Denotes behind memory' node item := by
  match node, item with
  | .null, .null => trivial
  | .bool _, .bool _ => exact hdenotes
  | .number _, .number _ => exact hdenotes
  | .string block, .string s =>
      exact h block (List.mem_singleton.mpr rfl) _ hdenotes
  | .array items, .array items' =>
      rw [Node.blocks] at h
      exact denotesItems_of_agree h hdenotes
  | .object members, .object members' =>
      rw [Node.blocks] at h
      exact denotesMembers_of_agree h hdenotes

theorem denotesItems_of_agree {items : List Node} {items' : List CJson}
    (h : Agree memory memory' (blocksOfItems items))
    (hdenotes : DenotesItems behind memory items items') :
    DenotesItems behind memory' items items' := by
  match items, items' with
  | [], [] => trivial
  | item :: rest, item' :: rest' =>
      rw [blocksOfItems] at h
      exact ⟨denotes_of_agree h.left hdenotes.left,
        denotesItems_of_agree h.right hdenotes.right⟩

theorem denotesMembers_of_agree {members : List (Nat × Node)}
    {members' : List (CString × CJson)}
    (h : Agree memory memory' (blocksOfMembers members))
    (hdenotes : DenotesMembers behind memory members members') :
    DenotesMembers behind memory' members members' := by
  match members, members' with
  | [], [] => trivial
  | (block, item) :: rest, (name, item') :: rest' =>
      rw [blocksOfMembers] at h
      rcases hdenotes with ⟨hname, hitem, hrest⟩
      have hothers : Agree memory memory' (item.blocks ++ blocksOfMembers rest) :=
        fun b hb => h b (List.mem_cons_of_mem block hb)
      exact ⟨h block List.mem_cons_self _ hname,
        denotes_of_agree hothers.left hitem,
        denotesMembers_of_agree hothers.right hrest⟩

end

end

mutual

theorem denotes_place (item : CJson) (memory : Memory) :
    Denotes behind (place behind item memory).2 (place behind item memory).1
      item := by
  cases item with
  | null => trivial
  | bool b => rfl
  | number d => rfl
  | string s =>
      rw [place, Denotes]
      exact List.getElem?_concat_length
  | array items =>
      rw [place, Denotes]
      exact denotesItems_place items memory
  | object members =>
      rw [place, Denotes]
      exact denotesMembers_place members memory

theorem denotesItems_place (items : List CJson) (memory : Memory) :
    DenotesItems behind (placeItems behind items memory).2
      (placeItems behind items memory).1 items := by
  match items with
  | [] => trivial
  | item :: rest =>
      let first := place behind item memory
      have hitem := denotes_place item memory
      have hrest := denotesItems_place rest first.2
      have hextends := (placeItems_appends behind rest first.2).left
      rw [placeItems, DenotesItems]
      exact ⟨denotes_of_agree (agree_of_extends hextends _) hitem, hrest⟩

theorem denotesMembers_place (members : List (CString × CJson))
    (memory : Memory) :
    DenotesMembers behind (placeMembers behind members memory).2
      (placeMembers behind members memory).1 members := by
  match members with
  | [] => trivial
  | (name, item) :: rest =>
      let named := memory ++ [name.stored ++ behind memory.length]
      let first := place behind item named
      have hitem := denotes_place item named
      have hrest := denotesMembers_place rest first.2
      have hitems := (place_appends behind item named).left
      have hmembers := (placeMembers_appends behind rest first.2).left
      have hname : named[memory.length]? =
          some (name.stored ++ behind memory.length) :=
        List.getElem?_concat_length
      rw [placeMembers, DenotesMembers]
      exact ⟨getElem?_of_extends (hitems.trans hmembers) hname,
        denotes_of_agree (agree_of_extends hmembers _) hitem, hrest⟩

end

end

/-!
## Looking items up
-/

def Holds (memory : Memory) (block : Nat) (s : CString) : Prop :=
  exists rest, memory[block]? = some (s.stored ++ rest)

theorem textAt_of_stored {memory : Memory} {block : Nat} {s : CString}
    (h : Holds memory block s) : textAt memory block = s := by
  rcases h with ⟨rest, h⟩
  rw [textAt, h, Option.getD_some, CString.ofBytes_stored_append]

/-- The walk of `cJSON_GetObjectItem` along members in memory. -/
def findNode (memory : Memory) (name : CString)
    (members : List (Nat × Node)) : Option Node :=
  (members.find? fun m => sameName name (textAt memory m.1)).map Prod.snd

def getNodeItem (memory : Memory) (object : Option Node) (name : CString) :
    Option Node :=
  match object with
  | some (.object members) => findNode memory name members
  | _ => none

abbrev DenotesOption (behind : Nat -> List Byte) (memory : Memory) :
    Option Node -> Option CJson -> Prop :=
  Option.Rel (Denotes behind memory)

section

variable {behind : Nat -> List Byte}

theorem findNode_denotes {memory : Memory} {members : List (Nat × Node)}
    {members' : List (CString × CJson)}
    (h : DenotesMembers behind memory members members') (name : CString) :
    DenotesOption behind memory (findNode memory name members)
      (findMember name members') := by
  match members, members' with
  | [], [] => exact Option.Rel.none
  | (block, item) :: rest, (name', item') :: rest' =>
      rcases h with ⟨hname, hitem, hrest⟩
      have hothers := findNode_denotes hrest name
      rw [findNode, findMember, List.find?_cons, List.find?_cons,
        textAt_of_stored ⟨_, hname⟩]
      cases sameName name name' with
      | true => exact Option.Rel.some hitem
      | false => exact hothers

theorem getNodeItem_denotes {memory : Memory} {object : Option Node}
    {object' : Option CJson} (h : DenotesOption behind memory object object')
    (name : CString) :
    DenotesOption behind memory (getNodeItem memory object name)
      (getObjectItem object' name) := by
  cases h with
  | none => exact Option.Rel.none
  | @some node item h =>
      match node, item with
      | .object members, .object members' => exact findNode_denotes h name
      | .null, .null => exact Option.Rel.none
      | .bool _, .bool _ => exact Option.Rel.none
      | .number _, .number _ => exact Option.Rel.none
      | .string _, .string _ => exact Option.Rel.none
      | .array _, .array _ => exact Option.Rel.none

def Node.valuestring : Node -> Option Nat
  | .string block => some block
  | _ => none

def Node.valueint : Node -> Int32
  | .number d => saturate d
  | .bool true => 1
  | _ => 0

/-- A pointer and the string that it leads to; `NULL` leads to none. -/
def PointsTo (memory : Memory) : Option Nat -> Option CString -> Prop :=
  Option.Rel (Holds memory)

theorem valuestring_denotes {memory : Memory} {node : Node} {item : CJson}
    (h : Denotes behind memory node item) :
    PointsTo memory node.valuestring item.valuestring := by
  match node, item with
  | .string _, .string _ => exact Option.Rel.some ⟨_, h⟩
  | .null, .null => exact Option.Rel.none
  | .bool _, .bool _ => exact Option.Rel.none
  | .number _, .number _ => exact Option.Rel.none
  | .array _, .array _ => exact Option.Rel.none
  | .object _, .object _ => exact Option.Rel.none

theorem valueint_denotes {memory : Memory} {node : Node} {item : CJson}
    (h : Denotes behind memory node item) : node.valueint = item.valueint := by
  match node, item with
  | .null, .null => rfl
  | .bool b, .bool b' =>
      cases h
      cases b <;> rfl
  | .number _, .number _ =>
      cases h
      rfl
  | .string _, .string _ => rfl
  | .array _, .array _ => rfl
  | .object _, .object _ => rfl

end

theorem textAt_of_pointsTo {memory : Memory} {p : Option Nat}
    {s : Option CString} (h : PointsTo memory p s) :
    p.map (textAt memory) = s := by
  cases h with
  | none => rfl
  | some h => exact congrArg some (textAt_of_stored h)

/-!
## Blocks by their numbers
-/

section

variable (behind : Nat -> List Byte)

mutual

theorem length_place (item : CJson) (memory : Memory) :
    (place behind item memory).2.length =
      memory.length + item.stringCount := by
  cases item with
  | null => rfl
  | bool b => rfl
  | number d => rfl
  | string s => simp [place, stringCount]
  | array items =>
      rw [place, stringCount]
      exact length_placeItems items memory
  | object members =>
      rw [place, stringCount]
      exact length_placeMembers members memory

theorem length_placeItems (items : List CJson) (memory : Memory) :
    (placeItems behind items memory).2.length =
      memory.length + itemsCount items := by
  match items with
  | [] => rfl
  | item :: rest =>
      rw [placeItems, itemsCount, length_placeItems rest, length_place item]
      omega

theorem length_placeMembers (members : List (CString × CJson))
    (memory : Memory) :
    (placeMembers behind members memory).2.length =
      memory.length + membersCount members := by
  match members with
  | [] => rfl
  | (name, item) :: rest =>
      rw [placeMembers, membersCount, length_placeMembers rest,
        length_place item, List.length_append, List.length_singleton]
      omega

end

def PlacedAt (start : Nat) (node : Node) (item : CJson) : Prop :=
  exists memory : Memory, memory.length = start ∧
    node = (place behind item memory).1

theorem placedAt_place (item : CJson) (memory : Memory) :
    PlacedAt behind memory.length (place behind item memory).1 item :=
  ⟨memory, rfl, rfl⟩

variable {behind}

theorem findNode_placed {memory : Memory} {members : List (CString × CJson)}
    {name : CString} {node : Node} (before : Memory)
    (hmembers : DenotesMembers behind memory
      (placeMembers behind members before).1 members)
    (h : findNode memory name (placeMembers behind members before).1 =
      some node) :
    exists item, findMember name members = some item ∧
      PlacedAt behind (before.length + memberOffset name members) node
        item := by
  match members with
  | [] => cases h
  | (key, item) :: rest =>
      let named := before ++ [key.stored ++ behind before.length]
      rcases hmembers with ⟨hkey, _, hrest⟩
      have htext : textAt memory before.length = key :=
        textAt_of_stored ⟨_, hkey⟩
      have hnamed : named.length = before.length + 1 := List.length_append ..
      rw [placeMembers, findNode, List.find?_cons, htext] at h
      cases hsame : sameName name key with
      | true =>
          rw [hsame] at h
          cases h
          rw [findMember_cons_of_same item rest hsame, memberOffset,
            if_pos hsame, <- hnamed]
          exact ⟨item, rfl, placedAt_place behind item named⟩
      | false =>
          rw [hsame] at h
          rcases findNode_placed (place behind item named).2 hrest h with
            ⟨found, hfound, hplaced⟩
          refine ⟨found, ?_, ?_⟩
          · rw [findMember_cons_of_other item rest hsame, hfound]
          · rw [length_place, hnamed] at hplaced
            rw [memberOffset, hsame]
            convert hplaced using 1
            simp only [Bool.false_eq_true, if_false]
            omega

theorem getNodeItem_placed {memory : Memory} {start : Nat} {node found : Node}
    {item : CJson} {name : CString} (hplaced : PlacedAt behind start node item)
    (hdenotes : Denotes behind memory node item)
    (h : getNodeItem memory (some node) name = some found) :
    exists child, getObjectItem (some item) name = some child ∧
      PlacedAt behind (start + itemOffset name item) found child := by
  rcases hplaced with ⟨before, rfl, rfl⟩
  match item with
  | .object members => exact findNode_placed before hdenotes h
  | .null => cases h
  | .bool _ => cases h
  | .number _ => cases h
  | .string _ => cases h
  | .array _ => cases h

theorem block_of_placedAt {start block : Nat} {item : CJson}
    (h : PlacedAt behind start (.string block) item) : block = start := by
  rcases h with ⟨memory, rfl, hnode⟩
  match item with
  | .string s =>
      cases hnode
      rfl

end

/-!
## Blocks of different members
-/

theorem blocks_subset_of_mem {members : List (Nat × Node)} {block : Nat}
    {node : Node} (h : (block, node) ∈ members) :
    node.blocks ⊆ blocksOfMembers members := by
  induction members with
  | nil => cases h
  | cons first rest ih =>
      rcases first with ⟨name, item⟩
      intro b hb
      rw [blocksOfMembers]
      apply List.mem_cons_of_mem
      rcases List.mem_cons.mp h with hfirst | hrest
      · cases hfirst
        exact List.mem_append_left _ hb
      · exact List.mem_append_right _ (ih hrest hb)

theorem blocks_disjoint_of_ne {members : List (Nat × Node)}
    {block block' : Nat} {node node' : Node}
    (hnodup : (blocksOfMembers members).Nodup)
    (h : (block, node) ∈ members) (h' : (block', node') ∈ members)
    (hne : (block, node) ≠ (block', node')) :
    List.Disjoint node.blocks node'.blocks := by
  induction members with
  | nil => cases h
  | cons first rest ih =>
      rcases first with ⟨name, item⟩
      rw [blocksOfMembers, List.nodup_cons, List.nodup_append'] at hnodup
      rcases hnodup.right with ⟨_, hrest, hdisjoint⟩
      rcases List.mem_cons.mp h with hfirst | hmem
      · rcases List.mem_cons.mp h' with hfirst' | hmem'
        · exact absurd (hfirst.trans hfirst'.symm) hne
        · cases hfirst
          exact List.disjoint_of_subset_right (blocks_subset_of_mem hmem')
            hdisjoint
      · rcases List.mem_cons.mp h' with hfirst' | hmem'
        · cases hfirst'
          exact (List.disjoint_of_subset_right (blocks_subset_of_mem hmem)
            hdisjoint).symm
        · exact ih hrest hmem hmem'

theorem mem_of_getNodeItem {memory : Memory} {node item : Node}
    {name : CString} (h : getNodeItem memory (some node) name = some item) :
    exists members block, node = .object members ∧
      (block, item) ∈ members ∧ sameName name (textAt memory block) := by
  match node with
  | .object members =>
      rcases Option.map_eq_some_iff.mp h with ⟨m, hfind, rfl⟩
      have hname := List.find?_some hfind
      exact ⟨members, m.1, rfl, List.mem_of_find?_eq_some hfind, hname⟩

theorem getNodeItem_blocks {memory : Memory} {node item : Node}
    {name : CString} (h : getNodeItem memory (some node) name = some item) :
    item.blocks ⊆ node.blocks := by
  rcases mem_of_getNodeItem h with ⟨members, block, rfl, hmem, _⟩
  rw [Node.blocks]
  exact blocks_subset_of_mem hmem

theorem getNodeItem_disjoint {memory : Memory} {node item item' : Node}
    {name name' : CString} (hnodup : node.blocks.Nodup)
    (h : getNodeItem memory (some node) name = some item)
    (h' : getNodeItem memory (some node) name' = some item')
    (hnames : sameName name name' = false) :
    List.Disjoint item.blocks item'.blocks := by
  rcases mem_of_getNodeItem h with ⟨members, block, rfl, hmem, hname⟩
  rcases mem_of_getNodeItem h' with ⟨members', block', heq, hmem', hname'⟩
  cases heq
  rw [Node.blocks] at hnodup
  apply blocks_disjoint_of_ne hnodup hmem hmem'
  intro hsame
  cases hsame
  have hboth := sameName_trans hname (sameName_symm hname')
  rw [hnames] at hboth
  cases hboth

end Dispatch
end Z2wRpc
