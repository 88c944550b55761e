import Z2wRpc.Dispatch.Loading
import Z2wRpc.Dispatch.SharedTable
import Z2wRpc.Foundation.Ledger

/-!
# Loading register documents in memory

The server address and the strings of the caller table are pointers into parsed
documents.  A refused document is deleted with all its strings, an accepted one
is kept, and a new address frees the string of the old one.  The ledger of the
strings follows which of them are live.
-/

namespace Z2wRpc

open Foundation

namespace Dispatch

open CJson

abbrev HeapRun := Traced (Transfer Nat) Fault

/-- The globals of `rpc.c`, whose strings are blocks of a memory. -/
structure HeapGlobals extends Shared where
  rpcServerIp : Option Nat
  rpcServerPort : Int16

def HeapGlobals.initial : HeapGlobals where
  memory := []
  rpcCallerTable := []
  rpcServerIp := none
  rpcServerPort := 0

/-!
## The calls of `cJSON.c`
-/

def Node.children : Node -> List Node
  | .array items => items
  | .object members => members.map Prod.snd
  | _ => []

def nodeArraySize : Option Node -> Nat
  | none => 0
  | some item => item.children.length

def nodeArrayItem (array : Option Node) (index : Nat) : Option Node :=
  array.bind fun item => item.children[index]?

def nodeValuestring : Option Node -> Except Fault (Option Nat)
  | none => .error .absentItem
  | some item => .ok item.valuestring

mutual

/-- The strings that `cJSON_Delete` frees, in its order: those of the children,
and behind them the name. -/
def Node.deleted : Node -> List Nat
  | .string block => [block]
  | .array items => deletedOfItems items
  | .object members => deletedOfMembers members
  | _ => []

def deletedOfItems : List Node -> List Nat
  | [] => []
  | item :: rest => item.deleted ++ deletedOfItems rest

def deletedOfMembers : List (Nat × Node) -> List Nat
  | [] => []
  | (name, item) :: rest => item.deleted ++ name :: deletedOfMembers rest

end

def unfurnished (_ : Nat) : List Byte := []

abbrev readIn (tree : CJson) (memory : Memory) : Node × Memory :=
  place unfurnished tree memory

/-- `cJSON_Parse` of a text that is a document; a text that is none leaves
nothing behind. -/
def cjsonParse (tree : CJson) (memory : Memory) : HeapRun (Node × Memory) := do
  Traced.record ((readIn tree memory).1.blocks.map .acquire)
  return readIn tree memory

def cjsonDelete (root : Node) : HeapRun Unit :=
  Traced.record (root.deleted.map .release)

/-!
## `rpc_decode_register_json`
-/

/-- The loop over the parameters of one entry, from index `j`. -/
def readNodeSlots (params types : Option Node) :
    Nat -> Nat -> List (Option Nat × Option Nat) ->
      Except Fault (List (Option Nat × Option Nat))
  | 0, _, slots => .ok slots
  | n + 1, j, slots => do
      let param ← nodeValuestring (nodeArrayItem params j)
      let type ← nodeValuestring (nodeArrayItem types j)
      if slots.length < rpcParamsMaxCount then
        readNodeSlots params types n (j + 1) (slots ++ [(param, type)])
      else .error .outOfBounds

def registerNode (find : CString -> Option SharedHandler) (memory : Memory)
    (iter : Option Node) : Except Fault CallerEntry := do
  let method ← nodeValuestring (getNodeItem memory iter (.lit "method"))
  let rettype ← nodeValuestring (getNodeItem memory iter (.lit "rettype"))
  let params := getNodeItem memory iter (.lit "params")
  let types := getNodeItem memory iter (.lit "types")
  if nodeArraySize params ≠ nodeArraySize types then .error .assertion
  else do
    let slots ← readNodeSlots params types (nodeArraySize params) 0 []
    return {
      method := method
      slots := slots
      rettype := rettype
      handler := find (methodName (method.map (textAt memory))) }

/-- The loop over `config`, from index `i`. -/
def registerNodes (find : CString -> Option SharedHandler) (memory : Memory)
    (config : Option Node) :
    Nat -> Nat -> List CallerEntry -> Except Fault (List CallerEntry)
  | 0, _, table => .ok table
  | n + 1, i, table => do
      let entry ← registerNode find memory (nodeArrayItem config i)
      registerNodes find memory config n (i + 1) (entry :: table)

/-- `free(rpc_server_ip)`, when there is an address. -/
def freeAddress : Option Nat -> HeapRun Unit
  | none => return ()
  | some block => Traced.emit (.release block)

/-- `rpc_decode_register_json` on the memory. -/
def decodeInMemory (find : CString -> Option SharedHandler)
    (json : Option CString) (s : HeapGlobals) : HeapRun (Int × HeapGlobals) :=
  match json.bind parse with
  | none => return (-1, s)
  | some tree => do
      let (root, memory) ← cjsonParse tree s.memory
      match getNodeItem memory (some root) (.lit "remote") with
      | some (.string remote) => do
          freeAddress s.rpcServerIp
          match getNodeItem memory (some root) (.lit "port") with
          | some (.number port) => do
              let config := getNodeItem memory (some root) (.lit "config")
              let table ← Traced.silent (registerNodes find memory config
                (nodeArraySize config) 0 s.rpcCallerTable)
              return (0, {
                memory := memory
                rpcCallerTable := table
                rpcServerIp := some remote
                rpcServerPort := (saturate port).toInt16 })
          | _ => do
              cjsonDelete root
              return (-4, {
                s with memory := memory, rpcServerIp := some remote })
      | _ => do
          cjsonDelete root
          return (-3, { s with memory := memory })

/-!
## What the memory stands for
-/

def CallerEntry.strings (entry : CallerEntry) : List Nat :=
  entry.method.toList ++ (entry.rettype.toList ++
    entry.slots.flatMap fun slot => slot.1.toList ++ slot.2.toList)

inductive IpDenotes (live : List Nat) (memory : Memory) :
    Option Nat -> ServerIp -> Prop where
  | null : IpDenotes live memory none .null
  | live {block : Nat} {ip : CString} (held : block ∈ live)
      (text : memory[block]? = some ip.stored) :
      IpDenotes live memory (some block) (.live ip)
  | released {block : Nat} (gone : block ∉ live)
      (old : block < memory.length) :
      IpDenotes live memory (some block) .released

structure HeapDenotes (live : List Nat) (s : HeapGlobals) (globals : Globals) :
    Prop where
  nodup : live.Nodup
  allocated : forall block, block ∈ live -> block < s.memory.length
  ip : IpDenotes live s.memory s.rpcServerIp globals.rpcServerIp
  port : s.rpcServerPort = globals.rpcServerPort
  table : s.toShared.Holds globals.rpcCallerTable
  strings : forall entry, entry ∈ s.rpcCallerTable ->
    forall block, block ∈ entry.strings -> block ∈ live
  -- the address is not one of them, and freeing it harms none
  apart : forall entry, entry ∈ s.rpcCallerTable ->
    forall block, s.rpcServerIp = some block -> block ∉ entry.strings

theorem heapDenotes_initial :
    HeapDenotes [] HeapGlobals.initial Globals.initial where
  nodup := List.nodup_nil
  allocated := fun _ h => absurd h List.not_mem_nil
  ip := .null
  port := rfl
  table := .nil
  strings := fun _ h => absurd h List.not_mem_nil
  apart := fun _ h => absurd h List.not_mem_nil

/-!
## Items and entries
-/

section

variable {memory : Memory}

theorem denotesItems_forall₂ {items : List Node} {items' : List CJson}
    (h : DenotesItems unfurnished memory items items') :
    List.Forall₂ (Denotes unfurnished memory) items items' := by
  match items, items' with
  | [], [] => exact .nil
  | _ :: _, _ :: _ => exact .cons h.left (denotesItems_forall₂ h.right)

theorem denotesMembers_forall₂ {members : List (Nat × Node)}
    {members' : List (CString × CJson)}
    (h : DenotesMembers unfurnished memory members members') :
    List.Forall₂ (Denotes unfurnished memory) (members.map Prod.snd)
      (members'.map Prod.snd) := by
  match members, members' with
  | [], [] => exact .nil
  | (_, _) :: _, (_, _) :: _ =>
      exact .cons h.right.left (denotesMembers_forall₂ h.right.right)

theorem children_denotes {node : Node} {item : CJson}
    (h : Denotes unfurnished memory node item) :
    List.Forall₂ (Denotes unfurnished memory) node.children item.children := by
  match node, item with
  | .array _, .array _ => exact denotesItems_forall₂ h
  | .object _, .object _ => exact denotesMembers_forall₂ h
  | .null, .null => exact .nil
  | .bool _, .bool _ => exact .nil
  | .number _, .number _ => exact .nil
  | .string _, .string _ => exact .nil

theorem getElem?_denotes {nodes : List Node} {items : List CJson}
    (h : List.Forall₂ (Denotes unfurnished memory) nodes items) (j : Nat) :
    DenotesOption unfurnished memory nodes[j]? items[j]? := by
  induction h generalizing j with
  | nil => exact .none
  | cons hfirst _ ih =>
      cases j with
      | zero => exact .some hfirst
      | succ j => exact ih j

theorem nodeArrayItem_denotes {array : Option Node} {array' : Option CJson}
    (h : DenotesOption unfurnished memory array array') (j : Nat) :
    DenotesOption unfurnished memory (nodeArrayItem array j)
      (getArrayItem array' j) := by
  cases h with
  | none => exact .none
  | some h => exact getElem?_denotes (children_denotes h) j

theorem nodeArraySize_denotes {array : Option Node} {array' : Option CJson}
    (h : DenotesOption unfurnished memory array array') :
    nodeArraySize array = getArraySize array' := by
  cases h with
  | none => rfl
  | some h => exact (children_denotes h).length_eq

theorem nodeValuestring_denotes {node : Option Node} {item : Option CJson}
    (h : DenotesOption unfurnished memory node item) :
    SameOutcome (PointsTo memory) (nodeValuestring node)
      (readValuestring item).result := by
  cases h with
  | none => rfl
  | some h =>
      rw [readValuestring_result_some]
      exact valuestring_denotes h

abbrev SlotDenotes (memory : Memory) (pointers : Option Nat × Option Nat)
    (strings : Option CString × Option CString) : Prop :=
  PointsTo memory pointers.1 strings.1 ∧ PointsTo memory pointers.2 strings.2

theorem readNodeSlots_denotes {params types : Option Node}
    {params' types' : Option CJson}
    (hparams : DenotesOption unfurnished memory params params')
    (htypes : DenotesOption unfurnished memory types types') (n j : Nat)
    {slots : List (Option Nat × Option Nat)} {slots' : Slots}
    (hslots : List.Forall₂ (SlotDenotes memory) slots slots'.entries) :
    SameOutcome
      (fun read read' => List.Forall₂ (SlotDenotes memory) read read'.entries)
      (readNodeSlots params types n j slots)
      (readSlots params' types' n j slots').result := by
  induction n generalizing j slots slots' with
  | zero => exact hslots
  | succ n ih =>
      have hparam := nodeValuestring_denotes (nodeArrayItem_denotes hparams j)
      have htype := nodeValuestring_denotes (nodeArrayItem_denotes htypes j)
      rw [readNodeSlots, readSlots]
      simp only [Traced.bind_result]
      refine hparam.bind fun param param' _ hparam => ?_
      refine htype.bind fun type type' _ htype => ?_
      have hlength := hslots.length_eq
      by_cases hroom : slots.length < rpcParamsMaxCount
      · have hroom' : slots'.entries.length < rpcParamsMaxCount :=
          hlength ▸ hroom
        rcases exists_store hroom' param' type' with ⟨next, hstore, hnext⟩
        rw [if_pos hroom, hstore]
        refine ih (j + 1) ?_
        rw [hnext]
        exact List.rel_append hslots (.cons ⟨hparam, htype⟩ .nil)
      · have hstore : (slots'.store param' type').result =
            .error .outOfBounds := by
          unfold Slots.store
          rw [dif_neg (hlength ▸ hroom)]
          rfl
        rw [if_neg hroom, hstore]
        rfl

variable {find : CString -> Option SharedHandler}

/-- The function that `dlsym` finds, without the memory. -/
def findHandler (find : CString -> Option SharedHandler) (symbol : CString) :
    Option Handler :=
  (find symbol).map SharedHandler.handler

theorem registerNode_denotes {iter : Option Node} {iter' : Option CJson}
    (h : DenotesOption unfurnished memory iter iter') :
    SameOutcome (EntryDenotes memory) (registerNode find memory iter)
      (registerEntry (findHandler find) iter').result := by
  have hmethod := nodeValuestring_denotes
    (getNodeItem_denotes h (.lit "method"))
  have hrettype := nodeValuestring_denotes
    (getNodeItem_denotes h (.lit "rettype"))
  have hparams := getNodeItem_denotes h (.lit "params")
  have htypes := getNodeItem_denotes h (.lit "types")
  rw [registerNode, registerEntry]
  simp only [Traced.bind_result]
  refine hmethod.bind fun method method' _ hmethod => ?_
  refine hrettype.bind fun rettype rettype' _ hrettype => ?_
  rw [nodeArraySize_denotes hparams, nodeArraySize_denotes htypes]
  by_cases hsizes : getArraySize (getObjectItem iter' (.lit "params")) =
      getArraySize (getObjectItem iter' (.lit "types"))
  · rw [if_neg (not_not.mpr hsizes), if_neg (not_not.mpr hsizes)]
    simp only [Traced.bind_result]
    have hempty : List.Forall₂ (SlotDenotes memory) [] Slots.empty.entries :=
      .nil
    have hread := readNodeSlots_denotes hparams htypes
      (getArraySize (getObjectItem iter' (.lit "params"))) 0 hempty
    refine hread.bind fun slots slots' _ hslots => ?_
    exact {
      method := hmethod
      slots := hslots
      rettype := hrettype
      handler := by
        rw [textAt_of_pointsTo hmethod]
        rfl }
  · rw [if_pos hsizes, if_pos hsizes]
    rfl

theorem registerNodes_denotes {config : Option Node} {config' : Option CJson}
    (hconfig : DenotesOption unfurnished memory config config') (n i : Nat)
    {table : List CallerEntry} {funcs : List RpcFunc}
    (h : List.Forall₂ (EntryDenotes memory) table funcs) :
    SameOutcome (List.Forall₂ (EntryDenotes memory))
      (registerNodes find memory config n i table)
      (registerEntries (findHandler find) config' n i funcs).result := by
  induction n generalizing i table funcs with
  | zero => exact h
  | succ n ih =>
      have hentry := @registerNode_denotes memory find _ _
        (nodeArrayItem_denotes hconfig i)
      rw [registerNodes, registerEntries]
      simp only [Traced.bind_result]
      refine hentry.bind fun entry func _ hentry => ?_
      exact ih (i + 1) (.cons hentry h)

end

/-!
## The strings of new entries
-/

section

variable {memory : Memory} {blocks : List Nat}

def blocksOf (node : Option Node) : List Nat :=
  (node.map Node.blocks).getD []

theorem valuestring_mem_blocks {node : Node} {block : Nat}
    (h : node.valuestring = some block) : block ∈ node.blocks := by
  match node with
  | .string b =>
      obtain rfl : b = block := Option.some.inj h
      rw [Node.blocks]
      exact List.mem_singleton_self b

theorem nodeValuestring_mem {node : Option Node} {p : Option Nat}
    (h : nodeValuestring node = .ok p) {block : Nat} (hp : p = some block) :
    block ∈ blocksOf node := by
  match node with
  | some item =>
      obtain rfl : item.valuestring = p := Except.ok.inj h
      exact valuestring_mem_blocks hp

theorem blocksOf_getNodeItem (iter : Option Node) (name : CString) :
    blocksOf (getNodeItem memory iter name) ⊆ blocksOf iter := by
  cases iter with
  | none => exact List.Subset.refl _
  | some node =>
      cases hitem : getNodeItem memory (some node) name with
      | none => exact List.nil_subset _
      | some item => exact getNodeItem_blocks hitem

theorem blocks_subset_of_mem_items {items : List Node} {node : Node}
    (h : node ∈ items) : node.blocks ⊆ blocksOfItems items := by
  induction items with
  | nil => cases h
  | cons first rest ih =>
      rw [blocksOfItems]
      rcases List.mem_cons.mp h with rfl | hrest
      · exact List.subset_append_left _ _
      · exact List.Subset.trans (ih hrest) (List.subset_append_right _ _)

theorem blocks_subset_of_mem_children {node child : Node}
    (h : child ∈ node.children) : child.blocks ⊆ node.blocks := by
  match node with
  | .array items =>
      rw [Node.blocks]
      exact blocks_subset_of_mem_items h
  | .object members =>
      rcases List.mem_map.mp h with ⟨⟨name, item⟩, hmem, rfl⟩
      rw [Node.blocks]
      exact blocks_subset_of_mem hmem

theorem blocksOf_nodeArrayItem (array : Option Node) (j : Nat) :
    blocksOf (nodeArrayItem array j) ⊆ blocksOf array := by
  cases array with
  | none => exact List.Subset.refl _
  | some item =>
      cases hchild : item.children[j]? with
      | none =>
          rw [nodeArrayItem, Option.bind_some, hchild]
          exact List.nil_subset _
      | some child =>
          rw [nodeArrayItem, Option.bind_some, hchild]
          exact blocks_subset_of_mem_children (List.mem_of_getElem? hchild)

def SlotsWithin (slots : List (Option Nat × Option Nat)) (blocks : List Nat) :
    Prop :=
  forall slot, slot ∈ slots -> forall block,
    slot.1 = some block ∨ slot.2 = some block -> block ∈ blocks

theorem readNodeSlots_within {params types : Option Node} {n j : Nat}
    {slots read : List (Option Nat × Option Nat)}
    (h : readNodeSlots params types n j slots = .ok read)
    (hparams : blocksOf params ⊆ blocks) (htypes : blocksOf types ⊆ blocks)
    (hslots : SlotsWithin slots blocks) : SlotsWithin read blocks := by
  induction n generalizing j slots with
  | zero =>
      cases h
      exact hslots
  | succ n ih =>
      rw [readNodeSlots] at h
      rcases except_bind_ok h with ⟨param, hparam, h⟩
      rcases except_bind_ok h with ⟨type, htype, h⟩
      split at h
      · refine ih h fun slot hslot block hblock => ?_
        rcases List.mem_append.mp hslot with hold | hnew
        · exact hslots slot hold block hblock
        · rw [List.mem_singleton.mp hnew] at hblock
          rcases hblock with hblock | hblock
          · exact hparams (blocksOf_nodeArrayItem params j
              (nodeValuestring_mem hparam hblock))
          · exact htypes (blocksOf_nodeArrayItem types j
              (nodeValuestring_mem htype hblock))
      · cases h

variable {find : CString -> Option SharedHandler}

theorem registerNode_strings {iter : Option Node} {entry : CallerEntry}
    (h : registerNode find memory iter = .ok entry) :
    entry.strings ⊆ blocksOf iter := by
  rw [registerNode] at h
  rcases except_bind_ok h with ⟨method, hmethod, h⟩
  rcases except_bind_ok h with ⟨rettype, hrettype, h⟩
  simp only at h
  split at h
  · cases h
  · rcases except_bind_ok h with ⟨slots, hslots, h⟩
    cases h
    have hwithin := readNodeSlots_within hslots
      (blocksOf_getNodeItem iter (.lit "params"))
      (blocksOf_getNodeItem iter (.lit "types"))
      (fun slot hslot => absurd hslot List.not_mem_nil)
    intro block hblock
    rcases List.mem_append.mp hblock with hblock | hblock
    · exact blocksOf_getNodeItem iter _
        (nodeValuestring_mem hmethod (Option.mem_toList.mp hblock))
    · rcases List.mem_append.mp hblock with hblock | hblock
      · exact blocksOf_getNodeItem iter _
          (nodeValuestring_mem hrettype (Option.mem_toList.mp hblock))
      · rcases List.mem_flatMap.mp hblock with ⟨slot, hslot, hblock⟩
        refine hwithin slot hslot block ?_
        rcases List.mem_append.mp hblock with hblock | hblock
        · exact Or.inl (Option.mem_toList.mp hblock)
        · exact Or.inr (Option.mem_toList.mp hblock)

theorem registerNodes_strings {config : Option Node} {n i : Nat}
    {table table' : List CallerEntry}
    (h : registerNodes find memory config n i table = .ok table') :
    forall entry, entry ∈ table' ->
      entry ∈ table ∨ entry.strings ⊆ blocksOf config := by
  induction n generalizing i table with
  | zero =>
      cases h
      exact fun entry hentry => Or.inl hentry
  | succ n ih =>
      rw [registerNodes] at h
      rcases except_bind_ok h with ⟨first, hfirst, h⟩
      intro entry hentry
      rcases ih h entry hentry with hold | hnew
      · rcases List.mem_cons.mp hold with rfl | hold
        · exact Or.inr (List.Subset.trans (registerNode_strings hfirst)
            (blocksOf_nodeArrayItem config i))
        · exact Or.inl hold
      · exact Or.inr hnew

end

/-!
## One call
-/

mutual

theorem deleted_perm (node : Node) : node.deleted.Perm node.blocks := by
  match node with
  | .null => exact .refl _
  | .bool _ => exact .refl _
  | .number _ => exact .refl _
  | .string _ => exact .refl _
  | .array items =>
      rw [Node.deleted, Node.blocks]
      exact deletedOfItems_perm items
  | .object members =>
      rw [Node.deleted, Node.blocks]
      exact deletedOfMembers_perm members

theorem deletedOfItems_perm (items : List Node) :
    (deletedOfItems items).Perm (blocksOfItems items) := by
  match items with
  | [] => exact .refl _
  | item :: rest =>
      rw [deletedOfItems, blocksOfItems]
      exact (deleted_perm item).append (deletedOfItems_perm rest)

theorem deletedOfMembers_perm (members : List (Nat × Node)) :
    (deletedOfMembers members).Perm (blocksOfMembers members) := by
  match members with
  | [] => exact .refl _
  | (name, item) :: rest =>
      rw [deletedOfMembers, blocksOfMembers]
      have hrest := (deletedOfMembers_perm rest).cons name
      exact ((deleted_perm item).append hrest).trans List.perm_middle

end

theorem exists_ok_of_sameOutcome {α β : Type} {r : α -> β -> Prop}
    {x : Except Fault α} {b : β} (h : SameOutcome r x (.ok b)) :
    exists a, x = .ok a ∧ r a b := by
  match x with
  | .ok a => exact ⟨a, rfl, h⟩

structure Parsed (live : List Nat) (memory : Memory) (root : Node)
    (memory' : Memory) : Prop where
  grows : memory <+: memory'
  nodup : root.blocks.Nodup
  fresh : forall block, block ∈ root.blocks ->
    memory.length <= block ∧ block < memory'.length
  ledger : Foundation.ledger live (root.blocks.map .acquire) =
    some (root.blocks.reverse ++ live)

theorem parsed_place (tree : CJson) (memory : Memory) (live : List Nat) :
    Parsed live memory (readIn tree memory).1 (readIn tree memory).2 := by
  have happends : Appends memory (readIn tree memory).2
      (readIn tree memory).1.blocks := place_appends unfurnished tree memory
  rcases happends with ⟨hextends, hblocks⟩
  have hle := hextends.length_le
  refine ⟨hextends, ?_, fun block hblock => ?_, ledger_acquires _ _⟩
  · rw [hblocks]
    exact List.nodup_range'
  · rw [hblocks, List.mem_range'_1] at hblock
    omega

section

variable {memory : Memory} {node : Option Node} {item : Option CJson}

theorem exists_string_of_denotes {s : CString}
    (h : DenotesOption unfurnished memory node (some (.string s))) :
    exists block, node = some (.string block) ∧
      memory[block]? = some s.stored := by
  cases h with
  | @some found _ h =>
      match found with
      | .string block =>
          have hstored : memory[block]? = some (s.stored ++ []) := h
          rw [List.append_nil] at hstored
          exact ⟨block, rfl, hstored⟩

theorem ne_string_of_denotes (h : DenotesOption unfurnished memory node item)
    (hitem : forall s, item ≠ some (.string s)) (block : Nat) :
    node ≠ some (.string block) := by
  intro hnode
  subst hnode
  cases h with
  | @some _ found h =>
      match found with
      | .string s => exact hitem s rfl

theorem number_of_denotes {d : Double}
    (h : DenotesOption unfurnished memory node (some (.number d))) :
    node = some (.number d) := by
  cases h with
  | @some found _ h =>
      match found with
      | .number d' =>
          obtain rfl : d' = d := h
          rfl

theorem ne_number_of_denotes (h : DenotesOption unfurnished memory node item)
    (hitem : forall d, item ≠ some (.number d)) (d : Double) :
    node ≠ some (.number d) := by
  intro hnode
  subst hnode
  cases h with
  | @some _ found h =>
      match found with
      | .number d' => exact hitem d' rfl

end

section

variable {find : CString -> Option SharedHandler} {json : Option CString}
  {s : HeapGlobals} {tree : CJson} {remote : Nat}

theorem cjsonParse_bind {α : Type} (tree : CJson) (memory : Memory)
    (f : Node × Memory -> HeapRun α) :
    cjsonParse tree memory >>= f =
      ⟨(readIn tree memory).1.blocks.map .acquire ++
          (f (readIn tree memory)).events,
        (f (readIn tree memory)).result⟩ := by
  have hresult : (cjsonParse tree memory).result = .ok (readIn tree memory) :=
    rfl
  rw [Traced.bind_of_ok hresult, cjsonParse, Traced.record_bind,
    Traced.pure_events, List.append_nil]

theorem freeAddress_bind {α : Type} (ip : Option Nat)
    (f : Unit -> HeapRun α) :
    freeAddress ip >>= f =
      ⟨(freeAddress ip).events ++ (f ()).events, (f ()).result⟩ := by
  cases ip with
  | none => rfl
  | some block => rfl

theorem decodeInMemory_of_no_document (hparse : json.bind parse = none) :
    decodeInMemory find json s = pure (-1, s) := by
  rw [decodeInMemory, hparse]

theorem decodeInMemory_of_no_remote (hparse : json.bind parse = some tree)
    (hremote : forall block,
      getNodeItem (readIn tree s.memory).2 (some (readIn tree s.memory).1)
        (.lit "remote") ≠ some (.string block)) :
    decodeInMemory find json s =
      ⟨(readIn tree s.memory).1.blocks.map .acquire ++
          (readIn tree s.memory).1.deleted.map .release,
        .ok (-3, { s with memory := (readIn tree s.memory).2 })⟩ := by
  rw [decodeInMemory, hparse]
  simp only [cjsonParse_bind]
  rw [cjsonDelete, Traced.record_bind, Traced.pure_events, List.append_nil]
  rfl

theorem decodeInMemory_of_no_port (hparse : json.bind parse = some tree)
    (hremote : getNodeItem (readIn tree s.memory).2
      (some (readIn tree s.memory).1) (.lit "remote") = some (.string remote))
    (hport : forall d, getNodeItem (readIn tree s.memory).2
      (some (readIn tree s.memory).1) (.lit "port") ≠ some (.number d)) :
    decodeInMemory find json s =
      ⟨(readIn tree s.memory).1.blocks.map .acquire ++
          ((freeAddress s.rpcServerIp).events ++
            (readIn tree s.memory).1.deleted.map .release),
        .ok (-4, {
          s with
          memory := (readIn tree s.memory).2
          rpcServerIp := some remote })⟩ := by
  rw [decodeInMemory, hparse]
  simp only [cjsonParse_bind, hremote, freeAddress_bind]
  rw [cjsonDelete, Traced.record_bind, Traced.pure_events, List.append_nil]
  rfl

theorem decodeInMemory_of_port {d : Double} {table : List CallerEntry}
    (hparse : json.bind parse = some tree)
    (hremote : getNodeItem (readIn tree s.memory).2
      (some (readIn tree s.memory).1) (.lit "remote") = some (.string remote))
    (hport : getNodeItem (readIn tree s.memory).2
      (some (readIn tree s.memory).1) (.lit "port") = some (.number d))
    (htable : registerNodes find (readIn tree s.memory).2
      (getNodeItem (readIn tree s.memory).2 (some (readIn tree s.memory).1)
        (.lit "config"))
      (nodeArraySize (getNodeItem (readIn tree s.memory).2
        (some (readIn tree s.memory).1) (.lit "config"))) 0
      s.rpcCallerTable = .ok table) :
    decodeInMemory find json s =
      ⟨(readIn tree s.memory).1.blocks.map .acquire ++
          (freeAddress s.rpcServerIp).events,
        .ok (0, {
          memory := (readIn tree s.memory).2
          rpcCallerTable := table
          rpcServerIp := some remote
          rpcServerPort := (saturate d).toInt16 })⟩ := by
  rw [decodeInMemory, hparse]
  simp only [cjsonParse_bind, hremote, freeAddress_bind, hport, htable]
  rw [Traced.bind_of_ok (show (Traced.silent (Except.ok table) :
    HeapRun (List CallerEntry)).result = .ok table from rfl)]
  simp only [Traced.silent, Traced.pure_events, List.append_nil]
  rfl

end

/-!
## The ledger of a call
-/

section

variable {live held : List Nat} {s : HeapGlobals} {globals : Globals}
  {root : Node} {memory : Memory}

theorem Parsed.nodup_held (hparsed : Parsed live s.memory root memory)
    (h : HeapDenotes live s globals) :
    (root.blocks.reverse ++ live).Nodup := by
  refine List.Nodup.append (List.nodup_reverse.mpr hparsed.nodup) h.nodup ?_
  intro block hblock hlive
  have hfresh := (hparsed.fresh block (List.mem_reverse.mp hblock)).left
  have hold := h.allocated block hlive
  omega

theorem Parsed.not_mem_live (hparsed : Parsed live s.memory root memory)
    (h : HeapDenotes live s globals) {block : Nat}
    (hblock : block ∈ root.blocks) : block ∉ live := by
  intro hlive
  have hfresh := (hparsed.fresh block hblock).left
  have hold := h.allocated block hlive
  omega

theorem Parsed.string_apart (hparsed : Parsed live s.memory root memory)
    {block : Nat} {name name' : CString}
    (hnode : getNodeItem memory (some root) name = some (.string block))
    (hnames : sameName name name' = false) :
    block ∉ blocksOf (getNodeItem memory (some root) name') := by
  cases hitem : getNodeItem memory (some root) name' with
  | none => exact List.not_mem_nil
  | some item =>
      have hdisjoint := getNodeItem_disjoint hparsed.nodup hnode hitem hnames
      rw [Node.blocks] at hdisjoint
      exact List.singleton_disjoint.mp hdisjoint

structure Freed (live : List Nat) (s : HeapGlobals) (root : Node)
    (held : List Nat) : Prop where
  nodup : held.Nodup
  mem : forall block, block ∈ held <->
    block ∈ root.blocks ∨ block ∈ live ∧ s.rpcServerIp ≠ some block

theorem exists_freed (hparsed : Parsed live s.memory root memory)
    (h : HeapDenotes live s globals) (hip : Freeable globals.rpcServerIp) :
    exists held,
      ledger live (root.blocks.map .acquire ++
        (freeAddress s.rpcServerIp).events) = some held ∧
      Freed live s root held := by
  have hnodup := hparsed.nodup_held h
  have hdenotes := h.ip
  rw [ledger_append, hparsed.ledger, Option.bind_some]
  cases hold : s.rpcServerIp with
  | none =>
      refine ⟨_, rfl, hnodup, fun block => ?_⟩
      rw [List.mem_append, List.mem_reverse, hold]
      simp
  | some old =>
      rw [hold] at hdenotes
      have hlive : old ∈ live := by
        generalize globals.rpcServerIp = ip at hip hdenotes
        cases hdenotes with
        | live held _ => exact held
        | released _ _ => exact absurd rfl hip
      have hmem : old ∈ root.blocks.reverse ++ live :=
        List.mem_append_right _ hlive
      have hnew : old ∉ root.blocks := fun hblock =>
        hparsed.not_mem_live h hblock hlive
      refine ⟨_, ledger_release hmem, hnodup.erase old, fun block => ?_⟩
      rw [hnodup.mem_erase_iff, List.mem_append, List.mem_reverse, hold, ne_eq,
        ne_eq, Option.some.injEq]
      constructor
      · intro hkept
        exact hkept.right.imp_right fun hblock =>
          ⟨hblock, fun heq => hkept.left heq.symm⟩
      · intro hkept
        rcases hkept with hblock | ⟨hblock, hne⟩
        · exact ⟨fun heq => hnew (heq ▸ hblock), Or.inl hblock⟩
        · exact ⟨fun heq => hne heq.symm, Or.inr hblock⟩

theorem exists_deleted (hparsed : Parsed live s.memory root memory)
    (hheld : held.Nodup) (hblocks : root.blocks ⊆ held) :
    exists after, ledger held (root.deleted.map .release) = some after ∧
      after.Nodup ∧ forall block, block ∈ after <->
        block ∈ held ∧ block ∉ root.blocks := by
  have hperm := deleted_perm root
  rcases ledger_releases hheld (hperm.nodup_iff.mpr hparsed.nodup)
    (fun block hblock => hblocks (hperm.subset hblock))
    with ⟨after, hledger, hnodup, hmem⟩
  refine ⟨after, hledger, hnodup, fun block => ?_⟩
  rw [hmem, hperm.mem_iff]

theorem ipDenotes_grows {live' : List Nat} {p : Option Nat} {ip : ServerIp}
    (hgrows : s.memory <+: memory)
    (hmem : forall block, block < s.memory.length ->
      (block ∈ live' <-> block ∈ live))
    (hallocated : forall block, block ∈ live -> block < s.memory.length)
    (h : IpDenotes live s.memory p ip) : IpDenotes live' memory p ip := by
  cases h with
  | null => exact .null
  | live held text =>
      exact .live ((hmem _ (hallocated _ held)).mpr held)
        (getElem?_of_extends hgrows text)
  | released gone old =>
      exact .released (fun hlive => gone ((hmem _ old).mp hlive))
        (Nat.lt_of_lt_of_le old hgrows.length_le)

theorem HeapDenotes.holds (h : HeapDenotes live s globals)
    (hgrows : s.memory <+: memory) :
    List.Forall₂ (EntryDenotes memory) s.rpcCallerTable
      globals.rpcCallerTable :=
  h.table.imp fun _ _ => entryDenotes_of_extends hgrows

theorem HeapDenotes.grows {live' : List Nat} (h : HeapDenotes live s globals)
    (hgrows : s.memory <+: memory) (hnodup : live'.Nodup)
    (hmem : forall block, block ∈ live' <-> block ∈ live) :
    HeapDenotes live' { s with memory := memory } globals where
  nodup := hnodup
  allocated block hblock :=
    Nat.lt_of_lt_of_le (h.allocated block ((hmem block).mp hblock))
      hgrows.length_le
  ip := ipDenotes_grows hgrows (fun block _ => hmem block) h.allocated h.ip
  port := h.port
  table := h.holds hgrows
  strings entry hentry block hblock :=
    (hmem block).mpr (h.strings entry hentry block hblock)
  apart := h.apart

theorem HeapDenotes.dropped {live' : List Nat} {remote : Nat}
    (h : HeapDenotes live s globals)
    (hparsed : Parsed live s.memory root memory) (hnodup : live'.Nodup)
    (hmem : forall block, block ∈ live' <->
      block ∈ live ∧ s.rpcServerIp ≠ some block)
    (hremote : remote ∈ root.blocks) :
    HeapDenotes live' { s with memory := memory, rpcServerIp := some remote }
      { globals with rpcServerIp := .released } where
  nodup := hnodup
  allocated block hblock :=
    Nat.lt_of_lt_of_le (h.allocated block ((hmem block).mp hblock).left)
      hparsed.grows.length_le
  ip := .released
    (fun hlive => hparsed.not_mem_live h hremote ((hmem remote).mp hlive).left)
    (hparsed.fresh remote hremote).right
  port := h.port
  table := h.holds hparsed.grows
  strings entry hentry block hblock :=
    (hmem block).mpr ⟨h.strings entry hentry block hblock,
      fun hip => h.apart entry hentry block hip hblock⟩
  apart entry hentry block hip hblock := by
    obtain rfl : remote = block := Option.some.inj hip
    exact hparsed.not_mem_live h hremote (h.strings entry hentry _ hblock)

theorem HeapDenotes.kept {remote : Nat} {ip : CString} {port : Int16}
    {table : List CallerEntry} {funcs : List RpcFunc} {config : Option Node}
    (h : HeapDenotes live s globals)
    (hparsed : Parsed live s.memory root memory)
    (hfreed : Freed live s root held)
    (hremote : remote ∈ root.blocks) (htext : memory[remote]? = some ip.stored)
    (hconfig : blocksOf config ⊆ root.blocks)
    (hapart : remote ∉ blocksOf config)
    (hholds : List.Forall₂ (EntryDenotes memory) table funcs)
    (hstrings : forall entry, entry ∈ table ->
      entry ∈ s.rpcCallerTable ∨ entry.strings ⊆ blocksOf config) :
    HeapDenotes held
      { memory := memory
        rpcCallerTable := table
        rpcServerIp := some remote
        rpcServerPort := port }
      { globals with
        rpcServerIp := .live ip
        rpcServerPort := port
        rpcCallerTable := funcs } where
  nodup := hfreed.nodup
  allocated block hblock := by
    rcases (hfreed.mem block).mp hblock with hnew | hold
    · exact (hparsed.fresh block hnew).right
    · exact Nat.lt_of_lt_of_le (h.allocated block hold.left)
        hparsed.grows.length_le
  ip := .live ((hfreed.mem remote).mpr (Or.inl hremote)) htext
  port := rfl
  table := hholds
  strings entry hentry block hblock := by
    apply (hfreed.mem block).mpr
    rcases hstrings entry hentry with hold | hnew
    · exact Or.inr ⟨h.strings entry hold block hblock,
        fun hip => h.apart entry hold block hip hblock⟩
    · exact Or.inl (hconfig (hnew hblock))
  apart entry hentry block hip hblock := by
    obtain rfl : remote = block := Option.some.inj hip
    rcases hstrings entry hentry with hold | hnew
    · exact hparsed.not_mem_live h hremote (h.strings entry hold _ hblock)
    · exact hapart (hnew hblock)

end

/-!
## A call on memory and on values
-/

section

variable {live : List Nat} {s : HeapGlobals} {globals after : Globals}
  {find : CString -> Option SharedHandler} {json : Option CString}
  {code : Int}

def Follows (find : CString -> Option SharedHandler) (live : List Nat)
    (s : HeapGlobals) (json : Option CString) (code : Int)
    (after : Globals) : Prop :=
  exists live' s', (decodeInMemory find json s).result = .ok (code, s') ∧
    ledger live (decodeInMemory find json s).events = some live' ∧
    HeapDenotes live' s' after

theorem denotes_root (tree : CJson) (memory : Memory) :
    DenotesOption unfurnished (readIn tree memory).2 (some (readIn tree memory).1)
      (some tree) :=
  .some (denotes_place tree memory)

theorem exists_placed_string {tree : CJson} {name string : CString}
    (h : getObjectItem (some tree) name = some (.string string))
    (memory : Memory) :
    exists block,
      getNodeItem (readIn tree memory).2 (some (readIn tree memory).1) name =
        some (.string block) ∧
      (readIn tree memory).2[block]? = some string.stored ∧
      block ∈ (readIn tree memory).1.blocks := by
  have hfound := getNodeItem_denotes (denotes_root tree memory) name
  rw [h] at hfound
  rcases exists_string_of_denotes hfound with ⟨block, hnode, htext⟩
  exact ⟨block, hnode, htext,
    getNodeItem_blocks hnode (List.mem_singleton_self block)⟩

theorem follows_of_no_remote {tree : CJson} (h : HeapDenotes live s globals)
    (hparse : json.bind parse = some tree)
    (hremote : forall remote,
      getObjectItem (some tree) (.lit "remote") ≠ some (.string remote)) :
    Follows find live s json (-3) globals := by
  have hparsed := parsed_place tree s.memory live
  have hroot := denotes_root tree s.memory
  have hdecode := @decodeInMemory_of_no_remote find json s tree hparse
    (ne_string_of_denotes (getNodeItem_denotes hroot _) hremote)
  rcases exists_deleted hparsed (hparsed.nodup_held h)
    (fun block hblock => List.mem_append_left _ (List.mem_reverse.mpr hblock))
    with ⟨live', hledger, hnodup, hmem⟩
  have hsame (block : Nat) : block ∈ live' <-> block ∈ live := by
    rw [hmem, List.mem_append, List.mem_reverse]
    constructor
    · intro hblock
      exact hblock.left.resolve_left hblock.right
    · intro hblock
      exact ⟨Or.inr hblock, fun hroot =>
        hparsed.not_mem_live h hroot hblock⟩
  rw [Follows, hdecode]
  refine ⟨live', _, rfl, ?_, h.grows hparsed.grows hnodup hsame⟩
  rw [ledger_append, hparsed.ledger, Option.bind_some, hledger]

theorem follows_of_no_port {tree : CJson} {remote : CString}
    (h : HeapDenotes live s globals) (hip : Freeable globals.rpcServerIp)
    (hparse : json.bind parse = some tree)
    (hremote : getObjectItem (some tree) (.lit "remote") =
      some (.string remote))
    (hport : forall port,
      getObjectItem (some tree) (.lit "port") ≠ some (.number port)) :
    Follows find live s json (-4)
      { globals with rpcServerIp := .released } := by
  have hparsed := parsed_place tree s.memory live
  have hroot := denotes_root tree s.memory
  rcases exists_placed_string hremote s.memory with ⟨block, hnode, _, hblock⟩
  have hdecode := @decodeInMemory_of_no_port find json s tree block hparse
    hnode (ne_number_of_denotes (getNodeItem_denotes hroot _) hport)
  rcases exists_freed hparsed h hip with ⟨held, hfree, hfreed⟩
  rcases exists_deleted hparsed hfreed.nodup
    (fun block hblock => (hfreed.mem block).mpr (Or.inl hblock))
    with ⟨live', hledger, hnodup, hmem⟩
  have hsame (block : Nat) : block ∈ live' <->
      block ∈ live ∧ s.rpcServerIp ≠ some block := by
    rw [hmem, hfreed.mem]
    constructor
    · intro hblock
      exact hblock.left.resolve_left hblock.right
    · intro hblock
      exact ⟨Or.inr hblock, fun hroot =>
        hparsed.not_mem_live h hroot hblock.left⟩
  rw [Follows, hdecode]
  refine ⟨live', _, rfl, ?_, h.dropped hparsed hnodup hsame hblock⟩
  rw [<- List.append_assoc, ledger_append, hfree, Option.bind_some, hledger]

theorem follows_of_port {tree : CJson} {remote : CString} {port : Double}
    {table : List RpcFunc} (h : HeapDenotes live s globals)
    (hip : Freeable globals.rpcServerIp) (hparse : json.bind parse = some tree)
    (hremote : getObjectItem (some tree) (.lit "remote") =
      some (.string remote))
    (hport : getObjectItem (some tree) (.lit "port") = some (.number port))
    (htable : (registerEntries (findHandler find)
      (getObjectItem (some tree) (.lit "config"))
      (getArraySize (getObjectItem (some tree) (.lit "config"))) 0
      globals.rpcCallerTable).result = .ok table) :
    Follows find live s json 0 {
      globals with
      rpcServerIp := .live remote
      rpcServerPort := (saturate port).toInt16
      rpcCallerTable := table } := by
  have hparsed := parsed_place tree s.memory live
  have hroot := denotes_root tree s.memory
  rcases exists_placed_string hremote s.memory
    with ⟨block, hnode, htext, hblock⟩
  have hnumber := getNodeItem_denotes hroot (.lit "port")
  have hconfig := getNodeItem_denotes hroot (.lit "config")
  rw [hport] at hnumber
  have hentries := @registerNodes_denotes _ find _ _ hconfig
    (getArraySize (getObjectItem (some tree) (.lit "config"))) 0 _ _
    (h.holds hparsed.grows)
  rw [htable, <- nodeArraySize_denotes hconfig] at hentries
  rcases exists_ok_of_sameOutcome hentries with ⟨entries, hrun, hholds⟩
  have hdecode := decodeInMemory_of_port hparse hnode
    (number_of_denotes hnumber) hrun
  rcases exists_freed hparsed h hip with ⟨held, hfree, hfreed⟩
  rw [Follows, hdecode]
  exact ⟨held, _, rfl, hfree, h.kept hparsed hfreed hblock htext
    (blocksOf_getNodeItem _ _) (hparsed.string_apart hnode (by decide)) hholds
    (registerNodes_strings hrun)⟩

theorem follows_of_no_document (h : HeapDenotes live s globals)
    (hparse : json.bind parse = none) :
    Follows find live s json (-1) globals := by
  rw [Follows, decodeInMemory_of_no_document hparse]
  exact ⟨live, s, rfl, rfl, h⟩

theorem follows_of_decode (h : HeapDenotes live s globals)
    (hcall : (rpcDecodeRegisterJson (findHandler find) json globals).result =
      .ok (code, after)) : Follows find live s json code after := by
  cases hparse : json.bind parse with
  | none =>
      rw [rpcDecodeRegisterJson, hparse] at hcall
      cases hcall
      exact follows_of_no_document h hparse
  | some tree =>
      rcases Option.bind_eq_some_iff.mp hparse with ⟨text, rfl, htext⟩
      by_cases hremote : exists remote,
          getObjectItem (some tree) (.lit "remote") = some (.string remote)
      · rcases hremote with ⟨remote, hremote⟩
        by_cases hport : exists port,
            getObjectItem (some tree) (.lit "port") = some (.number port)
        · rcases hport with ⟨port, hport⟩
          rw [rpcDecodeRegisterJson_of_port htext hremote hport] at hcall
          rcases Traced.bind_result_ok_iff.mp hcall with ⟨_, hip, hcall⟩
          rcases Traced.bind_result_ok_iff.mp hcall with ⟨table, htable, hcall⟩
          cases hcall
          exact follows_of_port h (freeServerIp_result_ok_iff.mp hip) hparse
            hremote hport htable
        · rw [not_exists] at hport
          rw [rpcDecodeRegisterJson_of_no_port htext hremote hport] at hcall
          rcases Traced.bind_result_ok_iff.mp hcall with ⟨_, hip, hcall⟩
          cases hcall
          exact follows_of_no_port h (freeServerIp_result_ok_iff.mp hip) hparse
            hremote hport
      · rw [not_exists] at hremote
        rw [rpcDecodeRegisterJson_of_no_remote htext hremote] at hcall
        cases hcall
        exact follows_of_no_remote h hparse hremote

end

end Dispatch
end Z2wRpc
