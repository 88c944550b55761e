import Z2wRpc.Dispatch.Memory
import Z2wRpc.Dispatch.Method
import Z2wRpc.Dispatch.Process

/-!
# Processing a request in shared memory

All requests are processed in one memory and over one caller table, whose
strings are blocks of that memory.  A handler passes pointers into the parsed
request to its method, and the string methods edit what they point to.
-/

namespace Z2wRpc

open Foundation

namespace Dispatch

open CJson

/-!
## Methods and their handlers
-/

/-- An argument of `rpc_<method>`; a string is passed as a pointer. -/
inductive Argument where
  | value (v : Value)
  | pointer (p : Option Nat)

inductive MethodBody where
  -- the message is edited in place and returned
  | edit (rpc : List Byte -> Int32 -> Option (List Byte))
  | number (rpc : List Value -> Option Double)

def MethodBody.body [FreshMemory] : MethodBody -> Body
  | edit rpc => editMessage rpc
  | number rpc => .number rpc

def MethodBody.returnsText : MethodBody -> Bool
  | edit _ => true
  | number _ => false

theorem MethodBody.body_returnsText [FreshMemory] (body : MethodBody) :
    body.body.returnsText = body.returnsText := by
  cases body <;> rfl

structure SharedHandler where
  params : List (CString × CString)
  rettype : CString
  body : MethodBody
  returns : body.returnsText = isCharPointer rettype

def SharedHandler.handler [FreshMemory] (handler : SharedHandler) :
    Handler where
  params := handler.params
  rettype := handler.rettype
  body := handler.body.body
  returns := handler.body.body_returnsText.trans handler.returns

def pointeeAt (memory : Memory) : Option Nat -> List Byte
  | none => []
  | some block => memory[block]?.getD []

def Argument.read (memory : Memory) : Argument -> Value
  | value v => v
  | pointer p => .text (p.map (textAt memory))

def writeBack (memory : Memory) (p : Option Nat) (bytes : List Byte) : Memory :=
  match p with
  | none => memory
  | some block => memory.set block bytes

/-- A call of the method: the item under `result`, and the memory afterwards. -/
def MethodBody.run (memory : Memory) (args : List Argument) :
    MethodBody -> Except Fault (Option CJson × Memory)
  | edit rpc =>
      match args with
      | [.pointer p, .value (.int length)] =>
          match rpc (pointeeAt memory p) length with
          | none => .error .outOfBounds
          | some edited =>
              let memory' := writeBack memory p edited
              .ok (p.map fun block => .string (textAt memory' block), memory')
      | _ => .error .outOfBounds
  | number rpc =>
      match rpc (args.map (Argument.read memory)) with
      | none => .error .outOfBounds
      | some ret => .ok (some (.number ret), memory)

def nodeArg (type : CString) : Option Node -> Except Fault Argument
  | none => .error .absentItem
  | some item =>
      if isCharPointer type then .ok (.pointer item.valuestring)
      else .ok (.value (converted type item.valueint))

def nodeArgs (memory : Memory) (params : Option Node) :
    List (CString × CString) -> Except Fault (List Argument)
  | [] => .ok []
  | (name, type) :: rest => do
      let arg ← nodeArg type (getNodeItem memory params name)
      let args ← nodeArgs memory params rest
      return arg :: args

/-- The emitted function; `method` is `task->method`, read after the call. -/
def SharedHandler.run (handler : SharedHandler) (memory : Memory)
    (params : Option Node) (method : Option Nat) (callerid : UInt32) :
    Except Fault (Option CString × Memory) := do
  let args ← nodeArgs memory params handler.params
  let returned ← handler.body.run memory args
  return (some (print (responseDocument (method.map (textAt returned.2))
    returned.1 callerid)), returned.2)

/-!
## The table and `rpc_process`
-/

/-- An entry of `rpc_caller_table`; its strings are pointers. -/
structure CallerEntry where
  method : Option Nat
  slots : List (Option Nat × Option Nat)
  rettype : Option Nat
  handler : Option SharedHandler

structure Shared where
  memory : Memory
  rpcCallerTable : List CallerEntry

/-- `0 == strcmp(name, method->valuestring)`. -/
def sameAt (memory : Memory) (name : Option Nat) (method : Option Node) :
    Except Fault Bool :=
  match method with
  | none => .error .absentItem
  | some item =>
      match name, item.valuestring with
      | some a, some b => .ok (textAt memory a == textAt memory b)
      | _, _ => .error .nullString

def findEntry (memory : Memory) (method : Option Node) :
    List CallerEntry -> Except Fault (Option CallerEntry)
  | [] => .ok none
  | entry :: rest => do
      let same ← sameAt memory entry.method method
      if same then return some entry else findEntry memory method rest

def processRoot (table : List CallerEntry) (memory : Memory) (root : Node) :
    Except Fault (Option CString × Memory) := do
  let method := getNodeItem memory (some root) (.lit "method")
  let params := getNodeItem memory (some root) (.lit "params")
  let callerid := getNodeItem memory (some root) (.lit "callerid")
  let found ← findEntry memory method table
  match found with
  | none => return (none, memory)
  | some entry =>
      match method, callerid, entry.handler with
      | none, _, _ => .error .absentItem
      | some _, none, _ => .error .absentItem
      | some _, some _, none => .error .nullHandler
      | some method, some callerid, some handler =>
          handler.run memory params method.valuestring
            callerid.valueint.toUInt32

def behindOf [FreshMemory] (payload : CString) (start block : Nat) : List Byte :=
  ((rooms payload)[block - start]?.getD .empty).bytes

/-- `rpc_process`: the reply and the shared state afterwards. -/
def Shared.process [FreshMemory] (shared : Shared) (payload : CString) :
    Except Fault (Option CString) × Shared :=
  match parse payload with
  | none => (.ok none, shared)
  | some root =>
      let placed := place (behindOf payload shared.memory.length) root
        shared.memory
      match processRoot shared.rpcCallerTable placed.2 placed.1 with
      | .ok (response, memory) =>
          (.ok response, { shared with memory := memory })
      | .error e => (.error e, { shared with memory := placed.2 })

/-!
## What the table stands for
-/

structure EntryDenotes [FreshMemory] (memory : Memory)
    (entry : CallerEntry) (func : RpcFunc) : Prop where
  method : PointsTo memory entry.method func.method
  slots : List.Forall₂ (fun pointers strings =>
    PointsTo memory pointers.1 strings.1 ∧
      PointsTo memory pointers.2 strings.2) entry.slots func.slots.entries
  rettype : PointsTo memory entry.rettype func.rettype
  handler : func.handler = entry.handler.map SharedHandler.handler

def Shared.Holds [FreshMemory] (shared : Shared) (table : List RpcFunc) : Prop :=
  List.Forall₂ (EntryDenotes shared.memory) shared.rpcCallerTable table

theorem pointsTo_of_extends {memory memory' : Memory} {p : Option Nat}
    {s : Option CString} (hextends : memory <+: memory')
    (h : PointsTo memory p s) : PointsTo memory' p s := by
  cases h with
  | none => exact Option.Rel.none
  | some h =>
      rcases h with ⟨rest, h⟩
      exact Option.Rel.some ⟨rest, getElem?_of_extends hextends h⟩

theorem entryDenotes_of_extends [FreshMemory] {memory memory' : Memory}
    {entry : CallerEntry} {func : RpcFunc} (hextends : memory <+: memory')
    (h : EntryDenotes memory entry func) : EntryDenotes memory' entry func where
  method := pointsTo_of_extends hextends h.method
  slots := h.slots.imp fun _ _ hslot =>
    ⟨pointsTo_of_extends hextends hslot.left,
      pointsTo_of_extends hextends hslot.right⟩
  rettype := pointsTo_of_extends hextends h.rettype
  handler := h.handler

/-!
## The same outcome with and without the memory
-/

def SameOutcome {α β : Type} (r : α -> β -> Prop) :
    Except Fault α -> Except Fault β -> Prop
  | .ok a, .ok b => r a b
  | .error e, .error e' => e = e'
  | _, _ => False

theorem SameOutcome.bind {α β α' β' : Type} {r : α -> β -> Prop}
    {r' : α' -> β' -> Prop} {x : Except Fault α} {y : Except Fault β}
    {f : α -> Except Fault α'} {g : β -> Except Fault β'}
    (h : SameOutcome r x y)
    (hnext : forall a b, x = .ok a -> r a b -> SameOutcome r' (f a) (g b)) :
    SameOutcome r' (x >>= f) (y >>= g) := by
  match x, y with
  | .ok a, .ok b => exact hnext a b rfl h
  | .error e, .error e' => exact h

theorem SameOutcome.imp {α β : Type} {r r' : α -> β -> Prop}
    {x : Except Fault α} {y : Except Fault β} (h : SameOutcome r x y)
    (himp : forall a b, r a b -> r' a b) : SameOutcome r' x y := by
  match x, y with
  | .ok a, .ok b => exact himp a b h
  | .error e, .error e' => exact h

theorem except_bind_ok {α β : Type} {x : Except Fault α}
    {f : α -> Except Fault β} {b : β} (h : x >>= f = .ok b) :
    exists a, x = .ok a ∧ f a = .ok b := by
  cases x with
  | ok a => exact ⟨a, rfl, h⟩
  | error e => cases h

section

variable {memory : Memory} {behind : Nat -> List Byte}

theorem sameAt_denotes {p : Option Nat} {name : Option CString}
    {method : Option Node} {item : Option CJson}
    (hp : PointsTo memory p name)
    (hmethod : DenotesOption behind memory method item) :
    SameOutcome Eq (sameAt memory p method)
      (readValuestring item >>= sameString name).result := by
  cases hmethod with
  | none => rfl
  | @some node item hnode =>
      have hread : (readValuestring (some item)).result =
          .ok item.valuestring := readValuestring_result_some item
      have hvalue := valuestring_denotes hnode
      rw [Traced.bind_of_ok hread]
      simp only [sameAt]
      generalize node.valuestring = q at hvalue ⊢
      generalize item.valuestring = value at hvalue ⊢
      cases hp with
      | none => rfl
      | @some a s ha =>
          cases hvalue with
          | none => rfl
          | @some b s' hb =>
              have heq : (textAt memory a == textAt memory b) = (s == s') := by
                rw [textAt_of_stored ha, textAt_of_stored hb]
              exact heq

theorem findEntry_denotes [FreshMemory] {method : Option Node} {item : Option CJson}
    {table : List CallerEntry} {funcs : List RpcFunc}
    (hmethod : DenotesOption behind memory method item)
    (htable : List.Forall₂ (EntryDenotes memory) table funcs) :
    SameOutcome (Option.Rel (EntryDenotes memory))
      (findEntry memory method table)
      (findFunc (readValuestring item) funcs).result := by
  induction htable with
  | nil => exact Option.Rel.none
  | @cons entry func rest funcs hentry _ ih =>
      have hsame := sameAt_denotes hentry.method hmethod
      rw [Traced.bind_result] at hsame
      simp only [findEntry, findFunc, Traced.bind_result]
      rw [<- bind_assoc]
      apply SameOutcome.bind hsame
      intro same same' _ heq
      subst heq
      cases same with
      | true => exact Option.Rel.some hentry
      | false => exact ih

inductive ArgumentDenotes (memory : Memory) : Argument -> Value -> Prop where
  | int (i : Int32) : ArgumentDenotes memory (.value (.int i)) (.int i)
  | real (d : Double) : ArgumentDenotes memory (.value (.real d)) (.real d)
  | text {p : Option Nat} {s : Option CString} (h : PointsTo memory p s) :
      ArgumentDenotes memory (.pointer p) (.text s)

theorem converted_denotes (type : CString) (i : Int32) :
    ArgumentDenotes memory (.value (converted type i)) (converted type i) := by
  unfold converted
  split
  · exact .real _
  · split
    · exact .real _
    · exact .int i

theorem nodeArg_denotes {node : Option Node} {item : Option CJson}
    (h : DenotesOption behind memory node item) (type : CString) :
    SameOutcome (ArgumentDenotes memory) (nodeArg type node)
      (handlerArg type item).result := by
  cases h with
  | none =>
      rw [handlerArg_result_none]
      rfl
  | @some node item h =>
      rw [handlerArg_result_some, argOf, nodeArg]
      split
      · exact .text (valuestring_denotes h)
      · rw [valueint_denotes h]
        exact converted_denotes type _

theorem nodeArgs_denotes {params : Option Node} {item : Option CJson}
    (h : DenotesOption behind memory params item) (ps : List (CString × CString)) :
    SameOutcome (List.Forall₂ (ArgumentDenotes memory))
      (nodeArgs memory params ps) (handlerArgs item ps).result := by
  induction ps with
  | nil => exact List.Forall₂.nil
  | cons p rest ih =>
      rcases p with ⟨name, type⟩
      have harg := nodeArg_denotes (getNodeItem_denotes h name) type
      simp only [nodeArgs, handlerArgs, Traced.bind_result]
      apply SameOutcome.bind harg
      intro arg value _ hvalue
      apply SameOutcome.bind ih
      intro args values _ hvalues
      exact List.Forall₂.cons hvalue hvalues

def Furnishes [FreshMemory] (memory : Memory) (params : Option Node)
    (room : CString -> Room) : Prop :=
  forall name block, getNodeItem memory params name = some (.string block) ->
    exists s : CString, memory[block]? = some (s.stored ++ (room name).bytes)

def Furnished [FreshMemory] (memory : Memory) : List Argument -> List Room -> Prop :=
  List.Forall₂ fun arg room => forall block, arg = .pointer (some block) ->
    exists s : CString, memory[block]? = some (s.stored ++ room.bytes)

theorem nodeArgs_furnished [FreshMemory] {params : Option Node}
    {room : CString -> Room}
    (h : Furnishes memory params room) {ps : List (CString × CString)}
    {args : List Argument} (hargs : nodeArgs memory params ps = .ok args) :
    Furnished memory args (ps.map fun p => room p.1) := by
  induction ps generalizing args with
  | nil =>
      cases hargs
      exact List.Forall₂.nil
  | cons p rest ih =>
      rcases p with ⟨name, type⟩
      rw [nodeArgs] at hargs
      rcases except_bind_ok hargs with ⟨arg, harg, hargs⟩
      rcases except_bind_ok hargs with ⟨others, hothers, hargs⟩
      cases hargs
      refine List.Forall₂.cons ?_ (ih hothers)
      rintro block rfl
      cases hitem : getNodeItem memory params name with
      | none =>
          rw [hitem] at harg
          cases harg
      | some item =>
          rw [hitem, nodeArg] at harg
          split at harg
          · match item with
            | .string b =>
                cases harg
                exact h name block hitem
          · cases harg

theorem nodeArgs_pointer {params : Option Node}
    {ps : List (CString × CString)} {args : List Argument} {block : Nat}
    (h : nodeArgs memory params ps = .ok args)
    (hmem : .pointer (some block) ∈ args) :
    exists node, params = some node ∧ block ∈ node.blocks := by
  induction ps generalizing args with
  | nil =>
      cases h
      cases hmem
  | cons p rest ih =>
      rcases p with ⟨name, type⟩
      rw [nodeArgs] at h
      rcases except_bind_ok h with ⟨arg, harg, h⟩
      rcases except_bind_ok h with ⟨others, hothers, h⟩
      cases h
      rcases List.mem_cons.mp hmem with hfirst | hrest
      · subst hfirst
        cases hitem : getNodeItem memory params name with
        | none =>
            rw [hitem] at harg
            cases harg
        | some item =>
            rw [hitem, nodeArg] at harg
            split at harg
            · have hpointer : item.valuestring = some block := by
                simpa using harg
              have hblock : block ∈ item.blocks := by
                match item with
                | .string b =>
                    rw [Node.blocks, List.mem_singleton]
                    exact (Option.some.inj hpointer).symm
              match params with
              | none => cases hitem
              | some node =>
                  exact ⟨node, rfl, getNodeItem_blocks hitem hblock⟩
            · cases harg
      · exact ih hothers hrest

/-!
## What a method does to the memory
-/

def OnlyChanges (memory memory' : Memory) (blocks : List Nat) : Prop :=
  memory'.length = memory.length ∧
    forall block, block ∉ blocks -> memory'[block]? = memory[block]?

theorem onlyChanges_refl (blocks : List Nat) :
    OnlyChanges memory memory blocks :=
  ⟨rfl, fun _ _ => rfl⟩

theorem OnlyChanges.mono {memory' : Memory} {blocks blocks' : List Nat}
    (h : OnlyChanges memory memory' blocks) (hsubset : blocks ⊆ blocks') :
    OnlyChanges memory memory' blocks' :=
  ⟨h.left, fun block hblock => h.right block fun hmem => hblock (hsubset hmem)⟩

theorem onlyChanges_writeBack {p : Option Nat} {bytes : List Byte}
    {blocks : List Nat} (h : forall block, p = some block -> block ∈ blocks) :
    OnlyChanges memory (writeBack memory p bytes) blocks := by
  cases p with
  | none => exact onlyChanges_refl blocks
  | some b =>
      refine ⟨List.length_set, ?_⟩
      intro block hblock
      apply List.getElem?_set_ne
      intro heq
      subst heq
      exact hblock (h b rfl)

theorem methodBody_onlyChanges {body : MethodBody} {args : List Argument}
    {result : Option CJson} {memory' : Memory} {blocks : List Nat}
    (h : body.run memory args = .ok (result, memory'))
    (hargs : forall block, .pointer (some block) ∈ args -> block ∈ blocks) :
    OnlyChanges memory memory' blocks := by
  cases body with
  | edit rpc =>
      simp only [MethodBody.run] at h
      split at h
      · rename_i p length
        split at h
        · cases h
        · cases h
          apply onlyChanges_writeBack
          intro block hp
          subst hp
          exact hargs block List.mem_cons_self
      · cases h
  | number rpc =>
      simp only [MethodBody.run] at h
      split at h
      · cases h
      · cases h
        exact onlyChanges_refl blocks

theorem readArgs_of_denotes {args : List Argument} {values : List Value}
    (h : List.Forall₂ (ArgumentDenotes memory) args values) :
    args.map (Argument.read memory) = values := by
  induction h with
  | nil => rfl
  | cons hfirst _ ih =>
      rw [List.map_cons, ih]
      congr 1
      cases hfirst with
      | int i => rfl
      | real d => rfl
      | text hp => exact congrArg Value.text (textAt_of_pointsTo hp)

theorem pointeeAt_of_pointsTo [FreshMemory] {p : Option Nat} {s : Option CString}
    {room : Room} (h : PointsTo memory p s)
    (hroom : forall block, p = some block ->
      exists s : CString, memory[block]? = some (s.stored ++ room.bytes)) :
    pointeeAt memory p = pointee s room := by
  cases h with
  | none => rfl
  | @some block s hblock =>
      rcases hroom block rfl with ⟨s', hblock'⟩
      have htext := textAt_of_stored hblock
      rw [textAt_of_stored ⟨_, hblock'⟩] at htext
      rw [pointeeAt, hblock', Option.getD_some, pointee, htext]

theorem textAt_writeBack {block : Nat} {s : CString}
    (h : Holds memory block s) (bytes : List Byte) :
    textAt (writeBack memory (some block) bytes) block =
      CString.ofBytes bytes := by
  rcases h with ⟨rest, h⟩
  rcases List.getElem?_eq_some_iff.mp h with ⟨hlt, _⟩
  rw [textAt, writeBack, List.getElem?_set_self hlt, Option.getD_some]

theorem edit_denotes [FreshMemory] (rpc : List Byte -> Int32 -> Option (List Byte))
    {p : Option Nat} {msg : Option CString} {room : Room}
    (h : PointsTo memory p msg)
    (hroom : forall block, p = some block ->
      exists s : CString, memory[block]? = some (s.stored ++ room.bytes))
    (length : Int32) (others : List Room) :
    SameOutcome (fun returned result => returned.1 = result)
      ((MethodBody.edit rpc).run memory [.pointer p, .value (.int length)])
      (Traced.require .outOfBounds
        ((editMessage rpc).resultItem [.text msg, .int length]
          (room :: others)) : Run (Option CJson)).result := by
  simp only [MethodBody.run, editMessage, Body.resultItem,
    pointeeAt_of_pointsTo h hroom]
  cases rpc (pointee msg room) length with
  | none => rfl
  | some edited =>
      cases h with
      | none => rfl
      | @some block s hblock =>
          exact congrArg (fun t => some (CJson.string t))
            (textAt_writeBack hblock edited)

theorem methodBody_denotes [FreshMemory] {body : MethodBody} {args : List Argument}
    {values : List Value} {rooms : List Room}
    (h : List.Forall₂ (ArgumentDenotes memory) args values)
    (hrooms : Furnished memory args rooms) :
    SameOutcome (fun returned result => returned.1 = result)
      (body.run memory args)
      (Traced.require .outOfBounds (body.body.resultItem values rooms) :
        Run (Option CJson)).result := by
  cases body with
  | number rpc =>
      simp only [MethodBody.run, MethodBody.body, Body.resultItem,
        readArgs_of_denotes h]
      cases rpc values with
      | none => rfl
      | some ret => rfl
  | edit rpc =>
      -- only a message and a length are arguments of such a method
      cases h with
      | nil => rfl
      | cons hfirst hrest =>
          rcases hrooms with _ | ⟨hroom, _⟩
          cases hfirst with
          | int i => rfl
          | real d => rfl
          | text hp =>
              have hroom' := fun block hblock =>
                hroom block (congrArg Argument.pointer hblock)
              cases hrest with
              | nil => rfl
              | cons hsecond hothers =>
                  cases hsecond with
                  | real d => rfl
                  | text hq => rfl
                  | int length =>
                      cases hothers with
                      | nil => exact edit_denotes rpc hp hroom' length _
                      | cons _ _ => rfl

theorem call_onlyChanges {body : MethodBody} {params : Option Node}
    {ps : List (CString × CString)} {args : List Argument}
    {result : Option CJson} {memory' : Memory} {blocks : List Nat}
    (hargs : nodeArgs memory params ps = .ok args)
    (hrun : body.run memory args = .ok (result, memory'))
    (hblocks : forall node, params = some node -> node.blocks ⊆ blocks) :
    OnlyChanges memory memory' blocks := by
  apply methodBody_onlyChanges hrun
  intro block hmem
  rcases nodeArgs_pointer hargs hmem with ⟨node, hnode, hblock⟩
  exact hblocks node hnode hblock

theorem pointsTo_of_onlyChanges {memory' : Memory} {blocks : List Nat}
    {p : Option Nat} {s : Option CString} (h : PointsTo memory p s)
    (hchanges : OnlyChanges memory memory' blocks)
    (hapart : forall block, p = some block -> block ∉ blocks) :
    PointsTo memory' p s := by
  cases h with
  | none => exact Option.Rel.none
  | @some block s hblock =>
      rcases hblock with ⟨rest, hblock⟩
      refine Option.Rel.some ⟨rest, ?_⟩
      rw [hchanges.right block (hapart block rfl), hblock]

theorem sharedHandler_denotes [FreshMemory] (handler : SharedHandler)
    {params : Option Node} {item : Option CJson} {method : Option Nat}
    {name : Option CString} {blocks : List Nat} (callerid : UInt32)
    {room : CString -> Room} (hparams : DenotesOption behind memory params item)
    (hroom : Furnishes memory params room) (hmethod : PointsTo memory method name)
    (hblocks : forall node, params = some node -> node.blocks ⊆ blocks)
    (hapart : forall block, method = some block -> block ∉ blocks) :
    SameOutcome
      (fun returned reply => returned.1 = reply ∧
        OnlyChanges memory returned.2 blocks)
      (handler.run memory params method callerid)
      (handler.handler.run room item
        { method := name, callerid := callerid }).result := by
  simp only [SharedHandler.run, Handler.run, Traced.bind_result]
  apply SameOutcome.bind (nodeArgs_denotes hparams handler.params)
  intro args values hargs hvalues
  apply SameOutcome.bind
    (methodBody_denotes hvalues (nodeArgs_furnished hroom hargs))
  intro returned result hrun hresult
  have hchanges := call_onlyChanges hargs hrun hblocks
  have hname := textAt_of_pointsTo
    (pointsTo_of_onlyChanges hmethod hchanges hapart)
  constructor
  · rw [hname, hresult]
  · exact hchanges

/-!
## `rpc_process` and its memory
-/

theorem method_apart {root method params : Node} {block : Nat}
    (hnodup : root.blocks.Nodup)
    (hmethod : getNodeItem memory (some root) (.lit "method") = some method)
    (hparams : getNodeItem memory (some root) (.lit "params") = some params)
    (hblock : method.valuestring = some block) : block ∉ params.blocks := by
  have hdisjoint := getNodeItem_disjoint hnodup hmethod hparams (by decide)
  match method with
  | .string b =>
      cases hblock
      rw [Node.blocks] at hdisjoint
      exact List.singleton_disjoint.mp hdisjoint

/-- The blocks that a handler may change: they belong to the request, and the
name of the method is not among them. -/
theorem exists_paramBlocks {root method : Node} (hnodup : root.blocks.Nodup)
    (hmethod : getNodeItem memory (some root) (.lit "method") = some method) :
    exists blocks,
      (forall node, getNodeItem memory (some root) (.lit "params") =
        some node -> node.blocks ⊆ blocks) ∧
      (forall block, method.valuestring = some block -> block ∉ blocks) ∧
      blocks ⊆ root.blocks := by
  cases hparams : getNodeItem memory (some root) (.lit "params") with
  | none => exact ⟨[], by simp, by simp, List.nil_subset _⟩
  | some params =>
      refine ⟨params.blocks, ?_, ?_, getNodeItem_blocks hparams⟩
      · intro node hnode
        cases hnode
        exact List.Subset.refl _
      · intro block hblock
        exact method_apart hnodup hmethod hparams hblock

theorem denotesOption_none {item : Option CJson}
    (h : DenotesOption behind memory none item) : item = none := by
  cases h
  rfl

theorem denotesOption_some {node : Node} {item : Option CJson}
    (h : DenotesOption behind memory (some node) item) :
    exists i, item = some i ∧ Denotes behind memory node i := by
  cases h with
  | some h => exact ⟨_, rfl, h⟩

/--
Over a memory that holds the table and the parsed request, `rpc_process`
replies as it does without memory, and changes nothing but the request.
-/
theorem processRoot_denotes [FreshMemory] {table : List CallerEntry}
    {funcs : List RpcFunc} {root : Node} {item : CJson}
    (htable : List.Forall₂ (EntryDenotes memory) table funcs)
    (hroot : Denotes behind memory root item) {room : CString -> Room}
    (hroom : Furnishes memory
      (getNodeItem memory (some root) (.lit "params")) room)
    (hnodup : root.blocks.Nodup) :
    SameOutcome
      (fun returned reply => returned.1 = reply ∧
        OnlyChanges memory returned.2 root.blocks)
      (processRoot table memory root)
      (rpcProcessRoot funcs room item).result := by
  have hitem : DenotesOption behind memory (some root) (some item) :=
    Option.Rel.some hroot
  have hmethod := getNodeItem_denotes hitem (.lit "method")
  have hparams := getNodeItem_denotes hitem (.lit "params")
  have hcallerid := getNodeItem_denotes hitem (.lit "callerid")
  simp only [processRoot, rpcProcessRoot, Traced.bind_result]
  apply SameOutcome.bind (findEntry_denotes hmethod htable)
  intro found func _ hfound
  cases hfound with
  | none => exact ⟨rfl, onlyChanges_refl _⟩
  | @some entry func hentry =>
      simp only [member, Traced.bind_result]
      cases hm : getNodeItem memory (some root) (.lit "method") with
      | none =>
          rw [hm] at hmethod
          rw [denotesOption_none hmethod]
          rfl
      | some method =>
          rw [hm] at hmethod
          rcases denotesOption_some hmethod with
            ⟨methodItem, hmethodItem, hmethod⟩
          rw [hmethodItem, readValuestring_result_some]
          cases hc : getNodeItem memory (some root) (.lit "callerid") with
          | none =>
              rw [hc] at hcallerid
              rw [denotesOption_none hcallerid]
              rfl
          | some callerid =>
              rw [hc] at hcallerid
              rcases denotesOption_some hcallerid with
                ⟨calleridItem, hcalleridItem, hcallerid⟩
              rw [hcalleridItem, readValueint_result_some, hentry.handler,
                <- valueint_denotes hcallerid]
              cases entry.handler with
              | none => rfl
              | some handler =>
                  rcases exists_paramBlocks hnodup hm with
                    ⟨blocks, hblocks, hapart, hwithin⟩
                  have hrun := sharedHandler_denotes handler
                    callerid.valueint.toUInt32 hparams hroom
                    (valuestring_denotes hmethod) hblocks hapart
                  exact hrun.imp fun _ _ h => ⟨h.left, h.right.mono hwithin⟩

end

theorem prefix_of_onlyChanges {memory memory' memory'' : Memory}
    {blocks : List Nat} (hplaced : Appends memory memory' blocks)
    (hchanges : OnlyChanges memory' memory'' blocks) : memory <+: memory'' := by
  rcases hplaced with ⟨hextends, hblocks⟩
  rw [List.prefix_iff_getElem?]
  intro block hlt
  have hold : memory'[block]? = some memory[block] :=
    List.prefix_iff_getElem?.mp hextends block hlt
  have hoff : block ∉ blocks := by
    rw [hblocks, List.mem_range'_1]
    omega
  rw [hchanges.right block hoff, hold]

theorem Appends.nodup {memory memory' : Memory} {blocks : List Nat}
    (h : Appends memory memory' blocks) : blocks.Nodup := by
  rw [h.right]
  exact List.nodup_range'

theorem holds_of_extends [FreshMemory] {shared : Shared} {table : List RpcFunc}
    {memory : Memory} (h : shared.Holds table)
    (hextends : shared.memory <+: memory) :
    Shared.Holds { shared with memory := memory } table :=
  h.imp fun _ _ => entryDenotes_of_extends hextends

theorem furnishes_place [FreshMemory] {payload : CString} {root : CJson}
    {memory : Memory} (start : Memory)
    (hroot : Denotes (behindOf payload start.length) memory
      (place (behindOf payload start.length) root start).1 root) :
    Furnishes memory
      (getNodeItem memory
        (some (place (behindOf payload start.length) root start).1)
        (.lit "params"))
      (paramRoom payload root) := by
  intro name block hblock
  have hplaced := placedAt_place (behindOf payload start.length) root start
  generalize (place (behindOf payload start.length) root start).1 = node
    at hroot hblock hplaced
  cases hparams : getNodeItem memory (some node) (.lit "params") with
  | none =>
      rw [hparams] at hblock
      cases hblock
  | some params =>
      rw [hparams] at hblock
      rcases getNodeItem_placed hplaced hroot hparams with
        ⟨params', hparams', hplaced'⟩
      have hdenotes := getNodeItem_denotes (Option.Rel.some hroot)
        (.lit "params")
      rw [hparams, hparams'] at hdenotes
      cases hdenotes with
      | some hdenotes =>
          rcases getNodeItem_placed hplaced' hdenotes hblock with
            ⟨item, hitem, hplaced''⟩
          have htext := getNodeItem_denotes (Option.Rel.some hdenotes) name
          rw [hblock, hitem] at htext
          have hnumber := block_of_placedAt hplaced''
          have hbehind : behindOf payload start.length block =
              (paramRoom payload root name).bytes := by
            have hoffset : block - start.length =
                itemOffset (.lit "params") root + itemOffset name params' := by
              omega
            rw [behindOf, paramRoom, hoffset, member, hparams']
          cases htext with
          | some htext =>
              rw [<- hbehind]
              match item with
              | .string s => exact ⟨s, htext⟩

/--
Whatever the request, the reply depends on nothing but the table and the
request, every block that was there before is what it was, and so is the table.
-/
theorem process_of_holds [FreshMemory] {shared : Shared} {table : List RpcFunc}
    (h : shared.Holds table) (payload : CString) :
    (shared.process payload).1 = (rpcProcess table (some payload)).result ∧
      shared.memory <+: (shared.process payload).2.memory ∧
      (shared.process payload).2.rpcCallerTable = shared.rpcCallerTable ∧
      (shared.process payload).2.Holds table := by
  unfold Shared.process
  cases hparse : parse payload with
  | none =>
      rw [rpcProcess_of_not_json hparse]
      exact ⟨rfl, List.prefix_rfl, rfl, h⟩
  | some root =>
      have hplaced := place_appends (behindOf payload shared.memory.length) root
        shared.memory
      have hroot := @denotes_place (behindOf payload shared.memory.length) root
        shared.memory
      have hsame := processRoot_denotes (holds_of_extends h hplaced.left) hroot
        (furnishes_place shared.memory hroot) hplaced.nodup
      rw [rpcProcess_of_json hparse]
      simp only
      generalize (rpcProcessRoot table (paramRoom payload root) root).result =
        expected at hsame ⊢
      generalize place (behindOf payload shared.memory.length) root
        shared.memory = placed at hplaced hroot hsame ⊢
      cases hrun : processRoot shared.rpcCallerTable placed.2 placed.1 with
      | error e =>
          rw [hrun] at hsame
          cases expected with
          | ok reply => exact absurd hsame not_false
          | error e' =>
              have heq : e = e' := hsame
              subst heq
              exact ⟨rfl, hplaced.left, rfl, holds_of_extends h hplaced.left⟩
      | ok returned =>
          rw [hrun] at hsame
          cases expected with
          | error e => exact absurd hsame not_false
          | ok reply =>
              rcases hsame with ⟨hreply, hchanges⟩
              have hextends := prefix_of_onlyChanges hplaced hchanges
              exact ⟨congrArg Except.ok hreply, hextends, rfl,
                holds_of_extends h hextends⟩

/-!
## A table in memory
-/

def placeString : Option CString -> Memory -> Option Nat × Memory
  | none, memory => (none, memory)
  | some s, memory => (some memory.length, memory ++ [s.stored])

def placeSlots : List (Option CString × Option CString) -> Memory ->
    List (Option Nat × Option Nat) × Memory
  | [], memory => ([], memory)
  | (param, type) :: rest, memory =>
      let first := placeString param memory
      let second := placeString type first.2
      let others := placeSlots rest second.2
      ((first.1, second.1) :: others.1, others.2)

def placeTable (find : CString -> Option SharedHandler) :
    List RpcFunc -> Memory -> List CallerEntry × Memory
  | [], memory => ([], memory)
  | func :: rest, memory =>
      let method := placeString func.method memory
      let slots := placeSlots func.slots.entries method.2
      let rettype := placeString func.rettype slots.2
      let others := placeTable find rest rettype.2
      ({
        method := method.1
        slots := slots.1
        rettype := rettype.1
        handler := find (methodName func.method) } :: others.1, others.2)

theorem placeString_spec (s : Option CString) (memory : Memory) :
    memory <+: (placeString s memory).2 ∧
      PointsTo (placeString s memory).2 (placeString s memory).1 s := by
  cases s with
  | none => exact ⟨List.prefix_rfl, Option.Rel.none⟩
  | some s =>
      have hstored : Holds (memory ++ [s.stored]) memory.length s :=
        ⟨[], by rw [List.append_nil, List.getElem?_concat_length]⟩
      exact ⟨List.prefix_append .., Option.Rel.some hstored⟩

abbrev SlotsPointTo (memory : Memory) :
    List (Option Nat × Option Nat) ->
      List (Option CString × Option CString) -> Prop :=
  List.Forall₂ fun pointers strings =>
    PointsTo memory pointers.1 strings.1 ∧
      PointsTo memory pointers.2 strings.2

theorem placeSlots_spec (slots : List (Option CString × Option CString))
    (memory : Memory) :
    memory <+: (placeSlots slots memory).2 ∧
      SlotsPointTo (placeSlots slots memory).2 (placeSlots slots memory).1
        slots := by
  induction slots generalizing memory with
  | nil => exact ⟨List.prefix_rfl, List.Forall₂.nil⟩
  | cons slot rest ih =>
      rcases slot with ⟨param, type⟩
      rcases placeString_spec param memory with ⟨hfirst, hparam⟩
      rcases placeString_spec type (placeString param memory).2 with
        ⟨hsecond, htype⟩
      rcases ih (placeString type (placeString param memory).2).2 with
        ⟨hothers, hslots⟩
      rw [placeSlots]
      exact ⟨hfirst.trans (hsecond.trans hothers), List.Forall₂.cons
        ⟨pointsTo_of_extends (hsecond.trans hothers) hparam,
          pointsTo_of_extends hothers htype⟩ hslots⟩

theorem placeTable_spec [FreshMemory] {find : CString -> Option SharedHandler}
    {funcs : List RpcFunc}
    (hfind : forall func, func ∈ funcs ->
      func.handler = (find (methodName func.method)).map
        SharedHandler.handler) (memory : Memory) :
    memory <+: (placeTable find funcs memory).2 ∧
      List.Forall₂ (EntryDenotes (placeTable find funcs memory).2)
        (placeTable find funcs memory).1 funcs := by
  induction funcs generalizing memory with
  | nil => exact ⟨List.prefix_rfl, List.Forall₂.nil⟩
  | cons func rest ih =>
      rw [List.forall_mem_cons] at hfind
      let method := placeString func.method memory
      let slots := placeSlots func.slots.entries method.2
      let rettype := placeString func.rettype slots.2
      rcases placeString_spec func.method memory with ⟨hm, hmethod⟩
      rcases placeSlots_spec func.slots.entries method.2 with ⟨hs, hslots⟩
      rcases placeString_spec func.rettype slots.2 with ⟨hr, hrettype⟩
      rcases ih hfind.right rettype.2 with ⟨hothers, hrest⟩
      rw [placeTable]
      refine ⟨hm.trans (hs.trans (hr.trans hothers)),
        List.Forall₂.cons ?_ hrest⟩
      exact {
        method := pointsTo_of_extends (hs.trans (hr.trans hothers)) hmethod
        slots := hslots.imp fun _ _ hslot =>
          ⟨pointsTo_of_extends (hr.trans hothers) hslot.left,
            pointsTo_of_extends (hr.trans hothers) hslot.right⟩
        rettype := pointsTo_of_extends hothers hrettype
        handler := hfind.left }

/-!
## The methods of the service in memory
-/

def editing (rpc : List Byte -> Int32 -> Option (List Byte)) :
    SharedHandler where
  params := [(.lit "msg", .lit "char*"), (.lit "length", .lit "int")]
  rettype := .lit "char*"
  body := .edit rpc
  returns := isCharPointer_charStar

def computing (handler : Handler) (rpc : List Value -> Option Double)
    (h : handler.body = .number rpc) : SharedHandler where
  params := handler.params
  rettype := handler.rettype
  body := .number rpc
  returns := by
    rw [<- handler.returns, h]
    rfl

/-- The handlers of `librpc_method.so`, with methods that work in memory. -/
def sharedLibrpcMethod (symbol : CString) : Option SharedHandler :=
  if symbol = .lit "rpc_response_json_encode_sayhello" then
    some (editing rpcSayhello)
  else if symbol = .lit "rpc_response_json_encode_add" then
    some (computing rpcResponseJsonEncodeAdd _ rfl)
  else if symbol = .lit "rpc_response_json_encode_sub" then
    some (computing rpcResponseJsonEncodeSub _ rfl)
  else if symbol = .lit "rpc_response_json_encode_mul" then
    some (computing rpcResponseJsonEncodeMul _ rfl)
  else if symbol = .lit "rpc_response_json_encode_sum" then
    some (computing rpcResponseJsonEncodeSum _ rfl)
  else if symbol = .lit "rpc_response_json_encode_echo" then
    some (editing rpcEcho)
  else none

theorem librpcMethod_eq [FreshMemory] (symbol : CString) :
    librpcMethod symbol =
      (sharedLibrpcMethod symbol).map SharedHandler.handler := by
  unfold librpcMethod sharedLibrpcMethod
  split_ifs
  all_goals rfl

/-!
## Tables that have been loaded
-/

def Bound (find : CString -> Option Handler) (table : List RpcFunc) : Prop :=
  forall func, func ∈ table -> func.handler = find (methodName func.method)

theorem registerEntry_bound {find : CString -> Option Handler}
    {iter : Option CJson} {func : RpcFunc}
    (h : (registerEntry find iter).result = .ok func) :
    func.handler = find (methodName func.method) := by
  rw [registerEntry] at h
  rcases Traced.bind_result_ok_iff.mp h with ⟨method, _, h⟩
  rcases Traced.bind_result_ok_iff.mp h with ⟨rettype, _, h⟩
  simp only at h
  split at h
  · cases h
  · rcases Traced.bind_result_ok_iff.mp h with ⟨slots, _, h⟩
    cases h
    rfl

theorem registerEntries_bound {find : CString -> Option Handler}
    {config : Option CJson} {n i : Nat} {table table' : List RpcFunc}
    (hbound : Bound find table)
    (h : (registerEntries find config n i table).result = .ok table') :
    Bound find table' := by
  induction n generalizing i table with
  | zero =>
      cases h
      exact hbound
  | succ n ih =>
      rw [registerEntries] at h
      rcases Traced.bind_result_ok_iff.mp h with ⟨func, hfunc, hrest⟩
      apply ih _ hrest
      intro func' hmem
      rcases List.mem_cons.mp hmem with rfl | hmem
      · exact registerEntry_bound hfunc
      · exact hbound func' hmem

theorem bound_of_loaded {find : CString -> Option Handler}
    {globals : Globals} (h : Loaded find globals) :
    Bound find globals.rpcCallerTable := by
  induction h with
  | initial =>
      intro func hmem
      cases hmem
  | @load globals globals' code json _ run ih =>
      unfold rpcDecodeRegisterJson at run
      split at run
      · cases run
        exact ih
      · split at run
        · rcases Traced.bind_result_ok_iff.mp run with ⟨_, _, run⟩
          split at run
          · rcases Traced.bind_result_ok_iff.mp run with ⟨table, htable, run⟩
            cases run
            exact registerEntries_bound ih htable
          · cases run
            exact ih
        · cases run
          exact ih

/-- The shared state of a server with a table bound to that library. -/
def loadedShared (table : List RpcFunc) : Shared where
  memory := (placeTable sharedLibrpcMethod table []).2
  rpcCallerTable := (placeTable sharedLibrpcMethod table []).1

theorem loadedShared_holds [FreshMemory] {table : List RpcFunc}
    (h : Bound librpcMethod table) :
    (loadedShared table).Holds table := by
  have hfind (func : RpcFunc) (hfunc : func ∈ table) :
      func.handler = (sharedLibrpcMethod (methodName func.method)).map
        SharedHandler.handler := by
    rw [h func hfunc, librpcMethod_eq]
  exact (placeTable_spec hfind []).right

end Dispatch
end Z2wRpc
