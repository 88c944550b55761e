import Z2wRpc.CJson.RoundTrip
import Z2wRpc.Dispatch.Method
import Z2wRpc.Dispatch.Register

/-!
# Register documents

A well-formed register document lists signatures.  Loading one puts an entry
for every signature in front of the table, the last one first, each bound to
the handler whose symbol carries its name.  `register.json` is such a document.
-/

namespace Z2wRpc

open Foundation

namespace Dispatch

open CJson

/-- The strings of a register entry, with any number of parameters. -/
structure EntryText where
  method : CString
  params : List (CString × CString)
  rettype : CString

/-- An element of `config` with these strings. -/
def EntryText.document (entry : EntryText) : CJson :=
  .object [
    (.lit "method", .string entry.method),
    (.lit "params", .array (entry.params.map fun p => .string p.1)),
    (.lit "types", .array (entry.params.map fun p => .string p.2)),
    (.lit "rettype", .string entry.rettype)]

def entriesDocument (remote : CString) (port : Int32)
    (entries : List EntryText) : CJson :=
  .object [
    (.lit "remote", .string remote),
    (.lit "port", .number (.finite port.toInt)),
    (.lit "config", .array (entries.map EntryText.document))]

/-- An element of `config` in which the loader finds these strings. -/
structure Describes (item : CJson) (entry : EntryText) : Prop where
  method : getObjectItem (some item) (.lit "method") =
    some (.string entry.method)
  rettype : getObjectItem (some item) (.lit "rettype") =
    some (.string entry.rettype)
  params : getObjectItem (some item) (.lit "params") =
    some (.array (entry.params.map fun p => .string p.1))
  types : getObjectItem (some item) (.lit "types") =
    some (.array (entry.params.map fun p => .string p.2))

structure Says (find : CString -> Option Handler) (func : RpcFunc)
    (entry : EntryText) : Prop where
  method : func.method = some entry.method
  rettype : func.rettype = some entry.rettype
  slots : func.slots.entries = entry.params.map fun p => (some p.1, some p.2)
  handler : func.handler = find (methodName (some entry.method))

structure Signature where
  method : CString
  params : List (CString × CString)
  rettype : CString
  within : params.length <= rpcParamsMaxCount

namespace Signature

def func (sig : Signature) (handler : Option Handler) : RpcFunc where
  method := some sig.method
  slots := {
    entries := sig.params.map fun p => (some p.1, some p.2)
    within := by simpa using sig.within }
  rettype := some sig.rettype
  handler := handler

/-- The table entry with the handler that the loader finds for it. -/
def bound (find : CString -> Option Handler) (sig : Signature) : RpcFunc :=
  sig.func (find (methodName (some sig.method)))

def text (sig : Signature) : EntryText where
  method := sig.method
  params := sig.params
  rettype := sig.rettype

def handler (sig : Signature) (body : Body)
    (returns : body.returnsText = isCharPointer sig.rettype) : Handler where
  params := sig.params
  rettype := sig.rettype
  body := body
  returns := returns

/-- The element of `config` that describes the entry. -/
def document (sig : Signature) : CJson :=
  .object [
    (.lit "method", .string sig.method),
    (.lit "params", .array (sig.params.map fun p => .string p.1)),
    (.lit "types", .array (sig.params.map fun p => .string p.2)),
    (.lit "rettype", .string sig.rettype)]

end Signature

def registerDocument (remote : CString) (port : Int32)
    (sigs : List Signature) : CJson :=
  .object [
    (.lit "remote", .string remote),
    (.lit "port", .number (.finite port.toInt)),
    (.lit "config", .array (sigs.map Signature.document))]

/-!
## `register.json`
-/

def sayhelloSignature : Signature where
  method := .lit "sayhello"
  params := [(.lit "msg", .lit "char*"), (.lit "length", .lit "int")]
  rettype := .lit "char*"
  within := by decide

def addSignature : Signature where
  method := .lit "add"
  params := [(.lit "a", .lit "int"), (.lit "b", .lit "int")]
  rettype := .lit "int"
  within := by decide

def subSignature : Signature where
  method := .lit "sub"
  params := [(.lit "a", .lit "double"), (.lit "b", .lit "double")]
  rettype := .lit "double"
  within := by decide

def mulSignature : Signature where
  method := .lit "mul"
  params := [(.lit "a", .lit "double"), (.lit "b", .lit "double")]
  rettype := .lit "double"
  within := by decide

def sumSignature : Signature where
  method := .lit "sum"
  params :=
    [(.lit "a", .lit "int"), (.lit "b", .lit "int"), (.lit "c", .lit "int")]
  rettype := .lit "int"
  within := by decide

def echoSignature : Signature where
  method := .lit "echo"
  params := [(.lit "msg", .lit "char*"), (.lit "length", .lit "int")]
  rettype := .lit "char*"
  within := by decide

def registerJson : List Signature :=
  [sayhelloSignature, addSignature, subSignature, mulSignature, sumSignature,
    echoSignature]

/-!
## Lists that agree element by element
-/

section

variable {α β : Type} {R : α -> β -> Prop} {as : List α} {bs : List β}

theorem exists_related (h : List.Forall₂ R as bs) {a : α}
    (ha : a ∈ as) : exists b, b ∈ bs ∧ R a b := by
  induction h with
  | nil => cases ha
  | cons hfirst _ ih =>
      rcases List.mem_cons.mp ha with rfl | ha
      · exact ⟨_, List.mem_cons_self, hfirst⟩
      · rcases ih ha with ⟨b, hb, hrelated⟩
        exact ⟨b, List.mem_cons_of_mem _ hb, hrelated⟩

end

/-!
## Loading
-/

section

variable {params types : List CJson} {done ps : List (CString × CString)}
  {p : CString × CString}

theorem getArrayItem_strings (part : CString × CString -> CString)
    {items : List CJson}
    (h : items = (done ++ p :: ps).map fun q => .string (part q)) :
    getArrayItem (some (.array items)) done.length =
      some (.string (part p)) := by
  simp [getArrayItem, children, h]

theorem exists_store {slots : Slots}
    (hroom : slots.entries.length < rpcParamsMaxCount)
    (param type : Option CString) :
    exists next, (slots.store param type).result = .ok next ∧
      next.entries = slots.entries ++ [(param, type)] := by
  unfold Slots.store
  rw [dif_pos hroom]
  exact ⟨_, rfl, rfl⟩

theorem readSlots_succ
    (hparams : params = (done ++ p :: ps).map fun p => .string p.1)
    (htypes : types = (done ++ p :: ps).map fun p => .string p.2)
    (n : Nat) (slots : Slots) :
    (readSlots (some (.array params)) (some (.array types)) (n + 1)
        done.length slots).result =
      (slots.store (some p.1) (some p.2) >>= fun next =>
        readSlots (some (.array params)) (some (.array types)) n
          (done.length + 1) next).result := by
  rw [readSlots, getArrayItem_strings Prod.fst hparams,
    getArrayItem_strings Prod.snd htypes,
    Traced.bind_of_ok (readValuestring_result_some _),
    Traced.bind_of_ok (readValuestring_result_some _)]
  rfl

end

theorem readSlots_result {params types : List CJson}
    (ps done : List (CString × CString)) (slots : Slots) (j : Nat)
    (hslots : slots.entries = done.map fun p => (some p.1, some p.2))
    (hj : j = done.length)
    (hparams : params = (done ++ ps).map fun p => .string p.1)
    (htypes : types = (done ++ ps).map fun p => .string p.2)
    (hwithin : (done ++ ps).length <= rpcParamsMaxCount) :
    exists slots', (readSlots (some (.array params)) (some (.array types))
        ps.length j slots).result = .ok slots' ∧
      slots'.entries = (done ++ ps).map fun p => (some p.1, some p.2) := by
  induction ps generalizing done slots j with
  | nil => exact ⟨slots, rfl, by simpa using hslots⟩
  | cons p ps ih =>
      subst hj
      have hroom : slots.entries.length < rpcParamsMaxCount := by
        rw [hslots, List.length_map]
        rw [List.length_append, List.length_cons] at hwithin
        omega
      rcases exists_store hroom (some p.1) (some p.2) with
        ⟨next, hstore, hnext⟩
      rcases ih (done ++ [p]) next (done.length + 1) (by simp [hnext, hslots])
        (by simp) (by simpa using hparams) (by simpa using htypes)
        (by simpa using hwithin) with ⟨slots', hread, hentries⟩
      refine ⟨slots', ?_, by simpa using hentries⟩
      rw [List.length_cons, readSlots_succ hparams htypes]
      exact Traced.bind_result_ok_iff.mpr ⟨_, hstore, hread⟩

theorem registerEntry_of_describes (find : CString -> Option Handler)
    {item : CJson} {entry : EntryText} (h : Describes item entry)
    (hfit : entry.params.length <= rpcParamsMaxCount) :
    exists func, (registerEntry find (some item)).result = .ok func ∧
      Says find func entry := by
  rcases readSlots_result entry.params [] Slots.empty 0 rfl rfl rfl rfl
    hfit with ⟨slots, hread, hentries⟩
  refine ⟨{
    method := some entry.method
    slots := slots
    rettype := some entry.rettype
    handler := find (methodName (some entry.method)) }, ?_,
    ⟨rfl, rfl, hentries, rfl⟩⟩
  rw [registerEntry, h.method, h.rettype, h.params, h.types]
  refine Traced.bind_result_ok_iff.mpr ⟨_, readValuestring_result_some _, ?_⟩
  refine Traced.bind_result_ok_iff.mpr ⟨_, readValuestring_result_some _, ?_⟩
  simp only [getArraySize, children, List.length_map, ne_eq, not_true,
    if_false]
  exact Traced.bind_result_ok_iff.mpr ⟨slots, hread, rfl⟩

theorem registerEntries_of_describes (find : CString -> Option Handler)
    {config : Option CJson} {rest : List CJson} {entries : List EntryText}
    {i : Nat} (table : List RpcFunc) (hitems : (itemsOf config).drop i = rest)
    (h : List.Forall₂ Describes rest entries)
    (hfit : forall e, e ∈ entries -> e.params.length <= rpcParamsMaxCount) :
    exists funcs, (registerEntries find config entries.length i
        table).result = .ok (funcs.reverse ++ table) ∧
      List.Forall₂ (Says find) funcs entries := by
  induction h generalizing i table with
  | nil => exact ⟨[], rfl, .nil⟩
  | cons hfirst _ ih =>
      rw [List.forall_mem_cons] at hfit
      rcases getArrayItem_of_drop hitems with ⟨hitem, hnext⟩
      rcases registerEntry_of_describes find hfirst hfit.left with
        ⟨func, hentry, hsays⟩
      rcases ih (func :: table) hnext hfit.right with ⟨funcs, hrest, hsays'⟩
      refine ⟨func :: funcs, ?_, .cons hsays hsays'⟩
      rw [List.length_cons, registerEntries, hitem]
      refine Traced.bind_result_ok_iff.mpr ⟨func, hentry, ?_⟩
      rw [hrest]
      simp

theorem describes_document (sig : Signature) :
    Describes sig.document sig.text :=
  ⟨rfl, rfl, rfl, rfl⟩

theorem eq_bound_of_says {find : CString -> Option Handler} {func : RpcFunc}
    {sig : Signature} (h : Says find func sig.text) :
    func = sig.bound find := by
  rcases h with ⟨hmethod, hrettype, hslots, hhandler⟩
  rcases func with ⟨method, slots, rettype, handler⟩
  have heq : slots = (sig.bound find).slots := by
    ext1
    exact hslots
  simp only at hmethod hrettype hhandler
  rw [hmethod, hrettype, hhandler, heq]
  rfl

theorem describes_signatures (sigs : List Signature) :
    List.Forall₂ Describes (sigs.map Signature.document)
      (sigs.map Signature.text) := by
  rw [List.forall₂_map_left_iff, List.forall₂_map_right_iff,
    List.forall₂_same]
  intro sig _
  exact describes_document sig

theorem registerEntries_result (find : CString -> Option Handler)
    (sigs : List Signature) (table : List RpcFunc) :
    (registerEntries find (some (.array (sigs.map Signature.document)))
        sigs.length 0 table).result =
      .ok ((sigs.map (Signature.bound find)).reverse ++ table) := by
  have hfit : forall e, e ∈ sigs.map Signature.text ->
      e.params.length <= rpcParamsMaxCount := by
    intro e he
    rcases List.mem_map.mp he with ⟨sig, _, rfl⟩
    exact sig.within
  rcases registerEntries_of_describes find table
    (drop_zero_itemsOf_array _) (describes_signatures sigs) hfit with
    ⟨funcs, hresult, hsays⟩
  have hfuncs : funcs = sigs.map (Signature.bound find) := by
    rw [List.forall₂_map_right_iff] at hsays
    rw [← List.forall₂_eq_eq_eq, List.forall₂_map_right_iff]
    exact hsays.imp fun _ _ => eq_bound_of_says
  rw [List.length_map] at hresult
  rw [hresult, hfuncs]

theorem readable_entriesDocument (remote : CString) (port : Int32)
    (entries : List EntryText) :
    Readable 4 (entriesDocument remote port entries) := by
  have hstrings : forall l : List CString,
      Readable 1 (.array (l.map .string)) := by
    intro l
    apply Readable.array
    intro item hitem
    rcases List.mem_map.mp hitem with ⟨s, _, rfl⟩
    exact Readable.string s
  have hentry : forall entry : EntryText, Readable 2 entry.document := by
    intro entry
    have hparams := hstrings (entry.params.map Prod.fst)
    have htypes := hstrings (entry.params.map Prod.snd)
    rw [List.map_map] at hparams htypes
    apply Readable.object
    intro m hm
    simp only [List.mem_cons, List.not_mem_nil, or_false] at hm
    rcases hm with rfl | rfl | rfl | rfl
    · exact Readable.string _
    · exact hparams
    · exact htypes
    · exact Readable.string _
  apply Readable.object
  intro m hm
  simp only [List.mem_cons, List.not_mem_nil, or_false] at hm
  rcases hm with rfl | rfl | rfl
  · exact Readable.string remote
  · exact Readable.number (numberExact_toInt port)
  · apply Readable.array
    intro item hitem
    rcases List.mem_map.mp hitem with ⟨entry, _, rfl⟩
    exact hentry entry

theorem registerDocument_eq (remote : CString) (port : Int32)
    (sigs : List Signature) :
    registerDocument remote port sigs =
      entriesDocument remote port (sigs.map Signature.text) := by
  rw [entriesDocument, List.map_map]
  rfl

theorem readable_registerDocument (remote : CString) (port : Int32)
    (sigs : List Signature) :
    Readable 4 (registerDocument remote port sigs) := by
  rw [registerDocument_eq]
  exact readable_entriesDocument remote port _

theorem rpcDecodeRegisterJson_registerDocument
    (find : CString -> Option Handler) (remote : CString) (port : Int32)
    (sigs : List Signature) {globals : Globals}
    (hip : (freeServerIp globals.rpcServerIp).result = .ok ()) :
    (rpcDecodeRegisterJson find
        (some (print (registerDocument remote port sigs))) globals).result =
      .ok (0, {
        globals with
        rpcServerIp := .live remote
        rpcServerPort := port.toInt16
        rpcCallerTable := (sigs.map (Signature.bound find)).reverse ++
          globals.rpcCallerTable }) := by
  have hparse := parse_print (readable_registerDocument remote port sigs)
    (by decide)
  have hremote : getObjectItem (some (registerDocument remote port sigs))
      (.lit "remote") = some (.string remote) := rfl
  have hport : getObjectItem (some (registerDocument remote port sigs))
      (.lit "port") = some (.number (.finite port.toInt)) := rfl
  have hconfig : getObjectItem (some (registerDocument remote port sigs))
      (.lit "config") = some (.array (sigs.map Signature.document)) := rfl
  have hentries := registerEntries_result find sigs globals.rpcCallerTable
  simp only [rpcDecodeRegisterJson, Option.bind_some, hparse, hremote, hport,
    hconfig, getArraySize, children, List.length_map]
  refine Traced.bind_result_ok_iff.mpr ⟨(), hip, ?_⟩
  refine Traced.bind_result_ok_iff.mpr ⟨_, hentries, ?_⟩
  rw [saturate_toInt]
  rfl

theorem comparable_bound (find : CString -> Option Handler)
    (sigs : List Signature) (name : CString) :
    Comparable (sigs.map (Signature.bound find)).reverse name := by
  refine comparable_of_named (fun func hfunc => ?_) name
  rcases List.mem_map.mp (List.mem_reverse.mp hfunc) with ⟨sig, _, rfl⟩
  simp [Signature.bound, Signature.func]

/-- The table after loading the entries of `register.json`. -/
def registeredTable [FreshMemory] : List RpcFunc :=
  (registerJson.map (Signature.bound librpcMethod)).reverse

-- every entry is bound to its own handler
example [FreshMemory] : registeredTable = [
      echoSignature.func (some rpcResponseJsonEncodeEcho),
      sumSignature.func (some rpcResponseJsonEncodeSum),
      mulSignature.func (some rpcResponseJsonEncodeMul),
      subSignature.func (some rpcResponseJsonEncodeSub),
      addSignature.func (some rpcResponseJsonEncodeAdd),
      sayhelloSignature.func (some rpcResponseJsonEncodeSayhello)] := rfl

/-- The globals of a process that has loaded `register.json`. -/
def registeredGlobals [FreshMemory] : Globals where
  rpcServerIp := .live (.lit "172.16.0.6")
  rpcServerPort := (9096 : Int32).toInt16
  rpcCallerTable := registeredTable
  rpcGlobalCallerId := 0

theorem loaded_registeredGlobals [FreshMemory] :
    Loaded librpcMethod registeredGlobals :=
  Loaded.load _ Loaded.initial
    (rpcDecodeRegisterJson_registerDocument librpcMethod (.lit "172.16.0.6")
      9096 registerJson rfl)

end Dispatch
end Z2wRpc
