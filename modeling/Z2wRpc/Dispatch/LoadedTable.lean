import Z2wRpc.Dispatch.Loading

/-!
# What loading leaves in the table

The loops over entries and parameters copy a document into the table.  An entry
has a fixed number of slots and the loop does not look at it: a document with a
longer parameter list is stored past the slots.
-/

namespace Z2wRpc

open Foundation

namespace Dispatch

open CJson

/-- A text in which the loader finds an address, a port and these entries. -/
structure RegisterText (json : CString) (entries : List EntryText) where
  root : CJson
  remote : CString
  port : Double
  items : List CJson
  parsed : parse json = some root
  hasRemote : getObjectItem (some root) (.lit "remote") =
    some (.string remote)
  hasPort : getObjectItem (some root) (.lit "port") = some (.number port)
  hasConfig : getObjectItem (some root) (.lit "config") =
    some (.array items)
  describes : List.Forall₂ Describes items entries

/-- The text is refused, or its entries stand in front of the table, the last
one first. -/
def LoadedAsWritten (find : CString -> Option Handler) (globals : Globals)
    (json : CString) (entries : List EntryText) : Prop :=
  exists code after,
    (rpcDecodeRegisterJson find (some json) globals).result =
      .ok (code, after) ∧
    (code ≠ 0 ∨ exists funcs, after.rpcCallerTable =
        funcs.reverse ++ globals.rpcCallerTable ∧
      List.Forall₂ (Says find) funcs entries)

/-!
## Parameters beyond the slots
-/

theorem readSlots_of_too_many {params types : List CJson}
    (ps done : List (CString × CString)) (slots : Slots) (j : Nat)
    (hslots : slots.entries.length = done.length) (hj : j = done.length)
    (hparams : params = (done ++ ps).map fun p => .string p.1)
    (htypes : types = (done ++ ps).map fun p => .string p.2)
    (hmany : rpcParamsMaxCount < (done ++ ps).length) :
    (readSlots (some (.array params)) (some (.array types)) ps.length j
      slots).result = .error .outOfBounds := by
  induction ps generalizing done slots j with
  | nil =>
      have hwithin := slots.within
      rw [List.append_nil, ← hslots] at hmany
      omega
  | cons p ps ih =>
      subst hj
      rw [List.length_cons, readSlots_succ hparams htypes]
      by_cases hroom : slots.entries.length < rpcParamsMaxCount
      · rcases exists_store hroom (some p.1) (some p.2) with
          ⟨next, hstore, hnext⟩
        rw [Traced.bind_of_ok hstore]
        exact ih (done ++ [p]) next (done.length + 1)
          (by simp [hnext, hslots]) (by simp) (by simpa using hparams)
          (by simpa using htypes) (by simpa using hmany)
      · have hstore : (slots.store (some p.1) (some p.2)).result =
            .error .outOfBounds := by
          unfold Slots.store
          rw [dif_neg hroom]
          rfl
        rw [Traced.bind_of_error hstore]

theorem registerEntry_of_too_many (find : CString -> Option Handler)
    {item : CJson} {entry : EntryText} (h : Describes item entry)
    (hmany : rpcParamsMaxCount < entry.params.length) :
    (registerEntry find (some item)).result = .error .outOfBounds := by
  have hread : (readSlots
      (some (.array (entry.params.map fun p => .string p.1)))
      (some (.array (entry.params.map fun p => .string p.2)))
      entry.params.length 0 Slots.empty).result = .error .outOfBounds :=
    readSlots_of_too_many entry.params [] Slots.empty 0 rfl rfl rfl rfl hmany
  rw [registerEntry, h.method, h.rettype, h.params, h.types,
    Traced.bind_of_ok (readValuestring_result_some _),
    Traced.bind_of_ok (readValuestring_result_some _)]
  simp only [getArraySize, children, List.length_map, ne_eq, not_true,
    if_false, Traced.bind_of_error hread]

theorem registerEntries_of_too_many (find : CString -> Option Handler)
    {config : Option CJson} {rest : List CJson} {entries : List EntryText}
    {i : Nat} (table : List RpcFunc) (hitems : (itemsOf config).drop i = rest)
    (h : List.Forall₂ Describes rest entries)
    (hmany : exists e, e ∈ entries ∧ rpcParamsMaxCount < e.params.length) :
    (registerEntries find config entries.length i
      table).result = .error .outOfBounds := by
  induction h generalizing i table with
  | nil =>
      rcases hmany with ⟨e, he, _⟩
      cases he
  | @cons item entry rest entries hfirst _ ih =>
      rcases getArrayItem_of_drop hitems with ⟨hitem, hnext⟩
      rw [List.length_cons, registerEntries, hitem]
      by_cases hfit : entry.params.length <= rpcParamsMaxCount
      · rcases registerEntry_of_describes find hfirst hfit with
          ⟨func, hentry, _⟩
        have hmany' : exists e, e ∈ entries ∧
            rpcParamsMaxCount < e.params.length := by
          rcases hmany with ⟨e, he, hlong⟩
          rcases List.mem_cons.mp he with rfl | he
          · omega
          · exact ⟨e, he, hlong⟩
        rw [Traced.bind_of_ok hentry]
        exact ih (func :: table) hnext hmany'
      · have hentry := registerEntry_of_too_many find hfirst (by omega)
        rw [Traced.bind_of_error hentry]

/-!
## The whole document
-/

section

variable {find : CString -> Option Handler} {globals : Globals}
  {json : CString} {entries : List EntryText}

theorem rpcDecodeRegisterJson_of_registerText
    (h : RegisterText json entries) (hip : Freeable globals.rpcServerIp) :
    rpcDecodeRegisterJson find (some json) globals =
      (registerEntries find (some (.array h.items)) entries.length 0
          globals.rpcCallerTable >>= fun table =>
        return (0, {
          globals with
          rpcServerIp := .live h.remote
          rpcServerPort := (saturate h.port).toInt16
          rpcCallerTable := table })) := by
  have hsize : getArraySize (some (.array h.items)) = entries.length := by
    rw [getArraySize, children, h.describes.length_eq]
  rw [rpcDecodeRegisterJson_of_port h.parsed h.hasRemote h.hasPort,
    freeServerIp_bind hip, h.hasConfig, hsize]

theorem loadedAsWritten_of_fit (h : RegisterText json entries)
    (hip : Freeable globals.rpcServerIp)
    (hfit : forall e, e ∈ entries -> e.params.length <= rpcParamsMaxCount) :
    LoadedAsWritten find globals json entries := by
  rcases registerEntries_of_describes find globals.rpcCallerTable
    (drop_zero_itemsOf_array _) h.describes hfit with ⟨funcs, hresult, hsays⟩
  rw [LoadedAsWritten, rpcDecodeRegisterJson_of_registerText h hip,
    Traced.bind_of_ok hresult]
  exact ⟨0, _, rfl, Or.inr ⟨funcs, rfl, hsays⟩⟩

/-- A document is refused or loaded as it is written exactly when the old
address can be released and no entry has more parameters than slots. -/
theorem loadedAsWritten_iff (h : RegisterText json entries) :
    LoadedAsWritten find globals json entries <->
      globals.rpcServerIp ≠ .released ∧
        forall e, e ∈ entries -> e.params.length <= rpcParamsMaxCount := by
  constructor
  · intro hloaded
    rcases hloaded with ⟨code, after, hresult, _⟩
    by_cases hip : Freeable globals.rpcServerIp
    · refine ⟨hip, fun e he => ?_⟩
      by_contra hlong
      have herror := registerEntries_of_too_many find globals.rpcCallerTable
        (drop_zero_itemsOf_array _) h.describes ⟨e, he, by omega⟩
      rw [rpcDecodeRegisterJson_of_registerText h hip,
        Traced.bind_of_error herror] at hresult
      cases hresult
    · rw [rpcDecodeRegisterJson_of_port h.parsed h.hasRemote h.hasPort,
        freeServerIp_bind_of_not hip] at hresult
      cases hresult
  · intro hcondition
    rcases hcondition with ⟨hip, hfit⟩
    exact loadedAsWritten_of_fit h hip hfit

end

def registerText_entriesDocument (remote : CString) (port : Int32)
    (entries : List EntryText) :
    RegisterText (print (entriesDocument remote port entries)) entries where
  root := entriesDocument remote port entries
  remote := remote
  port := .finite port.toInt
  items := entries.map EntryText.document
  parsed := parse_print (readable_entriesDocument remote port entries)
    (by decide)
  hasRemote := rfl
  hasPort := rfl
  hasConfig := rfl
  describes := by
    rw [List.forall₂_map_left_iff, List.forall₂_same]
    intro entry _
    exact ⟨rfl, rfl, rfl, rfl⟩

theorem registerJson_loadedAsWritten :
    LoadedAsWritten librpcMethod .initial
      (print (entriesDocument (.lit "172.16.0.6") 9096
        (registerJson.map Signature.text)))
      (registerJson.map Signature.text) := by
  apply (loadedAsWritten_iff (registerText_entriesDocument _ _ _)).mpr
  constructor
  · intro h
    cases h
  · decide

def seventeenParams : EntryText where
  method := .lit "add"
  params := List.replicate 17 (.lit "a", .lit "int")
  rettype := .lit "int"

theorem seventeenParams_stored_past_slots :
    (rpcDecodeRegisterJson librpcMethod
        (some (print (entriesDocument (.lit "172.16.0.6") 9096
          [seventeenParams]))) .initial).result = .error .outOfBounds ∧
      ¬ LoadedAsWritten librpcMethod .initial
        (print (entriesDocument (.lit "172.16.0.6") 9096 [seventeenParams]))
        [seventeenParams] := by
  have htext := registerText_entriesDocument (.lit "172.16.0.6") 9096
    [seventeenParams]
  have hrun : (rpcDecodeRegisterJson librpcMethod
      (some (print (entriesDocument (.lit "172.16.0.6") 9096
        [seventeenParams]))) .initial).result = .error .outOfBounds := by
    have herror := registerEntries_of_too_many librpcMethod
      Globals.initial.rpcCallerTable (drop_zero_itemsOf_array _) htext.describes
      ⟨seventeenParams, List.mem_singleton_self _, by decide⟩
    rw [rpcDecodeRegisterJson_of_registerText htext (fun h => by cases h),
      Traced.bind_of_error herror]
  refine ⟨hrun, fun hloaded => ?_⟩
  rcases hloaded with ⟨code, after, hresult, _⟩
  rw [hrun] at hresult
  cases hresult

end Dispatch
end Z2wRpc
