import Z2wRpc.Call.LastRegistration
import Z2wRpc.Dispatch.LoadInMemory

/-!
# The server address between loads

The address and the caller table outlive the call that set them: the next load
frees the old address and the next connection reads it.  Whether both stay valid
is a matter of whole sequences of loads.
-/

namespace Z2wRpc

open Foundation

namespace Call

open CJson Dispatch

/-- `rpc_decode_register_json` on one text after the other, on the memory. -/
def decodeAllInMemory (find : CString -> Option SharedHandler) :
    List (Option CString) -> HeapGlobals -> HeapRun (List Int × HeapGlobals)
  | [], s => return ([], s)
  | json :: rest, s => do
      let (code, s) ← decodeInMemory find json s
      let (codes, s) ← decodeAllInMemory find rest s
      return (code :: codes, s)

/-- The address is `NULL` or live, and every string of the table is live. -/
structure AllLive (live : List Nat) (s : HeapGlobals) : Prop where
  address : forall block, s.rpcServerIp = some block -> block ∈ live
  table : forall entry, entry ∈ s.rpcCallerTable ->
    forall block, block ∈ entry.strings -> block ∈ live

def EndsLive (find : CString -> Option SharedHandler)
    (texts : List (Option CString)) : Prop :=
  exists codes s live,
    (decodeAllInMemory find texts .initial).result = .ok (codes, s) ∧
    ledger [] (decodeAllInMemory find texts .initial).events = some live ∧
    AllLive live s

def NeverDangles (find : CString -> Option SharedHandler)
    (inputs : List RegisterInput) : Prop :=
  forall called, called <+: inputs ->
    EndsLive find (called.map RegisterInput.json)

/-!
## Sequences on values
-/

section

variable {find : CString -> Option Handler}

theorem decodeAll_append_of_ok {calls calls' : List (Option CString × Reuse)}
    {globals middle after : Globals} {codes codes' : List Int}
    (h : (decodeAll find calls globals).result = .ok (codes, middle))
    (h' : (decodeAll find calls' middle).result = .ok (codes', after)) :
    (decodeAll find (calls ++ calls') globals).result =
      .ok (codes ++ codes', after) := by
  induction calls generalizing globals codes with
  | nil =>
      cases h
      exact h'
  | cons call calls ih =>
      rcases Traced.bind_result_ok_iff.mp h with ⟨⟨code, next⟩, hfirst, h⟩
      rcases Traced.bind_result_ok_iff.mp h with ⟨⟨more, last⟩, hrest, h⟩
      cases h
      rw [List.cons_append, decodeAll, Traced.bind_of_ok hfirst]
      simp only [Traced.bind_of_ok (ih hrest)]
      rfl

theorem decodeAll_keepsAddress {inputs : List RegisterInput}
    {globals : Globals}
    (hkeep : forall input, input ∈ inputs -> ¬ DropsAddress input.json)
    (hip : Freeable globals.rpcServerIp) :
    exists codes after,
      (decodeAll find ((inputs.map RegisterInput.load).map Load.call)
        globals).result = .ok (codes, after) ∧
      Freeable after.rpcServerIp := by
  induction inputs generalizing globals with
  | nil => exact ⟨[], globals, rfl, hip⟩
  | cons input rest ih =>
      rw [List.forall_mem_cons] at hkeep
      rcases hkeep with ⟨hfirst, hrest⟩
      rw [List.map_cons]
      cases decodeStep find input.load globals with
      | refused code noAddress nonzero result =>
          rcases ih hrest hip with ⟨codes, after, hrun, hafter⟩
          refine ⟨code :: codes, after, ?_, hafter⟩
          rw [decodeAll_cons_of_ok result, Traced.bind_of_ok hrun]
          rfl
      | stopped address dangling harm result => exact absurd dangling hip
      | dropped drops freeable result => exact absurd drops hfirst
      | loaded address keeps harmless next funcs result behind table holds =>
          have hnext : Freeable next.rpcServerIp :=
            fun hreleased => hip (behind.mp hreleased).left
          rcases ih hrest hnext with ⟨codes, after, hrun, hafter⟩
          refine ⟨0 :: codes, after, ?_, hafter⟩
          rw [decodeAll_cons_of_ok result, Traced.bind_of_ok hrun]
          rfl

theorem decodeAll_dropped {input : RegisterInput} {globals : Globals}
    (hdrops : DropsAddress input.json) (hip : Freeable globals.rpcServerIp) :
    (decodeAll find [input.load.call] globals).result =
      .ok ([-4], { globals with rpcServerIp := .released }) := by
  rcases hdrops with ⟨text, htext, hlacks⟩
  have hlost := @rpcDecodeRegisterJson_of_lacksPort find globals _ hlacks hip
  rw [<- @decodeReusing_of_freeable find .untaken globals _ hip, <- htext]
    at hlost
  rw [Load.call, RegisterInput.load, decodeAll, Traced.bind_of_ok hlost]
  rfl

end

/-!
## Sequences on the memory
-/

section

variable {find : CString -> Option SharedHandler} {live : List Nat}
  {s : HeapGlobals} {globals after : Globals}

theorem decodeAllInMemory_of_decodeAll {texts : List (Option CString)}
    {codes : List Int} (h : HeapDenotes live s globals)
    (hcalls : (decodeAll (findHandler find)
      (texts.map fun text => (text, .untaken)) globals).result =
        .ok (codes, after)) :
    exists live' s',
      (decodeAllInMemory find texts s).result = .ok (codes, s') ∧
      ledger live (decodeAllInMemory find texts s).events = some live' ∧
      HeapDenotes live' s' after := by
  induction texts generalizing live s globals codes with
  | nil =>
      cases hcalls
      exact ⟨live, s, rfl, rfl, h⟩
  | cons json texts ih =>
      rcases Traced.bind_result_ok_iff.mp hcalls with
        ⟨⟨code, next⟩, hfirst, hcalls⟩
      rcases Traced.bind_result_ok_iff.mp hcalls with
        ⟨⟨more, last⟩, hrest, hcalls⟩
      cases hcalls
      rw [decodeReusing_untaken] at hfirst
      rcases follows_of_decode h hfirst with
        ⟨middle, t, hcall, hledger, hmiddle⟩
      rcases ih hmiddle hrest with ⟨live', s', hcalls, hledgers, hlast⟩
      have hrun : decodeAllInMemory find (json :: texts) s =
          ⟨(decodeInMemory find json s).events ++
              (decodeAllInMemory find texts t).events,
            .ok (code :: more, s')⟩ := by
        rw [decodeAllInMemory, Traced.bind_of_ok hcall]
        simp only [Traced.bind_of_ok hcalls, Traced.pure_events,
          List.append_nil]
        rfl
      rw [hrun]
      refine ⟨live', s', rfl, ?_, hlast⟩
      rw [ledger_append, hledger, Option.bind_some, hledgers]

theorem allLive_of_denotes (h : HeapDenotes live s globals)
    (hip : Freeable globals.rpcServerIp) : AllLive live s where
  address block hblock := by
    have hdenotes := h.ip
    rw [hblock] at hdenotes
    generalize globals.rpcServerIp = ip at hip hdenotes
    cases hdenotes with
    | live held _ => exact held
    | released _ _ => exact absurd rfl hip
  table := h.strings

theorem not_allLive_of_released (h : HeapDenotes live s globals)
    (hip : globals.rpcServerIp = .released) : ¬ AllLive live s := by
  intro hall
  have hdenotes := h.ip
  rw [hip] at hdenotes
  cases haddress : s.rpcServerIp with
  | none =>
      rw [haddress] at hdenotes
      cases hdenotes
  | some block =>
      rw [haddress] at hdenotes
      cases hdenotes with
      | released gone _ => exact gone (hall.address block haddress)

end

section

variable {find : CString -> Option SharedHandler}

theorem calls_of_inputs (inputs : List RegisterInput) :
    (inputs.map RegisterInput.load).map Load.call =
      (inputs.map RegisterInput.json).map fun text => (text, .untaken) := by
  rw [List.map_map, List.map_map]
  rfl

theorem freeable_initial : Freeable Globals.initial.rpcServerIp := by
  intro h
  cases h

theorem endsLive_of_keeps {inputs : List RegisterInput}
    (hkeep : forall input, input ∈ inputs -> ¬ DropsAddress input.json) :
    EndsLive find (inputs.map RegisterInput.json) := by
  rcases @decodeAll_keepsAddress (findHandler find) inputs _ hkeep
    freeable_initial with ⟨codes, after, hcalls, hip⟩
  rw [calls_of_inputs] at hcalls
  rcases decodeAllInMemory_of_decodeAll heapDenotes_initial hcalls with
    ⟨live, s, hrun, hledger, hlast⟩
  exact ⟨codes, s, live, hrun, hledger, allLive_of_denotes hlast hip⟩

theorem not_endsLive_of_drops {before : List RegisterInput}
    {input : RegisterInput}
    (hkeep : forall other, other ∈ before -> ¬ DropsAddress other.json)
    (hdrops : DropsAddress input.json) :
    ¬ EndsLive find ((before ++ [input]).map RegisterInput.json) := by
  intro hends
  rcases hends with ⟨codes, s, live, hrun, hledger, hall⟩
  rcases @decodeAll_keepsAddress (findHandler find) before _ hkeep
    freeable_initial with ⟨earlier, middle, hbefore, hip⟩
  have hcalls := decodeAll_append_of_ok hbefore (decodeAll_dropped hdrops hip)
  rw [<- List.map_singleton (f := Load.call),
    <- List.map_singleton (f := RegisterInput.load), <- List.map_append,
    <- List.map_append, calls_of_inputs] at hcalls
  rcases decodeAllInMemory_of_decodeAll heapDenotes_initial hcalls with
    ⟨live', s', hrun', hledger', hlast⟩
  rw [hrun] at hrun'
  rw [hledger] at hledger'
  cases hrun'
  cases hledger'
  exact not_allLive_of_released hlast rfl hall

theorem keeps_of_neverDangles {inputs called : List RegisterInput}
    (h : NeverDangles find inputs) (hcalled : called <+: inputs) :
    forall input, input ∈ called -> ¬ DropsAddress input.json := by
  -- induction from the back: the calls before the last one keep the address
  induction called using List.reverseRecOn with
  | nil => exact fun input hinput => absurd hinput List.not_mem_nil
  | append_singleton before last ih =>
      have hbefore := ih ((List.prefix_append before [last]).trans hcalled)
      intro input hinput hdrops
      rcases List.mem_append.mp hinput with hinput | hinput
      · exact hbefore input hinput hdrops
      · rw [List.mem_singleton.mp hinput] at hdrops
        exact not_endsLive_of_drops hbefore hdrops (h _ hcalled)

/-- Address and table stay live exactly in the sequences without a document
that has an address and no port. -/
theorem neverDangles_iff (find : CString -> Option SharedHandler)
    (inputs : List RegisterInput) :
    NeverDangles find inputs <->
      forall input, input ∈ inputs -> ¬ DropsAddress input.json := by
  constructor
  · intro h
    exact keeps_of_neverDangles h (List.prefix_refl inputs)
  · intro hkeep called hcalled
    exact endsLive_of_keeps fun input hinput =>
      hkeep input (hcalled.subset hinput)

end

theorem decodeInMemory_addressOnly :
    decodeInMemory sharedLibrpcMethod addressOnlyInput.json .initial =
      ⟨[.acquire 0, .acquire 1, .release 1, .release 0],
        .ok (-4, {
          HeapGlobals.initial with
          memory := [(CString.lit "remote").stored,
            (CString.lit "172.16.0.7").stored]
          rpcServerIp := some 1 })⟩ := by
  have hparse : addressOnlyInput.json.bind parse = some addressOnly := by
    rw [addressOnlyInput, Option.bind_some, parse_addressOnly]
  exact decodeInMemory_of_no_port hparse rfl (fun port h => by cases h)

theorem addressOnly_dangles :
    (decodeInMemory sharedLibrpcMethod addressOnlyInput.json .initial).result =
      .ok (-4, {
        HeapGlobals.initial with
        memory := [(CString.lit "remote").stored,
          (CString.lit "172.16.0.7").stored]
        rpcServerIp := some 1 }) ∧
    ledger [] (decodeInMemory sharedLibrpcMethod addressOnlyInput.json
      .initial).events = some [] ∧
    ¬ NeverDangles sharedLibrpcMethod [addressOnlyInput] := by
  rw [decodeInMemory_addressOnly]
  refine ⟨rfl, rfl, fun h => ?_⟩
  exact keeps_of_neverDangles h (List.prefix_refl _) addressOnlyInput
    (List.mem_singleton_self _) dropsAddress_addressOnly

end Call
end Z2wRpc
