import Z2wRpc.Dispatch.Acceptance

/-!
# Loading behind a dangling address

A document that is refused for its port leaves `rpc_server_ip` dangling, and the
next document with an address frees the pointer again.  By then `malloc` may
have handed the block out to that document, so what the second `free` does is
the allocator's choice.
-/

namespace Z2wRpc

open Foundation

namespace Dispatch

open CJson

/-- What lies in the block of a dangling address when the next document has been
parsed. -/
inductive Reuse where
  -- nothing, the block is still free
  | untaken
  -- the string of the new `remote`
  | remote
  -- another string of the document, which nothing reads again
  | spare
  -- an item, or a string that is read again
  | needed
deriving DecidableEq

/-- The second `free` takes nothing away that is read again. -/
def Reuse.harmless : Reuse -> Bool
  | .remote => true
  | .spare => true
  | _ => false

def ServerIp.dangles : ServerIp -> Bool
  | .released => true
  | _ => false

/-- `free(rpc_server_ip)`, whose block may have been handed out again. -/
def freeReused (reuse : Reuse) (ip : ServerIp) : Run Unit :=
  if ip.dangles && !reuse.harmless then Traced.fault .useAfterFree
  else return ()

/-- `rpc_server_ip` behind a document with an address and a port. -/
def nextAddress (reuse : Reuse) (ip : ServerIp) (remote : CString) : ServerIp :=
  if ip.dangles && reuse = .remote then .released else .live remote

/--
`rpc_decode_register_json` on globals whose address may dangle.  A document
without a port is deleted as a whole, with the block that it has lost to the
second `free`.
-/
def decodeReusing (find : CString -> Option Handler) (reuse : Reuse)
    (json : Option CString) (globals : Globals) : Run (Int × Globals) :=
  match json.bind parse with
  | none => return (-1, globals)
  | some root =>
      match getObjectItem (some root) (.lit "remote") with
      | some (.string remote) => do
          freeReused reuse globals.rpcServerIp
          match getObjectItem (some root) (.lit "port") with
          | some (.number port) => do
              let config := getObjectItem (some root) (.lit "config")
              let table ← registerEntries find config (getArraySize config) 0
                globals.rpcCallerTable
              return (0, {
                globals with
                rpcServerIp := nextAddress reuse globals.rpcServerIp remote
                rpcServerPort := (saturate port).toInt16
                rpcCallerTable := table })
          | _ =>
              if globals.rpcServerIp.dangles then Traced.fault .useAfterFree
              else return (-4, { globals with rpcServerIp := .released })
      | _ => return (-3, globals)

theorem dangles_iff {ip : ServerIp} : ip.dangles = true <-> ip = .released := by
  cases ip with
  | released => simp [ServerIp.dangles]
  | _ => simp [ServerIp.dangles]

theorem dangles_of_freeable {ip : ServerIp} (h : Freeable ip) :
    ip.dangles = false := by
  rw [<- Bool.not_eq_true, dangles_iff]
  exact h

theorem nextAddress_dangles_iff {reuse : Reuse} {ip : ServerIp}
    {remote : CString} : nextAddress reuse ip remote = .released <->
      ip = .released ∧ reuse = .remote := by
  unfold nextAddress
  split
  · rename_i hboth
    rw [Bool.and_eq_true, dangles_iff, decide_eq_true_eq] at hboth
    exact iff_of_true rfl hboth
  · rename_i hnot
    rw [Bool.and_eq_true, dangles_iff, decide_eq_true_eq] at hnot
    exact iff_of_false (fun h => by cases h) hnot

section

variable {find : CString -> Option Handler} {reuse : Reuse}
  {globals : Globals} {json : Option CString}

theorem decodeReusing_of_freeable (h : Freeable globals.rpcServerIp) :
    decodeReusing find reuse json globals =
      rpcDecodeRegisterJson find json globals := by
  have hkept := dangles_of_freeable h
  have hfree : freeReused reuse globals.rpcServerIp = pure () := by
    rw [freeReused, hkept]
    rfl
  have hold : freeServerIp globals.rpcServerIp = pure () := by
    cases hip : globals.rpcServerIp with
    | released => exact absurd hip h
    | _ => rfl
  have hnext (remote : CString) :
      nextAddress reuse globals.rpcServerIp remote = .live remote := by
    rw [nextAddress, hkept]
    rfl
  unfold decodeReusing rpcDecodeRegisterJson
  simp only [hfree, hold, hnext, hkept, Bool.false_eq_true, if_false] <;> rfl

theorem decodeReusing_untaken :
    decodeReusing find .untaken json globals =
      rpcDecodeRegisterJson find json globals := by
  by_cases hip : Freeable globals.rpcServerIp
  · exact decodeReusing_of_freeable hip
  · obtain hip : globals.rpcServerIp = .released := not_not.mp hip
    have hfree : freeReused .untaken globals.rpcServerIp =
        freeServerIp globals.rpcServerIp := by
      rw [hip]
      rfl
    have hstops {α : Type} (f : Unit -> Run α) :
        freeServerIp globals.rpcServerIp >>= f =
          Traced.fault .useAfterFree := by
      rw [hip]
      rfl
    unfold decodeReusing rpcDecodeRegisterJson
    simp only [hfree, hstops] <;> rfl

/-!
## Documents with an address
-/

variable {text remote : CString} {root : CJson} {port : Double}

theorem freeReused_bind {α : Type} {ip : ServerIp}
    (h : ip = .released -> reuse.harmless = true) (f : Unit -> Run α) :
    freeReused reuse ip >>= f = f () := by
  have hno : ¬ (ip.dangles && !reuse.harmless) = true := by
    rw [Bool.and_eq_true, dangles_iff, not_and]
    intro hip
    simp [h hip]
  rw [freeReused, if_neg hno]
  rfl

theorem freeReused_bind_of_not {α : Type} {ip : ServerIp}
    (h : ¬ (ip = .released -> reuse.harmless = true)) (f : Unit -> Run α) :
    (freeReused reuse ip >>= f).result = .error .useAfterFree := by
  rw [Classical.not_imp, Bool.not_eq_true] at h
  rcases h with ⟨rfl, hharm⟩
  rw [freeReused, hharm]
  rfl

theorem decodeReusing_of_port (hparse : parse text = some root)
    (hremote : getObjectItem (some root) (.lit "remote") =
      some (.string remote))
    (hport : getObjectItem (some root) (.lit "port") = some (.number port)) :
    decodeReusing find reuse (some text) globals =
      (freeReused reuse globals.rpcServerIp >>= fun _ =>
        registerEntries find (getObjectItem (some root) (.lit "config"))
            (getArraySize (getObjectItem (some root) (.lit "config"))) 0
            globals.rpcCallerTable >>= fun table =>
          return (0, {
            globals with
            rpcServerIp := nextAddress reuse globals.rpcServerIp remote
            rpcServerPort := (saturate port).toInt16
            rpcCallerTable := table })) := by
  rw [decodeReusing, Option.bind_some, hparse]
  simp only [hremote, hport]

theorem decodeReusing_of_no_remote (hparse : parse text = some root)
    (hremote : forall remote,
      getObjectItem (some root) (.lit "remote") ≠ some (.string remote)) :
    decodeReusing find reuse (some text) globals = pure (-3, globals) := by
  rw [decodeReusing, Option.bind_some, hparse]
  simp only

theorem decodeReusing_of_no_port (hparse : parse text = some root)
    (hremote : getObjectItem (some root) (.lit "remote") =
      some (.string remote))
    (hport : forall port,
      getObjectItem (some root) (.lit "port") ≠ some (.number port))
    (hip : globals.rpcServerIp = .released) :
    (decodeReusing find reuse (some text) globals).result =
      .error .useAfterFree := by
  rw [decodeReusing, Option.bind_some, hparse]
  simp only [hremote]
  by_cases hharmless : globals.rpcServerIp = .released ->
      reuse.harmless = true
  · rw [freeReused_bind hharmless, if_pos (dangles_iff.mpr hip)]
    rfl
  · exact freeReused_bind_of_not hharmless _

/-- A load returns zero exactly when the address can be freed and every element
of `config` is stored. -/
theorem decodeReusing_result_zero_iff {after : Globals}
    (hparse : parse text = some root)
    (hremote : getObjectItem (some root) (.lit "remote") =
      some (.string remote))
    (hport : getObjectItem (some root) (.lit "port") = some (.number port)) :
    (decodeReusing find reuse (some text) globals).result = .ok (0, after) <->
      (globals.rpcServerIp = .released -> reuse.harmless = true) ∧
        exists funcs, List.Forall₂ (Stored find)
          (itemsOf (getObjectItem (some root) (.lit "config"))) funcs ∧
        after = {
          globals with
          rpcServerIp := nextAddress reuse globals.rpcServerIp remote
          rpcServerPort := (saturate port).toInt16
          rpcCallerTable := funcs.reverse ++ globals.rpcCallerTable } := by
  rw [decodeReusing_of_port hparse hremote hport]
  by_cases hharmless : globals.rpcServerIp = .released ->
      reuse.harmless = true
  · rw [freeReused_bind hharmless]
    simp only [Traced.bind_result_ok_iff, registerEntries_all_iff]
    constructor
    · intro h
      rcases h with ⟨table, ⟨funcs, rfl, hfuncs⟩, h⟩
      exact ⟨hharmless, funcs, hfuncs,
        (Prod.mk.inj (Except.ok.inj h)).right.symm⟩
    · intro h
      rcases h with ⟨_, funcs, hfuncs, rfl⟩
      exact ⟨_, ⟨funcs, rfl, hfuncs⟩, rfl⟩
  · rw [freeReused_bind_of_not hharmless]
    simp [hharmless]

def LoaderTakes (reuse : Reuse) (root : CJson) (globals : Globals) : Prop :=
  (globals.rpcServerIp = .released -> reuse.harmless = true) ∧
    forall item,
      item ∈ itemsOf (getObjectItem (some root) (.lit "config")) ->
        LoaderTakesEntry item

theorem loads_iff_loaderTakes (hparse : parse text = some root)
    (hremote : getObjectItem (some root) (.lit "remote") =
      some (.string remote))
    (hport : getObjectItem (some root) (.lit "port") = some (.number port)) :
    (exists after, (decodeReusing find reuse (some text) globals).result =
        .ok (0, after)) <-> LoaderTakes reuse root globals := by
  simp only [decodeReusing_result_zero_iff hparse hremote hport]
  rw [LoaderTakes, <- @exists_funcs_iff find]
  constructor
  · intro h
    rcases h with ⟨after, hharmless, funcs, hfuncs, _⟩
    exact ⟨hharmless, funcs, hfuncs⟩
  · intro h
    rcases h with ⟨hharmless, funcs, hfuncs⟩
    exact ⟨_, hharmless, funcs, hfuncs, rfl⟩

end

end Dispatch
end Z2wRpc
