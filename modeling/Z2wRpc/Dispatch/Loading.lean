import Z2wRpc.Dispatch.RegisterJson

/-!
# Loading a register file

`rpc_load_register` reads a file and hands its text to
`rpc_decode_register_json`.  Two questions about the globals afterwards: a
refused document should have changed nothing, and an accepted one should have
put exactly its entries in front of the table.
-/

namespace Z2wRpc

open Foundation

namespace Dispatch

open CJson

/-!
## The file
-/

/-- What the calls of `rpc_read_register_config` find. -/
inductive RegisterFile where
  -- `open` fails
  | notOpened
  | noMemory
  -- `read` returns -1
  | unreadable
  -- the bytes that `read` delivers
  | content (bytes : List Byte)

/-- `rpc_read_register_config`; the terminator goes to `buffer[bytes_read]`. -/
def rpcReadRegisterConfig : RegisterFile -> Run (Option CString)
  | .notOpened => return none
  | .noMemory => return none
  | .unreadable => Traced.fault .outOfBounds
  | .content bytes => return some (CString.ofBytes bytes)

def rpcLoadRegister (find : CString -> Option Handler) (file : RegisterFile)
    (globals : Globals) : Run (Int × Globals) := do
  let json ← rpcReadRegisterConfig file
  rpcDecodeRegisterJson find json globals

/-!
## Refused documents
-/

/-- Whenever the run returns a non-zero code, the globals are as before. -/
def AllOrNothing (before : Globals) (run : Run (Int × Globals)) : Prop :=
  forall code after, run.result = .ok (code, after) -> code ≠ 0 ->
    after.rpcServerIp = before.rpcServerIp ∧
      after.rpcServerPort = before.rpcServerPort ∧
      after.rpcCallerTable = before.rpcCallerTable

/-- The text is a document with a server address and without a port. -/
def LacksPort (json : CString) : Prop :=
  exists root remote, parse json = some root ∧
    getObjectItem (some root) (.lit "remote") = some (.string remote) ∧
    forall port,
      getObjectItem (some root) (.lit "port") ≠ some (.number port)

def Freeable (ip : ServerIp) : Prop :=
  ip ≠ .released

theorem freeServerIp_result_ok_iff {ip : ServerIp} :
    (freeServerIp ip).result = .ok () <-> Freeable ip := by
  cases ip with
  | released => simp [freeServerIp, Freeable]
  | _ => simp [freeServerIp, Freeable]

section

variable {find : CString -> Option Handler} {globals after : Globals}
  {json : CString} {root : CJson} {remote : CString} {code : Int}

theorem freeServerIp_bind {α : Type} {ip : ServerIp} (h : Freeable ip)
    (f : Unit -> Run α) : freeServerIp ip >>= f = f () := by
  cases ip with
  | released => exact absurd rfl h
  | null => rfl
  | live ip => rfl

theorem freeServerIp_bind_of_not {α : Type} {ip : ServerIp}
    (h : ¬ Freeable ip) (f : Unit -> Run α) :
    (freeServerIp ip >>= f).result = .error .useAfterFree := by
  obtain rfl : ip = .released := not_not.mp h
  rfl

theorem rpcDecodeRegisterJson_of_port {port : Double}
    (hparse : parse json = some root)
    (hremote : getObjectItem (some root) (.lit "remote") =
      some (.string remote))
    (hport : getObjectItem (some root) (.lit "port") = some (.number port)) :
    rpcDecodeRegisterJson find (some json) globals =
      (freeServerIp globals.rpcServerIp >>= fun _ =>
        registerEntries find (getObjectItem (some root) (.lit "config"))
            (getArraySize (getObjectItem (some root) (.lit "config"))) 0
            globals.rpcCallerTable >>= fun table =>
          return (0, {
            globals with
            rpcServerIp := .live remote
            rpcServerPort := (saturate port).toInt16
            rpcCallerTable := table })) := by
  rw [rpcDecodeRegisterJson, Option.bind_some, hparse]
  simp only [hremote, hport]

theorem rpcDecodeRegisterJson_of_no_port (hparse : parse json = some root)
    (hremote : getObjectItem (some root) (.lit "remote") =
      some (.string remote))
    (hport : forall port,
      getObjectItem (some root) (.lit "port") ≠ some (.number port)) :
    rpcDecodeRegisterJson find (some json) globals =
      (freeServerIp globals.rpcServerIp >>= fun _ =>
        return (-4, { globals with rpcServerIp := .released })) := by
  rw [rpcDecodeRegisterJson, Option.bind_some, hparse]
  simp only [hremote]

theorem rpcDecodeRegisterJson_of_no_remote (hparse : parse json = some root)
    (hremote : forall remote,
      getObjectItem (some root) (.lit "remote") ≠ some (.string remote)) :
    rpcDecodeRegisterJson find (some json) globals = pure (-3, globals) := by
  rw [rpcDecodeRegisterJson, Option.bind_some, hparse]
  simp only

theorem rpcDecodeRegisterJson_of_lacksPort (h : LacksPort json)
    (hip : Freeable globals.rpcServerIp) :
    (rpcDecodeRegisterJson find (some json) globals).result =
      .ok (-4, { globals with rpcServerIp := .released }) := by
  rcases h with ⟨root, remote, hparse, hremote, hport⟩
  rw [rpcDecodeRegisterJson_of_no_port hparse hremote hport,
    freeServerIp_bind hip]
  rfl

theorem globals_of_refused
    (h : (rpcDecodeRegisterJson find (some json) globals).result =
      .ok (code, after)) (hcode : code ≠ 0) :
    after = globals ∨ LacksPort json ∧ Freeable globals.rpcServerIp := by
  cases hparse : parse json with
  | none =>
      rw [rpcDecodeRegisterJson, Option.bind_some, hparse] at h
      exact Or.inl (Prod.mk.inj (Except.ok.inj h)).right.symm
  | some root =>
      by_cases hremote : exists remote,
          getObjectItem (some root) (.lit "remote") = some (.string remote)
      · rcases hremote with ⟨remote, hremote⟩
        by_cases hport : exists port,
            getObjectItem (some root) (.lit "port") = some (.number port)
        · rcases hport with ⟨port, hport⟩
          rw [rpcDecodeRegisterJson_of_port hparse hremote hport] at h
          rcases Traced.bind_result_ok_iff.mp h with ⟨_, _, h⟩
          rcases Traced.bind_result_ok_iff.mp h with ⟨table, _, h⟩
          exact absurd (Prod.mk.inj (Except.ok.inj h)).left.symm hcode
        · rw [not_exists] at hport
          rw [rpcDecodeRegisterJson_of_no_port hparse hremote hport] at h
          rcases Traced.bind_result_ok_iff.mp h with ⟨_, hip, _⟩
          exact Or.inr ⟨⟨root, remote, hparse, hremote, hport⟩,
            freeServerIp_result_ok_iff.mp hip⟩
      · rw [not_exists] at hremote
        rw [rpcDecodeRegisterJson_of_no_remote hparse hremote] at h
        exact Or.inl (Prod.mk.inj (Except.ok.inj h)).right.symm

theorem decode_allOrNothing_iff :
    AllOrNothing globals (rpcDecodeRegisterJson find (some json) globals) <->
      ¬ (LacksPort json ∧ Freeable globals.rpcServerIp) := by
  constructor
  · intro hkeeps hloses
    rcases hloses with ⟨hport, hip⟩
    have hip' := (hkeeps _ _ (rpcDecodeRegisterJson_of_lacksPort hport hip)
      (by decide)).left
    exact hip hip'.symm
  · intro hnot code after h hcode
    rcases globals_of_refused h hcode with rfl | hloses
    · exact ⟨rfl, rfl, rfl⟩
    · exact absurd hloses hnot

end

theorem rpcDecodeRegisterJson_null (find : CString -> Option Handler)
    (globals : Globals) : AllOrNothing globals
      (rpcDecodeRegisterJson find none globals) := by
  intro code after h _
  obtain rfl : globals = after := (Prod.mk.inj (Except.ok.inj h)).right
  exact ⟨rfl, rfl, rfl⟩

theorem rpcDecodeRegisterJson_some_iff {find : CString -> Option Handler}
    {globals : Globals} {text : CString} :
    AllOrNothing globals (rpcDecodeRegisterJson find (some text) globals) <->
      (LacksPort text -> globals.rpcServerIp = .released) := by
  rw [decode_allOrNothing_iff, Freeable, not_and, not_not]

/-- Loading is all or nothing exactly for the texts that have a port when they
have an address, and behind a failure that has already cost the address. -/
theorem load_allOrNothing_iff (find : CString -> Option Handler)
    (globals : Globals) :
    (forall json, AllOrNothing globals
        (rpcDecodeRegisterJson find json globals) <->
      forall text, json = some text ->
        LacksPort text -> globals.rpcServerIp = .released) ∧
    (forall file, AllOrNothing globals (rpcLoadRegister find file globals) <->
      forall bytes, file = .content bytes ->
        LacksPort (CString.ofBytes bytes) ->
          globals.rpcServerIp = .released) := by
  have hnull := rpcDecodeRegisterJson_null find globals
  constructor
  · intro json
    cases json with
    | none => simp [hnull]
    | some text => simp [rpcDecodeRegisterJson_some_iff]
  · intro file
    cases file with
    | notOpened =>
        have hload : rpcLoadRegister find .notOpened globals =
            rpcDecodeRegisterJson find none globals := rfl
        simp [hload, hnull]
    | noMemory =>
        have hload : rpcLoadRegister find .noMemory globals =
            rpcDecodeRegisterJson find none globals := rfl
        simp [hload, hnull]
    | unreadable =>
        have hfault : AllOrNothing globals
            (rpcLoadRegister find .unreadable globals) := by
          intro code after h
          cases h
        simp [hfault]
    | content bytes =>
        have hload : rpcLoadRegister find (.content bytes) globals =
            rpcDecodeRegisterJson find (some (CString.ofBytes bytes))
              globals := rfl
        simp [hload, rpcDecodeRegisterJson_some_iff]

def addressOnly : CJson :=
  .object [(.lit "remote", .string (.lit "172.16.0.7"))]

theorem parse_addressOnly : parse (print addressOnly) = some addressOnly := by
  have hreadable : Readable 1 addressOnly := by
    apply Readable.object
    intro m hm
    rw [List.mem_singleton.mp hm]
    exact Readable.string _
  exact parse_print hreadable (by decide)

theorem lacksPort_addressOnly : LacksPort (print addressOnly) := by
  refine ⟨addressOnly, .lit "172.16.0.7", parse_addressOnly, rfl,
    fun port h => ?_⟩
  cases h

/-- A client loses the address it talks to. -/
theorem address_lost :
    Loaded librpcMethod registeredGlobals ∧
      registeredGlobals.rpcServerIp = .live (.lit "172.16.0.6") ∧
      (rpcLoadRegister librpcMethod (.content (print addressOnly).bytes)
        registeredGlobals).result =
          .ok (-4, { registeredGlobals with rpcServerIp := .released }) := by
  have hlost := @rpcDecodeRegisterJson_of_lacksPort librpcMethod
    registeredGlobals _ lacksPort_addressOnly (fun h => by cases h)
  refine ⟨loaded_registeredGlobals, rfl, ?_⟩
  rw [rpcLoadRegister, rpcReadRegisterConfig, CString.ofBytes_bytes,
    Traced.pure_bind]
  exact hlost

end Dispatch
end Z2wRpc
