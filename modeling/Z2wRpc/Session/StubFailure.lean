import Z2wRpc.Call.Reads
import Z2wRpc.Session.Stub

/-!
# Calls that fail

`rpc_request_json_encode`, `rpc_client_session` and `rpc_response_json_decode`
return `NULL` when something goes wrong, and a generated stub hands on whatever
it got.  A stub survives a failure only where the failure leaves a result, or
where its type makes it ignore the result.
-/

namespace Z2wRpc

open Foundation

namespace Session

open Call CJson Dispatch Wire Program

/-!
## Stubs of every return type
-/

inductive Returned where
  | text (s : CString)
  | int (i : Int32)
  | long (i : Int64)
  | real (d : Double)
deriving DecidableEq

/-- The conversion of the printed result that `rpc_generate_c_method` emits for
a return type; for other types it emits a constant. -/
def conversion (rettype : CString) : Option (CString -> Returned) :=
  if isCharPointer rettype then
    some fun result => .text (strdup result)
  else if rettype = .lit "int" ∨ rettype = .lit "int " then
    some fun result => .int (atoi result)
  else if rettype = .lit "long" ∨ rettype = .lit "long " then
    some fun result => .long (atol result)
  else if rettype = .lit "long long" ∨ rettype = .lit "long long " then
    some fun result => .long (atol result)
  else if rettype = .lit "float" ∨ rettype = .lit "float " then
    some fun result => .real (Double.toFloat (Double.atof result))
  else if rettype = .lit "double" ∨ rettype = .lit "double " then
    some fun result => .real (Double.atof result)
  else none

def stubReturn (rettype : CString) (result : Option CString) :
    Except Fault Returned :=
  match conversion rettype, result with
  | none, _ => .ok (.int (-1))
  | some _, none => .error .nullString
  | some convert, some result => .ok (convert result)

/-- The body of the stub that is generated for a method and a return type. -/
def generatedStub (rettype : CString) (globals : Globals) (method : CString)
    (args : List Value) : Code Returned := do
  let request ← Program.lift (rpcRequestJsonEncode globals.rpcCallerTable
    (some method) (rpcGetCallerId globals).1 args).result
  let response ← rpcClientSession globals.rpcServerIp globals.rpcServerPort
    request
  Program.lift (stubReturn rettype (rpcResponseJsonDecode response))

theorem generatedStub_eq_stub {rettype : CString}
    {convert : CString -> Returned} (h : conversion rettype = some convert)
    (globals : Globals) (method : CString) (args : List Value) :
    generatedStub rettype globals method args =
      stub convert globals method args := by
  have hreturn : forall response : Option CString,
      stubReturn rettype (rpcResponseJsonDecode response) =
        stubOutcome convert response := by
    intro response
    simp only [stubReturn, stubOutcome, h]
    cases rpcResponseJsonDecode response <;> rfl
  rw [generatedStub, stub]
  simp only [hreturn]

/-!
## The encoder
-/

/-- The encoder finds an entry for the method and reads from it types that the
arguments have. -/
def Encodable (table : List RpcFunc) (method : CString) (args : List Value) :
    Prop :=
  exists func reads, Comparable table method ∧
    newest table method = some func ∧
    encodeReads (func.slots.entries.map Prod.snd) = ⟨reads, .ok ()⟩ ∧
    reads <+: args.map valueType

theorem rpcRequestJsonEncode_some_iff {table : List RpcFunc}
    {method : CString} {args : List Value} {callerid : Int32} :
    (exists request, (rpcRequestJsonEncode table (some method) callerid
      args).result = .ok (some request)) <-> Encodable table method args := by
  by_cases hcomparable : Comparable table method
  · have hfind := (findFunc_pure method table).left hcomparable
    cases hnewest : newest table method with
    | none =>
        rw [hnewest] at hfind
        constructor
        · intro h
          rcases h with ⟨request, h⟩
          rw [rpcRequestJsonEncode, Traced.bind_of_ok hfind] at h
          cases h
        · intro h
          rcases h with ⟨func, _, _, hfunc, _⟩
          rw [hnewest] at hfunc
          cases hfunc
    | some func =>
        rw [hnewest] at hfind
        have hencoded : (exists request, (rpcRequestJsonEncode table
            (some method) callerid args).result = .ok (some request)) <->
              exists members, (encodeArgs createObject func.slots.entries
                args).result = .ok members := by
          rw [rpcRequestJsonEncode, Traced.bind_of_ok hfind]
          simp [Traced.bind_result_ok_iff]
        rw [hencoded, encodeArgs_ok_iff, Encodable, hnewest]
        constructor
        · intro h
          rcases h with ⟨reads, hreads, htypes⟩
          exact ⟨func, reads, hcomparable, rfl, hreads, htypes⟩
        · intro h
          rcases h with ⟨func', reads, _, hfunc, hreads, htypes⟩
          rw [← Option.some.inj hfunc] at hreads
          exact ⟨reads, hreads, htypes⟩
  · constructor
    · intro h
      rcases h with ⟨request, h⟩
      rw [rpcRequestJsonEncode_result_of_not_comparable hcomparable] at h
      cases h
    · intro h
      rcases h with ⟨_, _, h, _⟩
      exact absurd h hcomparable

/-!
## The session
-/

def dialing (incoming : List NetEvent) (mallocs : List Bool)
    (sends : List (Option Nat)) (refused : Bool) : World :=
  { calling incoming sends with mallocs := mallocs, refused := refused }

/-- The first `malloc` of the client is that of the payload buffer. -/
def arrival (incoming : List NetEvent) (mallocs : List Bool) : Reception :=
  (reception (mallocs.head?.getD true) incoming).1

section

variable {process : CString -> Except Fault (Option CString)}
  {incoming : List NetEvent} {mallocs : List Bool}
  {sends : List (Option Nat)}

theorem exec_session_of_accepted (ip : CString) (port : Int16)
    (request : CString) :
    (exec (network process) (rpcClientSession (.live ip) port (some request))
        (dialing incoming mallocs sends false)).1 =
      sessionResult (arrival incoming mallocs) := by
  have hallocate : (dialing incoming mallocs sends false).allocate.1 =
      mallocs.head?.getD true := by
    cases mallocs <;> rfl
  rw [(exec_rpcClientSession rfl ip port request).left, hallocate]
  rfl

theorem exec_session_of_refused (ip : CString) (port : Int16)
    (request : CString) :
    (exec (network process) (rpcClientSession (.live ip) port (some request))
        (dialing incoming mallocs sends true)).1 = .ok none := by
  rfl

theorem exec_session_of_no_request (ip : ServerIp) (port : Int16) (w : World) :
    exists e, (exec (network process) (rpcClientSession ip port none) w).1 =
      .error e := by
  rw [rpcClientSession, exec_bind]
  rcases exec (network process) (connectTcpServer ip port) w with ⟨result, w'⟩
  cases result with
  | error e => exact ⟨e, rfl⟩
  | ok connfd => exact ⟨.nullString, rfl⟩

theorem exec_session_of_no_address {ip : ServerIp}
    (h : forall address, ip ≠ .live address) (port : Int16)
    (request : Option CString) (w : World) :
    exists e, (exec (network process) (rpcClientSession ip port request) w).1 =
      .error e := by
  cases ip with
  | null => exact ⟨.nullString, rfl⟩
  | released => exact ⟨.useAfterFree, rfl⟩
  | live address => exact absurd rfl (h address)

end

/-!
## Whole calls
-/

def HasResult (arrived : Reception) : Prop :=
  exists text root item, arrived = .payload text ∧ parse text = some root ∧
    getObjectItem (some root) (.lit "result") = some item

def Finished (run : Except Fault Returned) : Prop :=
  exists value, run = .ok value

theorem rpcResponseJsonDecode_isSome_iff {response : Option CString} :
    (exists result, rpcResponseJsonDecode response = some result) <->
      exists text root item, response = some text ∧ parse text = some root ∧
        getObjectItem (some root) (.lit "result") = some item := by
  simp only [rpcResponseJsonDecode, Option.map_eq_some_iff,
    Option.bind_eq_some_iff]
  constructor
  · intro h
    rcases h with ⟨_, item, ⟨root, ⟨text, htext, hroot⟩, hitem⟩, _⟩
    exact ⟨text, root, item, htext, hroot, hitem⟩
  · intro h
    rcases h with ⟨text, root, item, htext, hroot, hitem⟩
    exact ⟨_, item, ⟨root, ⟨text, htext, hroot⟩, hitem⟩, rfl⟩

section

variable {rettype : CString}

theorem finished_stubReturn_iff {result : Option CString} :
    Finished (stubReturn rettype result) <->
      conversion rettype = none ∨ exists text, result = some text := by
  unfold Finished stubReturn
  cases conversion rettype with
  | none => simp
  | some convert => cases result <;> simp

theorem finished_session_iff {session : Except Fault (Option CString)} :
    Finished (session.bind fun response =>
        stubReturn rettype (rpcResponseJsonDecode response)) <->
      exists response, session = .ok response ∧
        (conversion rettype = none ∨
          exists result, rpcResponseJsonDecode response = some result) := by
  cases session with
  | error e => simp [Finished, Except.bind]
  | ok response =>
      show Finished (stubReturn rettype _) <-> _
      simp [finished_stubReturn_iff]

theorem finished_arrival_iff {arrived : Reception} :
    (exists response, sessionResult arrived = .ok response ∧
        (conversion rettype = none ∨
          exists result, rpcResponseJsonDecode response = some result)) <->
      conversion rettype = none ∧ arrived ≠ .torn ∨ HasResult arrived := by
  simp only [rpcResponseJsonDecode_isSome_iff, HasResult]
  cases arrived with
  | payload text => simp [sessionResult]
  | _ => simp [sessionResult]

variable {globals : Globals} {method : CString} {args : List Value} {w : World}

theorem exec_generatedStub {request : Option CString}
    (hencode : (rpcRequestJsonEncode globals.rpcCallerTable (some method)
      (rpcGetCallerId globals).1 args).result = .ok request) :
    ((generatedStub rettype globals method args).exec clientCalls w).1 =
      ((rpcClientSession globals.rpcServerIp globals.rpcServerPort
        request).exec clientCalls w).1.bind fun response =>
          stubReturn rettype (rpcResponseJsonDecode response) := by
  have hcode : (generatedStub rettype globals method args).exec clientCalls w =
      (rpcClientSession globals.rpcServerIp globals.rpcServerPort request >>=
        fun response => Program.lift
          (stubReturn rettype (rpcResponseJsonDecode response))).exec
        clientCalls w := by
    rw [generatedStub, hencode]
    rfl
  rw [hcode, exec_bind]
  rcases (rpcClientSession globals.rpcServerIp globals.rpcServerPort
    request).exec clientCalls w with ⟨result, w'⟩
  cases result with
  | error e => rfl
  | ok response =>
      simp only [exec_lift]
      rfl

theorem not_finished_of_error {session : Except Fault (Option CString)}
    (h : exists e, session = .error e) :
    ¬ Finished (session.bind fun response =>
      stubReturn rettype (rpcResponseJsonDecode response)) := by
  rcases h with ⟨e, rfl⟩
  intro hfinished
  rcases hfinished with ⟨value, hvalue⟩
  cases hvalue

theorem encodable_of_finished
    (h : Finished ((generatedStub rettype globals method args).exec
      clientCalls w).1) : Encodable globals.rpcCallerTable method args := by
  cases hencode : (rpcRequestJsonEncode globals.rpcCallerTable (some method)
      (rpcGetCallerId globals).1 args).result with
  | error e =>
      have hrun : ((generatedStub rettype globals method args).exec
          clientCalls w).1 = .error e := by
        rw [generatedStub, hencode]
        rfl
      rcases h with ⟨value, hvalue⟩
      rw [hrun] at hvalue
      cases hvalue
  | ok request =>
      cases request with
      | none =>
          rw [exec_generatedStub hencode] at h
          exact absurd h
            (not_finished_of_error (exec_session_of_no_request _ _ w))
      | some request => exact rpcRequestJsonEncode_some_iff.mp ⟨_, hencode⟩

theorem finished_of_address_iff {ip : CString}
    (hencodable : Encodable globals.rpcCallerTable method args)
    (hip : globals.rpcServerIp = .live ip) (incoming : List NetEvent)
    (mallocs : List Bool) (sends : List (Option Nat)) (refused : Bool) :
    Finished ((generatedStub rettype globals method args).exec clientCalls
        (dialing incoming mallocs sends refused)).1 <->
      conversion rettype = none ∧
          (refused = true ∨ arrival incoming mallocs ≠ .torn) ∨
        refused = false ∧ HasResult (arrival incoming mallocs) := by
  rcases rpcRequestJsonEncode_some_iff.mpr hencodable with ⟨request, hencode⟩
  rw [exec_generatedStub hencode, hip, finished_session_iff]
  cases refused with
  | false =>
      have hsession : ((rpcClientSession (.live ip) globals.rpcServerPort
          (some request)).exec clientCalls
            (dialing incoming mallocs sends false)).1 =
              sessionResult (arrival incoming mallocs) :=
        exec_session_of_accepted ip globals.rpcServerPort request
      rw [hsession, finished_arrival_iff]
      simp
  | true =>
      have hsession : ((rpcClientSession (.live ip) globals.rpcServerPort
          (some request)).exec clientCalls
            (dialing incoming mallocs sends true)).1 = .ok none :=
        exec_session_of_refused ip globals.rpcServerPort request
      rw [hsession]
      simp [rpcResponseJsonDecode]

end

/-- A stub returns exactly when its request can be encoded, an address is set,
and either a result arrives or the stub ignores the result and no response is
torn. -/
theorem generatedStub_finishes_iff (rettype : CString) (globals : Globals)
    (method : CString) (args : List Value) (incoming : List NetEvent)
    (mallocs : List Bool) (sends : List (Option Nat)) (refused : Bool) :
    Finished ((generatedStub rettype globals method args).exec clientCalls
        (dialing incoming mallocs sends refused)).1 <->
      Encodable globals.rpcCallerTable method args ∧
        (exists ip, globals.rpcServerIp = .live ip) ∧
        (conversion rettype = none ∧
            (refused = true ∨ arrival incoming mallocs ≠ .torn) ∨
          refused = false ∧ HasResult (arrival incoming mallocs)) := by
  constructor
  · intro h
    have hencodable := encodable_of_finished h
    rcases rpcRequestJsonEncode_some_iff.mpr hencodable with
      ⟨request, hencode⟩
    by_cases haddress : exists ip, globals.rpcServerIp = .live ip
    · rcases haddress with ⟨ip, hip⟩
      exact ⟨hencodable, ⟨ip, hip⟩, (finished_of_address_iff hencodable hip
        incoming mallocs sends refused).mp h⟩
    · rw [not_exists] at haddress
      rw [exec_generatedStub hencode] at h
      exact absurd h (not_finished_of_error
        (exec_session_of_no_address haddress _ _ _))
  · intro h
    rcases h with ⟨hencodable, ⟨ip, hip⟩, hcases⟩
    exact (finished_of_address_iff hencodable hip incoming mallocs sends
      refused).mpr hcases

/-- A refused connection makes `add` call `atoi` with `NULL`. -/
theorem refused_add_stops :
    ((generatedStub (.lit "int") registeredGlobals (.lit "add")
      [.int 2, .int 3]).exec clientCalls (dialing [] [] [] true)).1 =
        .error .nullString := by
  rfl

end Session
end Z2wRpc
