import Z2wRpc.Call.Arguments
import Z2wRpc.CJson.ParseCut
import Z2wRpc.Session.Framing

/-!
# Remote calls

A generated stub encodes its arguments, holds one session with the server and
converts the printed result.  Client and server are composed over a transport
that transfers everything: each side receives what the other one sends.
-/

namespace Z2wRpc

open Foundation

namespace Session

open Call CJson Dispatch Wire Program

variable {α : Type}

/-!
## Stubs
-/

/-- What a stub makes of a response; a `NULL` result goes to `atoi` or
`strdup`. -/
def stubOutcome (convert : CString -> α) (response : Option CString) :
    Except Fault α :=
  match rpcResponseJsonDecode response with
  | none => .error .nullString
  | some result => .ok (convert result)

/-- The body of a generated stub, in a process with some globals. -/
def stub (convert : CString -> α) (globals : Globals) (method : CString)
    (args : List Value) : Code α := do
  let request ← Program.lift (rpcRequestJsonEncode globals.rpcCallerTable
    (some method) (rpcGetCallerId globals).1 args).result
  let response ← rpcClientSession globals.rpcServerIp globals.rpcServerPort
    request
  Program.lift (stubOutcome convert response)

def strdup (s : CString) : CString := s

def sayhello (globals : Globals) (msg : CString) (length : Int32) :
    Code CString :=
  stub strdup globals (.lit "sayhello") [.text (some msg), .int length]

def add (globals : Globals) (a b : Int32) : Code Int32 :=
  stub atoi globals (.lit "add") [.int a, .int b]

def sum (globals : Globals) (a b c : Int32) : Code Int32 :=
  stub atoi globals (.lit "sum") [.int a, .int b, .int c]

def echo (globals : Globals) (msg : CString) (length : Int32) :
    Code CString :=
  stub strdup globals (.lit "echo") [.text (some msg), .int length]

/-!
## Both sides together
-/

/-- The calls of a client, which does not process requests itself. -/
def clientCalls : Environment SysCall Reply World :=
  network fun _ => .ok none

/-- The bytes that a server writes on a connection that delivers `sent`. -/
def serverReply (table : List RpcFunc) (fd : Int) (sent : List Byte) :
    List Byte :=
  (serve table fd (accepted fd [.segment sent] [] [])).2.written

/-- The client code ends with `outcome` when it receives what the server writes,
and the server receives what the client writes. -/
def Exchange (table : List RpcFunc) (fd : Int) (code : Code α)
    (outcome : Except Fault α) : Prop :=
  exists sent reply,
    (code.exec clientCalls (calling [.segment reply] [])).1 = outcome ∧
    (code.exec clientCalls (calling [.segment reply] [])).2.written = sent ∧
    serverReply table fd sent = reply

def sessionOutcome (reply : List Byte) : Except Fault (Option CString) :=
  sessionResult (reception true [.segment reply]).1

section

variable (convert : CString -> α) {globals : Globals} {ip method : CString}
  {args : List Value} {request : CString}

theorem exec_stub (hip : globals.rpcServerIp = .live ip)
    (hencode : (rpcRequestJsonEncode globals.rpcCallerTable (some method)
      (rpcGetCallerId globals).1 args).result = .ok (some request))
    (reply : List Byte) :
    ((stub convert globals method args).exec clientCalls
        (calling [.segment reply] [])).1 =
      (sessionOutcome reply).bind (stubOutcome convert) ∧
    ((stub convert globals method args).exec clientCalls
        (calling [.segment reply] [])).2.written = frame request := by
  have hsession := @exec_rpcClientSession (fun _ => .ok none)
    (calling [.segment reply] []) rfl ip globals.rpcServerPort request
  have hwritten : ((calling [.segment reply] []).opened.sendFrame
      request).written = frame request := by
    rw [sendFrame_written _ _ rfl]
    rfl
  have hresult : ((rpcClientSession (.live ip) globals.rpcServerPort
      (some request)).exec clientCalls (calling [.segment reply] [])).1 =
        sessionOutcome reply := hsession.left
  have hsent : ((rpcClientSession (.live ip) globals.rpcServerPort
      (some request)).exec clientCalls
        (calling [.segment reply] [])).2.written = frame request :=
    hsession.right.right.trans hwritten
  have hcode : (stub convert globals method args).exec clientCalls
      (calling [.segment reply] []) =
        (rpcClientSession (.live ip) globals.rpcServerPort (some request) >>=
          fun response => Program.lift (stubOutcome convert response)).exec
          clientCalls (calling [.segment reply] []) := by
    rw [stub, hencode, hip]
    rfl
  rw [hcode, exec_bind]
  rcases hrun : (rpcClientSession (.live ip) globals.rpcServerPort
    (some request)).exec clientCalls (calling [.segment reply] []) with
    ⟨result, w⟩
  rw [hrun] at hresult hsent
  rw [← hresult]
  cases result with
  | error e => exact ⟨rfl, hsent⟩
  | ok response =>
      simp only [exec_lift]
      exact ⟨rfl, hsent⟩

theorem exchange_stub_of_fault {e : Fault}
    (hencode : (rpcRequestJsonEncode globals.rpcCallerTable (some method)
      (rpcGetCallerId globals).1 args).result = .error e)
    (table : List RpcFunc) (fd : Int) (outcome : Except Fault α) :
    Exchange table fd (stub convert globals method args) outcome <->
      outcome = .error e := by
  have hexec : forall reply : List Byte,
      ((stub convert globals method args).exec clientCalls
        (calling [.segment reply] [])).1 = .error e := by
    intro reply
    rw [stub, hencode]
    rfl
  constructor
  · intro h
    rcases h with ⟨sent, reply, hresult, _, _⟩
    rw [← hresult, hexec]
  · intro h
    refine ⟨[], serverReply table fd [], ?_, ?_, rfl⟩
    · rw [hexec, h]
    · rw [stub, hencode]
      rfl

theorem exchange_stub_iff (hip : globals.rpcServerIp = .live ip)
    (hencode : (rpcRequestJsonEncode globals.rpcCallerTable (some method)
      (rpcGetCallerId globals).1 args).result = .ok (some request))
    (table : List RpcFunc) (fd : Int) (outcome : Except Fault α) :
    Exchange table fd (stub convert globals method args) outcome <->
      outcome = (sessionOutcome (serverReply table fd (frame request))).bind
        (stubOutcome convert) := by
  have hexec := exec_stub convert hip hencode
  constructor
  · intro h
    rcases h with ⟨sent, reply, hresult, hsent, hreply⟩
    rw [(hexec reply).right] at hsent
    rw [(hexec reply).left, ← hreply, ← hsent] at hresult
    exact hresult.symm
  · intro h
    refine ⟨frame request, serverReply table fd (frame request), ?_, ?_, rfl⟩
    · rw [(hexec _).left, h]
    · rw [(hexec _).right]

end

/-!
## Frames that fit and frames that do not
-/

def Fragile (s : CString) : Prop :=
  forall p q, s.bytes = CString.bytes p ++ q -> q ≠ [] -> parse p = none

theorem fragile_print {n : Nat} {t : CJson} (h : Readable n t)
    (hn : n <= nestingLimit) (ht : IsContainer t) : Fragile (print t) := by
  intro p q hcut hq
  exact parse_cut h hn ht hcut hq

theorem reception_of_frame {s : CString} (hlength : s.strlen <= 65535) :
    reception true [.segment (frame s)] = (.payload s, []) := by
  have hdelivered := delivered_whole_frame hlength []
  rw [List.append_nil] at hdelivered
  exact reception_frame hdelivered

theorem reception_of_long_frame {s : CString} (hlong : 65535 < s.strlen) :
    (reception true [.segment (frame s)]).1 = .damaged ∨
      exists p q, (reception true [.segment (frame s)]).1 = .payload p ∧
        s.bytes = p.bytes ++ q ∧ q ≠ [] := by
  have hdelivered := delivered_frame s []
  rw [List.append_nil] at hdelivered
  have hreception := reception_of_delivered hdelivered
  have hbytes : (CString.ofBytes (s.bytes.take (s.strlen % 65536))).bytes =
      s.bytes.take (s.strlen % 65536) :=
    CString.ofBytes_bytes_of_noNul fun h => s.noNul (List.mem_of_mem_take h)
  have hrest : s.bytes.drop (s.strlen % 65536) ≠ [] := by
    intro hnil
    have hle := List.drop_eq_nil_iff.mp hnil
    have hlt := Nat.mod_lt s.strlen (show 0 < 65536 by decide)
    rw [CString.strlen] at hlong hle hlt
    omega
  split_ifs at hreception
  · right
    refine ⟨_, s.bytes.drop (s.strlen % 65536), by rw [hreception], ?_, hrest⟩
    rw [hbytes, List.take_append_drop]
  · left
    rw [hreception]

theorem sessionOutcome_frame {s : CString} (hlength : s.strlen <= 65535) :
    sessionOutcome (frame s) = .ok (some s) := by
  rw [sessionOutcome, reception_of_frame hlength]
  rfl

theorem sessionOutcome_nil (convert : CString -> α) :
    (sessionOutcome []).bind (stubOutcome convert) = .error .nullString := rfl

theorem sessionOutcome_long {s : CString} (hlong : 65535 < s.strlen)
    (hfragile : Fragile s) (convert : CString -> α) :
    (sessionOutcome (frame s)).bind (stubOutcome convert) =
      .error .nullString := by
  rw [sessionOutcome]
  rcases reception_of_long_frame hlong with hdamaged | ⟨p, q, hp, hcut, hq⟩
  · rw [hdamaged]
    rfl
  · have hnone := hfragile p q hcut hq
    rw [hp]
    simp only [sessionResult, Except.bind, stubOutcome, rpcResponseJsonDecode,
      Option.bind_some, hnone]
    rfl

/-!
## The server's side
-/

section

variable {table : List RpcFunc} {fd : Int} {request : CString}

theorem reception_accepted (fd : Int) (sent : List Byte) :
    reception (accepted fd [.segment sent] [] []).allocate.1
        (accepted fd [.segment sent] [] []).incoming =
      reception true [.segment sent] := rfl

theorem isOpen_accepted {sent : List Byte} :
    fd ∈ (accepted fd [.segment sent] [] []).openFds :=
  List.mem_cons_self ..

theorem serverReply_of_answer (a : Answer table request)
    (hlength : request.strlen <= 65535) :
    serverReply table fd (frame request) = frame (print a.document) := by
  have hreception : reception true [.segment (frame request)] =
      (.payload request, []) := reception_of_frame hlength
  have hreply := rpcProcess_result_some_iff.mpr ⟨a, rfl⟩
  rw [serverReply, serve_replied isOpen_accepted hreception hreply]
  rw [serve_written_of_empty]
  · rw [sendFrame_written]
    · simp [World.handOver, accepted]
    · simp [World.handOver, accepted]
  · simp [World.handOver, accepted]
  · rw [sendFrame_incoming]
    show (World.received _).incoming = []
    rw [received_incoming]
    exact congrArg Prod.snd hreception

theorem serverReply_of_refused {p : CString}
    (hpayload : (reception true [.segment (frame request)]).1 = .payload p)
    (hrefused : forall reply,
      (rpcProcess table (some p)).result ≠ .ok (some reply)) :
    serverReply table fd (frame request) = [] := by
  have hround := @exec_rpcHandleRound (served table) fd
    (accepted fd [.segment (frame request)] [] []) isOpen_accepted
  rw [reception_accepted, hpayload] at hround
  simp only [served] at hround
  cases hresult : (rpcProcess table (some p)).result with
  | error e =>
      rw [hresult] at hround
      rw [serverReply, serve_error hround]
      exact received_written
  | ok response =>
      rw [hresult] at hround
      cases response with
      | none =>
          rw [serverReply, serve_error hround]
          exact received_written
      | some reply => exact absurd hresult (hrefused reply)

theorem serverReply_of_damaged
    (hdamaged : (reception true [.segment (frame request)]).1 = .damaged) :
    serverReply table fd (frame request) = [] := by
  have hround := @exec_rpcHandleRound (served table) fd
    (accepted fd [.segment (frame request)] [] []) isOpen_accepted
  rw [reception_accepted, hdamaged] at hround
  rw [serverReply, serve_stop hround]
  exact received_written

theorem serverReply_of_long (hlong : 65535 < request.strlen)
    (hfragile : Fragile request) :
    serverReply table fd (frame request) = [] := by
  rcases reception_of_long_frame hlong with hdamaged | ⟨p, q, hp, hcut, hq⟩
  · exact serverReply_of_damaged hdamaged
  · apply serverReply_of_refused hp
    intro reply h
    rw [rpcProcess_of_not_json (hfragile p q hcut hq)] at h
    cases h

theorem serverReply_of_not_comparable {root : CJson} {name : CString}
    (hparse : parse request = some root)
    (hname : member root "method" = some (.string name))
    (hcomparable : ¬ Comparable table name)
    (hlength : request.strlen <= 65535) :
    serverReply table fd (frame request) = [] := by
  have hpayload : (reception true [.segment (frame request)]).1 =
      .payload request := by
    rw [reception_of_frame hlength]
  apply serverReply_of_refused hpayload
  intro reply h
  rw [rpcProcess_result_of_not_comparable hparse hname hcomparable] at h
  cases h

end

/-!
## What a call returns
-/

section

variable {globals : Globals} {ip : CString} {sig : Signature}
  {handler : Handler} {serverTable : List RpcFunc} {args handed : List Value}
  {result : CJson}

def callRequest (globals : Globals) (sig : Signature) (args : List Value) :
    CString :=
  print (requestDocument (some sig.method) (argMembers sig.params args)
    (rpcGetCallerId globals).1)

def CallFits (globals : Globals) (sig : Signature) (args : List Value)
    (result : CJson) : Prop :=
  (callRequest globals sig args).strlen <= 65535 ∧
    replySize sig.method (some result)
      (rpcGetCallerId globals).1.toUInt32 <= 65535

/-- What the arguments of a call have behind them on the server. -/
def callRooms (globals : Globals) (sig : Signature) (handler : Handler)
    (args : List Value) : List Room :=
  handler.rooms (paramRoom (callRequest globals sig args)
    (requestDocument (some sig.method) (argMembers sig.params args)
      (rpcGetCallerId globals).1))

def callAnswer
    (hdeployed : Deployed sig handler globals.rpcCallerTable serverTable)
    (hexact : forall arg, arg ∈ args -> Exact arg)
    (hhanded : Arguments handler
      (some (.object (argMembers sig.params args))) handed)
    (hreturned : handler.body.resultItem handed
      (callRooms globals sig handler args) = some (some result)) :
    Answer serverTable (callRequest globals sig args) where
  toInvocation := hdeployed.invocation hexact (rpcGetCallerId globals).1 hhanded
  result := some result
  returned := hreturned

theorem exchange_call_iff (convert : CString -> α)
    (hip : globals.rpcServerIp = .live ip)
    (hdeployed : Deployed sig handler globals.rpcCallerTable serverTable)
    (hfit : Fit sig.params args)
    (hexact : forall arg, arg ∈ args -> Exact arg)
    (hhanded : Arguments handler
      (some (.object (argMembers sig.params args))) handed)
    (hreturned : handler.body.resultItem handed
      (callRooms globals sig handler args) = some (some result))
    (hresult : Readable 0 result) (fd : Int) (outcome : Except Fault α) :
    Exchange serverTable fd (stub convert globals sig.method args) outcome <->
      CallFits globals sig args result ∧
          outcome = .ok (convert (print result)) ∨
        ¬ CallFits globals sig args result ∧
          outcome = .error .nullString := by
  rcases hdeployed.clientFound with ⟨bound, hfound⟩
  have hencode := rpcRequestJsonEncode_result hdeployed.clientComparable hfound
    hfit (rpcGetCallerId globals).1
  rw [exchange_stub_iff convert hip hencode]
  have hdocument : (callAnswer hdeployed hexact hhanded hreturned).document =
      responseDocument (some sig.method) (some result)
        (rpcGetCallerId globals).1.toUInt32 := by
    simp [Answer.document, callAnswer, Deployed.invocation, valueint]
  have hrequest : Fragile (callRequest globals sig args) :=
    fragile_print (readable_requestDocument
      (fun _ => readable_argMembers hexact) sig.method _) (by decide) trivial
  have hreply : Fragile (print (responseDocument (some sig.method)
      (some result) (rpcGetCallerId globals).1.toUInt32)) :=
    fragile_print (readable_responseDocument hresult sig.method _)
      (by decide) trivial
  have hsize := print_responseDocument_strlen sig.method (some result)
    (rpcGetCallerId globals).1.toUInt32
  show outcome = (sessionOutcome (serverReply serverTable fd
    (frame (callRequest globals sig args)))).bind _ <-> _
  by_cases hshort : (callRequest globals sig args).strlen <= 65535
  · rw [serverReply_of_answer (callAnswer hdeployed hexact hhanded hreturned)
      hshort, hdocument]
    by_cases hfits : replySize sig.method (some result)
        (rpcGetCallerId globals).1.toUInt32 <= 65535
    · have hdecode := rpcResponseJsonDecode_document hresult sig.method
        (rpcGetCallerId globals).1.toUInt32
      rw [sessionOutcome_frame (by rw [hsize]; exact hfits)]
      simp [CallFits, hshort, hfits, Except.bind, stubOutcome, hdecode]
    · rw [sessionOutcome_long (by rw [hsize]; omega) hreply]
      simp [CallFits, hfits]
  · rw [serverReply_of_long (by omega) hrequest, sessionOutcome_nil]
    simp [CallFits, hshort]

theorem exchange_call_of_not_comparable (convert : CString -> α)
    (hip : globals.rpcServerIp = .live ip)
    (hregistered : Registered sig handler globals.rpcCallerTable serverTable)
    (hfit : Fit sig.params args)
    (hexact : forall arg, arg ∈ args -> Exact arg)
    (h : ¬ (Comparable globals.rpcCallerTable sig.method ∧
      Comparable serverTable sig.method)) (fd : Int)
    (outcome : Except Fault α) :
    Exchange serverTable fd (stub convert globals sig.method args) outcome <->
      outcome = .error .nullString := by
  by_cases hclient : Comparable globals.rpcCallerTable sig.method
  · have hserver : ¬ Comparable serverTable sig.method :=
      fun hserver => h ⟨hclient, hserver⟩
    rcases hregistered.clientFound with ⟨bound, hfound⟩
    have hencode := rpcRequestJsonEncode_result hclient hfound hfit
      (rpcGetCallerId globals).1
    have hnothing : serverReply serverTable fd
        (frame (callRequest globals sig args)) = [] := by
      by_cases hshort : (callRequest globals sig args).strlen <= 65535
      · exact serverReply_of_not_comparable
          (parse_request hexact sig.method _) rfl hserver hshort
      · exact serverReply_of_long (by omega) (fragile_print
          (readable_requestDocument (fun _ => readable_argMembers hexact)
            sig.method _) (by decide) trivial)
    rw [exchange_stub_iff convert hip hencode]
    show outcome = (sessionOutcome (serverReply serverTable fd
      (frame (callRequest globals sig args)))).bind _ <-> _
    rw [hnothing, sessionOutcome_nil]
  · exact exchange_stub_of_fault convert
      (rpcRequestJsonEncode_result_of_not_comparable hclient _ args)
      serverTable fd outcome

end

end Session
end Z2wRpc
