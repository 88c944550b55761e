import Z2wRpc.NtyCo.Hosting
import Z2wRpc.Session.Stub

/-!
# Calls of many clients

The stubs of any number of clients encode their calls, the scheduler serves the
connections in any order, and each connection brings back the results of the
calls that were made on it.
-/

namespace Z2wRpc
namespace NtyCo

open Foundation Call CJson Wire
open Dispatch
open Session (CallFits callRequest callAnswer callRooms Answers Decodes pieces
  stream)

structure RemoteCall (serverTable : List RpcFunc) where
  -- of the client
  globals : Globals
  sig : Signature
  handler : Handler
  args : List Value
  -- what the method gets, and what it returns
  handed : List Value
  result : CJson
  deployed : Deployed sig handler globals.rpcCallerTable serverTable
  fit : Fit sig.params args
  exact : forall arg, arg ∈ args -> Exact arg
  arguments : Arguments handler (some (.object (argMembers sig.params args)))
    handed
  returned : handler.body.resultItem handed
    (callRooms globals sig handler args) = some (some result)
  readable : Readable 0 result
  fits : CallFits globals sig args result

namespace RemoteCall

variable {table : List RpcFunc} (c : RemoteCall table)

def Sends (request : CString) : Prop :=
  (rpcRequestJsonEncode c.globals.rpcCallerTable (some c.sig.method)
    (rpcGetCallerId c.globals).1 c.args).result = .ok (some request)

def Gets (reply : CString) : Prop :=
  rpcResponseJsonDecode (some reply) = some (print c.result)

def reply : CString :=
  print (responseDocument (some c.sig.method) (some c.result)
    (rpcGetCallerId c.globals).1.toUInt32)

theorem gets_reply : c.Gets c.reply :=
  rpcResponseJsonDecode_document c.readable c.sig.method _

theorem reply_strlen_le : c.reply.strlen <= 65535 := by
  rw [reply, print_responseDocument_strlen]
  exact c.fits.right

theorem answers {request : CString} (h : c.Sends request) :
    Answers table request c.reply := by
  rcases c.deployed.clientFound with ⟨bound, hfound⟩
  have hencode := rpcRequestJsonEncode_result c.deployed.clientComparable hfound
    c.fit (rpcGetCallerId c.globals).1
  rw [Sends, hencode] at h
  obtain rfl : callRequest c.globals c.sig c.args = request :=
    Option.some.inj (Except.ok.inj h)
  have hdocument : (callAnswer c.deployed c.exact c.arguments
      c.returned).document = responseDocument (some c.sig.method)
        (some c.result) (rpcGetCallerId c.globals).1.toUInt32 := by
    simp [Answer.document, callAnswer, Deployed.invocation, valueint]
  constructor
  · exact c.fits.left
  · exact c.reply_strlen_le
  · rw [reply, <- hdocument]
    exact rpcProcess_result_some_iff.mpr ⟨_, rfl⟩

end RemoteCall

/--
When the requests of these calls have come in on a connection, what it has
brought back decodes to replies, from which each stub reads the result of its
call.
-/
def CallsReturn (table : List RpcFunc)
    (record : List (Program.Exchange ServerReply)) : Prop :=
  forall (calls : List (RemoteCall table)) requests,
    List.Forall₂ RemoteCall.Sends calls requests ->
    received record = (pieces requests).map .segment ->
    (forall y, y ∈ record -> SentWhole y) ->
      exists replies, Decodes (transmitted record) replies ∧
        List.Forall₂ RemoteCall.Gets calls replies

theorem callsReturn_of_answered {table : List RpcFunc}
    {record : List (Program.Exchange ServerReply)}
    (h : AnsweredInOrder table record) : CallsReturn table record := by
  intro calls requests hsends hreceived hall
  have hanswers : List.Forall₂ (Answers table) requests
      (calls.map RemoteCall.reply) := by
    rw [List.forall₂_map_right_iff]
    exact (hsends.imp fun c request => c.answers).flip
  refine ⟨calls.map RemoteCall.reply, ?_, ?_⟩
  · rw [<- List.append_nil ((pieces requests).map _)] at hreceived
    rw [(h requests _ [] hanswers hreceived hall).right rfl]
    apply Session.decodes_stream
    intro reply hreply
    rcases List.mem_map.mp hreply with ⟨c, _, rfl⟩
    exact c.reply_strlen_le
  · rw [List.forall₂_map_right_iff, List.forall₂_same]
    exact fun c _ => c.gets_reply

/-- The call `add(2, 3)` of a client that has loaded `register.json`. -/
def addCall : RemoteCall registeredTable where
  globals := registeredGlobals
  sig := addSignature
  handler := rpcResponseJsonEncodeAdd
  args := [.int 2, .int 3]
  handed := [.int 2, .int 3]
  result := .number (.finite (rpcAdd 2 3).toInt)
  deployed := deployed_add
  fit := .cons (.int 2) (.cons (.int 3) .nil)
  exact := add_exact
  arguments := add_handed
  returned := rfl
  readable := Readable.number (numberExact_toInt _)
  fits := ⟨addRequest_strlen_le, by decide +kernel⟩

theorem addCall_sends : addCall.Sends addRequest := by
  rcases addCall.deployed.clientFound with ⟨bound, hfound⟩
  exact rpcRequestJsonEncode_result addCall.deployed.clientComparable hfound
    addCall.fit 0

end NtyCo
end Z2wRpc
