import Z2wRpc.CJson.RoundTrip
import Z2wRpc.Dispatch.Process
import Z2wRpc.Dispatch.RegisterJson

/-!
# Requests and responses on the client side

`rpc_request_json_encode` writes the arguments of a stub into a request
document, following the types of the register entry; `rpc_response_json_decode`
takes the printed result out of a response.
-/

namespace Z2wRpc

open Foundation

namespace Call

open CJson Dispatch

/-!
## Encoding
-/

def vaInt : List Value -> Run (Int32 × List Value)
  | .int i :: rest => return (i, rest)
  | _ => Traced.fault .wrongArgument

/-- `va_arg(args, double)`; a `float` arrives promoted. -/
def vaDouble : List Value -> Run (Double × List Value)
  | .real d :: rest => return (d, rest)
  | _ => Traced.fault .wrongArgument

def vaString : List Value -> Run (Option CString × List Value)
  | .text s :: rest => return (s, rest)
  | _ => Traced.fault .wrongArgument

def encodeArgs (params : Members) :
    List (Option CString × Option CString) -> List Value -> Run Members
  | [], _ => return params
  | (name, type) :: rest, args => do
      let type ← Traced.require .nullString type
      if type = .lit "int" then do
        let (i, args) ← vaInt args
        encodeArgs (addNumberToObject params name (.finite i.toInt)) rest args
      else if type = .lit "float" then do
        let (d, args) ← vaDouble args
        encodeArgs (addNumberToObject params name d) rest args
      else if type = .lit "double" then do
        let (d, args) ← vaDouble args
        encodeArgs (addNumberToObject params name d) rest args
      else if type = .lit "char*" then do
        let (s, args) ← vaString args
        encodeArgs (addStringToObject params name s) rest args
      else Traced.fault .assertion

def requestDocument (method : Option CString) (params : Members)
    (callerid : Int32) : CJson :=
  let root := addStringToObject createObject (some (.lit "method")) method
  let root := addItemToObject root (some (.lit "params"))
    (some (.object params))
  .object (addNumberToObject root (some (.lit "callerid"))
    (.finite callerid.toInt))

/--
`rpc_request_json_encode`: `funcName` is the name of the calling stub and
`callerid` the number that `rpc_get_caller_id` hands out.
-/
def rpcRequestJsonEncode (table : List RpcFunc) (funcName : Option CString)
    (callerid : Int32) (args : List Value) : Run (Option CString) :=
  match funcName with
  | none => return none
  | some funcName => do
      let func ← findFunc (return some funcName) table
      match func with
      | none => return none
      | some func => do
          let params ← encodeArgs createObject func.slots.entries args
          return some (print (requestDocument func.method params callerid))

/-!
## Decoding
-/

def rpcResponseJsonDecode (response : Option CString) : Option CString :=
  ((response.bind parse).bind fun root =>
    getObjectItem (some root) (.lit "result")).map print

/-!
## Arguments that fit an entry
-/

/-- An argument of the type that a parameter declares; a string is not `NULL`. -/
inductive Passes : CString -> Value -> Prop where
  | int (i : Int32) : Passes (.lit "int") (.int i)
  | float (d : Double) : Passes (.lit "float") (.real d)
  | double (d : Double) : Passes (.lit "double") (.real d)
  | charPointer (s : CString) : Passes (.lit "char*") (.text (some s))

/-- The item that an argument becomes; a `NULL` string becomes none. -/
def itemOf : Value -> Option CJson
  | .int i => some (.number (.finite i.toInt))
  | .real d => some (.number d)
  | .text s => s.map .string

def argMembers (params : List (CString × CString)) (args : List Value) :
    Members :=
  (params.zip args).filterMap fun x => (itemOf x.2).map fun item =>
    (x.1.1, item)

theorem encodeArgs_cons {name type : CString} {arg : Value}
    (h : Passes type arg) (params : Members)
    (rest : List (Option CString × Option CString)) (args : List Value) :
    encodeArgs params ((some name, some type) :: rest) (arg :: args) =
      encodeArgs (addItemToObject params (some name) (itemOf arg)) rest
        args := by
  rw [encodeArgs, Traced.require_some_bind]
  cases h with
  | int i => rfl
  | float d => rfl
  | double d => rfl
  | charPointer s => rfl

theorem encodeArgs_result {ps : List (CString × CString)} {args : List Value}
    (h : List.Forall₂ (fun p arg => Passes p.2 arg) ps args)
    (params : Members) :
    encodeArgs params (ps.map fun p => (some p.1, some p.2)) args =
      pure (params ++ argMembers ps args) := by
  induction h generalizing params with
  | nil => simp [encodeArgs, argMembers]
  | @cons p arg ps args hpass _ ih =>
      rw [List.map_cons, encodeArgs_cons hpass, ih]
      cases hitem : itemOf arg with
      | none => simp [argMembers, addItemToObject, hitem]
      | some item => simp [argMembers, addItemToObject, hitem]

theorem rpcRequestJsonEncode_result {table : List RpcFunc} {sig : Signature}
    {handler : Option Handler} {args : List Value}
    (hcomparable : Comparable table sig.method)
    (hfound : newest table sig.method = some (sig.func handler))
    (hargs : List.Forall₂ (fun p arg => Passes p.2 arg) sig.params args)
    (callerid : Int32) :
    (rpcRequestJsonEncode table (some sig.method) callerid args).result =
      .ok (some (print (requestDocument (some sig.method)
        (argMembers sig.params args) callerid))) := by
  have hfind := (findFunc_pure sig.method table).left hcomparable
  rw [hfound] at hfind
  refine Traced.bind_result_ok_iff.mpr ⟨_, hfind, ?_⟩
  have hparams := encodeArgs_result hargs createObject
  simp only [Signature.func, hparams, Traced.pure_bind, Traced.pure_result]
  rfl

theorem rpcRequestJsonEncode_result_of_not_comparable {table : List RpcFunc}
    {method : CString} (h : ¬ Comparable table method) (callerid : Int32)
    (args : List Value) :
    (rpcRequestJsonEncode table (some method) callerid args).result =
      .error .nullString := by
  have hfind := (findFunc_pure method table).right h
  exact congrArg Traced.result (Traced.bind_of_error hfind _)

/-!
## The request document read back
-/

def Exact : Value -> Prop
  | .real d => NumberExact d
  | _ => True

theorem readable_itemOf {arg : Value} {item : CJson} (hexact : Exact arg)
    (h : itemOf arg = some item) : Readable 0 item := by
  cases arg with
  | int i =>
      obtain rfl : _ = item := Option.some.inj h
      exact Readable.number (numberExact_toInt i)
  | real d =>
      obtain rfl : _ = item := Option.some.inj h
      exact Readable.number hexact
  | text s =>
      rcases Option.map_eq_some_iff.mp h with ⟨s, _, rfl⟩
      exact Readable.string s

theorem readable_argMembers {ps : List (CString × CString)}
    {args : List Value} (hexact : forall arg, arg ∈ args -> Exact arg)
    {m : CString × CJson} (hm : m ∈ argMembers ps args) :
    Readable 0 m.2 := by
  rcases List.mem_filterMap.mp hm with ⟨⟨p, arg⟩, hmem, hitem⟩
  rcases Option.map_eq_some_iff.mp hitem with ⟨item, harg, rfl⟩
  exact readable_itemOf (hexact arg (List.of_mem_zip hmem).right) harg

theorem readable_document {n : Nat} {item : CJson} {d : Double}
    (hitem : Readable n item) (hid : NumberExact d) (method key : CString) :
    Readable (n + 1) (.object [(.lit "method", .string method), (key, item),
      (.lit "callerid", .number d)]) := by
  apply Readable.object
  intro m hm
  simp only [List.mem_cons, List.not_mem_nil, or_false] at hm
  rcases hm with rfl | rfl | rfl
  · exact Readable.string method
  · exact hitem
  · exact Readable.number hid

theorem readable_requestDocument {params : Members}
    (h : forall m, m ∈ params -> Readable 0 m.2) (method : CString)
    (callerid : Int32) :
    Readable 2 (requestDocument (some method) params callerid) :=
  readable_document (Readable.object h) (numberExact_toInt callerid) method
    (.lit "params")

theorem parse_request {ps : List (CString × CString)} {args : List Value}
    (hexact : forall arg, arg ∈ args -> Exact arg) (method : CString)
    (callerid : Int32) :
    parse (print (requestDocument (some method) (argMembers ps args)
        callerid)) =
      some (requestDocument (some method) (argMembers ps args) callerid) :=
  parse_print
    (readable_requestDocument (fun _ => readable_argMembers hexact) method
      callerid)
    (by decide)

/-!
## The response document read back
-/

theorem readable_responseDocument {result : CJson} (h : Readable 0 result)
    (method : CString) (callerid : UInt32) :
    Readable 1 (responseDocument (some method) (some result) callerid) :=
  readable_document h (numberExact_toNat callerid) method (.lit "result")

theorem rpcResponseJsonDecode_document {result : CJson}
    (h : Readable 0 result) (method : CString) (callerid : UInt32) :
    rpcResponseJsonDecode
        (some (print (responseDocument (some method) (some result) callerid))) =
      some (print result) := by
  have hparse := parse_print (readable_responseDocument h method callerid)
    (by decide)
  rw [rpcResponseJsonDecode, Option.bind_some, hparse]
  rfl

end Call
end Z2wRpc
