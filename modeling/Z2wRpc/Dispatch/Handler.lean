import Z2wRpc.CJson.Print
import Z2wRpc.CJson.Rooms
import Z2wRpc.Foundation.Traced

/-!
# Generated handlers

The function `rpc_response_json_encode_<method>` that `rpc_generate_c_method`
emits: it looks its parameters up by name, reads the field that fits the
declared type, calls `rpc_<method>` and prints the reply.  Every field that is
read and every call of a method body is an event of the run.
-/

namespace Z2wRpc

open Foundation

namespace Dispatch

open CJson

inductive Fault where
  -- a field of a `NULL` item is read
  | absentItem
  -- a `NULL` string goes to `strcmp`, `strlen`, `strdup`, `atoi`, `strtod`
  | nullString
  -- a `NULL` handler is called
  | nullHandler
  -- an access outside an array or a string
  | outOfBounds
  -- `assert` fails
  | assertion
  -- `va_arg` reads an argument of another type, or one that was not passed
  | wrongArgument
  -- memory that has been released is used or released again
  | useAfterFree
  -- `SIGPIPE`, which nothing catches
  | brokenPipe
deriving DecidableEq

/-- An argument as `rpc_<method>` receives it. -/
inductive Value where
  | int (i : Int32)
  | real (d : Double)
  | text (s : Option CString)
deriving DecidableEq

inductive Event where
  | valuestring (item : Option CJson)
  | valueint (item : Option CJson)
  | call (args : List Value)

abbrev Run := Traced Event Fault

def readValuestring (item : Option CJson) : Run (Option CString) := do
  Traced.emit (.valuestring item)
  let item ← Traced.require .absentItem item
  return item.valuestring

def readValueint (item : Option CJson) : Run Int32 := do
  Traced.emit (.valueint item)
  let item ← Traced.require .absentItem item
  return item.valueint

def isCharPointer (type : CString) : Bool :=
  type == .lit "char*" || type == .lit "char *"

/-- The conversion of an `int` to the declared type of a parameter. -/
def converted (type : CString) (i : Int32) : Value :=
  if type = .lit "double" then .real (.finite i.toInt)
  else if type = .lit "float" then .real (.finite (Double.single i.toInt))
  else .int i

def handlerArg (type : CString) (item : Option CJson) : Run Value :=
  if isCharPointer type then do
    let s ← readValuestring item
    return .text s
  else do
    let i ← readValueint item
    return converted type i

def handlerArgs (params : Option CJson) :
    List (CString × CString) -> Run (List Value)
  | [] => return []
  | (name, type) :: rest => do
      let arg ← handlerArg type (getObjectItem params name)
      let args ← handlerArgs params rest
      return arg :: args

/--
The function `rpc_<method>`; a text argument comes with what its block has
behind it.  It has no result when it accesses memory outside its arguments; an
arithmetic result is converted to `double` on its way into the reply.
-/
inductive Body where
  | text (rpc : List Value -> List Room -> Option (Option CString))
  | number (rpc : List Value -> Option Double)

namespace Body

def returnsText : Body -> Bool
  | text _ => true
  | number _ => false

/-- The item put under `result`; there is none for a `NULL` string. -/
def resultItem : Body -> List Value -> List Room -> Option (Option CJson)
  | text rpc, args, rooms => (rpc args rooms).map fun ret => ret.map .string
  | number rpc, args, _ => (rpc args).map fun ret => some (.number ret)

end Body

/-- One `rpc_response_json_encode_<method>` with the method it calls. -/
structure Handler where
  params : List (CString × CString)
  rettype : CString
  body : Body
  returns : body.returnsText = isCharPointer rettype

/-- `rpc_task_t`, without the field that nothing uses. -/
structure RpcTask where
  method : Option CString
  callerid : UInt32

def responseDocument (method : Option CString) (result : Option CJson)
    (callerid : UInt32) : CJson :=
  let root := addStringToObject createObject (some (.lit "method")) method
  let root := addItemToObject root (some (.lit "result")) result
  .object
    (addNumberToObject root (some (.lit "callerid"))
      (.finite (callerid.toNat : ℚ)))

def Handler.rooms (handler : Handler) (room : CString -> Room) : List Room :=
  handler.params.map fun p => room p.1

/-- The emitted function; `room` is what the parser has allocated for `params`. -/
def Handler.run (handler : Handler) (room : CString -> Room)
    (params : Option CJson) (task : RpcTask) : Run (Option CString) := do
  let args ← handlerArgs params handler.params
  Traced.emit (.call args)
  let ret ← Traced.require .outOfBounds
    (handler.body.resultItem args (handler.rooms room))
  return some (print (responseDocument task.method ret task.callerid))

/-!
## Reading parameters
-/

@[simp] theorem readValuestring_result_some (item : CJson) :
    (readValuestring (some item)).result = .ok item.valuestring := rfl

@[simp] theorem readValueint_result_some (item : CJson) :
    (readValueint (some item)).result = .ok item.valueint := rfl

def argOf (type : CString) (item : CJson) : Value :=
  if isCharPointer type then .text item.valuestring
  else converted type item.valueint

theorem handlerArg_result_some (type : CString) (item : CJson) :
    (handlerArg type (some item)).result = .ok (argOf type item) := by
  unfold handlerArg argOf
  split <;> rfl

theorem handlerArg_result_none (type : CString) :
    (handlerArg type none).result = .error .absentItem := by
  unfold handlerArg
  split <;> rfl

theorem handlerArgs_result_ok_iff {params : Option CJson}
    {ps : List (CString × CString)} {args : List Value} :
    (handlerArgs params ps).result = .ok args <->
      List.Forall₂ (fun p arg => exists item,
        getObjectItem params p.1 = some item ∧ argOf p.2 item = arg)
        ps args := by
  induction ps generalizing args with
  | nil =>
      rw [List.forall₂_nil_left_iff]
      simp [handlerArgs, eq_comm]
  | cons p ps ih =>
      rcases p with ⟨name, type⟩
      rw [handlerArgs, Traced.bind_result_ok_iff, List.forall₂_cons_left_iff]
      cases hitem : getObjectItem params name with
      | none =>
          simp [handlerArg_result_none]
      | some item =>
          rw [handlerArg_result_some]
          simp only [Except.ok.injEq, exists_eq_left',
            Traced.bind_result_ok_iff, Traced.pure_result, ih,
            Option.some.injEq]
          constructor
          · intro h
            rcases h with ⟨rest, hrest, rfl⟩
            exact ⟨_, rest, rfl, hrest, rfl⟩
          · intro h
            rcases h with ⟨arg, rest, harg, hrest, rfl⟩
            exact ⟨rest, hrest, by rw [harg]⟩

/-!
## The size of a reply
-/

def replySize (name : CString) (result : Option CJson) (callerid : UInt32) :
    Nat :=
  30 + (printString name).length +
    (result.elim 0 fun item => 13 + (printValue 1 item).length) +
    (printNumber (.finite (callerid.toNat : ℚ))).length

theorem print_responseDocument_strlen (name : CString) (result : Option CJson)
    (callerid : UInt32) :
    (print (responseDocument (some name) result callerid)).strlen =
      replySize name result callerid := by
  have hmethod : (printString (.lit "method")).length = 8 := by decide
  have hresult : (printString (.lit "result")).length = 8 := by decide
  have hcallerid : (printString (.lit "callerid")).length = 10 := by decide
  rw [CString.strlen, print_bytes, replySize]
  cases result with
  | none =>
      simp [responseDocument, createObject, addStringToObject,
        addNumberToObject, addItemToObject, printValue, printMembers, tabs,
        hmethod, hcallerid]
      omega
  | some item =>
      simp [responseDocument, createObject, addStringToObject,
        addNumberToObject, addItemToObject, printValue, printMembers, tabs,
        hmethod, hresult, hcallerid]
      omega

end Dispatch
end Z2wRpc
