import Z2wRpc.Dispatch.Handler

/-!
# The methods of the service

`rpc_method.c`: the six methods and their handlers.  The string methods edit
their message in place; an index outside the block of the message is no result.
-/

namespace Z2wRpc

open Foundation

namespace Dispatch

open CJson

theorem isCharPointer_charStar : true = isCharPointer (.lit "char*") := by
  decide

section

variable [FreshMemory]

/-- The block of a string: its bytes with the terminator, and what
`parse_string` has allocated behind it. -/
def pointee : Option CString -> Room -> List Byte
  | none, _ => []
  | some s, room => s.stored ++ room.bytes

/-- The loop of `rpc_sayhello` from index `i`, `n` rounds to go. -/
def sayhelloLoop (length : Int) : Nat -> Int -> List Byte -> Option (List Byte)
  | 0, _, msg => some msg
  | n + 1, i, msg => do
      let tmp ← load msg i
      let last ← load msg (length - i - 1)
      let msg ← store msg i last
      let msg ← store msg (length - i - 1) tmp
      sayhelloLoop length n (i + 1) msg

def rpcSayhello (msg : List Byte) (length : Int32) : Option (List Byte) :=
  sayhelloLoop length.toInt (length.toInt.tdiv 2).toNat 0 msg

def swapCase (b : Byte) : Byte :=
  if 0x61 <= b.toNat ∧ b.toNat <= 0x7a then b - 0x61#8 + 0x41#8
  else if 0x41 <= b.toNat ∧ b.toNat <= 0x5a then b - 0x41#8 + 0x61#8
  else b

/-- The loop of `rpc_echo` from index `i`, `n` rounds to go. -/
def echoLoop : Nat -> Int -> List Byte -> Option (List Byte)
  | 0, _, msg => some msg
  | n + 1, i, msg => do
      let b ← load msg i
      let msg ← store msg i (swapCase b)
      echoLoop n (i + 1) msg

def rpcEcho (msg : List Byte) (length : Int32) : Option (List Byte) :=
  echoLoop length.toInt.toNat 0 msg

def rpcAdd (a b : Int32) : Int32 := a + b

def rpcSub (a b : Double) : Double := Double.sub a b

def rpcMul (a b : Double) : Double := Double.mul a b

def rpcSum (a b c : Int32) : Int32 := a + b + c

/-!
## The handlers
-/

def editMessage (rpc : List Byte -> Int32 -> Option (List Byte)) : Body :=
  .text fun args rooms =>
    match args, rooms with
    | [.text msg, .int length], room :: _ =>
        (rpc (pointee msg room) length).map fun edited =>
          msg.map fun _ => CString.ofBytes edited
    | _, _ => none

def rpcResponseJsonEncodeSayhello : Handler where
  params := [(.lit "msg", .lit "char*"), (.lit "length", .lit "int")]
  rettype := .lit "char*"
  body := editMessage rpcSayhello
  returns := isCharPointer_charStar

def rpcResponseJsonEncodeAdd : Handler where
  params := [(.lit "a", .lit "int"), (.lit "b", .lit "int")]
  rettype := .lit "int"
  body := .number fun args =>
    match args with
    | [.int a, .int b] => some (.finite (rpcAdd a b).toInt)
    | _ => none
  returns := by decide

def rpcResponseJsonEncodeSub : Handler where
  params := [(.lit "a", .lit "double"), (.lit "b", .lit "double")]
  rettype := .lit "double"
  body := .number fun args =>
    match args with
    | [.real a, .real b] => some (rpcSub a b)
    | _ => none
  returns := by decide

def rpcResponseJsonEncodeMul : Handler where
  params := [(.lit "a", .lit "double"), (.lit "b", .lit "double")]
  rettype := .lit "double"
  body := .number fun args =>
    match args with
    | [.real a, .real b] => some (rpcMul a b)
    | _ => none
  returns := by decide

def rpcResponseJsonEncodeSum : Handler where
  params :=
    [(.lit "a", .lit "int"), (.lit "b", .lit "int"), (.lit "c", .lit "int")]
  rettype := .lit "int"
  body := .number fun args =>
    match args with
    | [.int a, .int b, .int c] => some (.finite (rpcSum a b c).toInt)
    | _ => none
  returns := by decide

def rpcResponseJsonEncodeEcho : Handler where
  params := [(.lit "msg", .lit "char*"), (.lit "length", .lit "int")]
  rettype := .lit "char*"
  body := editMessage rpcEcho
  returns := isCharPointer_charStar

/-- The symbols that `librpc_method.so` exports as handlers. -/
def librpcMethod (symbol : CString) : Option Handler :=
  if symbol = .lit "rpc_response_json_encode_sayhello" then
    some rpcResponseJsonEncodeSayhello
  else if symbol = .lit "rpc_response_json_encode_add" then
    some rpcResponseJsonEncodeAdd
  else if symbol = .lit "rpc_response_json_encode_sub" then
    some rpcResponseJsonEncodeSub
  else if symbol = .lit "rpc_response_json_encode_mul" then
    some rpcResponseJsonEncodeMul
  else if symbol = .lit "rpc_response_json_encode_sum" then
    some rpcResponseJsonEncodeSum
  else if symbol = .lit "rpc_response_json_encode_echo" then
    some rpcResponseJsonEncodeEcho
  else none

end

end Dispatch
end Z2wRpc
