import Z2wRpc.NtyCo.TaskPool
import Z2wRpc.Session.Server

/-!
# The hooked calls

With `COROUTINE_HOOK` the socket calls of the server are those of
`nty_socket.c`: they poll the descriptor in the scheduler and then use the
functions of the C library, which `init_hook` finds.  The server's code is linked
with them.
-/

namespace Z2wRpc
namespace NtyCo

open Foundation Program
open Dispatch (Fault)
open Session (SysCall Reply Code)

inductive ServerTask where
  | rpcListen (port : BitVec 16)
  | rpcHandle (fd : Int)

inductive RawCall where
  | socketF
  -- `O_NONBLOCK` is set
  | fcntl (fd : Int)
  | bind (fd : Int) (port : BitVec 16)
  | listen (fd : Int) (backlog : Nat)
  | acceptF (fd : Int)
  | connectF (fd : Int) (ip : CString) (port : Int16)
  | recvF (fd : Int) (n : Nat)
  | sendF (fd : Int) (buffer : Option (List Byte))
  | closeF (fd : Int)
  | malloc (n : Nat)

/-- A result, and whether `errno` says that the call is to be tried again. -/
structure Attempted where
  ret : Int
  again : Bool

abbrev RawReply : RawCall -> Type
  | .socketF => Int
  | .fcntl _ => Bool
  | .bind .. => Unit
  | .listen .. => Unit
  | .acceptF _ => Attempted
  | .connectF .. => Attempted
  | .recvF .. => Option (List Byte)
  | .sendF .. => Int
  | .closeF _ => Unit
  | .malloc _ => Bool

inductive ServerCall where
  | raw (call : RawCall)
  -- `rpc_process`
  | process (payload : CString)

abbrev ServerReply : ServerCall -> Type
  | .raw call => RawReply call
  | .process _ => Except Fault (Option CString)

abbrev HookCode (α : Type) : Type :=
  Program (CoCall ServerTask ServerCall) (CoAnswer ServerReply) Fault α

namespace HookCode

def poll (fd : Int) (direction : Direction) : HookCode Unit :=
  Program.call (CoCall.poll fd direction)

def create (task : ServerTask) : HookCode Int :=
  Program.call (CoCall.create task)

def raw (call : RawCall) : HookCode (RawReply call) :=
  Program.call (CoCall.other (ServerCall.raw call))

def process (payload : CString) : HookCode (Except Fault (Option CString)) :=
  Program.call (CoCall.other (ServerCall.process payload))

end HookCode

open HookCode

/-!
## The hooks
-/

/-- `recv`; an error is -1 whatever `errno` is. -/
def recvHook (fd : Int) (n : Nat) : HookCode (Option (List Byte)) := do
  poll fd .read
  raw (.recvF fd n)

def sendResult (ret : Int) (sent : Nat) : Int :=
  if ret <= 0 ∧ sent = 0 then ret else sent

/-- The loop of `send`.  Every round sends something or is the last. -/
def sendLoop (fd : Int) (buffer : Option (List Byte)) (len : Nat) :
    Nat -> Nat -> Int -> HookCode Int
  | 0, sent, ret => return sendResult ret sent
  | fuel + 1, sent, ret =>
      if sent < len then do
        poll fd .write
        let ret ← raw (.sendF fd (buffer.map (List.drop sent)))
        if ret <= 0 then return sendResult ret sent
        else sendLoop fd buffer len fuel (sent + ret.toNat) ret
      else return sendResult ret sent

/-- `send`: the first attempt is made at once. -/
def sendHook (fd : Int) (buffer : Option (List Byte)) (len : Nat) :
    HookCode Int := do
  let ret ← raw (.sendF fd buffer)
  if ret = 0 then return 0
  else sendLoop fd buffer len len ret.toNat ret

def socketHook : HookCode Int := do
  let fd ← raw .socketF
  if fd = -1 then return -1
  else do
    let ok ← raw (.fcntl fd)
    if ok then return fd
    else do
      -- the result of `fcntl` is closed, and not the socket
      raw (.closeF (-1))
      return -1

/-- `accept`; its loop is tried so many times. -/
def acceptHook (fd : Int) : Nat -> HookCode Int
  | 0 => return -1
  | tries + 1 => do
      poll fd .read
      let sockfd ← raw (.acceptF fd)
      if sockfd.ret < 0 then
        if sockfd.again then acceptHook fd tries else return -1
      else do
        let ok ← raw (.fcntl sockfd.ret)
        if ok then return sockfd.ret
        else do
          raw (.closeF sockfd.ret)
          return -1

/-- `connect`; its loop is tried so many times. -/
def connectHook (fd : Int) (ip : CString) (port : Int16) : Nat -> HookCode Int
  | 0 => return -1
  | tries + 1 => do
      poll fd .write
      let result ← raw (.connectF fd ip port)
      if result.ret = 0 then return 0
      else if result.ret = -1 ∧ result.again then connectHook fd ip port tries
      else return result.ret

/-- The length with which `send` is called: a header has 6 bytes, and a text goes
with its `strlen`. -/
def sendLength : Option (List Byte) -> Nat
  | none => Wire.rpcHeaderLength
  | some bytes => bytes.length

def hook (tries : Nat) : (call : SysCall) -> HookCode (Reply call)
  | .socket => socketHook
  | .connect fd ip port => connectHook fd ip port tries
  | .recv fd n => recvHook fd n
  | .send fd buffer => do
      let ret ← sendHook fd buffer (sendLength buffer)
      return .ok ret
  | .malloc n => raw (.malloc n)
  | .close fd => raw (.closeF fd)
  | .process payload => HookCode.process payload

/-!
## The server
-/

/-- The loop of `rpc_listen`; each time `accept` is tried that often. -/
def rpcListenLoop (fd : Int) (tries : Nat) : Nat -> HookCode Unit
  | 0 => return ()
  | fuel + 1 => do
      let cliFd ← acceptHook fd tries
      let arg ← raw (.malloc 4)
      -- `*arg = cli_fd` with `arg` a null pointer
      if !arg then abort .outOfBounds
      else do
        let _ ← HookCode.create (.rpcHandle cliFd)
        rpcListenLoop fd tries fuel

def rpcListen (port : BitVec 16) (tries fuel : Nat) : HookCode Unit := do
  let fd ← socketHook
  if fd < 0 then return ()
  else do
    raw (.bind fd port)
    raw (.listen fd 20)
    rpcListenLoop fd tries fuel

def serverCode (tries fuel : Nat) : ServerTask -> HookCode Unit
  | .rpcListen port => rpcListen port tries fuel
  | .rpcHandle fd => link (hook tries) (Session.rpcHandle fd fuel)

end NtyCo
end Z2wRpc
