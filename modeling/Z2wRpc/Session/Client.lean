import Z2wRpc.Session.Receive

/-!
# The client session

`rpc_client_session`: connect, send one frame, receive one frame.  The session
returns the text of the reply, returns `NULL`, or stops the process.
-/

namespace Z2wRpc

open Foundation

namespace Session

open Dispatch Wire Program

/-- `connect_tcp_server`; `inet_addr` reads the address it is given. -/
def connectTcpServer (ip : ServerIp) (port : Int16) : Code Int := do
  let connfd ← Code.socket
  match ip with
  | .null => abort .nullString
  | .released => abort .useAfterFree
  | .live ip => do
      let failed ← Code.connect connfd ip port
      if failed ≠ 0 then return -1 else return connfd

def rpcClientSession (ip : ServerIp) (port : Int16)
    (requestJson : Option CString) : Code (Option CString) := do
  let connfd ← connectTcpServer ip port
  let _ ← Code.send connfd (rpcHeaderEncode requestJson)
  match requestJson with
  | none => abort .nullString
  | some request => do
      let _ ← Code.send connfd (some request.bytes)
      receiveFrame connfd (return none) (return none) (return none)
        fun payload => do
          Code.close connfd
          return some payload

/-- A client that is about to call, and what the server will send it. -/
def calling (incoming : List NetEvent) (sends : List (Option Nat)) : World where
  incoming := incoming
  mallocs := []
  sends := sends
  refused := false
  nextFd := 3
  openFds := []
  written := []
  dispatched := []

/-!
## What a session returns
-/

section

variable {process : CString -> Except Fault (Option CString)} {w : World}

def World.opened (w : World) : World :=
  { w with nextFd := w.nextFd + 1, openFds := w.nextFd :: w.openFds }

theorem exec_connectTcpServer (h : w.refused = false) (ip : CString)
    (port : Int16) :
    exec (network process) (connectTcpServer (.live ip) port) w =
      (.ok w.nextFd, w.opened) := by
  have hconnect : (if w.refused = true ∨ w.nextFd ∉ w.nextFd :: w.openFds then
      (-1 : Int) else 0) = 0 := by
    rw [if_neg]
    rw [h]
    simp
  rw [connectTcpServer, Code.socket, exec_call_bind]
  simp only [network]
  rw [Code.connect, exec_call_bind]
  simp only [network, hconnect]
  rfl

def sessionResult : Reception -> Except Fault (Option CString)
  | .ended => .ok none
  | .noMemory => .ok none
  | .torn => .error .assertion
  | .damaged => .ok none
  | .payload text => .ok (some text)

theorem mem_openFds_sent (w : World) (request : CString) :
    w.nextFd ∈ (w.opened.sendFrame request).openFds := by
  rw [sendFrame_openFds]
  exact List.mem_cons_self ..

theorem exec_rpcClientSession_receive (h : w.refused = false) (ip : CString)
    (port : Int16) (request : CString) :
    exec (network process)
        (rpcClientSession (.live ip) port (some request)) w =
      exec (network process)
        (receiveFrame w.nextFd (return none) (return none) (return none)
          fun payload => do
            Code.close w.nextFd
            return some payload)
        (w.opened.sendFrame request) := by
  have hopen : w.nextFd ∈ w.opened.openFds := List.mem_cons_self ..
  have hopen' : w.nextFd ∈ (w.opened.transmit (header request)).2.openFds := by
    rw [transmit_openFds]
    exact hopen
  rw [rpcClientSession, exec_bind, exec_connectTcpServer h ip port]
  simp only [rpcHeaderEncode]
  rw [exec_send hopen, exec_send hopen']
  rfl

theorem sent_allocate (w : World) (request : CString) :
    (w.opened.sendFrame request).allocate.1 = w.allocate.1 :=
  allocate_fst_congr (by rw [sendFrame_mallocs]; rfl)

theorem sent_incoming (w : World) (request : CString) :
    (w.opened.sendFrame request).incoming = w.incoming := by
  rw [sendFrame_incoming]
  rfl

theorem exec_rpcClientSession (h : w.refused = false) (ip : CString)
    (port : Int16) (request : CString) :
    (exec (network process)
        (rpcClientSession (.live ip) port (some request)) w).1 =
      sessionResult (reception w.allocate.1 w.incoming).1 ∧
    (exec (network process)
        (rpcClientSession (.live ip) port (some request)) w).2.incoming =
      (reception w.allocate.1 w.incoming).2 ∧
    (exec (network process)
        (rpcClientSession (.live ip) port (some request)) w).2.written =
      (w.opened.sendFrame request).written := by
  have hreceived : (w.opened.sendFrame request).received.incoming =
      (reception w.allocate.1 w.incoming).2 := by
    rw [received_incoming, sent_allocate, sent_incoming]
  have hwritten := @received_written (w.opened.sendFrame request)
  rw [exec_rpcClientSession_receive h,
    exec_receiveFrame (mem_openFds_sent w request), sent_allocate,
    sent_incoming]
  cases (reception w.allocate.1 w.incoming).1 with
  | _ => exact ⟨rfl, hreceived, hwritten⟩

theorem exec_rpcClientSession_openFds (h : w.refused = false) (ip : CString)
    (port : Int16) (request : CString) :
    (exec (network process)
        (rpcClientSession (.live ip) port (some request)) w).2.openFds =
      match (reception w.allocate.1 w.incoming).1 with
      | .payload _ => w.openFds
      | _ => w.nextFd :: w.openFds := by
  have hopenFds : (w.opened.sendFrame request).received.openFds =
      w.nextFd :: w.openFds := by
    rw [received_openFds, sendFrame_openFds]
    rfl
  rw [exec_rpcClientSession_receive h,
    exec_receiveFrame (mem_openFds_sent w request), sent_allocate,
    sent_incoming]
  cases (reception w.allocate.1 w.incoming).1 with
  | payload text =>
      show (w.opened.sendFrame request).received.openFds.erase w.nextFd = _
      rw [hopenFds, List.erase_cons_head]
  | _ => exact hopenFds

end

end Session
end Z2wRpc
