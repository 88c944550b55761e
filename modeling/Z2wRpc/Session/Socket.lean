import Z2wRpc.Dispatch.Register
import Z2wRpc.Foundation.Program
import Z2wRpc.Foundation.Segments
import Z2wRpc.Wire.Header

/-!
# Sockets

The questions that client and server put to their surroundings, and the world
that answers them for one connection.  The transport decides what every `recv`
returns, the allocator which buffers there are and the peer's window how much of
a `send` is taken; each of these is a script that the world follows.
-/

namespace Z2wRpc

open Foundation

namespace Session

open Dispatch

inductive NetEvent where
  -- bytes that one or more `recv` calls hand out
  | segment (bytes : List Byte)
  -- a `recv` that returns -1
  | failed
deriving DecidableEq

/--
One `recv` of at most `n` bytes: the bytes, or `none` for -1, and what is left.
Nothing is returned when the peer has closed the connection.
-/
def receive (n : Nat) : List NetEvent -> Option (List Byte) × List NetEvent
  | [] => (some [], [])
  | .failed :: rest => (none, rest)
  | .segment c :: rest =>
      (some (c.take n),
        match c.drop n with
        | [] => rest
        | b :: bs => .segment (b :: bs) :: rest)

inductive SysCall where
  | socket
  | connect (fd : Int) (ip : CString) (port : Int16)
  | recv (fd : Int) (n : Nat)
  | send (fd : Int) (buffer : Option (List Byte))
  | malloc (n : Nat)
  | close (fd : Int)
  -- `rpc_process`, so that a run shows what is handed to it
  | process (payload : CString)

abbrev Reply : SysCall -> Type
  | .socket => Int
  | .connect .. => Int
  | .recv .. => Option (List Byte)
  | .send .. => Except Fault Int
  | .malloc _ => Bool
  | .close _ => Unit
  | .process _ => Except Fault (Option CString)

abbrev Code := Program SysCall Reply Fault

namespace Code

def socket : Code Int := Program.call SysCall.socket

def connect (fd : Int) (ip : CString) (port : Int16) : Code Int :=
  Program.call (SysCall.connect fd ip port)

def recv (fd : Int) (n : Nat) : Code (Option (List Byte)) :=
  Program.call (SysCall.recv fd n)

/-- A `send` that raises a signal does not return. -/
def send (fd : Int) (buffer : Option (List Byte)) : Code Int := do
  let sent : Except Fault Int ← Program.call (SysCall.send fd buffer)
  Program.lift sent

def malloc (n : Nat) : Code Bool := Program.call (SysCall.malloc n)

def close (fd : Int) : Code Unit := Program.call (SysCall.close fd)

/-- Hand a payload to `rpc_process`; its faults are faults of the caller. -/
def process (payload : CString) : Code (Option CString) := do
  let response : Except Fault (Option CString) ←
    Program.call (SysCall.process payload)
  Program.lift response

end Code

structure World where
  incoming : List NetEvent
  -- outcomes of the next allocations; they succeed when none is left
  mallocs : List Bool
  -- bytes the next `send` calls take, `none` for -1; all when none is left
  sends : List (Option Nat)
  refused : Bool
  nextFd : Int
  openFds : List Int
  written : List Byte
  dispatched : List CString

namespace World

def transmit (w : World) (bytes : List Byte) : Int × World :=
  match w.sends with
  | [] => (bytes.length, { w with written := w.written ++ bytes })
  | none :: rest => (-1, { w with sends := rest })
  | some k :: rest =>
      ((bytes.take k).length,
        { w with sends := rest, written := w.written ++ bytes.take k })

def allocate (w : World) : Bool × World :=
  match w.mallocs with
  | [] => (true, w)
  | ok :: rest => (ok, { w with mallocs := rest })

end World

/-- How the world answers; calls on a closed descriptor return -1. -/
def network (process : CString -> Except Fault (Option CString)) :
    Program.Environment SysCall Reply World
  | .socket, w =>
      (w.nextFd,
        { w with nextFd := w.nextFd + 1, openFds := w.nextFd :: w.openFds })
  | .connect fd _ _, w =>
      (if w.refused ∨ fd ∉ w.openFds then -1 else 0, w)
  | .recv fd n, w =>
      if fd ∈ w.openFds then
        ((receive n w.incoming).1,
          { w with incoming := (receive n w.incoming).2 })
      else (none, w)
  | .send fd buffer, w =>
      match buffer with
      | none => (.ok (-1), w)
      | some bytes =>
          if fd ∈ w.openFds then
            (.ok (w.transmit bytes).1, (w.transmit bytes).2)
          else (.ok (-1), w)
  | .malloc _, w => w.allocate
  | .close fd, w => ((), { w with openFds := w.openFds.erase fd })
  | .process payload, w =>
      (process payload, { w with dispatched := w.dispatched ++ [payload] })

/-!
## Frame lemmas
-/

section

variable (w : World) (bytes : List Byte)

@[simp] theorem transmit_incoming :
    (w.transmit bytes).2.incoming = w.incoming := by
  unfold World.transmit
  split <;> rfl

@[simp] theorem transmit_mallocs :
    (w.transmit bytes).2.mallocs = w.mallocs := by
  unfold World.transmit
  split <;> rfl

@[simp] theorem transmit_openFds :
    (w.transmit bytes).2.openFds = w.openFds := by
  unfold World.transmit
  split <;> rfl

@[simp] theorem transmit_dispatched :
    (w.transmit bytes).2.dispatched = w.dispatched := by
  unfold World.transmit
  split <;> rfl

@[simp] theorem allocate_incoming : w.allocate.2.incoming = w.incoming := by
  unfold World.allocate
  split <;> rfl

@[simp] theorem allocate_openFds : w.allocate.2.openFds = w.openFds := by
  unfold World.allocate
  split <;> rfl

@[simp] theorem allocate_dispatched :
    w.allocate.2.dispatched = w.dispatched := by
  unfold World.allocate
  split <;> rfl

@[simp] theorem allocate_sends : w.allocate.2.sends = w.sends := by
  unfold World.allocate
  split <;> rfl

@[simp] theorem allocate_written : w.allocate.2.written = w.written := by
  unfold World.allocate
  split <;> rfl

end

def World.sendFrame (w : World) (text : CString) : World :=
  ((w.transmit (Wire.header text)).2.transmit text.bytes).2

section

variable (w : World) (text : CString)

@[simp] theorem sendFrame_incoming :
    (w.sendFrame text).incoming = w.incoming := by
  simp [World.sendFrame]

@[simp] theorem sendFrame_mallocs :
    (w.sendFrame text).mallocs = w.mallocs := by
  simp [World.sendFrame]

@[simp] theorem sendFrame_openFds :
    (w.sendFrame text).openFds = w.openFds := by
  simp [World.sendFrame]

@[simp] theorem sendFrame_dispatched :
    (w.sendFrame text).dispatched = w.dispatched := by
  simp [World.sendFrame]

theorem sendFrame_written (h : w.sends = []) :
    (w.sendFrame text).written = w.written ++ Wire.frame text := by
  simp [World.sendFrame, World.transmit, h, Wire.frame]

theorem allocate_of_mallocs_nil {w : World} (h : w.mallocs = []) :
    w.allocate.1 = true := by
  unfold World.allocate
  rw [h]

theorem allocate_fst_congr {w w' : World} (h : w.mallocs = w'.mallocs) :
    w.allocate.1 = w'.allocate.1 := by
  unfold World.allocate
  rw [h]
  split <;> rfl

end

/-!
## Execution of the calls
-/

section

variable {process : CString -> Except Fault (Option CString)} {α : Type}
  {w : World} {fd : Int}

theorem exec_recv {n : Nat} {got : Option (List Byte)}
    {rest : List NetEvent} (hopen : fd ∈ w.openFds)
    (h : receive n w.incoming = (got, rest))
    (f : Option (List Byte) -> Code α) :
    (Code.recv fd n >>= f).exec (network process) w =
      (f got).exec (network process) { w with incoming := rest } := by
  rw [Code.recv, Program.exec_call_bind]
  simp only [network, if_pos hopen, h]

theorem exec_recv_closed {n : Nat} (hclosed : fd ∉ w.openFds)
    (f : Option (List Byte) -> Code α) :
    (Code.recv fd n >>= f).exec (network process) w =
      (f none).exec (network process) w := by
  rw [Code.recv, Program.exec_call_bind]
  simp only [network, if_neg hclosed]

theorem exec_send {bytes : List Byte} (hopen : fd ∈ w.openFds)
    (f : Int -> Code α) :
    (Code.send fd (some bytes) >>= f).exec (network process) w =
      (f (w.transmit bytes).1).exec (network process)
        (w.transmit bytes).2 := by
  rw [Program.exec_bind, Code.send, Program.exec_call_bind,
    Program.exec_lift]
  simp only [network, if_pos hopen]

theorem exec_malloc {n : Nat} (f : Bool -> Code α) :
    (Code.malloc n >>= f).exec (network process) w =
      (f w.allocate.1).exec (network process) w.allocate.2 := rfl

theorem exec_close :
    (Code.close fd).exec (network process) w =
      (.ok (), { w with openFds := w.openFds.erase fd }) := rfl

def World.handOver (w : World) (payload : CString) : World :=
  { w with dispatched := w.dispatched ++ [payload] }

theorem exec_process {payload : CString} (f : Option CString -> Code α) :
    (Code.process payload >>= f).exec (network process) w =
      match process payload with
      | .ok response =>
          (f response).exec (network process) (w.handOver payload)
      | .error e => (.error e, w.handOver payload) := by
  rw [Program.exec_bind, Code.process, Program.exec_call_bind,
    Program.exec_lift]
  simp only [network, World.handOver]
  cases process payload <;> rfl

end

/-!
## Receiving
-/

def unread : List NetEvent -> List Byte
  | [] => []
  | .failed :: rest => unread rest
  | .segment c :: rest => c ++ unread rest

def weight : List NetEvent -> Nat
  | [] => 0
  | .failed :: rest => weight rest + 1
  | .segment c :: rest => weight rest + c.length + 1

theorem receive_weight_le (n : Nat) (events : List NetEvent) :
    weight (receive n events).2 <= weight events := by
  cases events with
  | nil => exact Nat.le_refl 0
  | cons event rest =>
      cases event with
      | failed => exact Nat.le_succ _
      | segment c =>
          have hlength := List.length_drop (i := n) (l := c)
          cases hdrop : c.drop n with
          | nil =>
              simp only [receive, hdrop, weight]
              omega
          | cons b bs =>
              rw [hdrop] at hlength
              simp only [receive, hdrop, weight]
              omega

theorem receive_weight_lt {n : Nat} {events rest : List NetEvent}
    {b : Byte} {bs : List Byte}
    (h : receive n events = (some (b :: bs), rest)) :
    weight rest < weight events := by
  cases events with
  | nil => simp [receive] at h
  | cons event tail =>
      cases event with
      | failed => simp [receive] at h
      | segment c =>
          have hlength := List.length_drop (i := n) (l := c)
          rcases Prod.mk.inj h with ⟨htake, hrest⟩
          have hpos : 0 < (c.take n).length := by
            rw [Option.some.inj htake]
            simp
          rw [List.length_take] at hpos
          cases hdrop : c.drop n with
          | nil =>
              simp only [hdrop] at hrest
              rw [← hrest]
              simp only [weight]
              omega
          | cons d ds =>
              rw [hdrop] at hlength
              simp only [hdrop] at hrest
              rw [← hrest]
              simp only [weight]
              omega

theorem unread_segments (chunks : List (List Byte)) :
    unread (chunks.map .segment) = chunks.flatten := by
  induction chunks with
  | nil => rfl
  | cons c cs ih => rw [List.map_cons, unread, ih, List.flatten_cons]

theorem receive_segments (n : Nat) (chunks : List (List Byte)) :
    receive n (chunks.map .segment) =
      (some (Segments.read n chunks).1,
        (Segments.read n chunks).2.map .segment) := by
  cases chunks with
  | nil => rfl
  | cons c cs =>
      rw [List.map_cons, receive, Segments.read]
      cases c.drop n <;> rfl

end Session
end Z2wRpc
