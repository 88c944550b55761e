import Z2wRpc.Foundation.Signals
import Z2wRpc.Session.Server

/-!
# Peers that hang up

A `send` on a connection that the peer has left raises `SIGPIPE`, and the server
does not catch it.  A round that sends a reply is exposed to the signal twice,
with the header and with the text.
-/

namespace Z2wRpc

open Foundation

namespace Session

open Dispatch Wire Program

def brokenPipe : (call : SysCall) -> Option (Reply call)
  | .send .. => some (.error .brokenPipe)
  | _ => none

/-- `network`, with a script that says at which `send` the peer is gone. -/
def peerNetwork (process : CString -> Except Fault (Option CString)) :
    Environment SysCall Reply (List Bool × World) :=
  signalled brokenPipe (network process)

/-- The run of `rpc_handle` on a connection whose peer may hang up. -/
def serveTo (table : List RpcFunc) (fd : Int) (hangups : List Bool)
    (w : World) : Except Fault Unit × (List Bool × World) :=
  exec (peerNetwork (served table)) (rpcHandle fd (weight w.incoming + 1))
    (hangups, w)

/-!
## The signal ends the process
-/

theorem killedBy_send (fd : Int) (buffer : Option (List Byte)) :
    KilledBy brokenPipe Fault.brokenPipe (Code.send fd buffer) := by
  apply KilledBy.ask
  · intro r hr
    obtain rfl : .error .brokenPipe = r := Option.some.inj hr
    rfl
  · intro r
    cases r with
    | ok sent => exact .done sent
    | error e => exact .abort e

theorem asks_receiveSteps (fd : Int) :
    Asks (fun call => brokenPipe call = none) (receiveSteps fd) :=
  asks_receiveFrame (fun _ => rfl) (fun _ => rfl) (.done _) (.done _) (.done _)
    fun _ => .done _

theorem asks_process (payload : CString) :
    Asks (fun call => brokenPipe call = none) (Code.process payload) :=
  (asks_call (P := fun call => brokenPipe call = none) rfl).bind asks_lift

theorem killedBy_rpcHandleReply (fd : Int) (payload : CString) :
    KilledBy brokenPipe Fault.brokenPipe (rpcHandleReply fd payload) := by
  apply (killedBy_of_asks (asks_process payload)).bind
  intro response
  apply (killedBy_send fd _).bind
  intro _
  cases response with
  | none => exact .abort _
  | some response => exact (killedBy_send fd _).bind fun _ => .done true

theorem killedBy_rpcHandleRound (fd : Int) :
    KilledBy brokenPipe Fault.brokenPipe (rpcHandleRound fd) := by
  rw [rpcHandleRound, receiveFrame_eq]
  apply (killedBy_of_asks (asks_receiveSteps fd)).bind
  intro seen
  cases seen with
  | ended => exact .done false
  | noMemory => exact .done true
  | torn => exact .abort _
  | damaged => exact .done false
  | payload text => exact killedBy_rpcHandleReply fd text

theorem killedBy_rpcHandle (fd : Int) (fuel : Nat) :
    KilledBy brokenPipe Fault.brokenPipe (rpcHandle fd fuel) := by
  apply (killedBy_repeatWhile (killedBy_rpcHandleRound fd) fuel).bind
  intro _
  exact killedBy_of_asks (asks_call (P := fun call => brokenPipe call = none) rfl)

/-!
## What a round is exposed to
-/

section

variable {process : CString -> Except Fault (Option CString)} {fd : Int}
  {w : World}

/-- The number of `send` calls of a round, by what it receives. -/
def sendCount (process : CString -> Except Fault (Option CString)) :
    Reception -> Nat
  | .payload text =>
      match process text with
      | .ok (some _) => 2
      | .ok none => 1
      | .error _ => 0
  | _ => 0

theorem exec_receiveSteps (hopen : fd ∈ w.openFds) :
    exec (network process) (receiveSteps fd) w =
      match (reception w.allocate.1 w.incoming).1 with
      | .torn => (.error .assertion, w.received)
      | seen => (.ok seen, w.received) := by
  rw [receiveSteps, exec_receiveFrame hopen]
  cases (reception w.allocate.1 w.incoming).1 <;> rfl

theorem exists_exec_send (fd : Int) (buffer : Option (List Byte)) (w : World) :
    exists sent w', exec (network process) (Code.send fd buffer) w =
      (.ok sent, w') := by
  rw [Code.send, exec_call_bind, exec_lift]
  cases buffer with
  | none => exact ⟨_, _, rfl⟩
  | some bytes =>
      simp only [network]
      split
      · exact ⟨_, _, rfl⟩
      · exact ⟨_, _, rfl⟩

theorem exposed_send {α : Type} {buffer : Option (List Byte)}
    {f : Int -> Code α} {n : Nat}
    (h : forall sent w', exposed brokenPipe (network process) (f sent) w' = n)
    (w : World) :
    exposed brokenPipe (network process) (Code.send fd buffer >>= f) w =
      n + 1 := by
  rcases @exists_exec_send process fd buffer w with ⟨sent, w', hsend⟩
  have hone : exposed brokenPipe (network process) (Code.send fd buffer) w =
      1 := by
    have hlift (r : Except Fault Int) (w' : World) :
        exposed brokenPipe (network process) (Program.lift r) w' = 0 :=
      exposed_of_asks (asks_lift r) w'
    exact congrArg (· + 1) (hlift _ _)
  rw [exposed_bind, hone, hsend]
  simp only [h]
  omega

theorem exposed_rpcHandleReply (payload : CString) (w : World) :
    exposed brokenPipe (network process) (rpcHandleReply fd payload) w =
      sendCount process (.payload payload) := by
  have hprocess : exec (network process) (Code.process payload) w =
      (process payload, w.handOver payload) := by
    rw [Code.process, exec_call_bind, exec_lift]
    rfl
  rw [rpcHandleReply, exposed_bind, exposed_of_asks (asks_process payload),
    hprocess, sendCount]
  cases process payload with
  | error e => rfl
  | ok response =>
      simp only [Nat.zero_add]
      cases response with
      | none => exact exposed_send (fun _ _ => rfl) _
      | some response =>
          exact exposed_send (fun _ w => exposed_send (fun _ _ => rfl) w) _

theorem exposed_rpcHandleRound (hopen : fd ∈ w.openFds) :
    exposed brokenPipe (network process) (rpcHandleRound fd) w =
      sendCount process (reception w.allocate.1 w.incoming).1 := by
  rw [rpcHandleRound, receiveFrame_eq, exposed_bind,
    exposed_of_asks (asks_receiveSteps fd), exec_receiveSteps hopen,
    Nat.zero_add]
  cases (reception w.allocate.1 w.incoming).1 with
  | payload text => exact exposed_rpcHandleReply text w.received
  | _ => rfl

end

/-!
## Runs of the server
-/

section

variable {table : List RpcFunc} {fd : Int} {w w' : World}
  {hangups : List Bool}

theorem exec_peer_of_clear {result : Except Fault Bool}
    (hopen : fd ∈ w.openFds)
    (h : exec (network (served table)) (rpcHandleRound fd) w = (result, w'))
    (hclear : true ∉ hangups.take
      (sendCount (served table) (reception w.allocate.1 w.incoming).1)) :
    exec (peerNetwork (served table)) (rpcHandleRound fd) (hangups, w) =
      (result, (hangups.drop (sendCount (served table)
        (reception w.allocate.1 w.incoming).1), w')) := by
  rw [<- exposed_rpcHandleRound hopen] at hclear ⊢
  rw [peerNetwork, exec_signalled_of_clear hclear, h]

theorem exec_peer_drop {s s' : List Bool × World}
    (h : exec (peerNetwork (served table)) (rpcHandleRound fd) s =
      (.ok true, s')) : weight s'.2.incoming < weight s.2.incoming :=
  exec_rpcHandleRound_drop
    (exec_signalled_eq_ok (killedBy_rpcHandleRound fd) h).left

theorem serveTo_again (hopen : fd ∈ w.openFds)
    (h : exec (network (served table)) (rpcHandleRound fd) w = (.ok true, w'))
    (hclear : true ∉ hangups.take
      (sendCount (served table) (reception w.allocate.1 w.incoming).1)) :
    serveTo table fd hangups w = serveTo table fd
      (hangups.drop (sendCount (served table)
        (reception w.allocate.1 w.incoming).1)) w' := by
  have hlt := exec_rpcHandleRound_drop h
  rw [serveTo, exec_rpcHandle_again (exec_peer_of_clear hopen h hclear),
    serveTo, rpcHandle, rpcHandle, exec_bind, exec_bind,
    exec_repeatWhile_fuel (peerNetwork (served table))
      (fun s => weight s.2.incoming) (fun _ _ => exec_peer_drop) hlt
      (Nat.lt_succ_self (weight w'.incoming))]

theorem serveTo_stop (hopen : fd ∈ w.openFds)
    (h : exec (network (served table)) (rpcHandleRound fd) w = (.ok false, w'))
    (hclear : true ∉ hangups.take
      (sendCount (served table) (reception w.allocate.1 w.incoming).1)) :
    exists script, serveTo table fd hangups w =
      (.ok (), (script, { w' with openFds := w'.openFds.erase fd })) :=
  ⟨_, exec_rpcHandle_left (exec_peer_of_clear hopen h hclear)⟩

theorem serveTo_error {e : Fault}
    (h : exec (network (served table)) (rpcHandleRound fd) w = (.error e, w')) :
    exists e', (serveTo table fd hangups w).1 = .error e' := by
  rcases exec_signalled_error (killedBy_rpcHandleRound fd) h hangups with
    ⟨e', s', hround⟩
  exact ⟨e', by rw [serveTo, peerNetwork, exec_rpcHandle_error hround]⟩

theorem serveTo_signal (hopen : fd ∈ w.openFds)
    (hsignal : true ∈ hangups.take
      (sendCount (served table) (reception w.allocate.1 w.incoming).1)) :
    (serveTo table fd hangups w).1 = .error .brokenPipe := by
  rw [<- exposed_rpcHandleRound hopen] at hsignal
  have hkilled := exec_signalled_of_signal (killedBy_rpcHandleRound fd) hsignal
  have hround : exec (peerNetwork (served table)) (rpcHandleRound fd)
      (hangups, w) = (.error .brokenPipe, (exec (peerNetwork (served table))
        (rpcHandleRound fd) (hangups, w)).2) := Prod.ext hkilled rfl
  rw [serveTo, exec_rpcHandle_error hround]

theorem serveTo_nil (table : List RpcFunc) (fd : Int) (w : World) :
    serveTo table fd [] w =
      ((serve table fd w).1, ([], (serve table fd w).2)) := by
  rw [serveTo, peerNetwork, exec_signalled_of_clear (by simp),
    List.drop_nil]
  rfl

end

end Session
end Z2wRpc
