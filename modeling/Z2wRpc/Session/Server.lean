import Z2wRpc.Dispatch.Process
import Z2wRpc.Session.Receive

/-!
# The server loop

`rpc_handle`: one round reads a header, a buffer's worth of payload, checks the
checksum, has the request processed and sends header and reply.  A round asks
to go on, leaves the loop, or stops the process.
-/

namespace Z2wRpc

open Foundation

namespace Session

open Dispatch Wire Program

def rpcHandleReply (fd : Int) (payload : CString) : Code Bool := do
  let response ← Code.process payload
  let _ ← Code.send fd (rpcHeaderEncode response)
  match response with
  | none => abort .nullString
  | some response => do
      let _ ← Code.send fd (some response.bytes)
      return true

/-- One round of the loop of `rpc_handle`. -/
def rpcHandleRound (fd : Int) : Code Bool :=
  receiveFrame fd (return false) (return true) (return false)
    (rpcHandleReply fd)

def rpcHandle (fd : Int) (fuel : Nat) : Code Unit := do
  let _ ← repeatWhile (rpcHandleRound fd) fuel
  Code.close fd

theorem asks_rpcHandleReply {P : SysCall -> Prop} {fd : Int}
    {payload : CString} (hprocess : P (.process payload))
    (hsend : forall buffer, P (.send fd buffer)) :
    Asks P (rpcHandleReply fd payload) := by
  apply ((asks_call hprocess).bind asks_lift).bind
  intro response
  apply ((asks_call (hsend _)).bind asks_lift).bind
  intro _
  cases response with
  | none => exact .abort _
  | some response =>
      exact ((asks_call (hsend _)).bind asks_lift).bind fun _ => .done _

theorem asks_rpcHandleRound {P : SysCall -> Prop} {fd : Int}
    (hrecv : forall n, P (.recv fd n)) (hmalloc : forall n, P (.malloc n))
    (hprocess : forall payload, P (.process payload))
    (hsend : forall buffer, P (.send fd buffer)) :
    Asks P (rpcHandleRound fd) :=
  asks_receiveFrame hrecv hmalloc (.done _) (.done _) (.done _)
    fun _ => asks_rpcHandleReply (hprocess _) hsend

def served (table : List RpcFunc) (payload : CString) :
    Except Fault (Option CString) :=
  (rpcProcess table (some payload)).result

/-- The run of `rpc_handle` on a connection. -/
def serve (table : List RpcFunc) (fd : Int) (w : World) :
    Except Fault Unit × World :=
  exec (network (served table)) (rpcHandle fd (weight w.incoming + 1)) w

def accepted (fd : Int) (incoming : List NetEvent) (mallocs : List Bool)
    (sends : List (Option Nat)) : World where
  incoming := incoming
  mallocs := mallocs
  sends := sends
  refused := false
  nextFd := fd + 1
  openFds := [fd]
  written := []
  dispatched := []

/-!
## One round
-/

section

variable {process : CString -> Except Fault (Option CString)} {fd : Int}
  {w : World}

theorem exec_rpcHandleReply (hopen : fd ∈ w.openFds) (payload : CString) :
    exec (network process) (rpcHandleReply fd payload) w =
      match process payload with
      | .ok (some response) =>
          (.ok true, (w.handOver payload).sendFrame response)
      | .ok none => (.error .nullString, w.handOver payload)
      | .error e => (.error e, w.handOver payload) := by
  have hopen' : fd ∈ (w.handOver payload).openFds := hopen
  rw [rpcHandleReply, exec_process]
  match process payload with
  | .error e => rfl
  | .ok none => rfl
  | .ok (some response) =>
      simp only [rpcHeaderEncode]
      rw [exec_send hopen', exec_send (by rw [transmit_openFds]; exact hopen')]
      rfl

theorem exec_rpcHandleRound (hopen : fd ∈ w.openFds) :
    exec (network process) (rpcHandleRound fd) w =
      match (reception w.allocate.1 w.incoming).1 with
      | .ended => (.ok false, w.received)
      | .noMemory => (.ok true, w.received)
      | .torn => (.error .assertion, w.received)
      | .damaged => (.ok false, w.received)
      | .payload text =>
          match process text with
          | .ok (some response) =>
              (.ok true, (w.received.handOver text).sendFrame response)
          | .ok none => (.error .nullString, w.received.handOver text)
          | .error e => (.error e, w.received.handOver text) := by
  rw [rpcHandleRound, exec_receiveFrame hopen]
  cases (reception w.allocate.1 w.incoming).1 with
  | payload text =>
      simp only
      rw [exec_rpcHandleReply (by rw [received_openFds]; exact hopen)]
  | _ => rfl

theorem exec_rpcHandleRound_payload {text : CString} {rest : List NetEvent}
    (hopen : fd ∈ w.openFds)
    (h : reception w.allocate.1 w.incoming = (.payload text, rest)) :
    (exec (network process) (rpcHandleRound fd) w).2.dispatched =
        w.dispatched ++ [text] ∧
      (exec (network process) (rpcHandleRound fd) w).2.incoming = rest := by
  have hincoming : w.received.incoming = rest := by
    rw [received_incoming, h]
  rw [exec_rpcHandleRound hopen, h]
  simp only
  split
  · rw [sendFrame_dispatched, sendFrame_incoming]
    exact ⟨by rw [World.handOver, received_dispatched], hincoming⟩
  · exact ⟨by rw [World.handOver, received_dispatched], hincoming⟩
  · exact ⟨by rw [World.handOver, received_dispatched], hincoming⟩

theorem exec_rpcHandleRound_closed (hclosed : fd ∉ w.openFds) :
    exec (network process) (rpcHandleRound fd) w = (.ok false, w) := by
  rw [rpcHandleRound, receiveFrame, exec_recv_closed hclosed]
  rfl

/-!
## The whole loop
-/

theorem exec_rpcHandleRound_drop {w' : World}
    (h : exec (network process) (rpcHandleRound fd) w = (.ok true, w')) :
    weight w'.incoming < weight w.incoming := by
  by_cases hopen : fd ∈ w.openFds
  · have hlt := reception_weight_lt w.allocate.1 w.incoming
    rw [exec_rpcHandleRound hopen] at h
    cases hreception : (reception w.allocate.1 w.incoming).1 with
    | ended =>
        simp [hreception] at h
    | noMemory =>
        simp only [hreception, Prod.mk.injEq, true_and] at h
        rw [← h, received_incoming]
        exact hlt (by simp [hreception])
    | torn => simp [hreception] at h
    | damaged => simp [hreception] at h
    | payload text =>
        simp only [hreception] at h
        match hprocess : process text with
        | .error e => simp [hprocess] at h
        | .ok none => simp [hprocess] at h
        | .ok (some response) =>
            simp only [hprocess, Prod.mk.injEq, true_and] at h
            rw [← h, sendFrame_incoming]
            show weight w.received.incoming < _
            rw [received_incoming]
            exact hlt (by simp [hreception])
  · rw [exec_rpcHandleRound_closed hopen] at h
    cases h

theorem exec_rpcHandle_fuel {fuel : Nat} (h : weight w.incoming < fuel) :
    exec (network process) (rpcHandle fd fuel) w =
      exec (network process) (rpcHandle fd (weight w.incoming + 1)) w := by
  rw [rpcHandle, rpcHandle, exec_bind, exec_bind,
    exec_repeatWhile_fuel (network process) (fun w => weight w.incoming)
      (fun _ _ => exec_rpcHandleRound_drop) h (Nat.lt_succ_self _)]

theorem exec_rpcHandle_loop_ne_true {fuel : Nat}
    (h : weight w.incoming < fuel) :
    (exec (network process) (repeatWhile (rpcHandleRound fd) fuel) w).1 ≠
      .ok true :=
  exec_repeatWhile_ne_true (network process) (fun w => weight w.incoming)
    (fun _ _ => exec_rpcHandleRound_drop) h

section

variable {σ : Type} {env : Environment SysCall Reply σ} {s s' : σ}

theorem exec_rpcHandle_again {fuel : Nat}
    (h : exec env (rpcHandleRound fd) s = (.ok true, s')) :
    exec env (rpcHandle fd (fuel + 1)) s =
      exec env (rpcHandle fd fuel) s' := by
  rw [rpcHandle, rpcHandle, exec_bind, exec_bind,
    exec_repeatWhile_again env fuel h]

theorem exec_rpcHandle_left {fuel : Nat}
    (h : exec env (rpcHandleRound fd) s = (.ok false, s')) :
    exec env (rpcHandle fd (fuel + 1)) s = exec env (Code.close fd) s' := by
  rw [rpcHandle, exec_bind, exec_repeatWhile_stop env fuel h]

theorem exec_rpcHandle_error {e : Fault} {fuel : Nat}
    (h : exec env (rpcHandleRound fd) s = (.error e, s')) :
    exec env (rpcHandle fd (fuel + 1)) s = (.error e, s') := by
  rw [rpcHandle, exec_bind, exec_repeatWhile_error env fuel h]

end

theorem exec_rpcHandle_stop {w' : World} {fuel : Nat}
    (h : exec (network process) (rpcHandleRound fd) w = (.ok false, w')) :
    exec (network process) (rpcHandle fd (fuel + 1)) w =
      (.ok (), { w' with openFds := w'.openFds.erase fd }) :=
  (exec_rpcHandle_left h).trans exec_close

end

/-!
## Runs of the server
-/

section

variable {table : List RpcFunc} {fd : Int} {w w' : World}

theorem serve_again
    (h : exec (network (served table)) (rpcHandleRound fd) w =
      (.ok true, w')) :
    serve table fd w = serve table fd w' := by
  have hlt := exec_rpcHandleRound_drop h
  rw [serve, exec_rpcHandle_again h, exec_rpcHandle_fuel hlt, serve]

theorem serve_stop
    (h : exec (network (served table)) (rpcHandleRound fd) w =
      (.ok false, w')) :
    serve table fd w =
      (.ok (), { w' with openFds := w'.openFds.erase fd }) :=
  exec_rpcHandle_stop h

theorem serve_error {e : Fault}
    (h : exec (network (served table)) (rpcHandleRound fd) w =
      (.error e, w')) :
    serve table fd w = (.error e, w') :=
  exec_rpcHandle_error h

theorem serve_replied {text reply : CString} {rest : List NetEvent}
    (hopen : fd ∈ w.openFds)
    (h : reception w.allocate.1 w.incoming = (.payload text, rest))
    (hreply : (rpcProcess table (some text)).result = .ok (some reply)) :
    serve table fd w =
      serve table fd ((w.received.handOver text).sendFrame reply) := by
  apply serve_again
  rw [exec_rpcHandleRound hopen, h]
  simp only [served, hreply]

theorem exec_rpcHandleRound_answered {text : CString} {rest : List NetEvent}
    (hopen : fd ∈ w.openFds)
    (h : reception w.allocate.1 w.incoming = (.payload text, rest))
    (hanswer : Answerable table text) :
    exists reply w', (rpcProcess table (some text)).result = .ok (some reply) ∧
      exec (network (served table)) (rpcHandleRound fd) w = (.ok true, w') ∧
      w'.incoming = rest ∧ w'.openFds = w.openFds ∧
      w'.mallocs = w.mallocs.tail ∧
      w'.dispatched = w.dispatched ++ [text] := by
  rcases answerable_iff.mp hanswer with ⟨reply, hreply⟩
  refine ⟨reply, (w.received.handOver text).sendFrame reply, hreply,
    ?_, ?_, ?_, ?_, ?_⟩
  · rw [exec_rpcHandleRound hopen, h]
    simp only [served, hreply]
  · rw [sendFrame_incoming]
    show w.received.incoming = rest
    rw [received_incoming, h]
  · rw [sendFrame_openFds]
    exact received_openFds
  · rw [sendFrame_mallocs]
    exact received_mallocs (by rw [h]; simp)
  · rw [sendFrame_dispatched, World.handOver, received_dispatched]

theorem serve_answered {text : CString} {rest : List NetEvent}
    (hopen : fd ∈ w.openFds)
    (h : reception w.allocate.1 w.incoming = (.payload text, rest))
    (hanswer : Answerable table text) :
    exists w', w'.incoming = rest ∧ w'.openFds = w.openFds ∧
      w'.mallocs = w.mallocs.tail ∧
      w'.dispatched = w.dispatched ++ [text] ∧
      serve table fd w = serve table fd w' := by
  rcases exec_rpcHandleRound_answered hopen h hanswer with
    ⟨_, w', _, hround, hincoming, hfds, hmallocs, hdispatched⟩
  exact ⟨w', hincoming, hfds, hmallocs, hdispatched, serve_again hround⟩

theorem serve_written_of_empty (hopen : fd ∈ w.openFds)
    (h : w.incoming = []) : (serve table fd w).2.written = w.written := by
  have hround : exec (network (served table)) (rpcHandleRound fd) w =
      (.ok false, w.received) := by
    rw [exec_rpcHandleRound hopen, h]
    rfl
  rw [serve_stop hround]
  exact received_written

theorem exec_keeps_dispatched {α : Type}
    (process : CString -> Except Fault (Option CString)) (w : World)
    (code : Code α) :
    w.dispatched <+: (exec (network process) code w).2.dispatched := by
  refine exec_rel (network process)
    (R := fun w w' => w.dispatched <+: w'.dispatched)
    (fun _ => List.prefix_refl _) (fun _ _ _ => List.IsPrefix.trans) ?_ code w
  intro call w
  cases call with
  | recv fd n =>
      simp only [network]
      split <;> exact List.prefix_refl _
  | send fd buffer =>
      cases buffer with
      | none => exact List.prefix_refl _
      | some bytes =>
          simp only [network]
          split
          · rw [transmit_dispatched]
          · exact List.prefix_refl _
  | malloc n =>
      show w.dispatched <+: w.allocate.2.dispatched
      rw [allocate_dispatched]
  | process payload => exact List.prefix_append _ _
  | _ => exact List.prefix_refl _

theorem serve_keeps_dispatched :
    (exec (network (served table)) (rpcHandleRound fd) w).2.dispatched <+:
      (serve table fd w).2.dispatched := by
  rcases hround : exec (network (served table)) (rpcHandleRound fd) w with
    ⟨result, w'⟩
  match result with
  | .ok true =>
      rw [serve_again hround]
      exact exec_keeps_dispatched _ w' _
  | .ok false =>
      rw [serve_stop hround]
  | .error e =>
      rw [serve_error hround]

end

end Session
end Z2wRpc
