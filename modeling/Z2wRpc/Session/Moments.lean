import Z2wRpc.Session.Server

/-!
# Moments of a connection

A property of every question that client or server asks is decided step by
step, as the run is: the receive steps, a round of the server, its loop.
-/

namespace Z2wRpc

open Foundation

namespace Session

open Dispatch Wire Program

section

variable {process : CString -> Except Fault (Option CString)} {α : Type}
  {P : SysCall -> World -> Prop} {w : World} {fd : Int}

/-!
## The calls
-/

theorem always_recv_iff {n : Nat} {got : Option (List Byte)}
    {rest : List NetEvent} (hopen : fd ∈ w.openFds)
    (h : receive n w.incoming = (got, rest))
    (f : Option (List Byte) -> Code α) :
    Always (network process) P (Code.recv fd n >>= f) w <->
      P (.recv fd n) w ∧
        Always (network process) P (f got) { w with incoming := rest } := by
  rw [Code.recv, always_call_bind_iff]
  simp only [network, if_pos hopen, h]

theorem always_malloc_iff {n : Nat} (f : Bool -> Code α) :
    Always (network process) P (Code.malloc n >>= f) w <->
      P (.malloc n) w ∧
        Always (network process) P (f w.allocate.1) w.allocate.2 :=
  always_call_bind_iff

theorem always_send_iff {bytes : List Byte} (hopen : fd ∈ w.openFds)
    (f : Int -> Code α) :
    Always (network process) P (Code.send fd (some bytes) >>= f) w <->
      P (.send fd (some bytes)) w ∧
        Always (network process) P (f (w.transmit bytes).1)
          (w.transmit bytes).2 := by
  rw [Code.send, bind_assoc, always_call_bind_iff]
  simp only [network, if_pos hopen]
  rfl

theorem always_process_iff {payload : CString}
    (f : Option CString -> Code α) :
    Always (network process) P (Code.process payload >>= f) w <->
      P (.process payload) w ∧
        forall response, process payload = .ok response ->
          Always (network process) P (f response) (w.handOver payload) := by
  have hprocess : exec (network process) (Code.process payload) w =
      (process payload, w.handOver payload) := by
    rw [Code.process, exec_call_bind, exec_lift]
    rfl
  have hcall : Always (network process) P (Code.process payload) w <->
      P (.process payload) w := by
    rw [Code.process, always_call_bind_iff, and_iff_left_iff_imp]
    intro _
    simp only [network]
    cases process payload with
    | ok response => exact always_pure response
    | error e => exact always_abort e
  rw [always_bind_iff, hcall, hprocess]
  constructor
  · intro h
    exact ⟨h.left, fun response hok => h.right response _ (by rw [hok])⟩
  · intro h
    refine ⟨h.left, fun response w' hexec => ?_⟩
    rcases Prod.mk.inj hexec with ⟨hok, rfl⟩
    exact h.right response hok

/-!
## The receive steps
-/

def Receives (fd : Int) : SysCall -> Prop
  | .recv fd' _ => fd' = fd
  | .malloc _ => True
  | _ => False

structure SameOutput (w w' : World) : Prop where
  openFds : w'.openFds = w.openFds
  sends : w'.sends = w.sends
  written : w'.written = w.written
  dispatched : w'.dispatched = w.dispatched

theorem always_receiveFrame_iff (hopen : fd ∈ w.openFds)
    (hreceives : forall call w', Receives fd call -> SameOutput w w' ->
      P call w')
    (onEnd onNoMemory onDamaged : Code α) (onPayload : CString -> Code α) :
    Always (network process) P
        (receiveFrame fd onEnd onNoMemory onDamaged onPayload) w <->
      match (reception w.allocate.1 w.incoming).1 with
      | .ended => Always (network process) P onEnd w.received
      | .noMemory => Always (network process) P onNoMemory w.received
      | .torn => True
      | .damaged => Always (network process) P onDamaged w.received
      | .payload text =>
          Always (network process) P (onPayload text) w.received := by
  have hfirst : P (.recv fd rpcHeaderLength) w :=
    hreceives _ w rfl ⟨rfl, rfl, rfl, rfl⟩
  rcases hheader : receive rpcHeaderLength w.incoming with ⟨got, rest⟩
  rw [receiveFrame, always_recv_iff hopen hheader, and_iff_right hfirst]
  unfold World.received reception
  rw [hheader]
  cases got with
  | none => rfl
  | some bytes =>
      cases bytes with
      | nil => rfl
      | cons b bs =>
          simp only
          have hmalloc : P
              (.malloc (headerLength (zeroFill rpcHeaderLength (b :: bs)) + 1))
              { w with incoming := rest } :=
            hreceives _ _ trivial ⟨rfl, rfl, rfl, rfl⟩
          rw [always_malloc_iff, and_iff_right hmalloc,
            allocate_incoming_update]
          cases w.allocate.1 with
          | false => rfl
          | true =>
              simp only [Bool.not_true, Bool.false_eq_true, if_false]
              rcases hpayload : receive
                (headerLength (zeroFill rpcHeaderLength (b :: bs))) rest with
                ⟨ret, rest'⟩
              have hopen' : fd ∈
                  ({ w.allocate.2 with incoming := rest } : World).openFds := by
                simpa using hopen
              have hsecond : P
                  (.recv fd (headerLength (zeroFill rpcHeaderLength (b :: bs))))
                  { w.allocate.2 with incoming := rest } :=
                hreceives _ _ rfl ⟨allocate_openFds w, allocate_sends w,
                  allocate_written w, allocate_dispatched w⟩
              rw [always_recv_iff hopen' hpayload, and_iff_right hsecond]
              cases ret with
              | none => exact iff_true_intro (always_abort _)
              | some p =>
                  simp only
                  by_cases hlength : p.length =
                      headerLength (zeroFill rpcHeaderLength (b :: bs))
                  · rw [if_neg (not_not.mpr hlength),
                      if_neg (not_not.mpr hlength), ofBytes_zeroFill hlength]
                    by_cases hcrc :
                        headerCrc (zeroFill rpcHeaderLength (b :: bs)) =
                          calcCrc32 p
                    · rw [if_neg (not_not.mpr hcrc), if_neg (not_not.mpr hcrc)]
                    · rw [if_pos hcrc, if_pos hcrc]
                  · rw [if_pos hlength, if_pos hlength]
                    exact iff_true_intro (always_abort _)

/-!
## The server
-/

theorem always_rpcHandleReply_iff (hopen : fd ∈ w.openFds)
    (payload : CString) :
    Always (network process) P (rpcHandleReply fd payload) w <->
      P (.process payload) w ∧
        match process payload with
        | .ok (some response) =>
            P (.send fd (some (header response))) (w.handOver payload) ∧
              P (.send fd (some response.bytes))
                ((w.handOver payload).transmit (header response)).2
        | .ok none => P (.send fd none) (w.handOver payload)
        | .error _ => True := by
  have hopen' : fd ∈ (w.handOver payload).openFds := hopen
  rw [rpcHandleReply, always_process_iff]
  refine and_congr_right fun _ => ?_
  rcases process payload with e | _ | response
  · refine iff_true_intro fun response h => ?_
    cases h
  · constructor
    · intro h
      exact (always_call_bind_iff.mp (h none rfl)).left
    · intro h response hresponse
      obtain rfl : none = response := Except.ok.inj hresponse
      exact always_call_bind_iff.mpr ⟨h, always_abort _⟩
  · have hsends : Always (network process) P (do
          let _ ← Code.send fd (rpcHeaderEncode (some response))
          let _ ← Code.send fd (some response.bytes)
          return true) (w.handOver payload) <->
        P (.send fd (some (header response))) (w.handOver payload) ∧
          P (.send fd (some response.bytes))
            ((w.handOver payload).transmit (header response)).2 := by
      simp only [rpcHeaderEncode]
      rw [always_send_iff hopen',
        always_send_iff (by rw [transmit_openFds]; exact hopen')]
      exact and_congr_right fun _ => and_iff_left (always_pure _)
    refine Iff.trans ?_ hsends
    constructor
    · intro h
      exact h (some response) rfl
    · intro h response' hresponse
      obtain rfl : some response = response' := Except.ok.inj hresponse
      exact h

theorem always_rpcHandleRound_iff (hopen : fd ∈ w.openFds)
    (hreceives : forall call w', Receives fd call -> SameOutput w w' ->
      P call w') :
    Always (network process) P (rpcHandleRound fd) w <->
      forall text, (reception w.allocate.1 w.incoming).1 = .payload text ->
        Always (network process) P (rpcHandleReply fd text) w.received := by
  rw [rpcHandleRound, always_receiveFrame_iff hopen hreceives]
  cases (reception w.allocate.1 w.incoming).1 with
  | ended => exact iff_of_true (always_pure _) fun text h => by cases h
  | noMemory => exact iff_of_true (always_pure _) fun text h => by cases h
  | torn => exact iff_of_true trivial fun text h => by cases h
  | damaged => exact iff_of_true (always_pure _) fun text h => by cases h
  | payload text =>
      constructor
      · intro h text' htext
        obtain rfl : text = text' := by simpa using htext
        exact h
      · intro h
        exact h text rfl

theorem always_rpcHandle_succ_iff {fuel : Nat} :
    Always (network process) P (rpcHandle fd (fuel + 1)) w <->
      Always (network process) P (rpcHandleRound fd) w ∧
        forall again w', exec (network process) (rpcHandleRound fd) w =
            (.ok again, w') ->
          if again then Always (network process) P (rpcHandle fd fuel) w'
          else P (.close fd) w' := by
  have hassoc : rpcHandle fd (fuel + 1) = (do
      let again ← rpcHandleRound fd
      if again then rpcHandle fd fuel else Code.close fd) := by
    rw [rpcHandle, repeatWhile, Program.bind_assoc]
    refine congrArg _ (funext fun again => ?_)
    cases again with
    | true => rfl
    | false => rfl
  rw [hassoc, always_bind_iff]
  refine and_congr_right fun _ => forall_congr' fun again =>
    forall_congr' fun w' => imp_congr_right fun _ => ?_
  cases again with
  | true => rfl
  | false => exact always_call_iff

theorem always_rpcHandle_again_iff {w' : World} {fuel : Nat}
    (hround : exec (network process) (rpcHandleRound fd) w =
      (.ok true, w')) :
    Always (network process) P (rpcHandle fd (fuel + 1)) w <->
      Always (network process) P (rpcHandleRound fd) w ∧
        Always (network process) P (rpcHandle fd fuel) w' := by
  rw [always_rpcHandle_succ_iff]
  refine and_congr_right fun _ => ?_
  constructor
  · intro h
    exact h true w' hround
  · intro h again w'' hround'
    rw [hround] at hround'
    rcases Prod.mk.inj hround' with ⟨hagain, rfl⟩
    obtain rfl : true = again := Except.ok.inj hagain
    exact h

theorem always_rpcHandle_last {w' : World} {fuel : Nat}
    {result : Except Fault Bool} (hresult : result ≠ .ok true)
    (hround : exec (network process) (rpcHandleRound fd) w = (result, w'))
    (h : Always (network process) P (rpcHandleRound fd) w)
    (hclose : P (.close fd) w') :
    Always (network process) P (rpcHandle fd (fuel + 1)) w := by
  refine always_rpcHandle_succ_iff.mpr ⟨h, fun again w'' hround' => ?_⟩
  rw [hround] at hround'
  rcases Prod.mk.inj hround' with ⟨hagain, rfl⟩
  cases again with
  | true => exact absurd hagain hresult
  | false => exact hclose

theorem exec_rpcHandle_last {w' : World} {fuel : Nat}
    {result : Except Fault Bool} (hresult : result ≠ .ok true)
    (hround : exec (network process) (rpcHandleRound fd) w = (result, w')) :
    exists openFds, (exec (network process) (rpcHandle fd (fuel + 1)) w).2 =
      { w' with openFds := openFds } := by
  match result with
  | .ok true => exact absurd rfl hresult
  | .ok false =>
      rw [exec_rpcHandle_stop hround]
      exact ⟨_, rfl⟩
  | .error e =>
      rw [exec_rpcHandle_error hround]
      exact ⟨_, rfl⟩

end

end Session
end Z2wRpc
