import Z2wRpc.Session.Socket

/-!
# Receiving one frame

`rpc_handle` and `rpc_client_session` receive a frame with the same steps and
differ in what they do afterwards.  The steps are one definition with the
continuations as parameters; what they see of the connection is a function of
its input alone.
-/

namespace Z2wRpc

open Foundation

namespace Session

open Dispatch Wire Program

variable {α : Type}

/--
The receive steps.  Both callers clear the header before they receive it and
the payload buffer, one byte longer than announced, before they receive that.
-/
def receiveFrame (fd : Int) (onEnd onNoMemory onDamaged : Code α)
    (onPayload : CString -> Code α) : Code α := do
  let ret ← Code.recv fd rpcHeaderLength
  match ret with
  | none => onEnd
  | some [] => onEnd
  | some (b :: bs) => do
      let header := zeroFill rpcHeaderLength (b :: bs)
      let length := headerLength header
      let payload ← Code.malloc (length + 1)
      if !payload then onNoMemory
      else do
        let ret ← Code.recv fd length
        match ret with
        | none => abort .assertion
        | some bytes =>
            if bytes.length ≠ length then abort .assertion
            else if headerCrc header ≠ calcCrc32 bytes then onDamaged
            else onPayload (CString.ofBytes (zeroFill (length + 1) bytes))

theorem asks_receiveFrame {P : SysCall -> Prop} {fd : Int}
    (hrecv : forall n, P (.recv fd n)) (hmalloc : forall n, P (.malloc n))
    {onEnd onNoMemory onDamaged : Code α} {onPayload : CString -> Code α}
    (hend : Asks P onEnd) (hnoMemory : Asks P onNoMemory)
    (hdamaged : Asks P onDamaged)
    (hpayload : forall text, Asks P (onPayload text)) :
    Asks P (receiveFrame fd onEnd onNoMemory onDamaged onPayload) := by
  apply (asks_call (hrecv _)).bind
  intro ret
  match ret with
  | none => exact hend
  | some [] => exact hend
  | some (b :: bs) =>
      apply (asks_call (hmalloc _)).bind
      intro payload
      cases payload with
      | false => exact hnoMemory
      | true =>
          apply (asks_call (hrecv _)).bind
          intro ret
          cases ret with
          | none => exact .abort _
          | some bytes =>
              simp only
              split_ifs
              · exact .abort _
              · exact hdamaged
              · exact hpayload _

inductive Reception where
  -- nothing arrives for the header
  | ended
  | noMemory
  -- the announced payload does not arrive in one piece
  | torn
  | damaged
  | payload (text : CString)

def receiveSteps (fd : Int) : Code Reception :=
  receiveFrame fd (return .ended) (return .noMemory) (return .damaged)
    fun text => return .payload text

theorem receiveFrame_eq (fd : Int) (onEnd onNoMemory onDamaged : Code α)
    (onPayload : CString -> Code α) :
    receiveFrame fd onEnd onNoMemory onDamaged onPayload =
      receiveSteps fd >>= fun seen =>
        match seen with
        | .ended => onEnd
        | .noMemory => onNoMemory
        | .torn => abort .assertion
        | .damaged => onDamaged
        | .payload text => onPayload text := by
  refine congrArg (Program.ask _) (funext fun ret => ?_)
  match ret with
  | none => rfl
  | some [] => rfl
  | some (b :: bs) =>
      refine congrArg (Program.ask _) (funext fun payload => ?_)
      cases payload with
      | false => rfl
      | true =>
          refine congrArg (Program.ask _) (funext fun ret => ?_)
          match ret with
          | none => rfl
          | some bytes =>
              simp only [Program.bind]
              split_ifs <;> rfl

def reception (buffer : Bool) (events : List NetEvent) :
    Reception × List NetEvent :=
  match receive rpcHeaderLength events with
  | (none, rest) => (.ended, rest)
  | (some [], rest) => (.ended, rest)
  | (some (b :: bs), rest) =>
      if !buffer then (.noMemory, rest)
      else
        let header := zeroFill rpcHeaderLength (b :: bs)
        match receive (headerLength header) rest with
        | (none, rest) => (.torn, rest)
        | (some p, rest) =>
            if p.length ≠ headerLength header then (.torn, rest)
            else if headerCrc header ≠ calcCrc32 p then (.damaged, rest)
            else (.payload (CString.ofBytes p), rest)

theorem ofBytes_zeroFill {n : Nat} {bs : List Byte} (h : bs.length = n) :
    CString.ofBytes (zeroFill (n + 1) bs) = CString.ofBytes bs := by
  ext1
  rw [zeroFill, h, Nat.add_sub_cancel_left, List.replicate_one,
    CString.ofBytes, CString.ofBytes]
  simp only
  rw [List.takeWhile_append]
  split
  · rename_i hall
    rw [List.IsPrefix.eq_of_length (List.takeWhile_prefix _) hall]
    simp
  · rfl

def World.received (w : World) : World :=
  match reception w.allocate.1 w.incoming with
  | (.ended, rest) => { w with incoming := rest }
  | (_, rest) => { w.allocate.2 with incoming := rest }

theorem allocate_incoming_update (w : World) (rest : List NetEvent) :
    ({ w with incoming := rest } : World).allocate =
      (w.allocate.1, { w.allocate.2 with incoming := rest }) := by
  cases hmallocs : w.mallocs <;> simp [World.allocate, hmallocs]

section

variable {process : CString -> Except Fault (Option CString)} {fd : Int}
  {w : World}

@[simp] theorem received_incoming :
    w.received.incoming = (reception w.allocate.1 w.incoming).2 := by
  unfold World.received
  split <;> simp_all

@[simp] theorem received_openFds : w.received.openFds = w.openFds := by
  unfold World.received
  split <;> simp

@[simp] theorem received_dispatched :
    w.received.dispatched = w.dispatched := by
  unfold World.received
  split <;> simp

@[simp] theorem received_sends : w.received.sends = w.sends := by
  unfold World.received
  split <;> simp

@[simp] theorem received_written : w.received.written = w.written := by
  unfold World.received
  split <;> simp

theorem received_mallocs
    (h : (reception w.allocate.1 w.incoming).1 ≠ .ended) :
    w.received.mallocs = w.mallocs.tail := by
  have htail : w.allocate.2.mallocs = w.mallocs.tail := by
    unfold World.allocate
    split
    · rename_i hnil
      rw [hnil]
      rfl
    · rename_i hcons
      rw [hcons]
      rfl
  unfold World.received
  split
  · rename_i hended
    rw [hended] at h
    exact absurd rfl h
  · exact htail

theorem exec_receiveFrame (hopen : fd ∈ w.openFds)
    (onEnd onNoMemory onDamaged : Code α) (onPayload : CString -> Code α) :
    exec (network process)
        (receiveFrame fd onEnd onNoMemory onDamaged onPayload) w =
      match (reception w.allocate.1 w.incoming).1 with
      | .ended => exec (network process) onEnd w.received
      | .noMemory => exec (network process) onNoMemory w.received
      | .torn => (.error .assertion, w.received)
      | .damaged => exec (network process) onDamaged w.received
      | .payload text => exec (network process) (onPayload text) w.received := by
  rcases hheader : receive rpcHeaderLength w.incoming with ⟨got, rest⟩
  rw [receiveFrame, exec_recv hopen hheader]
  unfold World.received reception
  rw [hheader]
  match got with
  | none => rfl
  | some [] => rfl
  | some (b :: bs) =>
      simp only
      rw [exec_malloc, allocate_incoming_update]
      cases w.allocate.1 with
      | false => rfl
      | true =>
          simp only [Bool.not_true, Bool.false_eq_true, if_false]
          rcases hpayload : receive
            (headerLength (zeroFill rpcHeaderLength (b :: bs))) rest with
            ⟨ret, rest'⟩
          have hopen' : fd ∈
              ({ w.allocate.2 with incoming := rest } : World).openFds := by
            simpa using hopen
          rw [exec_recv hopen' hpayload]
          match ret with
          | none => rfl
          | some p =>
              simp only
              by_cases hlength : p.length =
                  headerLength (zeroFill rpcHeaderLength (b :: bs))
              · rw [if_neg (not_not.mpr hlength), if_neg (not_not.mpr hlength),
                  ofBytes_zeroFill hlength]
                by_cases hcrc :
                    headerCrc (zeroFill rpcHeaderLength (b :: bs)) = calcCrc32 p
                · rw [if_neg (not_not.mpr hcrc), if_neg (not_not.mpr hcrc)]
                · rw [if_pos hcrc, if_pos hcrc]
              · rw [if_pos hlength, if_pos hlength]
                rfl

end

theorem reception_weight_lt (buffer : Bool) (events : List NetEvent)
    (h : (reception buffer events).1 ≠ .ended) :
    weight (reception buffer events).2 < weight events := by
  unfold reception at h ⊢
  rcases hheader : receive rpcHeaderLength events with ⟨got, rest⟩
  rw [hheader] at h
  match got with
  | none => exact absurd rfl h
  | some [] => exact absurd rfl h
  | some (b :: bs) =>
      have hlt := receive_weight_lt hheader
      simp only
      cases buffer with
      | false => exact hlt
      | true =>
          have hle := receive_weight_le
            (headerLength (zeroFill rpcHeaderLength (b :: bs))) rest
          rcases hpayload : receive
            (headerLength (zeroFill rpcHeaderLength (b :: bs))) rest with
            ⟨ret, rest'⟩
          rw [hpayload] at hle
          simp only [Bool.not_true, Bool.false_eq_true, if_false]
          match ret with
          | none => exact Nat.lt_of_le_of_lt hle hlt
          | some p =>
              simp only
              split_ifs <;> exact Nat.lt_of_le_of_lt hle hlt

/-!
## Deliveries
-/

def Silent (events : List NetEvent) : Prop :=
  (receive rpcHeaderLength events).1 = none ∨
    (receive rpcHeaderLength events).1 = some []

def Announced (events : List NetEvent) (h : List Byte)
    (rest : List NetEvent) : Prop :=
  exists b bs, receive rpcHeaderLength events = (some (b :: bs), rest) ∧
    h = zeroFill rpcHeaderLength (b :: bs)

def Delivered (events : List NetEvent) (h payload : List Byte)
    (rest : List NetEvent) : Prop :=
  exists mid, Announced events h mid ∧
    receive (headerLength h) mid = (some payload, rest) ∧
    payload.length = headerLength h

theorem reception_of_silent {events : List NetEvent} (h : Silent events)
    (buffer : Bool) : (reception buffer events).1 = .ended := by
  unfold reception
  cases hreceive : receive rpcHeaderLength events with
  | mk got rest =>
      rw [Silent, hreceive] at h
      cases h with
      | inl hnone =>
          obtain rfl : got = none := hnone
          rfl
      | inr hempty =>
          obtain rfl : got = some [] := hempty
          rfl

theorem reception_of_announced {events rest : List NetEvent} {h : List Byte}
    (hannounced : Announced events h rest) :
    reception false events = (.noMemory, rest) := by
  rcases hannounced with ⟨b, bs, hheader, _⟩
  simp only [reception, hheader]
  rfl

theorem reception_of_delivered {events rest : List NetEvent}
    {h payload : List Byte} (hdelivered : Delivered events h payload rest) :
    reception true events =
      (if headerCrc h = calcCrc32 payload then
        .payload (CString.ofBytes payload) else .damaged, rest) := by
  rcases hdelivered with ⟨mid, ⟨b, bs, hheader, rfl⟩, hpayload, hlength⟩
  simp only [reception, hheader, hpayload, Bool.not_true, Bool.false_eq_true,
    if_false, hlength, ne_eq, not_true]
  split_ifs <;> rfl

theorem delivery_cases (events : List NetEvent) :
    Silent events ∨
      exists h rest, Announced events h rest ∧
        ((reception true events).1 = .torn ∨
          exists payload rest', Delivered events h payload rest') := by
  cases hheader : receive rpcHeaderLength events with
  | mk got rest =>
      match got with
      | none => exact Or.inl (Or.inl (by rw [hheader]))
      | some [] => exact Or.inl (Or.inr (by rw [hheader]))
      | some (b :: bs) =>
          have hannounced : Announced events
              (zeroFill rpcHeaderLength (b :: bs)) rest := ⟨b, bs, hheader, rfl⟩
          refine Or.inr ⟨_, rest, hannounced, ?_⟩
          cases hpayload : receive
              (headerLength (zeroFill rpcHeaderLength (b :: bs))) rest with
          | mk ret rest' =>
              cases ret with
              | none =>
                  left
                  simp only [reception, hheader, hpayload, Bool.not_true,
                    Bool.false_eq_true, if_false]
              | some payload =>
                  by_cases hlength : payload.length =
                      headerLength (zeroFill rpcHeaderLength (b :: bs))
                  · exact Or.inr
                      ⟨payload, rest', rest, hannounced, hpayload, hlength⟩
                  · left
                    simp only [reception, hheader, hpayload, Bool.not_true,
                      Bool.false_eq_true, if_false, ne_eq, hlength,
                      not_false_eq_true, if_true]

theorem announced_weight_lt {events rest : List NetEvent} {h : List Byte}
    (hannounced : Announced events h rest) :
    weight rest < weight events := by
  rcases hannounced with ⟨b, bs, hheader, _⟩
  exact receive_weight_lt hheader

theorem delivered_weight_lt {events rest : List NetEvent}
    {h payload : List Byte} (hdelivered : Delivered events h payload rest) :
    weight rest < weight events := by
  rcases hdelivered with ⟨mid, hannounced, hpayload, _⟩
  have hlt := announced_weight_lt hannounced
  have hle := receive_weight_le (headerLength h) mid
  rw [hpayload] at hle
  exact Nat.lt_of_le_of_lt hle hlt

end Session
end Z2wRpc
