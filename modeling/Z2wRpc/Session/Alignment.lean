import Z2wRpc.Session.Canonical
import Z2wRpc.Session.Pipelining
import Z2wRpc.Session.ReplyStream

/-!
# Frames and failed allocations

When the buffer for a payload cannot be allocated, `rpc_handle` goes on with the
next round and leaves the payload in the stream.  It reads headers where frames
begin exactly when no allocation fails for a payload that holds bytes.
-/

namespace Z2wRpc

open Foundation

namespace Session

open Dispatch Wire Program Segments

structure WholeFrame where
  header : List Byte
  payload : List Byte
  isFrame : IsFrame header payload
  crc : headerCrc header = calcCrc32 payload

namespace WholeFrame

def bytes (f : WholeFrame) : List Byte :=
  f.header ++ f.payload

def text (f : WholeFrame) : CString :=
  CString.ofBytes f.payload

end WholeFrame

def frameBytes (frames : List WholeFrame) : List Byte :=
  frames.flatMap WholeFrame.bytes

section

variable (process : CString -> Except Fault (Option CString))

def loopHeads (fd : Int) : Nat -> World -> List World
  | 0, _ => []
  | fuel + 1, w =>
      w :: match exec (network process) (rpcHandleRound fd) w with
        | (.ok true, w') => loopHeads fd fuel w'
        | _ => []

structure AtFrame (frames : List WholeFrame) (w : World) : Prop where
  begins : exists rest, rest <:+ frames ∧ unread w.incoming = frameBytes rest
  header : forall got left,
    receive rpcHeaderLength w.incoming = (some got, left) ->
      got = [] ∨ exists f, f ∈ frames ∧ got = f.header

/--
Every header is read where a frame begins, and every payload that is handed over
is that of a frame.
-/
structure StaysAligned (frames : List WholeFrame) (fd : Int) (w : World) :
    Prop where
  headers : forall head,
    head ∈ loopHeads process fd (weight w.incoming + 1) w ->
      AtFrame frames head
  payloads : forall text,
    text ∈ (handled process fd w).2.dispatched ->
      exists f, f ∈ frames ∧ text = f.text

/-- No allocation fails for a payload that holds bytes, up to a request that
stops the process. -/
def NoneSkipped : List WholeFrame -> List Bool -> Prop
  | [], _ => True
  | f :: rest, mallocs =>
      if mallocs.headD true then
        (exists reply, process f.text = .ok (some reply)) ->
          NoneSkipped rest mallocs.tail
      else f.payload = [] ∧ NoneSkipped rest mallocs.tail

end

/-!
## One frame
-/

section

variable {f : WholeFrame} {frames rest : List WholeFrame}

theorem frameBytes_cons (f : WholeFrame) (rest : List WholeFrame) :
    frameBytes (f :: rest) = f.header ++ (f.payload ++ frameBytes rest) :=
  List.append_assoc f.header f.payload (frameBytes rest)

theorem frameBytes_length_cons (f : WholeFrame) (rest : List WholeFrame) :
    (frameBytes (f :: rest)).length =
      6 + f.payload.length + (frameBytes rest).length := by
  rw [frameBytes_cons, List.length_append, List.length_append,
    f.isFrame.header, rpcHeaderLength]
  omega

theorem frameBytes_length_le (h : rest <:+ frames) :
    (frameBytes rest).length <= (frameBytes frames).length := by
  rcases h with ⟨before, rfl⟩
  rw [frameBytes, frameBytes, List.flatMap_append, List.length_append]
  exact Nat.le_add_left _ _

theorem not_atFrame_of_payload (hsuffix : f :: rest <:+ frames)
    (hpayload : f.payload ≠ []) {w : World}
    (hunread : unread w.incoming = f.payload ++ frameBytes rest) :
    ¬ AtFrame frames w := by
  intro h
  rcases h.begins with ⟨others, hothers, heq⟩
  have hpos := List.length_pos_iff.mpr hpayload
  have hlength := congrArg List.length (hunread.symm.trans heq)
  rw [List.length_append] at hlength
  rcases List.suffix_or_suffix_of_suffix hsuffix hothers with
    hlonger | hshorter
  · have hle := frameBytes_length_le hlonger
    rw [frameBytes_length_cons] at hle
    omega
  · rcases List.suffix_cons_iff.mp hshorter with rfl | hrest
    · rw [frameBytes_length_cons] at hlength
      omega
    · have hle := frameBytes_length_le hrest
      omega

variable {events : List NetEvent}

theorem readFrame_frameBytes (f : WholeFrame) (rest : List WholeFrame) :
    readFrame (frameBytes (f :: rest)) = some (f.payload, frameBytes rest) := by
  have htake : (frameBytes (f :: rest)).take rpcHeaderLength = f.header := by
    rw [frameBytes_cons, <- f.isFrame.header, List.take_left]
  have hdrop : (frameBytes (f :: rest)).drop rpcHeaderLength =
      f.payload ++ frameBytes rest := by
    rw [frameBytes_cons, <- f.isFrame.header, List.drop_left]
  rw [readFrame]
  simp only [htake, hdrop, <- f.isFrame.payload]
  rw [List.take_left, List.drop_left, if_pos]
  refine ⟨?_, ?_, f.crc⟩
  · rw [frameBytes_length_cons, rpcHeaderLength]
    omega
  · rw [List.length_append]
    exact Nat.le_add_right _ _

theorem reception_of_wholeFrame
    (h : Delivers events (frameBytes (f :: rest))) :
    reception true events =
      (.payload f.text, (pushBack (frameBytes rest) []).map .segment) :=
  reception_of_readFrame h (readFrame_frameBytes f rest)

theorem reception_of_skipped
    (h : Delivers events (frameBytes (f :: rest))) :
    reception false events = (.noMemory,
      (pushBack (f.payload ++ frameBytes rest) []).map .segment) := by
  have hheader := h rpcHeaderLength
  rw [frameBytes_cons, <- f.isFrame.header, List.take_left,
    List.drop_left, f.isFrame.header] at hheader
  cases hcons : f.header with
  | nil =>
      have hlength := f.isFrame.header
      rw [hcons] at hlength
      cases hlength
  | cons b bs =>
      rw [hcons] at hheader
      exact reception_of_announced ⟨b, bs, hheader, rfl⟩

end

/-!
## Rounds
-/

section

variable {process : CString -> Except Fault (Option CString)} {fd : Int}
  {w w' : World} {fuel : Nat}

theorem loopHeads_again
    (hround : exec (network process) (rpcHandleRound fd) w =
      (.ok true, w')) :
    loopHeads process fd (fuel + 1) w = w :: loopHeads process fd fuel w' := by
  rw [loopHeads, hround]

theorem loopHeads_last {result : Except Fault Bool}
    (hresult : result ≠ .ok true)
    (hround : exec (network process) (rpcHandleRound fd) w = (result, w')) :
    loopHeads process fd (fuel + 1) w = [w] := by
  rw [loopHeads, hround]
  match result with
  | .ok true => exact absurd rfl hresult
  | .ok false => rfl
  | .error e => rfl

theorem mem_loopHeads (h : 0 < fuel) : w ∈ loopHeads process fd fuel w := by
  cases fuel with
  | zero => cases h
  | succ fuel => exact List.mem_cons_self

structure Begins (fd : Int) (rest : List WholeFrame) (fuel : Nat) (w : World) :
    Prop where
  isOpen : fd ∈ w.openFds
  delivers : Delivers w.incoming (frameBytes rest)
  fuel : weight w.incoming < fuel

variable {f : WholeFrame} {frames rest : List WholeFrame}

theorem Begins.atFrame (h : Begins fd rest fuel w) (hsuffix : rest <:+ frames) :
    AtFrame frames w where
  begins := ⟨rest, hsuffix, unread_of_delivers h.delivers⟩
  header got left hreceive := by
    rw [h.delivers] at hreceive
    obtain rfl := Option.some.inj (Prod.mk.inj hreceive).left
    cases rest with
    | nil => exact Or.inl List.take_nil
    | cons f rest =>
        refine Or.inr ⟨f, hsuffix.subset List.mem_cons_self, ?_⟩
        rw [frameBytes_cons, <- f.isFrame.header, List.take_left]

theorem Begins.last (h : Begins fd [] (fuel + 1) w) :
    exists result, result ≠ .ok true ∧
      exec (network process) (rpcHandleRound fd) w = (result, w.received) := by
  have hended : (reception (w.mallocs.headD true) w.incoming).1 = .ended := by
    have hreceive := h.delivers rpcHeaderLength
    rw [reception, hreceive]
    rfl
  refine exec_round_over h.isOpen ?_ ?_
  · rw [hended]
    simp
  · rw [hended]
    simp

theorem Begins.brought (h : Begins fd (f :: rest) (fuel + 1) w)
    (hbuffer : w.mallocs.headD true = true) :
    reception (w.mallocs.headD true) w.incoming =
      (.payload f.text, (pushBack (frameBytes rest) []).map .segment) := by
  rw [hbuffer]
  exact reception_of_wholeFrame h.delivers

theorem Begins.answered (h : Begins fd (f :: rest) (fuel + 1) w)
    (hbuffer : w.mallocs.headD true = true) {reply : CString}
    (hreply : process f.text = .ok (some reply)) :
    exec (network process) (rpcHandleRound fd) w =
        (.ok true, w.answered f.text reply) ∧
      Begins fd rest fuel (w.answered f.text reply) := by
  have hbrought := h.brought hbuffer
  have hround := exec_round_answered hbrought h.isOpen hreply
  have hlt := exec_rpcHandleRound_drop hround
  refine ⟨hround, ?_, ?_, ?_⟩
  · rw [answered_openFds]
    exact h.isOpen
  · rw [answered_incoming hbrought]
    exact delivers_pushBack _
  · exact Nat.lt_of_lt_of_le hlt (Nat.le_of_lt_succ h.fuel)

theorem Begins.skipped (h : Begins fd (f :: rest) (fuel + 1) w)
    (hbuffer : w.mallocs.headD true = false) :
    exec (network process) (rpcHandleRound fd) w = (.ok true, w.received) ∧
      Delivers w.received.incoming (f.payload ++ frameBytes rest) ∧
      w.received.mallocs = w.mallocs.tail ∧
      weight w.received.incoming < fuel := by
  have hskipped : reception (w.mallocs.headD true) w.incoming = (.noMemory,
      (pushBack (f.payload ++ frameBytes rest) []).map .segment) := by
    rw [hbuffer]
    exact reception_of_skipped h.delivers
  rcases @exec_round_noMemory process fd w _ h.isOpen hskipped
    with ⟨hround, hincoming, hmallocs⟩
  have hlt := exec_rpcHandleRound_drop hround
  refine ⟨hround, ?_, hmallocs,
    Nat.lt_of_lt_of_le hlt (Nat.le_of_lt_succ h.fuel)⟩
  rw [hincoming]
  exact delivers_pushBack _

/-- What has been handed over from `w` to `w'` are texts of frames. -/
def AddsTexts (frames : List WholeFrame) (w w' : World) : Prop :=
  forall text, text ∈ w'.dispatched ->
    text ∈ w.dispatched ∨ exists f, f ∈ frames ∧ text = f.text

theorem addsTexts_of_eq (h : w'.dispatched = w.dispatched) :
    AddsTexts frames w w' := by
  intro text htext
  rw [h] at htext
  exact Or.inl htext

theorem addsTexts_of_append (hmem : f ∈ frames)
    (h : w'.dispatched = w.dispatched ++ [f.text]) :
    AddsTexts frames w w' := by
  intro text htext
  rw [h] at htext
  rcases List.mem_append.mp htext with hold | hnew
  · exact Or.inl hold
  · exact Or.inr ⟨f, hmem, List.mem_singleton.mp hnew⟩

theorem AddsTexts.trans {w'' : World} (h : AddsTexts frames w w')
    (h' : AddsTexts frames w' w'') : AddsTexts frames w w'' := by
  intro text htext
  rcases h' text htext with hold | hnew
  · exact h text hold
  · exact Or.inr hnew

/-- From `w` on every round begins at a frame and hands over texts of frames. -/
structure RunsAligned (process : CString -> Except Fault (Option CString))
    (frames : List WholeFrame) (fd : Int) (fuel : Nat) (w : World) : Prop where
  heads : forall head, head ∈ loopHeads process fd fuel w ->
    AtFrame frames head
  texts : AddsTexts frames w
    (exec (network process) (rpcHandle fd fuel) w).2

theorem runsAligned_last {result : Except Fault Bool} (hw : AtFrame frames w)
    (hresult : result ≠ .ok true)
    (hround : exec (network process) (rpcHandleRound fd) w = (result, w'))
    (hnew : AddsTexts frames w w') :
    RunsAligned process frames fd (fuel + 1) w := by
  constructor
  · rw [loopHeads_last hresult hround]
    intro head hhead
    rw [List.mem_singleton.mp hhead]
    exact hw
  · rcases exec_rpcHandle_last hresult hround with ⟨openFds, hlast⟩
    rw [hlast]
    exact hnew

theorem RunsAligned.again (h : RunsAligned process frames fd fuel w')
    (hw : AtFrame frames w)
    (hround : exec (network process) (rpcHandleRound fd) w = (.ok true, w'))
    (hnew : AddsTexts frames w w') :
    RunsAligned process frames fd (fuel + 1) w := by
  constructor
  · rw [loopHeads_again hround]
    exact List.forall_mem_cons.mpr ⟨hw, h.heads⟩
  · rw [exec_rpcHandle_again hround]
    exact hnew.trans h.texts

theorem aligned_of_noneSkipped (hsuffix : rest <:+ frames)
    (hbegins : Begins fd rest fuel w)
    (hnone : NoneSkipped process rest w.mallocs) :
    RunsAligned process frames fd fuel w := by
  have hatFrame := hbegins.atFrame hsuffix
  induction fuel generalizing w rest with
  | zero => exact absurd hbegins.fuel (Nat.not_lt_zero _)
  | succ fuel ih =>
      -- one frame a round
      cases rest with
      | nil =>
          rcases @Begins.last process fd w fuel hbegins
            with ⟨result, hresult, hround⟩
          exact runsAligned_last hatFrame hresult hround
            (addsTexts_of_eq received_dispatched)
      | cons f rest =>
          have hrest : rest <:+ frames :=
            (List.suffix_cons f rest).trans hsuffix
          have hmem : f ∈ frames := hsuffix.subset List.mem_cons_self
          cases hbuffer : w.mallocs.headD true with
          | true =>
              have hbrought := hbegins.brought hbuffer
              rw [NoneSkipped, if_pos hbuffer] at hnone
              by_cases hreply : exists reply, process f.text = .ok (some reply)
              · have hnone' := hnone hreply
                rcases hreply with ⟨reply, hreply⟩
                rcases hbegins.answered hbuffer hreply
                  with ⟨hround, hbegins'⟩
                rw [<- answered_mallocs hbrought reply] at hnone'
                have hnext := ih hrest hbegins' hnone' (hbegins'.atFrame hrest)
                exact hnext.again hatFrame hround (addsTexts_of_append hmem
                  (answered_dispatched w f.text reply))
              · rcases exec_round_unanswered hbrought hbegins.isOpen
                  (fun reply h => hreply ⟨reply, h⟩) with ⟨e, hround⟩
                refine runsAligned_last hatFrame (by simp) hround
                  (addsTexts_of_append hmem ?_)
                rw [World.handOver, received_dispatched]
          | false =>
              rw [NoneSkipped, hbuffer, if_neg Bool.false_ne_true] at hnone
              rcases hnone with ⟨hempty, hnone⟩
              rcases @Begins.skipped process fd w fuel f rest hbegins hbuffer
                with ⟨hround, hdelivers, hmallocs, hfuel⟩
              rw [hempty, List.nil_append] at hdelivers
              rw [<- hmallocs] at hnone
              have hbegins' : Begins fd rest fuel w.received :=
                ⟨open_received hbegins.isOpen, hdelivers, hfuel⟩
              have hnext := ih hrest hbegins' hnone (hbegins'.atFrame hrest)
              exact hnext.again hatFrame hround
                (addsTexts_of_eq received_dispatched)

theorem noneSkipped_of_aligned (hsuffix : rest <:+ frames)
    (hbegins : Begins fd rest fuel w)
    (hheads : forall head, head ∈ loopHeads process fd fuel w ->
      AtFrame frames head) : NoneSkipped process rest w.mallocs := by
  induction fuel generalizing w rest with
  | zero => exact absurd hbegins.fuel (Nat.not_lt_zero _)
  | succ fuel ih =>
      cases rest with
      | nil => trivial
      | cons f rest =>
          have hrest : rest <:+ frames :=
            (List.suffix_cons f rest).trans hsuffix
          cases hbuffer : w.mallocs.headD true with
          | true =>
              rw [NoneSkipped, if_pos hbuffer]
              intro hreply
              rcases hreply with ⟨reply, hreply⟩
              rcases hbegins.answered hbuffer hreply with ⟨hround, hbegins'⟩
              rw [loopHeads_again hround] at hheads
              rw [<- answered_mallocs (hbegins.brought hbuffer) reply]
              exact ih hrest hbegins' (List.forall_mem_cons.mp hheads).right
          | false =>
              rw [NoneSkipped, hbuffer, if_neg Bool.false_ne_true]
              rcases @Begins.skipped process fd w fuel f rest hbegins hbuffer
                with ⟨hround, hdelivers, hmallocs, hfuel⟩
              rw [loopHeads_again hround] at hheads
              have hnext := (List.forall_mem_cons.mp hheads).right
              have hatFrame := hnext w.received
                (mem_loopHeads (Nat.lt_of_le_of_lt (Nat.zero_le _) hfuel))
              have hempty : f.payload = [] := by
                by_contra hpayload
                exact not_atFrame_of_payload hsuffix hpayload
                  (unread_of_delivers hdelivers) hatFrame
              rw [hempty, List.nil_append] at hdelivers
              rw [<- hmallocs]
              exact ⟨hempty, ih hrest
                ⟨open_received hbegins.isOpen, hdelivers, hfuel⟩ hnext⟩

end

/--
With failing allocations the server reads headers of frames only, and hands over
payloads of frames only, exactly when no payload that holds bytes is skipped.
-/
theorem staysAligned_iff (process : CString -> Except Fault (Option CString))
    (frames : List WholeFrame) (fd : Int) (mallocs : List Bool)
    (sends : List (Option Nat)) :
    StaysAligned process frames fd
        (accepted fd [.segment (frameBytes frames)] mallocs sends) <->
      NoneSkipped process frames mallocs := by
  have hbegins : Begins fd frames
      (weight [.segment (frameBytes frames)] + 1)
      (accepted fd [.segment (frameBytes frames)] mallocs sends) :=
    ⟨List.mem_cons_self, delivers_segment _, Nat.lt_succ_self _⟩
  constructor
  · intro h
    exact noneSkipped_of_aligned (List.suffix_refl frames) hbegins h.headers
  · intro h
    have hruns := aligned_of_noneSkipped (List.suffix_refl frames) hbegins h
    exact ⟨hruns.heads, fun text htext =>
      (hruns.texts text htext).resolve_left List.not_mem_nil⟩

def innerFrame : WholeFrame where
  header := Wire.header (.lit "2")
  payload := ascii "2"
  isFrame := ⟨header_length _, by decide +kernel⟩
  crc := headerCrc_header _

def outerFrame : WholeFrame where
  header := leBytes 4 (calcCrc32 innerFrame.bytes).toNat ++ leBytes 2 7
  payload := innerFrame.bytes
  isFrame := ⟨by decide +kernel, by decide +kernel⟩
  crc := by decide +kernel

/-- One failed allocation, and a request is handed over that nobody sent. -/
theorem inner_frame_handed_over :
    (handled (fun _ => .ok (some (.lit "3"))) 5
      (accepted 5 [.segment (frameBytes [outerFrame])] [false]
        [])).2.dispatched = [.lit "2"] ∧
      ¬ StaysAligned (fun _ => .ok (some (.lit "3"))) [outerFrame] 5
        (accepted 5 [.segment (frameBytes [outerFrame])] [false] []) := by
  have hdispatched : (handled (fun _ => .ok (some (.lit "3"))) 5
      (accepted 5 [.segment (frameBytes [outerFrame])] [false]
        [])).2.dispatched = [.lit "2"] := by
    decide +kernel
  refine ⟨hdispatched, fun h => ?_⟩
  rcases h.payloads (.lit "2")
    (by rw [hdispatched]; exact List.mem_singleton_self _) with ⟨f, hf, htext⟩
  rw [List.mem_singleton.mp hf] at htext
  revert htext
  decide +kernel

end Session
end Z2wRpc
