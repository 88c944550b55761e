import Z2wRpc.Foundation.ShortWrites
import Z2wRpc.Session.Moments
import Z2wRpc.Session.Segmentation

/-!
# The stream of replies

`rpc_handle` sends a header and a text for each request and does not look at
what `send` returns.  The bytes on the connection stay the front of a stream of
frames exactly when nothing is taken behind a piece that is not taken whole.
-/

namespace Z2wRpc

open Foundation

namespace Session

open Dispatch Wire Program ShortWrites

section

variable (process : CString -> Except Fault (Option CString))

def replies (texts : List CString) : List CString :=
  texts.filterMap fun text =>
    match process text with
    | .ok response => response
    | .error _ => none

def Framed (w : World) : Prop :=
  w.written <+: stream (replies process w.dispatched)

/--
A moment of a run that ends with `final` written: what is there is framed, and
a piece that is about to be sent is taken whole or nothing comes behind it.
-/
structure InOrder (final : List Byte) (call : SysCall) (w : World) : Prop where
  framed : Framed process w
  last : forall fd bytes, call = .send fd (some bytes) ->
    (network process call w).2.written = w.written ++ bytes ∨
      (network process call w).2.written = final

/-- The run of `rpc_handle` with any way to process requests. -/
def handled (fd : Int) (w : World) : Except Fault Unit × World :=
  exec (network process) (rpcHandle fd (weight w.incoming + 1)) w

structure StaysFramed (fd : Int) (w : World) : Prop where
  moments : Always (network process)
    (InOrder process (handled process fd w).2.written)
    (rpcHandle fd (weight w.incoming + 1)) w
  final : Framed process (handled process fd w).2

/-- The texts that a connection brings, up to the one that gets no reply. -/
inductive Requests :
    List NetEvent -> List Bool -> List CString -> Prop where
  | finished {events : List NetEvent} {mallocs : List Bool}
      (stop : forall text,
        (reception (mallocs.headD true) events).1 ≠ .payload text)
      (buffer : (reception (mallocs.headD true) events).1 ≠ .noMemory) :
      Requests events mallocs []
  | noMemory {events rest : List NetEvent} {mallocs : List Bool}
      {texts : List CString}
      (skipped : reception (mallocs.headD true) events = (.noMemory, rest))
      (tail : Requests rest mallocs.tail texts) :
      Requests events mallocs texts
  | answered {events rest : List NetEvent} {mallocs : List Bool}
      {text reply : CString} {texts : List CString}
      (brought : reception (mallocs.headD true) events = (.payload text, rest))
      (reply : process text = .ok (some reply))
      (tail : Requests rest mallocs.tail texts) :
      Requests events mallocs (text :: texts)
  | unanswered {events rest : List NetEvent} {mallocs : List Bool}
      {text : CString}
      (brought : reception (mallocs.headD true) events = (.payload text, rest))
      (noReply : forall reply, process text ≠ .ok (some reply)) :
      Requests events mallocs [text]

end

section

variable {process : CString -> Except Fault (Option CString)} {fd : Int}
  {w : World} {texts : List CString}

theorem allocate_headD (w : World) : w.allocate.1 = w.mallocs.headD true := by
  unfold World.allocate
  cases w.mallocs <;> rfl

theorem exists_requests
    (process : CString -> Except Fault (Option CString))
    (events : List NetEvent) (mallocs : List Bool) :
    exists texts, Requests process events mallocs texts := by
  -- a reception that does not end the loop uses input up
  induction hn : weight events using Nat.strong_induction_on
    generalizing events mallocs with
  | h n ih =>
      have hlt := reception_weight_lt (mallocs.headD true) events
      rcases hreception : reception (mallocs.headD true) events
        with ⟨outcome, rest⟩
      rw [hreception] at hlt
      match outcome with
      | .ended =>
          exact ⟨[], Requests.finished (by rw [hreception]; simp)
            (by rw [hreception]; simp)⟩
      | .torn =>
          exact ⟨[], Requests.finished (by rw [hreception]; simp)
            (by rw [hreception]; simp)⟩
      | .damaged =>
          exact ⟨[], Requests.finished (by rw [hreception]; simp)
            (by rw [hreception]; simp)⟩
      | .noMemory =>
          have hweight : weight rest < weight events := hlt (by simp)
          rcases ih (weight rest) (by omega) rest mallocs.tail rfl
            with ⟨texts, htexts⟩
          exact ⟨texts, Requests.noMemory hreception htexts⟩
      | .payload text =>
          have hweight : weight rest < weight events := hlt (by simp)
          by_cases hreply : exists reply, process text = .ok (some reply)
          · rcases hreply with ⟨reply, hreply⟩
            rcases ih (weight rest) (by omega) rest mallocs.tail rfl
              with ⟨texts, htexts⟩
            exact ⟨text :: texts, Requests.answered hreception hreply htexts⟩
          · exact ⟨[text], Requests.unanswered hreception
              fun reply h => hreply ⟨reply, h⟩⟩

theorem open_received (hopen : fd ∈ w.openFds) : fd ∈ w.received.openFds := by
  rw [received_openFds]
  exact hopen

/-!
## What a send writes
-/

@[simp] theorem transmit_written (w : World) (bytes : List Byte) :
    (w.transmit bytes).2.written = w.written ++ took w.sends bytes := by
  unfold World.transmit
  match w.sends with
  | [] => rfl
  | none :: _ => exact (List.append_nil _).symm
  | some k :: _ => rfl

@[simp] theorem transmit_sends (w : World) (bytes : List Byte) :
    (w.transmit bytes).2.sends = w.sends.tail := by
  unfold World.transmit
  split
  · rename_i hnil
    simp only [hnil, List.tail_nil]
  · rename_i hcons
    rw [hcons, List.tail_cons]
  · rename_i hcons
    rw [hcons, List.tail_cons]

theorem replies_append_of_ok {text reply : CString}
    (h : process text = .ok (some reply)) :
    replies process (texts ++ [text]) = replies process texts ++ [reply] := by
  rw [replies, List.filterMap_append]
  simp [replies, h]

theorem replies_cons_of_ok {text reply : CString}
    (h : process text = .ok (some reply)) :
    replies process (text :: texts) = reply :: replies process texts := by
  simp [replies, h]

theorem replies_singleton_of_not_ok {text : CString}
    (h : forall reply, process text ≠ .ok (some reply)) :
    replies process [text] = [] := by
  match hprocess : process text with
  | .error e => simp [replies, hprocess]
  | .ok none => simp [replies, hprocess]
  | .ok (some reply) => exact absurd hprocess (h reply)

theorem stream_append (texts others : List CString) :
    stream (texts ++ others) = stream texts ++ stream others := by
  induction texts with
  | nil => rfl
  | cons s texts ih =>
      rw [List.cons_append, stream, stream, ih, List.append_assoc]

theorem pieces_cons (s : CString) (texts : List CString) :
    pieces (s :: texts) = header s :: s.bytes :: pieces texts := rfl

/-!
## The rounds
-/

section

variable {text reply : CString} {rest : List NetEvent}

def World.answered (w : World) (text reply : CString) : World :=
  (w.received.handOver text).sendFrame reply

theorem answered_written (w : World) (text reply : CString) :
    (w.answered text reply).written =
      w.written ++ took w.sends (header reply) ++
        took w.sends.tail reply.bytes := by
  have hsends : (w.received.handOver text).sends = w.sends := received_sends
  have hwritten : (w.received.handOver text).written = w.written :=
    received_written
  rw [World.answered, World.sendFrame, transmit_written, transmit_written,
    transmit_sends, hsends, hwritten]

theorem answered_sends (w : World) (text reply : CString) :
    (w.answered text reply).sends = w.sends.tail.tail := by
  have hsends : (w.received.handOver text).sends = w.sends := received_sends
  rw [World.answered, World.sendFrame, transmit_sends, transmit_sends, hsends]

theorem answered_taken (w : World) (text reply : CString)
    (ps : List (List Byte)) :
    (w.answered text reply).written ++ taken (w.answered text reply).sends ps =
      w.written ++ taken w.sends (header reply :: reply.bytes :: ps) := by
  rw [answered_written, answered_sends, taken, taken, List.append_assoc,
    List.append_assoc]

theorem answered_openFds (w : World) (text reply : CString) :
    (w.answered text reply).openFds = w.openFds := by
  rw [World.answered, sendFrame_openFds]
  exact received_openFds

theorem answered_dispatched (w : World) (text reply : CString) :
    (w.answered text reply).dispatched = w.dispatched ++ [text] := by
  rw [World.answered, sendFrame_dispatched, World.handOver,
    received_dispatched]

variable (hbrought : reception (w.mallocs.headD true) w.incoming =
  (.payload text, rest))

include hbrought

theorem answered_incoming (reply : CString) :
    (w.answered text reply).incoming = rest := by
  rw [World.answered, sendFrame_incoming]
  show w.received.incoming = rest
  rw [received_incoming, allocate_headD, hbrought]

theorem answered_mallocs (reply : CString) :
    (w.answered text reply).mallocs = w.mallocs.tail := by
  rw [World.answered, sendFrame_mallocs]
  refine received_mallocs ?_
  rw [allocate_headD, hbrought]
  simp

theorem exec_round_answered (hopen : fd ∈ w.openFds)
    (hreply : process text = .ok (some reply)) :
    exec (network process) (rpcHandleRound fd) w =
      (.ok true, w.answered text reply) := by
  rw [exec_rpcHandleRound hopen, allocate_headD, hbrought]
  simp only [hreply]
  rfl

theorem exec_round_unanswered (hopen : fd ∈ w.openFds)
    (hnoReply : forall reply, process text ≠ .ok (some reply)) :
    exists e, exec (network process) (rpcHandleRound fd) w =
      (.error e, w.received.handOver text) := by
  rw [exec_rpcHandleRound hopen, allocate_headD, hbrought]
  match hprocess : process text with
  | .error e => exact ⟨e, by simp only [hprocess]⟩
  | .ok none => exact ⟨.nullString, by simp only [hprocess]⟩
  | .ok (some reply) => exact absurd hprocess (hnoReply reply)

end

theorem exec_round_over (hopen : fd ∈ w.openFds)
    (hstop : forall text,
      (reception (w.mallocs.headD true) w.incoming).1 ≠ .payload text)
    (hbuffer : (reception (w.mallocs.headD true) w.incoming).1 ≠
      .noMemory) :
    exists result, result ≠ .ok true ∧
      exec (network process) (rpcHandleRound fd) w = (result, w.received) := by
  rw [exec_rpcHandleRound hopen, allocate_headD]
  cases hreception : (reception (w.mallocs.headD true) w.incoming).1 with
  | ended => exact ⟨_, by simp, rfl⟩
  | noMemory => exact absurd hreception hbuffer
  | torn => exact ⟨_, by simp, rfl⟩
  | damaged => exact ⟨_, by simp, rfl⟩
  | payload text => exact absurd hreception (hstop text)

theorem exec_round_noMemory {rest : List NetEvent} (hopen : fd ∈ w.openFds)
    (hskipped : reception (w.mallocs.headD true) w.incoming =
      (.noMemory, rest)) :
    exec (network process) (rpcHandleRound fd) w = (.ok true, w.received) ∧
      w.received.incoming = rest ∧ w.received.mallocs = w.mallocs.tail := by
  have hmallocs : w.received.mallocs = w.mallocs.tail := by
    refine received_mallocs ?_
    rw [allocate_headD, hskipped]
    simp
  rw [exec_rpcHandleRound hopen, received_incoming, allocate_headD, hskipped]
  exact ⟨rfl, rfl, hmallocs⟩

inductive Rounds (process : CString -> Except Fault (Option CString))
    (fd : Int) : World -> Nat -> List CString -> Prop where
  | finished {w : World} {fuel : Nat} {result : Except Fault Bool}
      (isOpen : fd ∈ w.openFds)
      (stop : forall text,
        (reception (w.mallocs.headD true) w.incoming).1 ≠ .payload text)
      (stops : result ≠ .ok true)
      (round : exec (network process) (rpcHandleRound fd) w =
        (result, w.received)) :
      Rounds process fd w (fuel + 1) []
  | noMemory {w : World} {fuel : Nat} {rest : List NetEvent}
      {texts : List CString} (isOpen : fd ∈ w.openFds)
      (skipped : reception (w.mallocs.headD true) w.incoming =
        (.noMemory, rest))
      (round : exec (network process) (rpcHandleRound fd) w =
        (.ok true, w.received))
      (tail : Rounds process fd w.received fuel texts) :
      Rounds process fd w (fuel + 1) texts
  | answered {w : World} {fuel : Nat} {rest : List NetEvent}
      {text reply : CString} {texts : List CString} (isOpen : fd ∈ w.openFds)
      (brought : reception (w.mallocs.headD true) w.incoming =
        (.payload text, rest))
      (replied : process text = .ok (some reply))
      (round : exec (network process) (rpcHandleRound fd) w =
        (.ok true, w.answered text reply))
      (tail : Rounds process fd (w.answered text reply) fuel texts) :
      Rounds process fd w (fuel + 1) (text :: texts)
  | unanswered {w : World} {fuel : Nat} {rest : List NetEvent}
      {text : CString} {e : Fault} (isOpen : fd ∈ w.openFds)
      (brought : reception (w.mallocs.headD true) w.incoming =
        (.payload text, rest))
      (noReply : forall reply, process text ≠ .ok (some reply))
      (round : exec (network process) (rpcHandleRound fd) w =
        (.error e, w.received.handOver text)) :
      Rounds process fd w (fuel + 1) [text]

theorem Requests.rounds {events : List NetEvent} {mallocs : List Bool}
    (h : Requests process events mallocs texts) {fuel : Nat}
    (hopen : fd ∈ w.openFds) (hincoming : w.incoming = events)
    (hmallocs : w.mallocs = mallocs) (hfuel : weight events < fuel) :
    Rounds process fd w fuel texts := by
  -- a round that goes on uses input up, so the fuel is enough for the rest
  induction fuel generalizing w events mallocs texts with
  | zero => exact absurd hfuel (Nat.not_lt_zero _)
  | succ fuel ih =>
      subst hincoming hmallocs
      cases h with
      | finished stop buffer =>
          rcases @exec_round_over process fd w hopen stop buffer
            with ⟨result, hresult, hround⟩
          exact .finished hopen stop hresult hround
      | noMemory skipped tail =>
          rcases @exec_round_noMemory process fd w _ hopen skipped
            with ⟨hround, hincoming, hmallocs⟩
          have hlt := exec_rpcHandleRound_drop hround
          rw [hincoming] at hlt
          exact .noMemory hopen skipped hround
            (ih tail (open_received hopen) hincoming hmallocs
              (Nat.lt_of_lt_of_le hlt (Nat.le_of_lt_succ hfuel)))
      | answered brought hreply tail =>
          have hround := exec_round_answered brought hopen hreply
          have hlt := exec_rpcHandleRound_drop hround
          rw [answered_incoming brought] at hlt
          exact .answered hopen brought hreply hround
            (ih tail (answered_openFds w _ _ ▸ hopen)
              (answered_incoming brought _) (answered_mallocs brought _)
              (Nat.lt_of_lt_of_le hlt (Nat.le_of_lt_succ hfuel)))
      | unanswered brought noReply =>
          rcases exec_round_unanswered brought hopen noReply with ⟨e, hround⟩
          exact .unanswered hopen brought noReply hround

theorem exec_rpcHandle_output {fuel : Nat}
    (h : Rounds process fd w fuel texts) :
    (exec (network process) (rpcHandle fd fuel) w).2.written =
        w.written ++ taken w.sends (pieces (replies process texts)) ∧
      (exec (network process) (rpcHandle fd fuel) w).2.dispatched =
        w.dispatched ++ texts := by
  induction h with
  | finished isOpen stop stops round =>
      rcases exec_rpcHandle_last stops round with ⟨openFds, hlast⟩
      rw [hlast]
      exact ⟨received_written.trans (List.append_nil _).symm,
        received_dispatched.trans (List.append_nil _).symm⟩
  | noMemory isOpen skipped round tail ih =>
      rw [received_written, received_sends, received_dispatched] at ih
      rw [exec_rpcHandle_again round]
      exact ih
  | answered isOpen brought replied round tail ih =>
      rw [answered_taken, answered_dispatched, List.append_assoc] at ih
      rw [exec_rpcHandle_again round, replies_cons_of_ok replied, pieces_cons]
      exact ih
  | unanswered isOpen brought noReply round =>
      rw [exec_rpcHandle_error round, replies_singleton_of_not_ok noReply]
      refine ⟨received_written.trans (List.append_nil _).symm, ?_⟩
      rw [World.handOver, received_dispatched]

/-!
## The moments
-/

section

variable {final : List Byte}

theorem inOrder_of_framed (h : Framed process w) {call : SysCall}
    (hcall : forall fd bytes, call ≠ .send fd (some bytes)) :
    InOrder process final call w where
  framed := h
  last fd bytes hsend := absurd hsend (hcall fd bytes)

theorem inOrder_send_iff (hopen : fd ∈ w.openFds) {bytes : List Byte} :
    InOrder process final (.send fd (some bytes)) w <->
      Framed process w ∧ (took w.sends bytes = bytes ∨
        w.written ++ took w.sends bytes = final) := by
  have hwritten : (network process (.send fd (some bytes)) w).2.written =
      w.written ++ took w.sends bytes := by
    simp only [network, if_pos hopen]
    exact transmit_written w bytes
  constructor
  · intro h
    have hlast := h.last fd bytes rfl
    rw [hwritten, List.append_cancel_left_eq] at hlast
    exact ⟨h.framed, hlast⟩
  · intro h
    refine ⟨h.left, fun fd' bytes' hsend => ?_⟩
    obtain rfl : bytes = bytes' := by simpa using (SysCall.send.inj hsend).right
    rw [hwritten, List.append_cancel_left_eq]
    exact h.right

theorem framed_of_sameOutput {w' : World} (h : Framed process w)
    (hsame : SameOutput w w') : Framed process w' := by
  rw [Framed, hsame.written, hsame.dispatched]
  exact h

theorem inOrder_of_receives (h : Framed process w) (call : SysCall)
    (w' : World) (hreceives : Receives fd call) (hsame : SameOutput w w') :
    InOrder process final call w' := by
  apply inOrder_of_framed (framed_of_sameOutput h hsame)
  intro fd' bytes hsend
  rw [hsend] at hreceives
  exact hreceives

theorem sameOutput_received (w : World) : SameOutput w w.received where
  openFds := received_openFds
  sends := received_sends
  written := received_written
  dispatched := received_dispatched

theorem framed_handOver (h : Framed process w) (text : CString) :
    Framed process (w.handOver text) := by
  refine h.trans ?_
  rw [World.handOver, replies, replies, List.filterMap_append, stream_append]
  exact List.prefix_append _ _

theorem always_round_of_not_payload (h : Framed process w)
    (hopen : fd ∈ w.openFds)
    (hnone : forall text,
      (reception (w.mallocs.headD true) w.incoming).1 ≠ .payload text) :
    Always (network process) (InOrder process final) (rpcHandleRound fd) w := by
  refine (always_rpcHandleRound_iff hopen (inOrder_of_receives h)).mpr
    fun text htext => ?_
  rw [allocate_headD] at htext
  exact absurd htext (hnone text)

theorem always_round_answered_iff {text reply : CString}
    {rest : List NetEvent} (h : Framed process w) (hopen : fd ∈ w.openFds)
    (hbrought : reception (w.mallocs.headD true) w.incoming =
      (.payload text, rest)) (hreply : process text = .ok (some reply)) :
    Always (network process) (InOrder process final) (rpcHandleRound fd) w <->
      (took w.sends (header reply) = header reply ∨
        w.written ++ took w.sends (header reply) = final) ∧
      Framed process ((w.received.handOver text).transmit (header reply)).2 ∧
      (took w.sends.tail reply.bytes = reply.bytes ∨
        w.written ++ took w.sends (header reply) ++
          took w.sends.tail reply.bytes = final) := by
  have hreceived : Framed process w.received :=
    framed_of_sameOutput h (sameOutput_received w)
  have hhanded := framed_handOver hreceived text
  have hopen' : fd ∈ (w.received.handOver text).openFds :=
    open_received hopen
  have hopen'' : fd ∈
      ((w.received.handOver text).transmit (header reply)).2.openFds := by
    rw [transmit_openFds]
    exact hopen'
  have hsends : (w.received.handOver text).sends = w.sends := received_sends
  have hwritten : (w.received.handOver text).written = w.written :=
    received_written
  have hmatch : (forall text',
      (reception (w.mallocs.headD true) w.incoming).1 = .payload text' ->
        Always (network process) (InOrder process final)
          (rpcHandleReply fd text') w.received) <->
      Always (network process) (InOrder process final)
        (rpcHandleReply fd text) w.received := by
    rw [hbrought]
    constructor
    · intro hall
      exact hall text rfl
    · intro hreply' text' htext
      obtain rfl : text = text' := by simpa using htext
      exact hreply'
  rw [always_rpcHandleRound_iff hopen (inOrder_of_receives h), allocate_headD,
    hmatch, always_rpcHandleReply_iff (open_received hopen), hreply,
    and_iff_right (inOrder_of_framed hreceived (by simp))]
  simp only
  rw [inOrder_send_iff hopen', inOrder_send_iff hopen'', transmit_sends,
    transmit_written, hsends, hwritten, and_iff_right hhanded]

theorem always_round_unanswered {text : CString} {rest : List NetEvent}
    (h : Framed process w) (hopen : fd ∈ w.openFds)
    (hbrought : reception (w.mallocs.headD true) w.incoming =
      (.payload text, rest))
    (hnoReply : forall reply, process text ≠ .ok (some reply)) :
    Always (network process) (InOrder process final) (rpcHandleRound fd) w := by
  have hreceived : Framed process w.received :=
    framed_of_sameOutput h (sameOutput_received w)
  refine (always_rpcHandleRound_iff hopen (inOrder_of_receives h)).mpr
    fun text' htext => ?_
  rw [allocate_headD, hbrought] at htext
  obtain rfl : text = text' := by simpa using htext
  refine (always_rpcHandleReply_iff (open_received hopen) text).mpr
    ⟨inOrder_of_framed hreceived (by simp), ?_⟩
  match hprocess : process text with
  | .error e => trivial
  | .ok none =>
      exact inOrder_of_framed (framed_handOver hreceived text) (by simp)
  | .ok (some reply) => exact absurd hprocess (hnoReply reply)

theorem answered_onCourse {text reply : CString} {rest : List NetEvent}
    {texts : List CString}
    (hcourse : OnCourse w.written (stream (replies process w.dispatched))
      w.sends (header reply :: reply.bytes :: pieces texts))
    (hopen : fd ∈ w.openFds)
    (hbrought : reception (w.mallocs.headD true) w.incoming =
      (.payload text, rest)) (hreply : process text = .ok (some reply)) :
    Always (network process)
        (InOrder process (w.written ++
          taken w.sends (header reply :: reply.bytes :: pieces texts)))
        (rpcHandleRound fd) w ∧
      OnCourse (w.answered text reply).written
        (stream (replies process (w.answered text reply).dispatched))
        (w.answered text reply).sends (pieces texts) := by
  have hheader := hcourse.step
  have htext := hheader.step
  have hstream : stream (replies process (w.dispatched ++ [text])) =
      stream (replies process w.dispatched) ++ header reply ++ reply.bytes := by
    rw [replies_append_of_ok hreply, stream_append, stream, stream,
      List.append_nil, frame, List.append_assoc]
  constructor
  · refine (always_round_answered_iff hcourse.arrived hopen hbrought
      hreply).mpr ⟨?_, ?_, ?_⟩
    · refine hcourse.whole_or_last.imp_right fun hnothing => ?_
      rw [taken, hnothing, List.append_nil]
    · have hwritten : (w.received.handOver text).written = w.written :=
        received_written
      have hsends : (w.received.handOver text).sends = w.sends := received_sends
      have hdispatched : (w.received.handOver text).dispatched =
          w.dispatched ++ [text] := by
        rw [World.handOver, received_dispatched]
      rw [Framed, transmit_written, transmit_dispatched, hwritten, hsends,
        hdispatched, hstream]
      exact hheader.arrived.trans (List.prefix_append _ _)
    · refine hheader.whole_or_last.imp_right fun hnothing => ?_
      rw [taken, taken, hnothing, List.append_nil, List.append_assoc]
  · rw [answered_written, answered_sends, answered_dispatched, hstream]
    exact htext

theorem always_of_onCourse {fuel : Nat} (h : Rounds process fd w fuel texts)
    (hcourse : OnCourse w.written (stream (replies process w.dispatched))
      w.sends (pieces (replies process texts)))
    (hfinal : w.written ++ taken w.sends (pieces (replies process texts)) =
      final) :
    Always (network process) (InOrder process final) (rpcHandle fd fuel) w ∧
      Framed process (exec (network process) (rpcHandle fd fuel) w).2 := by
  induction h with
  | @finished w _ _ isOpen stop stops round =>
      have hreceived := framed_of_sameOutput hcourse.arrived
        (sameOutput_received w)
      rcases exec_rpcHandle_last stops round with ⟨openFds, hlast⟩
      rw [hlast]
      refine ⟨?_, hreceived⟩
      exact always_rpcHandle_last stops round
        (always_round_of_not_payload hcourse.arrived isOpen stop)
        (inOrder_of_framed hreceived (by simp))
  | @noMemory w _ _ _ isOpen skipped round tail ih =>
      have hsame := sameOutput_received w
      have harrived := hcourse.arrived
      rw [<- hsame.written, <- hsame.sends, <- hsame.dispatched] at hcourse
      rw [<- hsame.written, <- hsame.sends] at hfinal
      rw [always_rpcHandle_again_iff round, exec_rpcHandle_again round]
      have hrest := ih hcourse hfinal
      refine ⟨⟨?_, hrest.left⟩, hrest.right⟩
      refine always_round_of_not_payload harrived isOpen ?_
      rw [skipped]
      simp
  | @answered w _ _ _ _ _ isOpen brought replied round tail ih =>
      rw [replies_cons_of_ok replied, pieces_cons] at hcourse hfinal
      rcases answered_onCourse hcourse isOpen brought replied
        with ⟨halways, hcourse'⟩
      rw [hfinal] at halways
      rw [<- answered_taken] at hfinal
      rw [always_rpcHandle_again_iff round, exec_rpcHandle_again round]
      have hrest := ih hcourse' hfinal
      exact ⟨⟨halways, hrest.left⟩, hrest.right⟩
  | @unanswered w _ _ _ _ isOpen brought noReply round =>
      have hhanded := framed_handOver (framed_of_sameOutput hcourse.arrived
        (sameOutput_received w))
      rw [exec_rpcHandle_error round]
      refine ⟨?_, hhanded _⟩
      exact always_rpcHandle_last (by simp) round
        (always_round_unanswered hcourse.arrived isOpen brought noReply)
        (inOrder_of_framed (hhanded _) (by simp))

theorem framed_of_always {fuel : Nat}
    (h : Always (network process) (InOrder process final)
      (rpcHandle fd (fuel + 1)) w) : Framed process w :=
  (always_call_bind_iff.mp (always_rpcHandle_succ_iff.mp h).left).left.framed

theorem stopsShort_of_always {fuel : Nat} (h : Rounds process fd w fuel texts)
    (halways : Always (network process)
      (InOrder process
        (w.written ++ taken w.sends (pieces (replies process texts))))
      (rpcHandle fd fuel) w) :
    StopsShort w.sends (pieces (replies process texts)) := by
  induction h with
  | finished isOpen stop stops round => trivial
  | @noMemory w _ _ _ isOpen skipped round tail ih =>
      have hsame := sameOutput_received w
      have hrest := ((always_rpcHandle_again_iff round).mp halways).right
      rw [<- hsame.sends, <- hsame.written] at hrest
      rw [<- hsame.sends]
      exact ih hrest
  | @answered w _ _ _ _ _ isOpen brought replied round tail ih =>
      have hframed := framed_of_always halways
      rw [always_rpcHandle_again_iff round,
        always_round_answered_iff hframed isOpen brought replied] at halways
      rcases halways with ⟨⟨hheader, _, htext⟩, hrest⟩
      rw [replies_cons_of_ok replied, pieces_cons] at hheader htext hrest ⊢
      rw [taken, List.append_cancel_left_eq, List.self_eq_append_right]
        at hheader
      rw [taken, taken, List.append_assoc, List.append_cancel_left_eq,
        List.append_cancel_left_eq, List.self_eq_append_right] at htext
      have hrest' := ih (answered_taken w _ _ _ ▸ hrest)
      rw [answered_sends] at hrest'
      exact StopsShort.cons hheader (StopsShort.cons htext hrest')
  | unanswered isOpen brought noReply round =>
      rw [replies_singleton_of_not_ok noReply]
      trivial

end

end

section

variable {process : CString -> Except Fault (Option CString)}
  {incoming : List NetEvent} {mallocs : List Bool} {texts : List CString}
  {fd : Int} {sends : List (Option Nat)}

theorem rounds_accepted (h : Requests process incoming mallocs texts) :
    Rounds process fd (accepted fd incoming mallocs sends)
      (weight incoming + 1) texts :=
  h.rounds List.mem_cons_self rfl rfl (Nat.lt_succ_self _)

theorem handled_written (h : Requests process incoming mallocs texts) :
    (handled process fd (accepted fd incoming mallocs sends)).2.written =
      taken sends (pieces (replies process texts)) :=
  (exec_rpcHandle_output (rounds_accepted h)).left

theorem stopsShort_of_staysFramed (h : Requests process incoming mallocs texts)
    (hstays : StaysFramed process fd (accepted fd incoming mallocs sends)) :
    StopsShort sends (pieces (replies process texts)) := by
  have hmoments := hstays.moments
  rw [handled_written h] at hmoments
  exact stopsShort_of_always (rounds_accepted h) hmoments

/--
The bytes on a connection stay the front of the reply frames, and nothing is
written behind a piece that is not taken whole, exactly when nothing more is
taken from the first such piece on.
-/
theorem staysFramed_iff (h : Requests process incoming mallocs texts) :
    StaysFramed process fd (accepted fd incoming mallocs sends) <->
      StopsShort sends (pieces (replies process texts)) := by
  constructor
  · intro hstays
    exact stopsShort_of_staysFramed h hstays
  · intro hstops
    have hfinal := @handled_written process incoming mallocs texts fd sends h
    have hcourse := always_of_onCourse
      (@rounds_accepted process incoming mallocs texts fd sends h)
      (onCourse_start hstops) hfinal.symm
    exact ⟨hcourse.left, hcourse.right⟩

end

theorem requests_of_frame {process : CString -> Except Fault (Option CString)}
    {request reply : CString} (hlength : request.strlen <= 65535)
    (hreply : process request = .ok (some reply)) :
    Requests process [.segment (frame request ++ [])] [] [request] := by
  refine Requests.answered
    (reception_frame (delivered_whole_frame hlength [])) hreply
    (Requests.finished ?_ ?_)
  · intro text htext
    cases htext
  · intro hbuffer
    cases hbuffer

theorem staysFramed_without_text :
    StaysFramed (fun _ => .ok (some (.lit "3"))) 5
      (accepted 5 [.segment (frame (.lit "1") ++ [])] []
        [some 6, none]) :=
  (staysFramed_iff (requests_of_frame (by decide) rfl)).mpr
    (Or.inl ⟨by decide +kernel, Or.inr rfl⟩)

/-- The text of a reply is written behind one half of its header. -/
theorem text_behind_half_header :
    (handled (fun _ => .ok (some (.lit "3"))) 5
      (accepted 5 [.segment (frame (.lit "1") ++ [])] [] [some 3])).2.written =
        (header (.lit "3")).take 3 ++ ascii "3" ∧
      ¬ StaysFramed (fun _ => .ok (some (.lit "3"))) 5
        (accepted 5 [.segment (frame (.lit "1") ++ [])] [] [some 3]) := by
  have hrequests : Requests (fun _ => .ok (some (.lit "3")))
      [.segment (frame (.lit "1") ++ [])] [] [.lit "1"] :=
    requests_of_frame (by decide) rfl
  refine ⟨handled_written hrequests, fun hstays => ?_⟩
  rcases stopsShort_of_staysFramed hrequests hstays with ⟨hwhole, _⟩ | hnothing
  · revert hwhole
    decide +kernel
  · revert hnothing
    decide +kernel

end Session
end Z2wRpc
