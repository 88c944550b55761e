import Z2wRpc.Session.FrameSequence

/-!
# Several requests on one connection

A connection carries requests one behind the other, and the replies go back in
the same order.  What the server writes is again a stream of frames, which the
receive steps of the client take apart.
-/

namespace Z2wRpc

open Foundation

namespace Session

open CJson Call Dispatch Wire Program Segments

/-- The receive steps of `rpc_client_session`, as long as texts arrive. -/
def receiveResponses (fd : Int) : Nat -> Code (List CString)
  | 0 => return []
  | fuel + 1 =>
      receiveFrame fd (return []) (return []) (return []) fun response => do
        let rest ← receiveResponses fd fuel
        return response :: rest

/-- Both texts fit the length field, and the second answers the first. -/
structure Answers (table : List RpcFunc) (request reply : CString) : Prop where
  request_le : request.strlen <= 65535
  reply_le : reply.strlen <= 65535
  result : (rpcProcess table (some request)).result = .ok (some reply)

section

variable {process : CString -> Except Fault (Option CString)} {fd : Int}
  {w : World} {s : CString} {rest : List Byte}

theorem reception_of_front_frame (hlength : s.strlen <= 65535)
    (hmallocs : w.mallocs = []) (h : Delivers w.incoming (frame s ++ rest)) :
    reception w.allocate.1 w.incoming =
      (.payload s, (pushBack rest []).map .segment) := by
  have hreception := reception_of_readFrame h (readFrame_frame hlength rest)
  rw [CString.ofBytes_bytes] at hreception
  rw [allocate_of_mallocs_nil hmallocs]
  exact hreception

/-!
## The server
-/

structure Flowing (fd : Int) (w : World) (bytes : List Byte) : Prop where
  isOpen : fd ∈ w.openFds
  mallocs : w.mallocs = []
  sends : w.sends = []
  delivers : Delivers w.incoming bytes

theorem exec_round_of_answers {table : List RpcFunc} {reply : CString}
    (hanswers : Answers table s reply) (h : Flowing fd w (frame s ++ rest)) :
    exists w', exec (network (served table)) (rpcHandleRound fd) w =
        (.ok true, w') ∧ Flowing fd w' rest ∧
      w'.written = w.written ++ frame reply := by
  have hreception := reception_of_front_frame hanswers.request_le h.mallocs
    h.delivers
  have hround := @exec_rpcHandleRound (served table) fd w h.isOpen
  rw [hreception] at hround
  simp only [served, hanswers.result] at hround
  have hsends : (w.received.handOver s).sends = [] := by
    rw [World.handOver, received_sends]
    exact h.sends
  refine ⟨_, hround, ?_, ?_⟩
  · constructor
    · rw [sendFrame_openFds, World.handOver, received_openFds]
      exact h.isOpen
    · rw [sendFrame_mallocs, World.handOver,
        received_mallocs (by rw [hreception]; simp), h.mallocs]
      rfl
    · simp [World.sendFrame, World.transmit, hsends]
    · rw [sendFrame_incoming, World.handOver, received_incoming, hreception]
      exact delivers_pushBack rest
  · rw [sendFrame_written _ _ hsends, World.handOver, received_written]

theorem stream_cons (texts : List CString) (s : CString) :
    stream (s :: texts) = frame s ++ stream texts := rfl

theorem exec_rounds_of_answers {table : List RpcFunc}
    {requests replies : List CString}
    (hanswers : List.Forall₂ (Answers table) requests replies)
    (h : Flowing fd w (stream requests ++ rest)) :
    exists w', exec (network (served table))
        (repeatWhile (rpcHandleRound fd) requests.length) w = (.ok true, w') ∧
      Flowing fd w' rest ∧ w'.written = w.written ++ stream replies ∧
      serve table fd w = serve table fd w' := by
  induction hanswers generalizing w with
  | nil => exact ⟨w, rfl, h, (List.append_nil _).symm, rfl⟩
  | cons hfirst _ ih =>
      rw [stream_cons, List.append_assoc] at h
      rcases exec_round_of_answers hfirst h with
        ⟨mid, hround, hmid, hwritten⟩
      rcases ih hmid with ⟨w', hrounds, hflowing, hwritten', hserve⟩
      refine ⟨w', ?_, hflowing, ?_, ?_⟩
      · rw [List.length_cons, exec_repeatWhile_again _ _ hround]
        exact hrounds
      · rw [hwritten', hwritten, List.append_assoc, stream_cons]
      · rw [serve_again hround]
        exact hserve

theorem serve_of_end {table : List RpcFunc} (h : Flowing fd w []) :
    (serve table fd w).1 = .ok () ∧
      (serve table fd w).2.written = w.written := by
  have hreceive := h.delivers rpcHeaderLength
  have hround := @exec_rpcHandleRound (served table) fd w h.isOpen
  rw [reception, hreceive] at hround
  rw [serve_stop hround]
  exact ⟨rfl, received_written⟩

theorem serve_of_answers {table : List RpcFunc}
    {requests replies : List CString}
    (hanswers : List.Forall₂ (Answers table) requests replies)
    (h : Flowing fd w (stream requests)) :
    (serve table fd w).1 = .ok () ∧
      (serve table fd w).2.written = w.written ++ stream replies := by
  rw [← List.append_nil (stream requests)] at h
  rcases exec_rounds_of_answers hanswers h with
    ⟨w', _, hrest, hwritten, hserve⟩
  rcases serve_of_end hrest with ⟨hresult, hend⟩
  rw [hserve, hend, hwritten]
  exact ⟨hresult, rfl⟩

theorem flowing_accepted (fd : Int) (bytes : List Byte) :
    Flowing fd (accepted fd [.segment bytes] [] []) bytes :=
  ⟨List.mem_cons_self .., rfl, rfl, delivers_segment bytes⟩

/-!
## The client
-/

theorem exec_receiveResponses {texts : List CString} {fuel : Nat}
    (hlength : forall s, s ∈ texts -> s.strlen <= 65535)
    (hfuel : texts.length <= fuel) (hopen : fd ∈ w.openFds)
    (hmallocs : w.mallocs = []) (h : Delivers w.incoming (stream texts)) :
    (exec (network process) (receiveResponses fd fuel) w).1 = .ok texts ∧
      Delivers (exec (network process) (receiveResponses fd fuel) w).2.incoming
        [] := by
  induction texts generalizing fuel w with
  | nil =>
      cases fuel with
      | zero => exact ⟨rfl, h⟩
      | succ fuel =>
          have hreceive := h rpcHeaderLength
          have hended : reception w.allocate.1 w.incoming = (.ended, []) := by
            rw [reception, hreceive]
            rfl
          rw [receiveResponses, exec_receiveFrame hopen, hended]
          refine ⟨rfl, ?_⟩
          show Delivers w.received.incoming []
          rw [received_incoming, hended]
          exact delivers_pushBack []
  | cons s texts ih =>
      rw [List.forall_mem_cons] at hlength
      rcases hlength with ⟨hs, hrest⟩
      cases fuel with
      | zero => cases hfuel
      | succ fuel =>
          have hreception := reception_of_front_frame hs hmallocs h
          have hdelivers : Delivers w.received.incoming (stream texts) := by
            rw [received_incoming, hreception]
            exact delivers_pushBack _
          have hmallocs' : w.received.mallocs = [] := by
            rw [received_mallocs (by rw [hreception]; simp), hmallocs]
            rfl
          have hopen' : fd ∈ w.received.openFds := by
            rw [received_openFds]
            exact hopen
          rcases ih hrest (Nat.le_of_succ_le_succ hfuel) hopen' hmallocs'
            hdelivers with ⟨hresult, hincoming⟩
          rw [receiveResponses, exec_receiveFrame hopen, hreception]
          simp only
          rw [exec_bind]
          rcases hexec : exec (network process) (receiveResponses fd fuel)
            w.received with ⟨result, w'⟩
          rw [hexec] at hresult hincoming
          obtain rfl : result = .ok texts := hresult
          exact ⟨rfl, hincoming⟩

end

/--
The receive steps of a client, repeated on a connection that delivers these
bytes, return these texts and leave no byte.
-/
def Decodes (bytes : List Byte) (texts : List CString) : Prop :=
  forall (process : CString -> Except Fault (Option CString)) (fd : Int)
    (w : World) (fuel : Nat), fd ∈ w.openFds -> w.mallocs = [] ->
    w.incoming = [.segment bytes] -> texts.length <= fuel ->
    let run := exec (network process) (receiveResponses fd fuel) w
    run.1 = .ok texts ∧ unread run.2.incoming = []

theorem unread_of_delivers {events : List NetEvent} {bytes : List Byte}
    (h : Delivers events bytes) : unread events = bytes := by
  cases events with
  | nil =>
      have hreceive := congrArg Prod.fst (h bytes.length)
      rw [List.take_length] at hreceive
      exact Option.some.inj hreceive
  | cons event rest =>
      cases event with
      | failed => cases h 0
      | segment c =>
          -- one `recv` that is long enough for both takes everything
          have hreceive := h (max c.length bytes.length)
          rw [receive, List.take_of_length_le (le_max_left ..),
            List.take_of_length_le (le_max_right ..),
            List.drop_eq_nil_of_le (le_max_left ..),
            List.drop_eq_nil_of_le (le_max_right ..)] at hreceive
          rcases Prod.mk.inj hreceive with ⟨hbytes, hrest⟩
          have hnil : rest = [] := hrest
          rw [hnil, unread, unread, List.append_nil]
          exact Option.some.inj hbytes

theorem decodes_stream {texts : List CString}
    (hlength : forall s, s ∈ texts -> s.strlen <= 65535) :
    Decodes (stream texts) texts := by
  intro process fd w fuel hopen hmallocs hincoming hfuel
  have hdelivers : Delivers w.incoming (stream texts) := by
    rw [hincoming]
    exact delivers_segment _
  rcases @exec_receiveResponses process fd w texts fuel hlength hfuel hopen
    hmallocs hdelivers with ⟨hresult, hleft⟩
  exact ⟨hresult, unread_of_delivers hleft⟩

/-!
## Both sides
-/

/--
Requests that are sent one behind the other are answered in this order: after
as many rounds the loop goes on with the bytes behind the requests, and when
there are none the run ends; in both cases the bytes written decode to the
replies.
-/
theorem requests_answered_in_order {table : List RpcFunc}
    {requests replies : List CString}
    (hanswers : List.Forall₂ (Answers table) requests replies) (fd : Int)
    (rest : List Byte) :
    (exists w', exec (network (served table))
        (repeatWhile (rpcHandleRound fd) requests.length)
        (accepted fd [.segment (stream requests ++ rest)] [] []) =
          (.ok true, w') ∧ fd ∈ w'.openFds ∧ unread w'.incoming = rest ∧
        Decodes w'.written replies) ∧
    (exists w', serve table fd
        (accepted fd [.segment (stream requests)] [] []) = (.ok (), w') ∧
        Decodes w'.written replies) := by
  have hreplies : forall s, s ∈ replies -> s.strlen <= 65535 := by
    intro s hs
    rcases List.forall₂_iff_get.mp hanswers with ⟨hlength, hget⟩
    rcases List.mem_iff_get.mp hs with ⟨i, rfl⟩
    exact (hget i (by rw [hlength]; exact i.isLt) i.isLt).reply_le
  constructor
  · rcases exec_rounds_of_answers hanswers (flowing_accepted fd _) with
      ⟨w', hrounds, hrest, hwritten, _⟩
    refine ⟨w', hrounds, hrest.isOpen, unread_of_delivers hrest.delivers, ?_⟩
    rw [hwritten]
    exact decodes_stream hreplies
  · rcases serve_of_answers hanswers (flowing_accepted fd _) with
      ⟨hresult, hwritten⟩
    refine ⟨_, Prod.ext hresult rfl, ?_⟩
    rw [hwritten]
    exact decodes_stream hreplies

theorem addAnswer_document [FreshMemory] :
    addAnswer.document = (@addAnswer .zeroed).document := by
  simp only [Answer.document, addAnswer, Deployed.invocation]

theorem addRequest_answers [FreshMemory] :
    Answers registeredTable addRequest (print addAnswer.document) where
  request_le := addRequest_strlen_le
  reply_le := by
    rw [addAnswer_document, Answer.document, print_responseDocument_strlen]
    decide +kernel
  result := rpcProcess_result_some_iff.mpr ⟨addAnswer, rfl⟩

theorem add_requests_answered_in_order :
    exists w', serve registeredTable 5
        (accepted 5 [.segment (stream [addRequest, addRequest])] [] []) =
          (.ok (), w') ∧
      Decodes w'.written
        [print addAnswer.document, print addAnswer.document] :=
  (requests_answered_in_order
    (.cons addRequest_answers (.cons addRequest_answers .nil)) 5 []).right

end Session
end Z2wRpc
