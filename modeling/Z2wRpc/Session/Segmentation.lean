import Z2wRpc.Call.Arguments
import Z2wRpc.Session.Framing

/-!
# How the transport cuts a stream of frames

Neither receiver collects a header or a payload from several `recv` calls.  A
stream of frames is therefore received as it was sent exactly when no cut falls
inside a header or inside a text.
-/

namespace Z2wRpc

open Foundation

namespace Session

open Call Dispatch Wire Program Segments

def pieces (texts : List CString) : List (List Byte) :=
  texts.flatMap fun s => [header s, s.bytes]

def stream : List CString -> List Byte
  | [] => []
  | s :: rest => frame s ++ stream rest

/-!
## A header that arrives in part
-/

theorem leBytes_two (n : Nat) :
    leBytes 2 n = [BitVec.ofNat 8 n, BitVec.ofNat 8 (n / 256)] := rfl

/-- Less than a whole header announces less than the length, or a text that
starts behind the upper length byte. -/
theorem headerLength_short {s : CString} {c rest : List Byte}
    (hc : c.length < rpcHeaderLength) (hsplit : header s = c ++ rest) :
    headerLength (zeroFill rpcHeaderLength c) = 0 ∨
      headerLength (zeroFill rpcHeaderLength c) = s.strlen % 256 ∧
        rest = [BitVec.ofNat 8 (s.strlen / 256)] := by
  have hcrc : (leBytes 4 (calcCrc32 s.bytes).toNat).length = 4 :=
    leBytes_length 4 _
  rw [header, leBytes_two] at hsplit
  unfold rpcHeaderLength at hc
  by_cases hlen : c.length <= 4
  · left
    have hdrop : ((zeroFill rpcHeaderLength c).drop 4).take 2 =
        List.replicate 2 0#8 := by
      rw [zeroFill, List.drop_append, List.drop_eq_nil_of_le hlen,
        List.nil_append, List.drop_replicate, List.take_replicate]
      unfold rpcHeaderLength
      congr 1
      omega
    rw [headerLength, hdrop]
    rfl
  · right
    have hfive : c.length = 4 + 1 := by omega
    rw [show c = c.take 4 ++ c.drop 4 from (List.take_append_drop 4 c).symm,
      List.append_assoc] at hsplit
    rcases List.append_inj hsplit (by rw [hcrc, List.length_take]; omega) with
      ⟨_, htail⟩
    obtain ⟨lo, hlo⟩ : exists lo, c.drop 4 = [lo] := by
      apply List.length_eq_one_iff.mp
      rw [List.length_drop]
      omega
    rw [hlo, List.singleton_append, List.cons.injEq] at htail
    refine ⟨?_, htail.right.symm⟩
    have hfield : ((zeroFill rpcHeaderLength c).drop 4).take 2 = [lo, 0#8] := by
      rw [zeroFill, List.drop_append_of_le_length (by omega), hlo, hfive]
      rfl
    rw [headerLength, hfield, ← htail.left]
    simp [leValue]

theorem ofBytes_short_ne {s : CString} (hs : s.bytes ≠ [])
    {c tail p q rest : List Byte} (hc : c.length < rpcHeaderLength)
    (hsplit : header s = c ++ tail)
    (hp : p.length = headerLength (zeroFill rpcHeaderLength c))
    (hstream : p ++ q = tail ++ (s.bytes ++ rest)) :
    CString.ofBytes p ≠ s := by
  intro heq
  have hpos : 0 < s.strlen := List.length_pos_iff.mpr hs
  have hle : s.strlen <= p.length := by
    have := CString.ofBytes_length_le p
    rwa [heq] at this
  rcases headerLength_short hc hsplit with hzero | ⟨hfield, rfl⟩
  · omega
  · -- the upper length byte is zero and ends the text at once
    have hupper : s.strlen / 256 = 0 := by omega
    rw [hupper] at hstream
    cases p with
    | nil => rw [List.length_nil] at hle; omega
    | cons b p =>
        have hb : b = BitVec.ofNat 8 0 := by
          rw [List.cons_append, List.singleton_append] at hstream
          exact (List.cons.inj hstream).left
        have hempty := CString.ofBytes_nul p
        rw [hb] at heq
        rw [show (BitVec.ofNat 8 0 : Byte) = 0#8 from rfl] at heq
        rw [heq] at hempty
        exact hs hempty

/-!
## One frame
-/

structure ReceivedWhole (s : CString) (rest : List Byte)
    (chunks next : List (List Byte)) : Prop where
  reception : reception true (chunks.map .segment) =
    (.payload s, next.map .segment)
  unread : next.flatten = rest
  noEmpty : NoEmpty next
  cut : forall ps, CutBetween (header s :: s.bytes :: ps) chunks <->
    CutBetween ps next

structure ReceivedBroken (s : CString) (chunks : List (List Byte)) :
    Prop where
  reception : (reception true (chunks.map .segment)).1 = .torn ∨
    (reception true (chunks.map .segment)).1 = .damaged ∨
    exists text, (reception true (chunks.map .segment)).1 = .payload text ∧
      text ≠ s
  cut : forall ps, ¬ CutBetween (header s :: s.bytes :: ps) chunks

theorem receivedBroken_of_short_header {s : CString} (hs : s.bytes ≠ [])
    {c rest : List Byte} {cs : List (List Byte)} (hne : NoEmpty (c :: cs))
    (hflat : (c :: cs).flatten = frame s ++ rest)
    (hc : c.length < rpcHeaderLength) : ReceivedBroken s (c :: cs) where
  cut := fun ps =>
    not_cutBetween_of_length_lt hne (by rw [header_length]; exact hc) _
  reception := by
    have hread : Segments.read rpcHeaderLength (c :: cs) = (c, cs) := by
      rw [Segments.read, List.take_of_length_le (by omega),
        List.drop_eq_nil_of_le (by omega), pushBack_nil]
    have hheader := receive_segments rpcHeaderLength (c :: cs)
    rw [hread] at hheader
    have hcne := hne c (List.mem_cons_self ..)
    rcases List.exists_cons_of_ne_nil hcne with ⟨b, bs, rfl⟩
    -- what follows the part of the header in the stream
    obtain ⟨tail, hsplit⟩ : exists tail, header s = (b :: bs) ++ tail := by
      have hpart : (b :: bs) <+: frame s ++ rest := by
        rw [← hflat, List.flatten_cons]
        exact List.prefix_append ..
      have hwhole : header s <+: frame s ++ rest := by
        rw [frame, List.append_assoc]
        exact List.prefix_append ..
      have hprefix := List.prefix_of_prefix_length_le hpart hwhole
        (by rw [header_length]; omega)
      exact ⟨_, hprefix.choose_spec.symm⟩
    have hstream : cs.flatten = tail ++ (s.bytes ++ rest) := by
      rw [List.flatten_cons, frame, List.append_assoc, hsplit,
        List.append_assoc] at hflat
      exact List.append_cancel_left hflat
    have hpayload := receive_segments
      (headerLength (zeroFill rpcHeaderLength (b :: bs))) cs
    have hp := read_append_flatten
      (headerLength (zeroFill rpcHeaderLength (b :: bs))) cs
    rw [hstream] at hp
    simp only [Session.reception, hheader, hpayload, Bool.not_true,
      Bool.false_eq_true, if_false]
    split_ifs with hlength hcrc
    · exact Or.inl rfl
    · exact Or.inr (Or.inl rfl)
    · exact Or.inr (Or.inr ⟨_, rfl,
        ofBytes_short_ne hs hc hsplit (not_not.mp hlength) hp⟩)

section

variable {s : CString} {rest : List Byte} {chunks texts : List (List Byte)}

theorem receivedWhole_of_pieces {next : List (List Byte)}
    (hlength : s.strlen <= 65535)
    (hheader : PieceRead (header s) (s.bytes ++ rest) chunks texts)
    (htext : PieceRead s.bytes rest texts next) :
    ReceivedWhole s rest chunks next where
  reception := by
    have hfirst := receive_segments rpcHeaderLength chunks
    have hsecond := receive_segments s.strlen texts
    rw [<- header_length s, hheader.read] at hfirst
    rw [CString.strlen, htext.read] at hsecond
    rw [header_length] at hfirst
    exact reception_frame (delivered_of_receive hlength hfirst hsecond)
  unread := htext.unread
  noEmpty := htext.noEmpty
  cut := fun ps => (hheader.cut (s.bytes :: ps)).trans (htext.cut ps)

theorem receivedBroken_of_short_text {c : List Byte} {cs : List (List Byte)}
    (hlength : s.strlen <= 65535)
    (hheader : PieceRead (header s) (s.bytes ++ rest) chunks (c :: cs))
    (hc : c.length < s.bytes.length) : ReceivedBroken s chunks where
  cut := fun ps hcut =>
    not_cutBetween_of_length_lt hheader.noEmpty hc ps
      ((hheader.cut (s.bytes :: ps)).mp hcut)
  reception := by
    left
    have hfirst := receive_segments rpcHeaderLength chunks
    have hsecond := receive_segments s.strlen (c :: cs)
    have htorn : (Segments.read s.strlen (c :: cs)).1.length ≠ s.strlen := by
      rw [Segments.read, List.length_take, CString.strlen]
      omega
    rcases header_eq_cons s with ⟨b, bs, hcons⟩
    have hfill : zeroFill rpcHeaderLength (b :: bs) = header s := by
      rw [<- hcons, zeroFill_of_length_eq (header_length s)]
    have hfield := (headerLength_header_eq_iff s).mpr hlength
    rw [<- header_length s, hheader.read, header_length, hcons] at hfirst
    simp only [Session.reception, hfirst, hfill, hfield, hsecond,
      Bool.not_true, Bool.false_eq_true, if_false, if_pos htorn]

theorem received_cases (hs : s.bytes ≠ []) (hlength : s.strlen <= 65535)
    (hne : NoEmpty chunks) (hflat : chunks.flatten = frame s ++ rest) :
    (exists next, ReceivedWhole s rest chunks next) ∨
      ReceivedBroken s chunks := by
  cases chunks with
  | nil =>
      have hlen := congrArg List.length hflat
      rw [frame, List.length_append, List.length_append, header_length,
        rpcHeaderLength, List.flatten_nil, List.length_nil] at hlen
      omega
  | cons c cs =>
      by_cases hc : c.length < rpcHeaderLength
      · exact Or.inr (receivedBroken_of_short_header hs hne hflat hc)
      rw [frame, List.append_assoc] at hflat
      have hheader := pieceRead_of_length_le hne hflat
        (by rw [header_length]; omega)
      cases hafter : (Segments.read (header s).length (c :: cs)).2 with
      | nil =>
          rw [hafter] at hheader
          have hnothing := hheader.unread.symm
          exact absurd (List.append_eq_nil_iff.mp hnothing).left hs
      | cons d ds =>
          rw [hafter] at hheader
          by_cases hd : s.bytes.length <= d.length
          · exact Or.inl ⟨_, receivedWhole_of_pieces hlength hheader
              (pieceRead_of_length_le hheader.noEmpty hheader.unread hd)⟩
          · exact Or.inr (receivedBroken_of_short_text hlength hheader
              (not_le.mp hd))

end

/-!
## The server
-/

def HandsOver (table : List RpcFunc) (fd : Int) (w : World)
    (texts : List CString) : Prop :=
  (serve table fd w).2.dispatched = w.dispatched ++ texts ∧
    (serve table fd w).1 ≠ .error .assertion

def AnsweredBeforeLast (table : List RpcFunc) (texts : List CString) : Prop :=
  forall s, s ∈ texts.dropLast -> Answerable table s

theorem bytes_ne_nil_of_invoked {table : List RpcFunc} {s : CString}
    (h : Invoked table s) : s.bytes ≠ [] := by
  rcases h with ⟨i⟩
  intro hempty
  obtain rfl : s = CString.ofBytes [] := CString.ext hempty
  cases i.parsed

section

variable {table : List RpcFunc} {fd : Int} {w : World} {s : CString}
  {texts : List CString} {chunks next : List (List Byte)} {rest : List Byte}

theorem handsOver_nil (hopen : fd ∈ w.openFds) (h : w.incoming = []) :
    HandsOver table fd w [] := by
  have hround : exec (network (served table)) (rpcHandleRound fd) w =
      (.ok false, w.received) := by
    rw [exec_rpcHandleRound hopen, h]
    rfl
  rw [HandsOver, serve_stop hround]
  exact ⟨by simp, by simp⟩

theorem handsOver_cons_of_answerable (hopen : fd ∈ w.openFds)
    (hmallocs : w.mallocs = [])
    (h : reception true w.incoming = (.payload s, next.map .segment))
    (hanswer : Answerable table s) :
    exists w', w'.incoming = next.map .segment ∧ fd ∈ w'.openFds ∧
      w'.mallocs = [] ∧
      forall texts, HandsOver table fd w (s :: texts) <->
        HandsOver table fd w' texts := by
  have hallocate := allocate_of_mallocs_nil hmallocs
  rw [← hallocate] at h
  rcases serve_answered hopen h hanswer with
    ⟨w', hincoming, hfds, hmallocs', hdispatched, hserve⟩
  refine ⟨w', hincoming, by rw [hfds]; exact hopen,
    by rw [hmallocs', hmallocs]; rfl, fun texts => ?_⟩
  rw [HandsOver, HandsOver, hserve, hdispatched]
  simp only [List.append_assoc, List.singleton_append]

theorem handsOver_cons_of_not_answerable (hopen : fd ∈ w.openFds)
    (hmallocs : w.mallocs = [])
    (h : reception true w.incoming = (.payload s, next.map .segment))
    (hinvoked : Invoked table s) (hanswer : ¬ Answerable table s) :
    HandsOver table fd w (s :: texts) <-> texts = [] := by
  have hallocate := allocate_of_mallocs_nil hmallocs
  have hround : exec (network (served table)) (rpcHandleRound fd) w =
      (.error .outOfBounds, w.received.handOver s) := by
    rw [exec_rpcHandleRound hopen, hallocate, h]
    simp only [served, rpcProcess_result_of_not_answerable hinvoked hanswer]
  rw [HandsOver, serve_error hround, World.handOver, received_dispatched]
  simp [eq_comm]

theorem not_handsOver_of_broken (hopen : fd ∈ w.openFds)
    (hmallocs : w.mallocs = []) (hincoming : w.incoming = chunks.map .segment)
    (h : ReceivedBroken s chunks) : ¬ HandsOver table fd w (s :: texts) := by
  intro h
  rcases h with ⟨hdispatched, hassertion⟩
  have hallocate := allocate_of_mallocs_nil hmallocs
  have hround := @exec_rpcHandleRound (served table) fd w hopen
  rw [hallocate, hincoming] at hround
  rcases h.reception with htorn | hdamaged | ⟨text, htext, hne⟩
  · rw [htorn] at hround
    rw [serve_error hround] at hassertion
    exact hassertion rfl
  · rw [hdamaged] at hround
    rw [serve_stop hround] at hdispatched
    simp at hdispatched
  · have hfirst := (@exec_rpcHandleRound_payload (served table) fd w text _
      hopen (by
        rw [hallocate, hincoming]
        exact Prod.ext htext rfl)).left
    have hprefix := @serve_keeps_dispatched table fd w
    rw [hfirst, hdispatched, List.prefix_append_right_inj,
      List.cons_prefix_cons] at hprefix
    exact hne hprefix.left

theorem answeredBeforeLast_cons_of_answerable (h : Answerable table s) :
    AnsweredBeforeLast table (s :: texts) <->
      AnsweredBeforeLast table texts := by
  cases texts with
  | nil => simp [AnsweredBeforeLast]
  | cons t texts => simp [AnsweredBeforeLast, h]

theorem answeredBeforeLast_cons_of_not_answerable
    (h : ¬ Answerable table s) :
    AnsweredBeforeLast table (s :: texts) <-> texts = [] := by
  cases texts with
  | nil => simp [AnsweredBeforeLast]
  | cons t texts => simp [AnsweredBeforeLast, h]

/-- The server receives a stream of requests as it was sent exactly when no
cut falls inside a header or a text. -/
theorem handsOver_iff (hopen : fd ∈ w.openFds) (hmallocs : w.mallocs = [])
    (hincoming : w.incoming = chunks.map .segment)
    (htexts : forall s, s ∈ texts -> s.strlen <= 65535 ∧ Invoked table s)
    (hne : NoEmpty chunks) (hflat : chunks.flatten = stream texts) :
    HandsOver table fd w texts <->
      CutBetween (pieces texts) chunks ∧ AnsweredBeforeLast table texts := by
  induction texts generalizing w chunks with
  | nil =>
      have hchunks := eq_nil_of_noEmpty_of_flatten hne hflat
      have hhands := @handsOver_nil table fd w hopen
        (by rw [hincoming, hchunks]; rfl)
      rw [hchunks]
      exact ⟨fun _ => ⟨cutBetween_nil _, by simp [AnsweredBeforeLast]⟩,
        fun _ => hhands⟩
  | cons s texts ih =>
      rw [List.forall_mem_cons] at htexts
      rcases htexts with ⟨⟨hlength, hinvoked⟩, hrest⟩
      have hpieces : pieces (s :: texts) =
          header s :: s.bytes :: pieces texts := rfl
      rw [hpieces]
      rcases received_cases (bytes_ne_nil_of_invoked hinvoked) hlength hne
        hflat with ⟨next, hwhole⟩ | hbroken
      · have hreception := hwhole.reception
        rw [← hincoming] at hreception
        rw [hwhole.cut]
        by_cases hanswer : Answerable table s
        · rcases handsOver_cons_of_answerable hopen hmallocs hreception
            hanswer with ⟨w', hincoming', hopen', hmallocs', hhands⟩
          rw [hhands, answeredBeforeLast_cons_of_answerable hanswer]
          exact ih hopen' hmallocs' hincoming' hrest hwhole.noEmpty
            hwhole.unread
        · rw [handsOver_cons_of_not_answerable hopen hmallocs hreception
            hinvoked hanswer, answeredBeforeLast_cons_of_not_answerable hanswer]
          refine ⟨fun hnil => ⟨?_, hnil⟩, fun h => h.right⟩
          have hnext : next = [] := by
            apply eq_nil_of_noEmpty_of_flatten hwhole.noEmpty
            rw [hwhole.unread, hnil]
            rfl
          rw [hnext]
          exact cutBetween_nil _
      · exact ⟨fun h => absurd h
          (not_handsOver_of_broken hopen hmallocs hincoming hbroken),
          fun h => absurd h.left (hbroken.cut _)⟩

end

/-!
## The client
-/

theorem header_of_empty {s : CString} (h : s.bytes = []) :
    header s = List.replicate rpcHeaderLength 0#8 := by
  obtain rfl : s = CString.ofBytes [] := CString.ext h
  decide

theorem reception_of_empty {s : CString} (h : s.bytes = [])
    {chunks : List (List Byte)} (hne : NoEmpty chunks)
    (hflat : chunks.flatten = frame s) :
    (reception true (chunks.map .segment)).1 = .payload s := by
  rw [frame, header_of_empty h, h, List.append_nil] at hflat
  obtain ⟨c, cs, rfl⟩ : exists c cs, chunks = c :: cs := by
    apply List.exists_cons_of_ne_nil
    intro heq
    subst heq
    cases hflat
  have hzeros : forall b, b ∈ c -> b = 0#8 := by
    intro b hb
    apply List.eq_of_mem_replicate (n := rpcHeaderLength)
    rw [← hflat, List.flatten_cons]
    exact List.mem_append_left _ hb
  have hlength : c.length <= rpcHeaderLength := by
    have := congrArg List.length hflat
    rw [List.flatten_cons, List.length_append, List.length_replicate] at this
    omega
  have hfill : zeroFill rpcHeaderLength c =
      List.replicate rpcHeaderLength 0#8 := by
    rw [List.eq_replicate_of_mem hzeros, zeroFill, List.length_replicate,
      ← List.replicate_add, Nat.add_sub_cancel' hlength]
  have hheader := receive_segments rpcHeaderLength (c :: cs)
  rw [Segments.read, List.take_of_length_le hlength,
    List.drop_eq_nil_of_le hlength, pushBack_nil] at hheader
  obtain ⟨b, bs, rfl⟩ :=
    List.exists_cons_of_ne_nil (hne c (List.mem_cons_self ..))
  have hnothing := receive_segments 0 cs
  have hread : (Segments.read 0 cs).1 = [] := by
    cases cs <;> rfl
  have hfield : headerLength (List.replicate rpcHeaderLength 0#8) = 0 := rfl
  have hcrc : ¬ headerCrc (List.replicate rpcHeaderLength 0#8) ≠
      calcCrc32 [] := by
    rw [calcCrc32_nil]
    decide
  rw [hread] at hnothing
  obtain rfl : s = CString.ofBytes [] := CString.ext h
  simp only [Session.reception, hheader, hfill, hfield, hnothing,
    Bool.not_true, Bool.false_eq_true, if_false, List.length_nil, ne_eq,
    not_true, if_neg hcrc]

/-- The client receives a reply as it was sent exactly when no cut falls
inside its header or its text. -/
theorem session_result_iff {response : CString}
    {chunks : List (List Byte)} (hlength : response.strlen <= 65535)
    (hne : NoEmpty chunks) (hflat : chunks.flatten = frame response) :
    sessionResult (reception true (chunks.map .segment)).1 =
        .ok (some response) <->
      response.bytes = [] ∨
        CutBetween [header response, response.bytes] chunks := by
  by_cases hempty : response.bytes = []
  · rw [reception_of_empty hempty hne hflat]
    exact ⟨fun _ => Or.inl hempty, fun _ => rfl⟩
  · have hflat' : chunks.flatten = frame response ++ [] := by
      rw [hflat, List.append_nil]
    rcases received_cases hempty hlength hne hflat' with
      ⟨next, hwhole⟩ | hbroken
    · have hnext := eq_nil_of_noEmpty_of_flatten hwhole.noEmpty hwhole.unread
      rw [hwhole.reception, hwhole.cut, hnext]
      exact ⟨fun _ => Or.inr (cutBetween_nil _), fun _ => rfl⟩
    · constructor
      · intro h
        rcases hbroken.reception with htorn | hdamaged | ⟨text, htext, hother⟩
        · rw [htorn] at h
          cases h
        · rw [hdamaged] at h
          cases h
        · rw [htext] at h
          exact absurd (Option.some.inj (Except.ok.inj h)) hother
      · intro h
        rcases h with h | h
        · exact absurd h hempty
        · exact absurd h (hbroken.cut [])

/-!
## Both sides
-/

/-- Both receivers get what was sent exactly when the transport cuts between
headers and texts. -/
theorem segmentation_iff {table : List RpcFunc} {texts : List CString}
    {response : CString} {chunks replyChunks : List (List Byte)}
    (htexts : forall s, s ∈ texts -> s.strlen <= 65535 ∧ Invoked table s)
    (hne : NoEmpty chunks) (hflat : chunks.flatten = stream texts)
    (hresponse : response.strlen <= 65535) (hneReply : NoEmpty replyChunks)
    (hflatReply : replyChunks.flatten = frame response) (fd : Int)
    (process : CString -> Except Fault (Option CString)) (ip : CString)
    (port : Int16) (request : CString) (sends : List (Option Nat)) :
    (HandsOver table fd (accepted fd (chunks.map .segment) [] sends) texts <->
      CutBetween (pieces texts) chunks ∧ AnsweredBeforeLast table texts) ∧
    ((exec (network process) (rpcClientSession (.live ip) port (some request))
        (calling (replyChunks.map .segment) sends)).1 = .ok (some response) <->
      response.bytes = [] ∨
        CutBetween [header response, response.bytes] replyChunks) := by
  constructor
  · exact handsOver_iff (List.mem_cons_self ..) rfl rfl htexts hne hflat
  · have hsession := @exec_rpcClientSession process
      (calling (replyChunks.map .segment) sends) rfl ip port request
    rw [hsession.left]
    exact session_result_iff hresponse hneReply hflatReply

theorem addRequest_in_pieces :
    HandsOver registeredTable 5
      (accepted 5 ([header addRequest, addRequest.bytes].map .segment) [] [])
      [addRequest] := by
  have hne : NoEmpty [header addRequest, addRequest.bytes] := by
    intro c hc
    simp only [List.mem_cons, List.not_mem_nil, or_false] at hc
    rcases hc with rfl | rfl
    · rcases header_eq_cons addRequest with ⟨b, bs, h⟩
      rw [h]
      exact List.cons_ne_nil b bs
    · exact bytes_ne_nil_of_invoked ⟨addAnswer.toInvocation⟩
  have hflat : [header addRequest, addRequest.bytes].flatten =
      stream [addRequest] := by
    simp [stream, frame]
  have hboth := @segmentation_iff registeredTable [addRequest] addRequest
    [header addRequest, addRequest.bytes] [header addRequest, addRequest.bytes]
    (by
      intro s hs
      obtain rfl := List.mem_singleton.mp hs
      exact ⟨addRequest_strlen_le, ⟨addAnswer.toInvocation⟩⟩)
    hne hflat addRequest_strlen_le hne (by simp [frame]) 5
    (served registeredTable) addRequest 0 addRequest []
  exact hboth.left.mpr ⟨fun k hk => hk, by simp [AnsweredBeforeLast]⟩

/-- The first byte of a request that arrives with its header aborts the
server. -/
theorem addRequest_cut_in_text :
    addRequest.strlen <= 65535 ∧ Invoked registeredTable addRequest ∧
    (serve registeredTable 5
      (accepted 5 [.segment ((frame addRequest).take 7),
        .segment ((frame addRequest).drop 7)] [] [])).1 =
      .error .assertion := by
  refine ⟨addRequest_strlen_le, ⟨addAnswer.toInvocation⟩, ?_⟩
  rfl

end Session
end Z2wRpc
