import Z2wRpc.Session.ServerSafety

/-!
# Arbitrary streams

A peer may send any bytes.  The frames of a stream are what a receiver should
make of it: complete frames, read off one after the other.  `rpc_handle` agrees
with this reading up to the first request that it cannot answer, and up to a
last header of which only a part arrives: the buffer behind that part is zero,
and when the part is zero as well it is the header of the empty payload.
-/

namespace Z2wRpc

open Foundation

namespace Session

open Dispatch Wire Program Segments

/-!
## The frames of a stream
-/

def readFrame (bytes : List Byte) : Option (List Byte × List Byte) :=
  let h := bytes.take rpcHeaderLength
  let body := bytes.drop rpcHeaderLength
  if rpcHeaderLength <= bytes.length ∧ headerLength h <= body.length ∧
      headerCrc h = calcCrc32 (body.take (headerLength h)) then
    some (body.take (headerLength h), body.drop (headerLength h))
  else none

def readFrames : Nat -> List Byte -> List (List Byte) × List Byte
  | 0, bytes => ([], bytes)
  | fuel + 1, bytes =>
      match readFrame bytes with
      | none => ([], bytes)
      | some (payload, rest) =>
          (payload :: (readFrames fuel rest).1, (readFrames fuel rest).2)

def frames (bytes : List Byte) : List (List Byte) :=
  (readFrames bytes.length bytes).1

def leftover (bytes : List Byte) : List Byte :=
  (readFrames bytes.length bytes).2

/-- What `readFrame` says when it finds a frame. -/
structure FrameAt (bytes payload rest : List Byte) : Prop where
  header : rpcHeaderLength <= bytes.length
  split : bytes = bytes.take rpcHeaderLength ++ (payload ++ rest)
  length : payload.length = headerLength (bytes.take rpcHeaderLength)
  crc : headerCrc (bytes.take rpcHeaderLength) = calcCrc32 payload

theorem frameAt_of_readFrame {bytes payload rest : List Byte}
    (h : readFrame bytes = some (payload, rest)) :
    FrameAt bytes payload rest := by
  unfold readFrame at h
  simp only at h
  split at h
  · rename_i hframe
    rcases hframe with ⟨hheader, hlength, hcrc⟩
    rcases Prod.mk.inj (Option.some.inj h) with ⟨hpayload, hrest⟩
    constructor
    · exact hheader
    · rw [← hpayload, ← hrest, List.take_append_drop, List.take_append_drop]
    · rw [← hpayload, List.length_take]
      exact Nat.min_eq_left hlength
    · rw [hcrc, hpayload]
  · cases h

theorem readFrame_length_lt {bytes payload rest : List Byte}
    (h : readFrame bytes = some (payload, rest)) :
    rest.length < bytes.length := by
  have hframe := frameAt_of_readFrame h
  have hlength := congrArg List.length hframe.split
  have hheader := hframe.header
  rw [List.length_append, List.length_append, List.length_take] at hlength
  unfold rpcHeaderLength at hlength hheader
  omega

theorem readFrames_fuel {fuel fuel' : Nat} {bytes : List Byte}
    (h : bytes.length <= fuel) (h' : bytes.length <= fuel') :
    readFrames fuel bytes = readFrames fuel' bytes := by
  induction fuel generalizing fuel' bytes with
  | zero =>
      obtain rfl : bytes = [] := List.length_eq_zero_iff.mp (by omega)
      cases fuel' <;> rfl
  | succ fuel ih =>
      cases fuel' with
      | zero =>
          obtain rfl : bytes = [] := List.length_eq_zero_iff.mp (by omega)
          rfl
      | succ fuel' =>
          rw [readFrames, readFrames]
          cases hread : readFrame bytes with
          | none => rfl
          | some frame =>
              rcases frame with ⟨payload, rest⟩
              have hlt := readFrame_length_lt hread
              have hrest : readFrames fuel rest = readFrames fuel' rest :=
                ih (by omega) (by omega)
              simp only [hrest]

theorem readFrames_of_none {bytes : List Byte} (h : readFrame bytes = none) :
    frames bytes = [] ∧ leftover bytes = bytes := by
  unfold frames leftover
  cases hlength : bytes.length with
  | zero => exact ⟨rfl, rfl⟩
  | succ n =>
      rw [readFrames, h]
      exact ⟨rfl, rfl⟩

theorem readFrames_of_some {bytes payload rest : List Byte}
    (h : readFrame bytes = some (payload, rest)) :
    frames bytes = payload :: frames rest ∧
      leftover bytes = leftover rest := by
  have hlt := readFrame_length_lt h
  have hfuel : readFrames bytes.length bytes =
      readFrames (bytes.length + 1) bytes :=
    readFrames_fuel (Nat.le_refl _) (Nat.le_succ _)
  have hrest : readFrames bytes.length rest =
      readFrames rest.length rest :=
    readFrames_fuel (Nat.le_of_lt hlt) (Nat.le_refl _)
  unfold frames leftover
  rw [hfuel, readFrames, h]
  simp only [hrest, and_self]

theorem readFrame_leftover (bytes : List Byte) :
    readFrame (leftover bytes) = none := by
  induction hn : bytes.length using Nat.strong_induction_on
    generalizing bytes with
  | h n ih =>
      cases hread : readFrame bytes with
      | none =>
          rw [(readFrames_of_none hread).right]
          exact hread
      | some frame =>
          rcases frame with ⟨payload, rest⟩
          have hlt := readFrame_length_lt hread
          rw [(readFrames_of_some hread).right]
          exact ih rest.length (by omega) rest rfl

theorem readFrame_frame {s : CString} (hlength : s.strlen <= 65535)
    (rest : List Byte) :
    readFrame (frame s ++ rest) = some (s.bytes, rest) := by
  have hfield := (headerLength_header_eq_iff s).mpr hlength
  have htake : (frame s ++ rest).take rpcHeaderLength = header s := by
    rw [frame, List.append_assoc, ← header_length s, List.take_left]
  have hdrop : (frame s ++ rest).drop rpcHeaderLength = s.bytes ++ rest := by
    rw [frame, List.append_assoc, ← header_length s, List.drop_left]
  rw [readFrame]
  simp only [htake, hdrop, hfield]
  rw [CString.strlen, List.take_left, List.drop_left, if_pos]
  refine ⟨?_, ?_, headerCrc_header s⟩
  · rw [frame, List.length_append, List.length_append, header_length]
    omega
  · simp

theorem frames_stream {texts : List CString}
    (hlength : forall s, s ∈ texts -> s.strlen <= 65535) :
    frames (stream texts) = texts.map CString.bytes ∧
      leftover (stream texts) = [] := by
  induction texts with
  | nil => exact ⟨rfl, rfl⟩
  | cons s texts ih =>
      rw [List.forall_mem_cons] at hlength
      rcases hlength with ⟨hs, hrest⟩
      rcases readFrames_of_some (readFrame_frame hs (stream texts)) with
        ⟨hframes, hleftover⟩
      rcases ih hrest with ⟨ihframes, ihleftover⟩
      rw [stream, hframes, hleftover, ihframes, List.map_cons]
      exact ⟨rfl, ihleftover⟩

/-!
## What the receive steps make of a stream
-/

/-- Every `recv` gets as much as it asks for, up to the end of the bytes. -/
def Delivers (events : List NetEvent) (bytes : List Byte) : Prop :=
  forall n, receive n events =
    (some (bytes.take n), (pushBack (bytes.drop n) []).map .segment)

theorem delivers_segment (bytes : List Byte) :
    Delivers [.segment bytes] bytes := by
  intro n
  rw [receive]
  cases bytes.drop n <;> rfl

theorem delivers_pushBack (bytes : List Byte) :
    Delivers ((pushBack bytes []).map .segment) bytes := by
  cases bytes with
  | nil =>
      intro n
      rw [List.take_nil, List.drop_nil]
      rfl
  | cons b bs => exact delivers_segment (b :: bs)

/-- A part of a header that is zero, as the buffer behind it is. -/
def ZeroHeader (bytes : List Byte) : Prop :=
  bytes ≠ [] ∧ bytes.length < rpcHeaderLength ∧
    forall b, b ∈ bytes -> b = 0#8

section

variable {events : List NetEvent} {bytes payload rest : List Byte}

theorem reception_of_delivers (h : Delivers events bytes)
    (hne : bytes ≠ []) :
    reception true events =
      let header := zeroFill rpcHeaderLength (bytes.take rpcHeaderLength)
      let body := bytes.drop rpcHeaderLength
      let left := (pushBack (body.drop (headerLength header)) []).map .segment
      if (body.take (headerLength header)).length ≠ headerLength header then
        (.torn, left)
      else if headerCrc header ≠
          calcCrc32 (body.take (headerLength header)) then (.damaged, left)
      else (.payload (CString.ofBytes (body.take (headerLength header))),
        left) := by
  rcases List.exists_cons_of_ne_nil hne with ⟨b, bs, rfl⟩
  have hheader := h rpcHeaderLength
  have hbody := delivers_pushBack ((b :: bs).drop rpcHeaderLength)
    (headerLength (zeroFill rpcHeaderLength
      ((b :: bs).take rpcHeaderLength)))
  have htake : (b :: bs).take rpcHeaderLength =
      b :: bs.take 5 := rfl
  rw [htake] at hheader hbody ⊢
  simp only [reception, hheader, hbody, Bool.not_true, Bool.false_eq_true,
    if_false]

theorem reception_of_readFrame (h : Delivers events bytes)
    (hframe : readFrame bytes = some (payload, rest)) :
    reception true events =
      (.payload (CString.ofBytes payload),
        (pushBack rest []).map .segment) := by
  have hat := frameAt_of_readFrame hframe
  have hne : bytes ≠ [] := by
    intro hnil
    have hheader := hat.header
    rw [hnil] at hheader
    cases hheader
  have htake : (bytes.take rpcHeaderLength).length = rpcHeaderLength := by
    rw [List.length_take]
    exact Nat.min_eq_left hat.header
  have hbody : bytes.drop rpcHeaderLength = payload ++ rest := by
    have hsplit := congrArg (List.drop rpcHeaderLength) hat.split
    rw [List.drop_left' htake] at hsplit
    exact hsplit
  rw [reception_of_delivers h hne]
  simp only [zeroFill_of_length_eq htake, hbody]
  rw [← hat.length, List.take_left, List.drop_left, if_neg, if_neg]
  · exact not_not.mpr hat.crc
  · exact not_not.mpr rfl

theorem reception_of_short (h : Delivers events bytes) (hne : bytes ≠ [])
    (hshort : bytes.length < rpcHeaderLength) :
    reception true events =
      if headerLength (zeroFill rpcHeaderLength bytes) ≠ 0 then (.torn, [])
      else if headerCrc (zeroFill rpcHeaderLength bytes) ≠ 0#32 then
        (.damaged, [])
      else (.payload (CString.ofBytes []), []) := by
  have hbody : bytes.drop rpcHeaderLength = [] :=
    List.drop_eq_nil_of_le (Nat.le_of_lt hshort)
  have hheader : bytes.take rpcHeaderLength = bytes :=
    List.take_of_length_le (Nat.le_of_lt hshort)
  rw [reception_of_delivers h hne]
  simp only [hbody, hheader, List.take_nil, List.drop_nil, List.length_nil,
    calcCrc32_nil, pushBack_nil, List.map_nil, ne_eq]
  by_cases hfield : headerLength (zeroFill rpcHeaderLength bytes) = 0
  · rw [hfield]
  · rw [if_pos (fun h => hfield h.symm), if_pos hfield]

end

theorem leValue_eq_zero_iff (bs : List Byte) :
    leValue bs = 0 <-> forall b, b ∈ bs -> b = 0#8 := by
  induction bs with
  | nil => simp [leValue]
  | cons b bs ih =>
      rw [leValue, List.forall_mem_cons, ← ih]
      have hb : b.toNat = 0 <-> b = 0#8 := by
        rw [BitVec.toNat_eq]
        rfl
      rw [← hb]
      omega

theorem header_empty_iff {h : List Byte} (hlength : h.length = rpcHeaderLength) :
    headerLength h = 0 ∧ headerCrc h = 0#32 <-> forall b, b ∈ h -> b = 0#8 := by
  have hsplit : h.take 4 ++ (h.drop 4).take 2 = h := by
    have htail : (h.drop 4).length <= 2 := by
      rw [List.length_drop, hlength, rpcHeaderLength]
    rw [List.take_of_length_le htail, List.take_append_drop]
  have hcrc : headerCrc h = 0#32 <-> leValue (h.take 4) = 0 := by
    have hlt : leValue (h.take 4) < 2 ^ 32 := by
      have hfour := leValue_lt (h.take 4)
      rw [List.length_take, hlength] at hfour
      exact hfour
    rw [headerCrc, BitVec.toNat_eq, BitVec.toNat_ofNat, Nat.mod_eq_of_lt hlt]
    rfl
  rw [hcrc, headerLength, leValue_eq_zero_iff, leValue_eq_zero_iff]
  constructor
  · intro hzero b hb
    rw [← hsplit, List.mem_append] at hb
    rcases hb with hb | hb
    · exact hzero.right b hb
    · exact hzero.left b hb
  · intro hzero
    constructor
    · intro b hb
      exact hzero b (List.mem_of_mem_drop (List.mem_of_mem_take hb))
    · intro b hb
      exact hzero b (List.mem_of_mem_take hb)

theorem zeroFill_zero_iff (n : Nat) (bs : List Byte) :
    (forall b, b ∈ zeroFill n bs -> b = 0#8) <-> forall b, b ∈ bs -> b = 0#8 := by
  constructor
  · intro h b hb
    exact h b (List.mem_append_left _ hb)
  · intro h b hb
    rcases List.mem_append.mp hb with hb | hb
    · exact h b hb
    · exact List.eq_of_mem_replicate hb

section

variable {events : List NetEvent} {bytes : List Byte}

theorem reception_of_zeroHeader (h : Delivers events bytes)
    (hzero : ZeroHeader bytes) :
    reception true events = (.payload (CString.ofBytes []), []) := by
  rcases hzero with ⟨hne, hshort, hzero⟩
  have hlength : (zeroFill rpcHeaderLength bytes).length = rpcHeaderLength := by
    rw [zeroFill, List.length_append, List.length_replicate]
    omega
  rcases (header_empty_iff hlength).mpr
    ((zeroFill_zero_iff rpcHeaderLength bytes).mpr hzero) with ⟨hfield, hcrc⟩
  rw [reception_of_short h hne hshort, if_neg (not_not.mpr hfield),
    if_neg (not_not.mpr hcrc)]

theorem reception_of_not_readFrame (h : Delivers events bytes)
    (hframe : readFrame bytes = none) (hzero : ¬ ZeroHeader bytes) :
    (reception true events).1 = .ended ∨ (reception true events).1 = .torn ∨
      (reception true events).1 = .damaged := by
  by_cases hne : bytes = []
  · left
    have hheader := h rpcHeaderLength
    rw [hne, List.take_nil, List.drop_nil] at hheader
    rw [reception, hheader]
  right
  by_cases hshort : bytes.length < rpcHeaderLength
  · have hlength : (zeroFill rpcHeaderLength bytes).length =
        rpcHeaderLength := by
      rw [zeroFill, List.length_append, List.length_replicate]
      omega
    rw [reception_of_short h hne hshort]
    by_cases hfield : headerLength (zeroFill rpcHeaderLength bytes) = 0
    · by_cases hcrc : headerCrc (zeroFill rpcHeaderLength bytes) = 0#32
      · have hall := (zeroFill_zero_iff rpcHeaderLength bytes).mp
          ((header_empty_iff hlength).mp ⟨hfield, hcrc⟩)
        exact absurd ⟨hne, hshort, hall⟩ hzero
      · right
        rw [if_neg (not_not.mpr hfield), if_pos hcrc]
    · left
      rw [if_pos hfield]
  · have hheader : (bytes.take rpcHeaderLength).length = rpcHeaderLength := by
      rw [List.length_take]
      omega
    rw [reception_of_delivers h hne]
    simp only [zeroFill_of_length_eq hheader]
    by_cases hfield : headerLength (bytes.take rpcHeaderLength) <=
        (bytes.drop rpcHeaderLength).length
    · right
      have hwhole : ((bytes.drop rpcHeaderLength).take
          (headerLength (bytes.take rpcHeaderLength))).length =
            headerLength (bytes.take rpcHeaderLength) := by
        rw [List.length_take]
        exact Nat.min_eq_left hfield
      rw [if_neg (not_not.mpr hwhole), if_pos]
      intro hcrc
      rw [readFrame, if_pos ⟨by omega, hfield, hcrc⟩] at hframe
      cases hframe
    · left
      rw [if_pos]
      rw [List.length_take]
      omega

end

/-!
## What the server makes of a stream
-/

def HandsOverFrames (table : List RpcFunc) (fd : Int) (w : World)
    (bytes : List Byte) : Prop :=
  (serve table fd w).2.dispatched =
    w.dispatched ++ (frames bytes).map CString.ofBytes

section

variable {table : List RpcFunc} {fd : Int} {w : World}
  {bytes payload rest : List Byte}

theorem handsOverFrames_of_not_readFrame (hopen : fd ∈ w.openFds)
    (hmallocs : w.mallocs = []) (hdelivers : Delivers w.incoming bytes)
    (hframe : readFrame bytes = none) :
    HandsOverFrames table fd w bytes <-> ¬ ZeroHeader bytes := by
  have hallocate := allocate_of_mallocs_nil hmallocs
  rw [HandsOverFrames, (readFrames_of_none hframe).left, List.map_nil,
    List.append_nil]
  by_cases hzero : ZeroHeader bytes
  · have hreception := reception_of_zeroHeader hdelivers hzero
    rw [← hallocate] at hreception
    have hround := (@exec_rpcHandleRound_payload (served table) fd w _ _ hopen
      hreception).left
    have hprefix := @serve_keeps_dispatched table fd w
    rw [hround] at hprefix
    constructor
    · intro heq
      have hlength := hprefix.length_le
      rw [heq, List.length_append, List.length_singleton] at hlength
      omega
    · intro hnot
      exact absurd hzero hnot
  · have hround := @exec_rpcHandleRound (served table) fd w hopen
    rw [hallocate] at hround
    have hdispatched : (serve table fd w).2.dispatched = w.dispatched := by
      rcases reception_of_not_readFrame hdelivers hframe hzero with
        hended | htorn | hdamaged
      · rw [hended] at hround
        rw [serve_stop hround]
        exact received_dispatched
      · rw [htorn] at hround
        rw [serve_error hround]
        exact received_dispatched
      · rw [hdamaged] at hround
        rw [serve_stop hround]
        exact received_dispatched
    exact ⟨fun _ => hzero, fun _ => hdispatched⟩

theorem handsOverFrames_of_answerable (hopen : fd ∈ w.openFds)
    (hmallocs : w.mallocs = []) (hdelivers : Delivers w.incoming bytes)
    (hframe : readFrame bytes = some (payload, rest))
    (hanswer : Answerable table (CString.ofBytes payload)) :
    exists w', Delivers w'.incoming rest ∧ fd ∈ w'.openFds ∧
      w'.mallocs = [] ∧
      (HandsOverFrames table fd w bytes <->
        HandsOverFrames table fd w' rest) := by
  have hreception := reception_of_readFrame hdelivers hframe
  rw [← allocate_of_mallocs_nil hmallocs] at hreception
  rcases serve_answered hopen hreception hanswer with
    ⟨w', hincoming, hfds, hmallocs', hdispatched, hserve⟩
  refine ⟨w', ?_, ?_, ?_, ?_⟩
  · rw [hincoming]
    exact delivers_pushBack rest
  · rw [hfds]
    exact hopen
  · rw [hmallocs', hmallocs]
    rfl
  · rw [HandsOverFrames, HandsOverFrames, hserve, hdispatched,
      (readFrames_of_some hframe).left, List.map_cons, List.append_assoc,
      List.singleton_append]

theorem handsOverFrames_of_not_answerable (hopen : fd ∈ w.openFds)
    (hmallocs : w.mallocs = []) (hdelivers : Delivers w.incoming bytes)
    (hframe : readFrame bytes = some (payload, rest))
    (hanswer : ¬ Answerable table (CString.ofBytes payload)) :
    HandsOverFrames table fd w bytes <-> frames rest = [] := by
  have hreception := reception_of_readFrame hdelivers hframe
  have hallocate := allocate_of_mallocs_nil hmallocs
  rw [← hallocate] at hreception
  have hround := (@exec_rpcHandleRound_payload (served table) fd w _ _ hopen
    hreception).left
  rcases exists_error_of_payload hopen hreception hanswer with ⟨e, w', herror⟩
  rw [herror] at hround
  rw [HandsOverFrames, serve_error herror, hround,
    (readFrames_of_some hframe).left, List.map_cons,
    List.append_cancel_left_eq, List.cons.injEq, eq_self, true_and]
  rw [eq_comm, List.map_eq_nil_iff]

theorem handsOverFrames_iff_of_delivers (hopen : fd ∈ w.openFds)
    (hmallocs : w.mallocs = []) (hdelivers : Delivers w.incoming bytes) :
    HandsOverFrames table fd w bytes <->
      AnsweredBeforeLast table ((frames bytes).map CString.ofBytes) ∧
        ¬ ((forall s, s ∈ (frames bytes).map CString.ofBytes ->
            Answerable table s) ∧ ZeroHeader (leftover bytes)) := by
  -- one frame a round
  induction hn : bytes.length using Nat.strong_induction_on
    generalizing w bytes with
  | h n ih =>
      cases hframe : readFrame bytes with
      | none =>
          rcases readFrames_of_none hframe with ⟨hframes, hleftover⟩
          rw [handsOverFrames_of_not_readFrame hopen hmallocs hdelivers hframe,
            hframes, hleftover]
          simp [AnsweredBeforeLast]
      | some frame =>
          rcases frame with ⟨payload, rest⟩
          have hlt := readFrame_length_lt hframe
          rcases readFrames_of_some hframe with ⟨hframes, hleftover⟩
          rw [hframes, hleftover, List.map_cons, List.forall_mem_cons]
          by_cases hanswer : Answerable table (CString.ofBytes payload)
          · rcases handsOverFrames_of_answerable hopen hmallocs hdelivers hframe
              hanswer with ⟨w', hdelivers', hopen', hmallocs', hiff⟩
            rw [hiff, ih rest.length (by omega) hopen' hmallocs' hdelivers' rfl,
              answeredBeforeLast_cons_of_answerable hanswer]
            simp only [hanswer, true_and]
          · rw [handsOverFrames_of_not_answerable hopen hmallocs hdelivers
              hframe hanswer, answeredBeforeLast_cons_of_not_answerable hanswer,
              List.map_eq_nil_iff]
            simp only [hanswer, false_and, not_false_eq_true, and_true]

end

/-- `rpc_handle` hands over the frames of a stream exactly when it can answer
all of them but the last, and does not reach a zero part of a header. -/
theorem handsOverFrames_iff (table : List RpcFunc) (fd : Int)
    (bytes : List Byte) (sends : List (Option Nat)) :
    HandsOverFrames table fd (accepted fd [.segment bytes] [] sends) bytes <->
      AnsweredBeforeLast table ((frames bytes).map CString.ofBytes) ∧
        ¬ ((forall s, s ∈ (frames bytes).map CString.ofBytes ->
            Answerable table s) ∧ ZeroHeader (leftover bytes)) :=
  handsOverFrames_iff_of_delivers (List.mem_cons_self ..) rfl
    (delivers_segment bytes)

/-- One zero byte is no frame, and the empty payload is handed over for it. -/
theorem zero_byte_handed_over :
    frames [0#8] = [] ∧
      (serve registeredTable 5
        (accepted 5 [.segment [0#8]] [] [])).2.dispatched =
          [CString.ofBytes []] := by
  constructor
  · rfl
  · rfl

end Session
end Z2wRpc
