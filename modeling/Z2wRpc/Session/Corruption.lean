import Z2wRpc.Session.FrameSequence
import Z2wRpc.Wire.ErrorDetection

/-!
# Frames damaged in transit

The checksum covers the text behind a header, so damage to a text is met by the
error detection of the code.  The length field is not covered: a flipped bit
there makes the receiver take the checksum over another number of bytes.
-/

namespace Z2wRpc

open Foundation

namespace Session

open Dispatch Wire Program

/-!
## Rejection
-/

/--
What a receiver does with a payload whose checksum is wrong: the server leaves
its loop without processing or sending anything, the client session returns
`NULL`.
-/
structure Rejected (h payload : List Byte) : Prop where
  server : forall (table : List RpcFunc) (fd : Int) (w : World)
    (rest : List NetEvent), fd ∈ w.openFds -> w.allocate.1 = true ->
      Delivered w.incoming h payload rest ->
      (serve table fd w).1 = .ok () ∧
        (serve table fd w).2.dispatched = w.dispatched ∧
        (serve table fd w).2.written = w.written
  client : forall (process : CString -> Except Fault (Option CString))
    (ip : CString) (port : Int16) (request : CString) (w : World)
    (rest : List NetEvent), w.refused = false -> w.allocate.1 = true ->
      Delivered w.incoming h payload rest ->
      (exec (network process)
        (rpcClientSession (.live ip) port (some request)) w).1 = .ok none

theorem rejected_of_ne {h payload : List Byte}
    (hcrc : headerCrc h ≠ calcCrc32 payload) : Rejected h payload where
  server := by
    intro table fd w rest hopen hbuffer hdelivered
    have hreception := reception_of_delivered hdelivered
    have hround := @exec_rpcHandleRound (served table) fd w hopen
    rw [hbuffer, hreception, if_neg hcrc] at hround
    rw [serve_stop hround]
    exact ⟨rfl, received_dispatched, received_written⟩
  client := by
    intro process ip port request w rest haccepts hbuffer hdelivered
    have hreception := reception_of_delivered hdelivered
    rw [(exec_rpcClientSession haccepts ip port request).left, hbuffer,
      hreception, if_neg hcrc]
    rfl

/--
A burst of up to 32 bits changes the checksum, so every comparison with the
checksum of the original payload fails.
-/
theorem burst_detected (p e : List Byte) (hlength : e.length = p.length)
    (hnonzero : exists b, b ∈ e ∧ b ≠ 0#8) (hburst : Burst 32 e) :
    calcCrc32 (corrupt p e) ≠ calcCrc32 p ∧
      (forall length : BitVec 32, length.toInt = p.length ->
        rpcCheckPacket (corrupt p e) length (calcCrc32 p) = some (-1)) ∧
      forall h, headerCrc h = calcCrc32 p -> Rejected h (corrupt p e) := by
  have hcrc := calcCrc32_corrupt_ne hlength hnonzero hburst
  refine ⟨hcrc, ?_, ?_⟩
  · intro length hsize
    rw [← corrupt_length hlength] at hsize
    exact rpcCheckPacket_of_ne hsize hcrc
  · intro h hheader
    apply rejected_of_ne
    rw [hheader]
    exact hcrc.symm

theorem burst_detected_across_bytes :
    calcCrc32 (corrupt [0x61#8, 0x62#8] [0x80#8, 0x01#8]) ≠
        calcCrc32 [0x61#8, 0x62#8] ∧
      (forall length : BitVec 32, length.toInt = 2 ->
        rpcCheckPacket (corrupt [0x61#8, 0x62#8] [0x80#8, 0x01#8]) length
          (calcCrc32 [0x61#8, 0x62#8]) = some (-1)) ∧
      forall h, headerCrc h = calcCrc32 [0x61#8, 0x62#8] ->
        Rejected h (corrupt [0x61#8, 0x62#8] [0x80#8, 0x01#8]) := by
  apply burst_detected [0x61#8, 0x62#8] [0x80#8, 0x01#8] rfl
  · exact ⟨0x80#8, List.mem_cons_self .., by decide⟩
  · refine ⟨0, ?_⟩
    intro i k b hb hk _
    have hi : i < 2 := (List.getElem?_eq_some_iff.mp hb).fst
    omega

/-!
## One flipped bit of a frame
-/

theorem readFrame_append {h : List Byte} (hh : h.length = rpcHeaderLength)
    (body : List Byte) :
    readFrame (h ++ body) =
      if headerLength h <= body.length ∧
          headerCrc h = calcCrc32 (body.take (headerLength h)) then
        some (body.take (headerLength h), body.drop (headerLength h))
      else none := by
  have hlong : rpcHeaderLength <= (h ++ body).length := by
    rw [List.length_append, hh]
    exact Nat.le_add_right _ _
  rw [readFrame, List.take_left' hh, List.drop_left' hh]
  simp only [hlong, true_and]

/-- The flipped bit is a set bit of the length field, and the text that is left
in front of the shorter length has the checksum of the whole text. -/
def Overlooked (s : CString) (n : Nat) : Prop :=
  exists j, n = 32 + j ∧ j < 16 ∧ s.strlen.testBit j = true ∧
    calcCrc32 (s.bytes.take (s.strlen - 2 ^ j)) = calcCrc32 s.bytes

section

variable {s : CString} {n : Nat}

theorem flipBit_frame_header (h : n < 48) :
    flipBit (frame s) n = flipBit (header s) n ++ s.bytes := by
  rw [frame, flipBit_append_left]
  rw [header_length]
  exact h

theorem flipBit_header_length :
    (flipBit (header s) n).length = rpcHeaderLength := by
  rw [flipBit_length, header_length]

theorem readFrame_flipped_crc (h : n < 32) (hlength : s.strlen <= 65535) :
    readFrame (flipBit (frame s) n) = none := by
  rcases headerCrc_flipBit (s := s) h with ⟨hcrc, hsize⟩
  rw [flipBit_frame_header (by omega), readFrame_append flipBit_header_length,
    hsize, (headerLength_header_eq_iff s).mpr hlength, CString.strlen,
    List.take_length, if_neg]
  intro hframe
  exact hcrc hframe.right

theorem readFrame_flipped_text (h : 48 <= n)
    (hn : n < 8 * (rpcHeaderLength + s.strlen))
    (hlength : s.strlen <= 65535) :
    readFrame (flipBit (frame s) n) = none := by
  have hheader : 8 * (header s).length = 48 := by
    rw [header_length]
    rfl
  have hbit : n - 48 < 8 * s.bytes.length := by
    unfold rpcHeaderLength CString.strlen at hn
    omega
  have hsize : (flipBit s.bytes (n - 48)).length = s.strlen :=
    flipBit_length _ _
  rw [frame, flipBit_append_right (by omega), hheader,
    readFrame_append (header_length s),
    (headerLength_header_eq_iff s).mpr hlength, ← hsize, List.take_length,
    headerCrc_header, if_neg]
  intro hframe
  exact calcCrc32_flipBit_ne s.bytes (n - 48) hbit hframe.right.symm

theorem readFrame_flipped_longer {j : Nat} (hj : j < 16)
    (hlength : s.strlen <= 65535) (hclear : s.strlen.testBit j = false) :
    readFrame (flipBit (frame s) (32 + j)) = none := by
  have hpos : 0 < 2 ^ j := Nat.two_pow_pos j
  rcases headerLength_flipBit hj hlength with ⟨_, hsize⟩
  rw [xor_two_pow_of_testBit_false hclear] at hsize
  rw [flipBit_frame_header (by omega), readFrame_append flipBit_header_length,
    hsize, if_neg]
  intro hframe
  have hle : s.strlen + 2 ^ j <= s.strlen := hframe.left
  omega

theorem readFrame_flipped_shorter {j : Nat} (hj : j < 16)
    (hlength : s.strlen <= 65535) (hset : s.strlen.testBit j = true) :
    readFrame (flipBit (frame s) (32 + j)) =
      if calcCrc32 (s.bytes.take (s.strlen - 2 ^ j)) = calcCrc32 s.bytes then
        some (s.bytes.take (s.strlen - 2 ^ j),
          s.bytes.drop (s.strlen - 2 ^ j))
      else none := by
  rcases headerLength_flipBit hj hlength with ⟨hcrc, hsize⟩
  have hless := xor_two_pow_of_testBit_true hset
  have hshort : s.strlen ^^^ 2 ^ j = s.strlen - 2 ^ j := by omega
  have hle : s.strlen - 2 ^ j <= s.bytes.length := Nat.sub_le _ _
  rw [flipBit_frame_header (by omega), readFrame_append flipBit_header_length,
    hsize, hshort, hcrc]
  simp only [hle, true_and, eq_comm]

theorem readFrame_flipped (hn : n < 8 * (rpcHeaderLength + s.strlen))
    (hlength : s.strlen <= 65535) (h : ¬ Overlooked s n) :
    readFrame (flipBit (frame s) n) = none := by
  by_cases hcrc : n < 32
  · exact readFrame_flipped_crc hcrc hlength
  by_cases htext : 48 <= n
  · exact readFrame_flipped_text htext hn hlength
  obtain ⟨j, rfl⟩ : exists j, n = 32 + j := ⟨n - 32, by omega⟩
  have hj : j < 16 := by omega
  cases hbit : s.strlen.testBit j with
  | false => exact readFrame_flipped_longer hj hlength hbit
  | true =>
      rw [readFrame_flipped_shorter hj hlength hbit, if_neg]
      intro heq
      exact h ⟨j, rfl, hj, hbit, heq⟩

theorem not_zeroHeader_flipped : ¬ ZeroHeader (flipBit (frame s) n) := by
  intro hzero
  have hshort := hzero.right.left
  rw [flipBit_length, frame, List.length_append, header_length] at hshort
  omega

theorem handed_over_of_overlooked {table : List RpcFunc} {fd : Int}
    {events : List NetEvent} {sends : List (Option Nat)} {j : Nat}
    (hlength : s.strlen <= 65535) (hj : j < 16)
    (hset : s.strlen.testBit j = true)
    (hcrc : calcCrc32 (s.bytes.take (s.strlen - 2 ^ j)) = calcCrc32 s.bytes)
    (hdelivers : Delivers events (flipBit (frame s) (32 + j))) :
    s.take (s.strlen - 2 ^ j) ∈
      (serve table fd (accepted fd events [] sends)).2.dispatched := by
  have hopen : fd ∈ (accepted fd events [] sends).openFds :=
    List.mem_cons_self ..
  have hframe := readFrame_flipped_shorter hj hlength hset
  rw [if_pos hcrc] at hframe
  have hround := (@exec_rpcHandleRound_payload (served table) fd _ _ _ hopen
    (reception_of_readFrame hdelivers hframe)).left
  have hprefix := @serve_keeps_dispatched table fd
    (accepted fd events [] sends)
  have htext : CString.ofBytes (s.bytes.take (s.strlen - 2 ^ j)) =
      s.take (s.strlen - 2 ^ j) :=
    CString.ofBytes_bytes (s.take (s.strlen - 2 ^ j))
  rw [hround, htext] at hprefix
  exact hprefix.subset (by simp)

theorem take_ne {j : Nat} (hset : s.strlen.testBit j = true) :
    s.take (s.strlen - 2 ^ j) ≠ s := by
  have hpos : 0 < 2 ^ j := Nat.two_pow_pos j
  have hle : 2 ^ j <= s.strlen := Nat.ge_two_pow_of_testBit hset
  intro heq
  have hsize := congrArg CString.strlen heq
  have htake : (s.take (s.strlen - 2 ^ j)).strlen = s.strlen - 2 ^ j := by
    rw [CString.strlen, CString.take, List.length_take]
    exact Nat.min_eq_left (Nat.sub_le _ _)
  omega

/--
A frame with one flipped bit is turned into another request exactly when the
bit is a set bit of the length field and the shorter text has the same
checksum.
-/
theorem flipped_frame_iff (table : List RpcFunc) (fd : Int)
    (events : List NetEvent) (sends : List (Option Nat))
    (hlength : s.strlen <= 65535)
    (hn : n < 8 * (rpcHeaderLength + s.strlen))
    (hdelivers : Delivers events (flipBit (frame s) n)) :
    (forall payload,
      payload ∈ (serve table fd (accepted fd events [] sends)).2.dispatched ->
        payload = s) <-> ¬ Overlooked s n := by
  constructor
  · intro honly hoverlooked
    rcases hoverlooked with ⟨j, rfl, hj, hset, hcrc⟩
    exact take_ne hset (honly _
      (handed_over_of_overlooked hlength hj hset hcrc hdelivers))
  · intro hnot payload hpayload
    have hopen : fd ∈ (accepted fd events [] sends).openFds :=
      List.mem_cons_self ..
    have hframe := readFrame_flipped hn hlength hnot
    have hnone := (@handsOverFrames_of_not_readFrame table fd
      (accepted fd events [] sends) _ hopen rfl hdelivers hframe).mpr
        not_zeroHeader_flipped
    rw [HandsOverFrames, (readFrames_of_none hframe).left] at hnone
    rw [hnone] at hpayload
    cases hpayload

end

def zeroCrcText : CString where
  bytes := [0x9D#8, 0x0A#8, 0xD9#8, 0x6D#8]
  noNul := by decide

/-- A set bit of the length field, and a bit of the text. -/
theorem flipped_zeroCrcText :
    ((forall payload, payload ∈ (serve registeredTable 4 (accepted 4
      [.segment (flipBit (frame zeroCrcText) 34)] [] [])).2.dispatched ->
        payload = zeroCrcText) <-> ¬ Overlooked zeroCrcText 34) ∧
      ((forall payload, payload ∈ (serve registeredTable 4 (accepted 4
        [.segment (flipBit (frame zeroCrcText) 61)] [] [])).2.dispatched ->
          payload = zeroCrcText) <-> ¬ Overlooked zeroCrcText 61) :=
  ⟨flipped_frame_iff registeredTable 4 _ [] (by decide) (by decide)
      (delivers_segment _),
    flipped_frame_iff registeredTable 4 _ [] (by decide) (by decide)
      (delivers_segment _)⟩

theorem calcCrc32_zeroCrcText : calcCrc32 zeroCrcText.bytes = 0#32 := by
  decide +kernel

/-- With its length flipped from four to zero, the empty text is processed. -/
theorem zeroCrcText_overlooked :
    zeroCrcText.strlen = 4 ∧
      ¬ forall payload, payload ∈ (serve [] 4 (accepted 4
        [.segment (flipBit (frame zeroCrcText) 34)] [] [])).2.dispatched ->
          payload = zeroCrcText := by
  refine ⟨rfl, ?_⟩
  intro honly
  have hset : zeroCrcText.strlen.testBit 2 = true := by decide
  have hcrc : calcCrc32 (zeroCrcText.bytes.take (zeroCrcText.strlen - 2 ^ 2)) =
      calcCrc32 zeroCrcText.bytes := by
    rw [calcCrc32_zeroCrcText]
    decide
  exact take_ne hset (honly _ (handed_over_of_overlooked (by decide)
    (by decide) hset hcrc (delivers_segment _)))

end Session
end Z2wRpc
