import Z2wRpc.Session.Client
import Z2wRpc.Session.Server

/-!
# Frames on a stream

A frame is a header and its text, received with two `recv` calls.  What the
receivers make of a stream of frames depends on two things: whether the 16-bit
length field holds the length of the text, and whether the transport delivers
header and text in one piece each.
-/

namespace Z2wRpc

open Foundation

namespace Session

open Dispatch Wire Program

/-!
## Whole frames
-/

theorem header_eq_cons (s : CString) :
    exists b bs, header s = b :: bs := by
  have hlength := header_length s
  cases h : header s with
  | nil =>
      rw [h] at hlength
      cases hlength
  | cons b bs => exact ⟨b, bs, rfl⟩

theorem delivered_of_receive {s : CString} {events rest rest' : List NetEvent}
    (hlength : s.strlen <= 65535)
    (hheader : receive rpcHeaderLength events = (some (header s), rest))
    (htext : receive s.strlen rest = (some s.bytes, rest')) :
    Delivered events (header s) s.bytes rest' := by
  have hfield := (headerLength_header_eq_iff s).mpr hlength
  rcases header_eq_cons s with ⟨b, bs, hcons⟩
  refine ⟨rest, ⟨b, bs, ?_, ?_⟩, ?_, ?_⟩
  · rw [hheader, hcons]
  · rw [← hcons, zeroFill_of_length_eq (header_length s)]
  · rw [hfield]
    exact htext
  · rw [hfield, CString.strlen]

theorem reception_frame {s : CString} {events rest : List NetEvent}
    (hdelivered : Delivered events (header s) s.bytes rest) :
    reception true events = (.payload s, rest) := by
  rw [reception_of_delivered hdelivered, if_pos (headerCrc_header s),
    CString.ofBytes_bytes]

theorem delivered_segment {h payload : List Byte}
    (hheader : h.length = rpcHeaderLength)
    (hpayload : payload.length = headerLength h) (rest : List Byte) :
    Delivered [.segment (h ++ (payload ++ rest))] h payload
      ((Segments.pushBack rest []).map .segment) := by
  cases h with
  | nil => cases hheader
  | cons b bs =>
      have hchunk : [NetEvent.segment (b :: bs ++ (payload ++ rest))] =
          (Segments.pushBack (b :: bs ++ (payload ++ rest)) []).map
            .segment := rfl
      have hread := Segments.read_pushBack payload rest
      refine ⟨(Segments.pushBack (payload ++ rest) []).map .segment,
        ⟨b, bs, ?_, ?_⟩, ?_, hpayload⟩
      · rw [hchunk, receive_segments, <- hheader, Segments.read_pushBack]
      · rw [zeroFill_of_length_eq hheader]
      · rw [receive_segments, <- hpayload, hread]

theorem delivered_frame (s : CString) (rest : List Byte) :
    Delivered [.segment (frame s ++ rest)] (header s)
      (s.bytes.take (s.strlen % 65536))
      ((Segments.pushBack (s.bytes.drop (s.strlen % 65536) ++ rest) []).map
        .segment) := by
  have hlength : (s.bytes.take (s.strlen % 65536)).length =
      headerLength (header s) := by
    rw [headerLength_header, List.length_take, CString.strlen]
    exact Nat.min_eq_left (Nat.mod_le _ _)
  have hdelivered := delivered_segment (header_length s) hlength
    (s.bytes.drop (s.strlen % 65536) ++ rest)
  rw [<- List.append_assoc (s.bytes.take _), List.take_append_drop,
    <- List.append_assoc] at hdelivered
  exact hdelivered

theorem delivered_whole_frame {s : CString} (hlength : s.strlen <= 65535)
    (rest : List Byte) :
    Delivered [.segment (frame s ++ rest)] (header s) s.bytes
      ((Segments.pushBack rest []).map .segment) := by
  have hdelivered := delivered_frame s rest
  rw [Nat.mod_eq_of_lt (by omega), CString.strlen, List.take_length,
    List.drop_length, List.nil_append] at hdelivered
  exact hdelivered

/--
The encoded text is decoded: the length field is right, the server hands the
text to `rpc_process` and the client returns it, and both are left at the first
byte behind the frame.
-/
def FrameDecoded (s : CString) : Prop :=
  headerLength (header s) = s.strlen ∧
    (forall table fd rest sends,
      let w := (exec (network (served table)) (rpcHandleRound fd)
        (accepted fd [.segment (frame s ++ rest)] [] sends)).2
      w.dispatched = [s] ∧ unread w.incoming = rest) ∧
    forall process ip port request rest sends,
      let r := exec (network process)
        (rpcClientSession (.live ip) port (some request))
        (calling [.segment (frame s ++ rest)] sends)
      r.1 = .ok (some s) ∧ unread r.2.incoming = rest

theorem unread_pushBack (rest : List Byte) :
    unread ((Segments.pushBack rest []).map .segment) = rest := by
  rw [unread_segments, Segments.flatten_pushBack]
  exact List.append_nil rest

theorem server_decodes {s : CString} (hlength : s.strlen <= 65535)
    (table : List RpcFunc) (fd : Int) (rest : List Byte)
    (sends : List (Option Nat)) :
    let w := (exec (network (served table)) (rpcHandleRound fd)
      (accepted fd [.segment (frame s ++ rest)] [] sends)).2
    w.dispatched = [s] ∧ unread w.incoming = rest := by
  have hopen : fd ∈ (accepted fd [.segment (frame s ++ rest)] []
      sends).openFds := List.mem_cons_self ..
  have hreception : reception
      (accepted fd [.segment (frame s ++ rest)] [] sends).allocate.1
      (accepted fd [.segment (frame s ++ rest)] [] sends).incoming =
        (.payload s, (Segments.pushBack rest []).map .segment) :=
    reception_frame (delivered_whole_frame hlength rest)
  have hround := @exec_rpcHandleRound_payload (served table) fd _ _ _ hopen
    hreception
  exact ⟨hround.left, by rw [hround.right, unread_pushBack]⟩

theorem client_decodes {s : CString} (hlength : s.strlen <= 65535)
    (process : CString -> Except Fault (Option CString)) (ip : CString)
    (port : Int16) (request : CString) (rest : List Byte)
    (sends : List (Option Nat)) :
    let r := exec (network process)
      (rpcClientSession (.live ip) port (some request))
      (calling [.segment (frame s ++ rest)] sends)
    r.1 = .ok (some s) ∧ unread r.2.incoming = rest := by
  have haccepts : (calling [.segment (frame s ++ rest)] sends).refused =
      false := rfl
  have hreception : reception
      (calling [.segment (frame s ++ rest)] sends).allocate.1
      (calling [.segment (frame s ++ rest)] sends).incoming =
        (.payload s, (Segments.pushBack rest []).map .segment) :=
    reception_frame (delivered_whole_frame hlength rest)
  rcases exec_rpcClientSession haccepts ip port request with
    ⟨hresult, hincoming, _⟩
  rw [hreception] at hresult hincoming
  exact ⟨hresult, by rw [hincoming, unread_pushBack]⟩

/-- Decoding undoes encoding exactly for the texts that the length field fits. -/
theorem frameDecoded_iff (s : CString) :
    FrameDecoded s <-> s.strlen <= 65535 := by
  constructor
  · intro h
    rcases h with ⟨hlength, _⟩
    exact (headerLength_header_eq_iff s).mp hlength
  · intro hlength
    exact ⟨(headerLength_header_eq_iff s).mpr hlength,
      server_decodes hlength, client_decodes hlength⟩

def longText : CString where
  bytes := List.replicate 65536 0x61#8
  noNul h := absurd (List.eq_of_mem_replicate h) (by decide)

/-- The length of the long text is stored as zero. -/
theorem longText_not_decoded :
    headerLength (header longText) = 0 ∧ ¬ FrameDecoded longText := by
  have hstrlen : longText.strlen = 65536 := List.length_replicate
  have hfield : headerLength (header longText) = 0 := by
    rw [headerLength_header, hstrlen]
  refine ⟨hfield, fun h => ?_⟩
  have hlength := h.left
  rw [hfield, hstrlen] at hlength
  cases hlength

end Session
end Z2wRpc
