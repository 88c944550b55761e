import Z2wRpc.Session.Framing

/-!
# Frames and the texts that are handed on

The receivers check a payload by its length, and hand it on as a C string.  The
text has the header that was received exactly when the payload holds no NUL
byte.
-/

namespace Z2wRpc

open Foundation

namespace Session

open Dispatch Wire Program

structure IsFrame (h payload : List Byte) : Prop where
  header : h.length = rpcHeaderLength
  payload : payload.length = headerLength h

/--
Wherever the frame is accepted, `rpc_header_encode` gives its header back for
the text that the server hands to `rpc_process` or the client returns.
-/
structure AcceptedCanonically (h payload : List Byte) : Prop where
  server : forall process fd w rest, fd ∈ w.openFds -> w.allocate.1 = true ->
    Delivered w.incoming h payload rest -> exists text,
      (exec (network process) (rpcHandleRound fd) w).2.dispatched =
        w.dispatched ++ [text] ∧ rpcHeaderEncode (some text) = some h
  client : forall process ip port request w rest, w.refused = false ->
    w.allocate.1 = true -> Delivered w.incoming h payload rest ->
    exists text,
      (exec (network process)
        (rpcClientSession (.live ip) port (some request)) w).1 =
          .ok (some text) ∧ rpcHeaderEncode (some text) = some h

section

variable {h payload : List Byte}

theorem rpcHeaderEncode_of_noNul (hframe : IsFrame h payload)
    (hcrc : headerCrc h = calcCrc32 payload) (hnul : 0#8 ∉ payload) :
    rpcHeaderEncode (some (CString.ofBytes payload)) = some h := by
  have hbytes := CString.ofBytes_bytes_of_noNul hnul
  rw [rpcHeaderEncode, header, CString.strlen, hbytes, <- hcrc,
    hframe.payload, header_of_fields hframe.header]

theorem noNul_of_rpcHeaderEncode (hframe : IsFrame h payload)
    (hencode : rpcHeaderEncode (some (CString.ofBytes payload)) = some h) :
    0#8 ∉ payload := by
  have hfield := congrArg headerLength (Option.some.inj hencode)
  have hle := CString.ofBytes_length_le payload
  have hlt := headerLength_lt h
  rw [headerLength_header, <- hframe.payload] at hfield
  have hlength : (CString.ofBytes payload).bytes.length = payload.length := by
    rw [CString.strlen] at hfield hle
    rw [<- hframe.payload] at hlt
    omega
  have hall : (CString.ofBytes payload).bytes = payload :=
    (List.takeWhile_prefix _).eq_of_length hlength
  rw [<- hall]
  exact (CString.ofBytes payload).noNul

theorem reception_of_accepted {w : World} {rest : List NetEvent}
    (hbuffer : w.allocate.1 = true)
    (hdelivered : Delivered w.incoming h payload rest)
    (hcrc : headerCrc h = calcCrc32 payload) :
    reception w.allocate.1 w.incoming =
      (.payload (CString.ofBytes payload), rest) := by
  rw [hbuffer, reception_of_delivered hdelivered, if_pos hcrc]

theorem noNul_of_acceptedCanonically (hframe : IsFrame h payload)
    (hcrc : headerCrc h = calcCrc32 payload)
    (hcanonical : AcceptedCanonically h payload) : 0#8 ∉ payload := by
  have hdelivered := delivered_segment hframe.header hframe.payload []
  rw [List.append_nil] at hdelivered
  have hbuffer : (accepted 4 [.segment (h ++ payload)] [] []).allocate.1 =
      true := rfl
  have hopen : 4 ∈ (accepted 4 [.segment (h ++ payload)] [] []).openFds :=
    List.mem_cons_self
  rcases hcanonical.server (fun _ => .error .assertion) 4 _ _ hopen hbuffer
    hdelivered with ⟨text, hdispatched, hencode⟩
  rw [(exec_rpcHandleRound_payload hopen
    (reception_of_accepted hbuffer hdelivered hcrc)).left] at hdispatched
  obtain rfl : CString.ofBytes payload = text := by
    simpa using hdispatched
  exact noNul_of_rpcHeaderEncode hframe hencode

end

/--
An accepted frame is the encoding of the text that is handed on exactly when its
payload holds no NUL byte.
-/
theorem acceptedCanonically_iff {h payload : List Byte}
    (hframe : IsFrame h payload) (hcrc : headerCrc h = calcCrc32 payload) :
    AcceptedCanonically h payload <-> 0#8 ∉ payload := by
  constructor
  · intro hcanonical
    exact noNul_of_acceptedCanonically hframe hcrc hcanonical
  · intro hnul
    have hencode := rpcHeaderEncode_of_noNul hframe hcrc hnul
    constructor
    · intro process fd w rest hopen hbuffer hdelivered
      exact ⟨_, (exec_rpcHandleRound_payload hopen
        (reception_of_accepted hbuffer hdelivered hcrc)).left, hencode⟩
    · intro process ip port request w rest haccepts hbuffer hdelivered
      have hresult := (@exec_rpcClientSession process w haccepts ip port
        request).left
      rw [reception_of_accepted hbuffer hdelivered hcrc] at hresult
      exact ⟨_, hresult, hencode⟩

theorem acceptedCanonically_text :
    AcceptedCanonically (header (.lit "add")) (ascii "add") :=
  (acceptedCanonically_iff ⟨by decide +kernel, by decide +kernel⟩
    (by decide +kernel)).mpr (by decide)

def hiddenPayload : List Byte := ascii "add" ++ [0#8, 0x21#8]

def hiddenHeader : List Byte :=
  leBytes 4 (calcCrc32 hiddenPayload).toNat ++
    leBytes 2 hiddenPayload.length

/-- The checksum covers a byte that is not part of the text. -/
theorem hiddenPayload_not_canonical :
    IsFrame hiddenHeader hiddenPayload ∧
      headerCrc hiddenHeader = calcCrc32 hiddenPayload ∧
      CString.ofBytes hiddenPayload = .lit "add" ∧
      ¬ AcceptedCanonically hiddenHeader hiddenPayload := by
  have hframe : IsFrame hiddenHeader hiddenPayload :=
    ⟨by decide +kernel, by decide +kernel⟩
  have hcrc : headerCrc hiddenHeader = calcCrc32 hiddenPayload := by
    decide +kernel
  refine ⟨hframe, hcrc, by decide +kernel, fun hcanonical => ?_⟩
  exact absurd (noNul_of_acceptedCanonically hframe hcrc hcanonical)
    (by decide)

end Session
end Z2wRpc
