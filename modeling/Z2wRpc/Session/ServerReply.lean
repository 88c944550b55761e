import Z2wRpc.Session.ServerSafety

/-!
# The reply to a payload that passes the checksum

`rpc_process` returns `NULL` in several places, and `rpc_handle` does not look
at what it got.  A checked payload is answered by a well-formed frame exactly
when it is a request that can be carried out and whose reply fits the length
field.
-/

namespace Z2wRpc

open Foundation

namespace Session

open Call Dispatch Wire Program

def WellFormed (h body : List Byte) : Prop :=
  h.length = rpcHeaderLength ∧ headerLength h = body.length ∧
    headerCrc h = calcCrc32 body

/-- The round writes one well-formed frame and goes on, or leaves the loop,
behind which the connection is closed. -/
def Responds (table : List RpcFunc) (fd : Int) (w : World) : Prop :=
  let run := exec (network (served table)) (rpcHandleRound fd) w
  (run.1 = .ok true ∧ exists h body, WellFormed h body ∧
    run.2.written = w.written ++ (h ++ body)) ∨ run.1 = .ok false

theorem wellFormed_header_iff (s : CString) :
    WellFormed (header s) s.bytes <-> s.strlen <= 65535 := by
  constructor
  · intro h
    exact (headerLength_header_eq_iff s).mp h.right.left
  · intro h
    exact ⟨header_length s, (headerLength_header_eq_iff s).mpr h,
      headerCrc_header s⟩

theorem exists_wellFormed_iff (s : CString) :
    (exists h body, WellFormed h body ∧ frame s = h ++ body) <->
      s.strlen <= 65535 := by
  rw [← wellFormed_header_iff]
  constructor
  · intro h
    rcases h with ⟨head, body, hformed, hframe⟩
    have hlength : (header s).length = head.length := by
      rw [header_length, hformed.left]
    rcases List.append_inj hframe hlength with ⟨hhead, hbody⟩
    rw [hhead, hbody]
    exact hformed
  · intro h
    exact ⟨header s, s.bytes, h, rfl⟩

section

variable {table : List RpcFunc} {fd : Int} {w w' : World}

theorem not_responds_of_error {e : Fault}
    (hround : exec (network (served table)) (rpcHandleRound fd) w =
      (.error e, w')) : ¬ Responds table fd w := by
  intro h
  rw [Responds, hround] at h
  simp at h

theorem responds_of_reply_iff {reply : CString}
    (hround : exec (network (served table)) (rpcHandleRound fd) w =
      (.ok true, w'.sendFrame reply))
    (hsends : w'.sends = []) (hwritten : w'.written = w.written) :
    Responds table fd w <-> reply.strlen <= 65535 := by
  rw [Responds, hround, ← exists_wellFormed_iff]
  simp only [sendFrame_written _ _ hsends, hwritten, List.append_cancel_left_eq]
  simp

/-- A checked payload is answered exactly when it is a request that can be
carried out and the parts of its reply fit the length field. -/
theorem responds_iff {h payload : List Byte} {rest : List NetEvent}
    (hopen : fd ∈ w.openFds) (hsends : w.sends = [])
    (hbuffer : HasBuffer w.mallocs)
    (hdelivered : Delivered w.incoming h payload rest)
    (hcrc : headerCrc h = calcCrc32 payload) :
    Responds table fd w <->
      exists a : Answer table (CString.ofBytes payload),
        replySize a.name a.result a.callerid.valueint.toUInt32 <= 65535 := by
  have hround := @exec_rpcHandleRound (served table) fd w hopen
  rw [allocate_of_buffer hbuffer, reception_of_delivered hdelivered,
    if_pos hcrc] at hround
  simp only [served] at hround
  by_cases hanswer : Answerable table (CString.ofBytes payload)
  · rcases hanswer with ⟨a⟩
    have hreply := rpcProcess_result_some_iff.mpr ⟨a, rfl⟩
    rw [hreply] at hround
    rw [responds_of_reply_iff hround (by simpa [World.handOver] using hsends)
      (by simp [World.handOver])]
    constructor
    · intro hlength
      refine ⟨a, ?_⟩
      rw [← print_responseDocument_strlen]
      exact hlength
    · intro hfits
      rcases hfits with ⟨b, hb⟩
      rw [← print_responseDocument_strlen] at hb
      -- the reply does not depend on how the request is read
      have hother := rpcProcess_result_some_iff.mpr ⟨b, rfl⟩
      rw [hreply] at hother
      rw [Option.some.inj (Except.ok.inj hother)]
      exact hb
  · have hrefused : ¬ Responds table fd w := by
      rcases exists_error_of_not_answerable hopen hbuffer hdelivered hcrc
        hanswer with ⟨e, w', herror⟩
      exact not_responds_of_error herror
    constructor
    · intro hresponds
      exact absurd hresponds hrefused
    · intro hfits
      rcases hfits with ⟨a, _⟩
      exact absurd ⟨a⟩ hanswer

end

theorem add_request_responded :
    Responds registeredTable 5
      (accepted 5 [.segment (frame addRequest ++ [])] [] []) := by
  have hdelivered := delivered_whole_frame addRequest_strlen_le []
  have hresponds := @responds_iff registeredTable 5
    (accepted 5 [.segment (frame addRequest ++ [])] [] []) _ _ _
    (List.mem_cons_self ..) rfl (by simp [HasBuffer, accepted]) hdelivered
    (headerCrc_header addRequest)
  rw [CString.ofBytes_bytes] at hresponds
  exact hresponds.mpr ⟨addAnswer, by decide +kernel⟩

/-- The header of the empty payload is enough to make the server go on with
`NULL`. -/
theorem empty_payload_unanswered :
    Loaded librpcMethod registeredGlobals ∧
      Delivered [.segment (List.replicate 6 0#8)] (List.replicate 6 0#8) [] [] ∧
      headerCrc (List.replicate 6 0#8) = calcCrc32 [] ∧
      (exec (network (served registeredGlobals.rpcCallerTable))
        (rpcHandleRound 5)
        (accepted 5 [.segment (List.replicate 6 0#8)] [] [])).1 =
          .error .nullString ∧
      ¬ Responds registeredGlobals.rpcCallerTable 5
        (accepted 5 [.segment (List.replicate 6 0#8)] [] []) := by
  have hrun : (exec (network (served registeredGlobals.rpcCallerTable))
      (rpcHandleRound 5)
      (accepted 5 [.segment (List.replicate 6 0#8)] [] [])).1 =
        .error .nullString := rfl
  refine ⟨loaded_registeredGlobals, ?_, ?_, hrun, ?_⟩
  · exact ⟨[], ⟨0#8, List.replicate 5 0#8, rfl, rfl⟩, rfl, rfl⟩
  · rw [calcCrc32_nil]
    rfl
  · exact not_responds_of_error (Prod.ext hrun rfl)

end Session
end Z2wRpc
