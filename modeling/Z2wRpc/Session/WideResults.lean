import Z2wRpc.CJson.WideNumbers
import Z2wRpc.Call.ReplyIdentity
import Z2wRpc.Session.StubFailure

/-!
# Wide integer results

A `long` goes into the reply as a `double`, is printed, read and printed again,
and `atol` reads that text.  It comes back as long as its digits are printed;
from a text with an exponent `atol` reads the first digit.
-/

namespace Z2wRpc

open Foundation

namespace Session

open Call CJson Dispatch

/-- The return types that the stub converts with `atol` or `atoll`. -/
def IsWide (rettype : CString) : Prop :=
  rettype = .lit "long" ∨ rettype = .lit "long " ∨
    rettype = .lit "long long" ∨ rettype = .lit "long long "

def HandlerReturns (handler : Handler) (room : CString -> Room)
    (params : Option CJson) (r : ℤ) : Prop :=
  exists args, Arguments handler params args ∧
    handler.body.resultItem args (handler.rooms room) =
      some (some (.number (.finite (r : ℚ))))

/-- The stub gets this number out of the response of the handler. -/
def StubReceives (handler : Handler) (room : CString -> Room)
    (params : Option CJson) (task : RpcTask) (r : Int64) : Prop :=
  exists response, (handler.run room params task).result = .ok response ∧
    stubReturn handler.rettype (rpcResponseJsonDecode response) =
      .ok (.long r)

theorem conversion_of_isWide {rettype : CString} (h : IsWide rettype) :
    conversion rettype = some fun result => .long (atol result) := by
  rcases h with rfl | rfl | rfl | rfl
  · rfl
  · rfl
  · rfl
  · rfl

section

variable {handler : Handler} {room : CString -> Room} {params : Option CJson}
  {task : RpcTask}

theorem run_of_handlerReturns {r : ℤ}
    (h : HandlerReturns handler room params r) :
    (handler.run room params task).result =
      .ok (some (print (responseDocument task.method
        (some (.number (.finite (r : ℚ)))) task.callerid))) := by
  rcases h with ⟨args, hargs, hresult⟩
  rw [Handler.run_result_ok_iff]
  exact ⟨args, _, hargs, hresult, rfl⟩

theorem decode_response {r : ℤ} {d : Double}
    (hread : Double.strtod (printNumber (.finite (r : ℚ))) = some (d, [])) :
    rpcResponseJsonDecode (some (print (responseDocument task.method
        (some (.number (.finite (r : ℚ)))) task.callerid))) =
      some (print (.number d)) := by
  have hparse := parse_responseDocument_of_readsAs
    (.some (readsAs_of_strtod hread 1 1)) task.method task.callerid
  rw [rpcResponseJsonDecode, Option.bind_some, hparse]
  cases task.method with
  | none => rfl
  | some name => rfl

theorem stubReceives_iff_of_strtod {r : ℤ} {d : Double}
    (hwide : IsWide handler.rettype)
    (hreturns : HandlerReturns handler room params r)
    (hread : Double.strtod (printNumber (.finite (r : ℚ))) = some (d, []))
    (value : Int64) :
    StubReceives handler room params task value <->
      atol (print (.number d)) = value := by
  have hconvert : forall text, stubReturn handler.rettype (some text) =
      .ok (.long (atol text)) := by
    intro text
    simp only [stubReturn, conversion_of_isWide hwide]
  rw [StubReceives, run_of_handlerReturns hreturns]
  simp only [Except.ok.injEq, exists_eq_left', decode_response hread, hconvert,
    Returned.long.injEq]

theorem print_number_bytes (d : Double) :
    (print (.number d)).bytes = printNumber d := by
  rw [print_bytes, printValue]

end

/--
A wide result comes back exactly when it is printed with all its digits: when
it has at most fifteen of them, or is too far from a multiple of ten for
`compare_double`.
-/
theorem wide_result_iff {handler : Handler} {room : CString -> Room}
    {params : Option CJson} (task : RpcTask) {r : Int64}
    (hwide : IsWide handler.rettype)
    (hreturns : HandlerReturns handler room params r.toInt)
    (hrange : r.toInt.natAbs <= 2 ^ 53) :
    StubReceives handler room params task r <->
      KeepsDigits r.toInt.natAbs := by
  by_cases hkeeps : KeepsDigits r.toInt.natAbs
  · have hread := strtod_of_keepsDigits hrange hkeeps
    have hbytes : (print (.number (.finite (r.toInt : ℚ)))).bytes =
        decimalInt r.toInt := by
      rw [print_number_bytes, printNumber_of_keepsDigits hrange hkeeps]
    rw [stubReceives_iff_of_strtod hwide hreturns hread,
      atol_decimalInt r hbytes]
    simp [hkeeps]
  · rcases printNumber_of_not_keepsDigits hrange hkeeps with
      ⟨j, hread, htext⟩
    have hbytes : (print (.number (.finite (j : ℚ)))).bytes =
        shortText (signText (decide (r.toInt < 0))) (tens r.toInt.natAbs) := by
      rw [print_number_bytes, htext]
    have hdigit := atol_shortText hbytes
    have hlarge := (wide_of_not_keepsDigits hrange hkeeps).left
    rw [stubReceives_iff_of_strtod hwide hreturns hread]
    constructor
    · intro hvalue
      rw [hvalue] at hdigit
      omega
    · intro h
      exact absurd h hkeeps

/-- A method without parameters that returns this `long`. -/
def longHandler (r : Int64) : Handler where
  params := []
  rettype := .lit "long"
  body := .number fun _ => some (.finite (r.toInt : ℚ))
  returns := rfl

def longTask : RpcTask where
  method := some (.lit "total")
  callerid := 1

def noRooms (_ : CString) : Room := .empty

theorem longHandler_returns (r : Int64) :
    HandlerReturns (longHandler r) noRooms none r.toInt :=
  ⟨[], .nil, rfl⟩

theorem long_result_received :
    StubReceives (longHandler 1000000000000003) noRooms none longTask
      1000000000000003 :=
  (wide_result_iff longTask (Or.inl rfl) (longHandler_returns _)
    (by decide)).mpr (Or.inr (by decide))

/-- Of `10^15` the stub gets the first digit. -/
theorem long_result_cut :
    StubReceives (longHandler 1000000000000000) noRooms none longTask 1 ∧
      ¬ StubReceives (longHandler 1000000000000000) noRooms none longTask
        1000000000000000 := by
  have hread : Double.strtod (printNumber
      (.finite ((1000000000000000 : Int64).toInt : ℚ))) =
        some (.finite (10 ^ 15), []) := by
    decide +kernel
  have hvalue : atol (print (.number (.finite (10 ^ 15)))) = 1 := by
    decide +kernel
  have hreceives (value : Int64) :
      StubReceives (longHandler 1000000000000000) noRooms none longTask value <->
        1 = value := by
    rw [<- hvalue]
    exact stubReceives_iff_of_strtod (Or.inl rfl) (longHandler_returns _)
      hread value
  rw [hreceives, hreceives]
  exact ⟨rfl, by decide⟩

end Session
end Z2wRpc
