import Z2wRpc.CJson.NumberText
import Z2wRpc.Call.Arguments

/-!
# The identity of a reply

A reply repeats the method and the callerid of its request.  The callerid is an
`int` on its way into `rpc_process` and an `unsigned int` in the task, and the
reply prints the unsigned number.
-/

namespace Z2wRpc

open Foundation

namespace Call

open CJson Dispatch

def Identifies (reply name : CString) (callerid : Int32) : Prop :=
  exists root, parse reply = some root ∧
    member root "method" = some (.string name) ∧
    member root "callerid" = some (.number (.finite callerid.toInt))

/-!
## Replies are read back
-/

theorem resultItem_cases {body : Body} {args : List Value}
    {rooms : List Room} {result : Option CJson}
    (h : body.resultItem args rooms = some result) :
    result = none ∨ (exists s, result = some (.string s)) ∨
      exists d, result = some (.number d) := by
  cases body with
  | text rpc =>
      rcases Option.map_eq_some_iff.mp h with ⟨ret, _, rfl⟩
      cases ret with
      | none => exact Or.inl rfl
      | some s => exact Or.inr (Or.inl ⟨s, rfl⟩)
  | number rpc =>
      rcases Option.map_eq_some_iff.mp h with ⟨ret, _, rfl⟩
      exact Or.inr (Or.inr ⟨ret, rfl⟩)

theorem readsAs_of_readable {t : CJson} (h : Readable 0 t) :
    ReadsAs 1 1 t t :=
  readsAs_of_readsBack h (readsBack_of_readable h 1 1 (by decide))

theorem parse_responseDocument_of_readsAs {result result' : Option CJson}
    (h : Option.Rel (ReadsAs 1 1) result result') (method : Option CString)
    (callerid : UInt32) :
    parse (print (responseDocument method result callerid)) =
      some (responseDocument method result' callerid) := by
  have hname (name : CString) := readsAs_of_readable (Readable.string name)
  have hid := readsAs_of_readable
    (Readable.number (numberExact_toNat callerid))
  apply parse_print_of_readsAs
  · apply readsAs_object (by decide)
    cases method with
    | none =>
        cases h with
        | none => exact .cons ⟨rfl, hid⟩ .nil
        | some hitem => exact .cons ⟨rfl, hitem⟩ (.cons ⟨rfl, hid⟩ .nil)
    | some name =>
        cases h with
        | none => exact .cons ⟨rfl, hname name⟩ (.cons ⟨rfl, hid⟩ .nil)
        | some hitem =>
            exact .cons ⟨rfl, hname name⟩
              (.cons ⟨rfl, hitem⟩ (.cons ⟨rfl, hid⟩ .nil))
  · intro b bs htext
    rw [responseDocument, printValue, List.cons.injEq] at htext
    rw [← htext.left]
    decide

theorem parse_responseDocument {result : Option CJson}
    (h : result = none ∨ (exists s, result = some (.string s)) ∨
      exists d, result = some (.number d)) (name : CString)
    (callerid : UInt32) :
    exists result', parse (print (responseDocument (some name) result
        callerid)) = some (responseDocument (some name) result' callerid) := by
  have hread {result' : Option CJson}
      (hrel : Option.Rel (ReadsAs 1 1) result result') :=
    parse_responseDocument_of_readsAs hrel (some name) callerid
  rcases h with rfl | ⟨s, rfl⟩ | ⟨d, rfl⟩
  · exact ⟨none, hread .none⟩
  · exact ⟨some (.string s), hread (.some
      (readsAs_of_readable (Readable.string s)))⟩
  · rcases readsAs_number d with ⟨item, hitem⟩
    exact ⟨some item, hread (.some (hitem 1 1))⟩

theorem member_responseDocument (name : CString) (result : Option CJson)
    (callerid : UInt32) :
    member (responseDocument (some name) result callerid) "method" =
        some (.string name) ∧
      member (responseDocument (some name) result callerid) "callerid" =
        some (.number (.finite (callerid.toNat : ℚ))) := by
  cases result with
  | none => exact ⟨rfl, rfl⟩
  | some item => exact ⟨rfl, rfl⟩

/-!
## The callerid
-/

theorem toUInt32_toNat_eq_iff (i : Int32) :
    ((i.toUInt32.toNat : ℚ) = (i.toInt : ℚ)) <-> 0 <= i.toInt := by
  have hcast : ((i.toUInt32.toNat : ℚ) = (i.toInt : ℚ)) <->
      ((i.toUInt32.toNat : ℤ) = i.toInt) := by
    rw [← Int.cast_natCast, Int.cast_inj]
  rw [hcast]
  have hbits : i.toUInt32.toNat = i.toBitVec.toNat := rfl
  have hint : i.toInt = i.toBitVec.toInt := rfl
  have hlt := i.toBitVec.isLt
  rw [hbits, hint, BitVec.toInt_eq_toNat_cond]
  split <;> omega

/-- A reply carries the identity of its request exactly when the callerid is
not negative. -/
theorem reply_identifies_iff {table : List RpcFunc} {request : CString}
    (a : Answer table request) {callerid : Int32}
    (hid : a.callerid = .number (.finite callerid.toInt)) :
    Identifies (print a.document) a.name callerid <-> 0 <= callerid.toInt := by
  have hvalue : a.callerid.valueint = callerid := by
    rw [hid, valueint, saturate_toInt]
  rcases parse_responseDocument (resultItem_cases a.returned) a.name
    callerid.toUInt32 with ⟨result', hparse⟩
  have hdocument : a.document =
      responseDocument (some a.name) a.result callerid.toUInt32 := by
    rw [Answer.document, hvalue]
  rcases member_responseDocument a.name result' callerid.toUInt32 with
    ⟨hname, hmember⟩
  rw [← toUInt32_toNat_eq_iff, Identifies, hdocument, hparse]
  constructor
  · intro h
    rcases h with ⟨root, hroot, _, hroot'⟩
    rw [← Option.some.inj hroot, hmember] at hroot'
    exact Double.finite.inj (CJson.number.inj (Option.some.inj hroot'))
  · intro h
    refine ⟨_, rfl, hname, ?_⟩
    rw [hmember, h]

/-- The answer to `add(2, 3)` under any callerid. -/
def addAnswerFor (callerid : Int32) :
    Answer registeredTable (print (requestDocument (some addSignature.method)
      (argMembers addSignature.params [.int 2, .int 3]) callerid)) where
  toInvocation := deployed_add.invocation add_exact callerid add_handed
  result := some (.number (.finite (rpcAdd 2 3).toInt))
  returned := rfl

theorem add_reply_identified :
    Identifies (print (addAnswerFor 7).document) (.lit "add") 7 :=
  (reply_identifies_iff (addAnswerFor 7) rfl).mpr (by decide)

/-- The callerid behind the largest one, to which the counter wraps, comes back
as a large positive number. -/
theorem negative_callerid_changed :
    (addAnswerFor Int32.minValue).callerid =
        .number (.finite Int32.minValue.toInt) ∧
      member (addAnswerFor Int32.minValue).document "callerid" =
        some (.number (.finite (2147483648 : ℕ))) ∧
      ¬ Identifies (print (addAnswerFor Int32.minValue).document) (.lit "add")
        Int32.minValue := by
  have hid : (addAnswerFor Int32.minValue).callerid.valueint =
      Int32.minValue := saturate_toInt Int32.minValue
  refine ⟨rfl, ?_, ?_⟩
  · rw [Answer.document, hid]
    rfl
  · intro h
    have hpos := (reply_identifies_iff (addAnswerFor Int32.minValue) rfl).mp h
    exact absurd hpos (by decide)

end Call
end Z2wRpc
