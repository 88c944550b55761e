import Z2wRpc.Session.Stub

/-!
# Remote integer calls

`add` and `sum` take four changes of representation: `int` to `double`, to
decimal text, to framed bytes, and back.  Every number on the way is a whole
number in the range of `int`, so each stage restores it.  Only an entry without
a name, in front of the method's own in one of the tables, can stop a call.
-/

namespace Z2wRpc

open Foundation

namespace Session

open Call CJson Dispatch Wire Program

def intItem (i : Int32) : CJson := .number (.finite i.toInt)

theorem readable_intItem (i : Int32) : Readable 0 (intItem i) :=
  Readable.number (numberExact_toInt i)

theorem argOf_intItem (i : Int32) : argOf (.lit "int") (intItem i) = .int i := by
  have hpointer : isCharPointer (.lit "int") = false := by decide
  have hdouble : (CString.lit "int") ≠ .lit "double" := by decide
  have hfloat : (CString.lit "int") ≠ .lit "float" := by decide
  simp [argOf, hpointer, converted, hdouble, hfloat, intItem, valueint]

theorem atoi_print_intItem (i : Int32) : atoi (print (intItem i)) = i := by
  apply atoi_decimalInt
  rw [print_bytes, intItem, printValue, printNumber_toInt]

theorem printValue_intItem_length_le (depth : Nat) (i : Int32) :
    (printValue depth (intItem i)).length <= 11 := by
  have hmin := intMin_le_toInt i
  have hmax := toInt_le_intMax i
  unfold intMin at hmin
  unfold intMax at hmax
  rw [intItem, printValue, printNumber_toInt]
  exact decimalInt_length_le (k := 10) (by omega) (by omega)

/-!
## Sizes
-/

theorem replySize_intItem_le (name : CString) (i : Int32)
    (callerid : UInt32) :
    replySize name (some (intItem i)) callerid <=
      (printString name).length + 65 := by
  have hresult := printValue_intItem_length_le 1 i
  have hid : (printNumber (.finite (callerid.toNat : ℚ))).length <= 11 := by
    have hlt := callerid.toNat_lt
    have hprint := printNumber_intCast (i := callerid.toNat) (by omega)
    rw [Int.cast_natCast] at hprint
    rw [hprint]
    exact decimalInt_length_le (k := 10) (by omega) (by omega)
  rw [replySize, Option.elim_some]
  omega

theorem print_requestDocument_strlen (method : CString) (params : Members)
    (callerid : Int32) :
    (print (requestDocument (some method) params callerid)).strlen =
      (printString method).length + (printMembers 2 params).length +
        (printValue 1 (intItem callerid)).length + 47 := by
  have hmethod : (printString (.lit "method")).length = 8 := by decide
  have hparams : (printString (.lit "params")).length = 8 := by decide
  have hcallerid : (printString (.lit "callerid")).length = 10 := by decide
  rw [CString.strlen, print_bytes]
  simp [requestDocument, createObject, addStringToObject, addNumberToObject,
    addItemToObject, printValue, printMembers, tabs, hmethod, hparams,
    hcallerid, intItem]
  omega

theorem printMembers_cons_intItem_length_le (depth : Nat) (name : CString)
    (i : Int32) (rest : Members) :
    (printMembers depth ((name, intItem i) :: rest)).length <=
      depth + (printString name).length + 15 +
        (printMembers depth rest).length := by
  have hitem := printValue_intItem_length_le depth i
  rw [printMembers]
  cases rest with
  | nil =>
      simp [tabs, printMembers]
      omega
  | cons m rest =>
      simp [tabs]
      omega

theorem printString_letter_length :
    (printString (.lit "a")).length = 3 ∧ (printString (.lit "b")).length = 3 ∧
      (printString (.lit "c")).length = 3 := by
  decide

theorem printMembers_nil (depth : Nat) : printMembers depth [] = [] := rfl

theorem add_fits (globals : Globals) (a b result : Int32) :
    CallFits globals addSignature [.int a, .int b] (intItem result) := by
  have hname : (printString addSignature.method).length = 5 := by decide
  have hid := printValue_intItem_length_le 1 (rpcGetCallerId globals).1
  have hsecond := printMembers_cons_intItem_length_le 2 (.lit "b") b []
  have hfirst := printMembers_cons_intItem_length_le 2 (.lit "a") a
    [(.lit "b", intItem b)]
  have hreply := replySize_intItem_le addSignature.method result
    (rpcGetCallerId globals).1.toUInt32
  have hmembers : argMembers addSignature.params [.int a, .int b] =
      [(.lit "a", intItem a), (.lit "b", intItem b)] := rfl
  rcases printString_letter_length with ⟨ha, hb, _⟩
  rw [printMembers_nil, List.length_nil] at hsecond
  constructor
  · rw [callRequest, print_requestDocument_strlen, hmembers]
    omega
  · omega

theorem sum_fits (globals : Globals) (a b c result : Int32) :
    CallFits globals sumSignature [.int a, .int b, .int c]
      (intItem result) := by
  have hname : (printString sumSignature.method).length = 5 := by decide
  have hid := printValue_intItem_length_le 1 (rpcGetCallerId globals).1
  have hthird := printMembers_cons_intItem_length_le 2 (.lit "c") c []
  have hsecond := printMembers_cons_intItem_length_le 2 (.lit "b") b
    [(.lit "c", intItem c)]
  have hfirst := printMembers_cons_intItem_length_le 2 (.lit "a") a
    [(.lit "b", intItem b), (.lit "c", intItem c)]
  have hreply := replySize_intItem_le sumSignature.method result
    (rpcGetCallerId globals).1.toUInt32
  have hmembers : argMembers sumSignature.params [.int a, .int b, .int c] =
      [(.lit "a", intItem a), (.lit "b", intItem b), (.lit "c", intItem c)] :=
    rfl
  rcases printString_letter_length with ⟨ha, hb, hc⟩
  rw [printMembers_nil, List.length_nil] at hthird
  constructor
  · rw [callRequest, print_requestDocument_strlen, hmembers]
    omega
  · omega

/-!
## The calls
-/

theorem add_fit (a b : Int32) : Fit addSignature.params [.int a, .int b] :=
  List.Forall₂.cons (Passes.int a)
    (List.Forall₂.cons (Passes.int b) List.Forall₂.nil)

theorem sum_fit (a b c : Int32) :
    Fit sumSignature.params [.int a, .int b, .int c] :=
  List.Forall₂.cons (Passes.int a)
    (List.Forall₂.cons (Passes.int b)
      (List.Forall₂.cons (Passes.int c) List.Forall₂.nil))

/-- Neither table has a nameless entry in front of the method's newest one. -/
def Searchable (clientTable serverTable : List RpcFunc) (name : CString) :
    Prop :=
  Comparable clientTable name ∧ Comparable serverTable name

section

variable {globals : Globals} {ip : CString} {serverTable : List RpcFunc}

/-- The remote call of a method with the value `result`. -/
def CallReturns (serverTable : List RpcFunc) (fd : Int) (call : Code Int32)
    (result : Int32) : Prop :=
  forall outcome, Exchange serverTable fd call outcome <->
    outcome = .ok result

theorem callReturns_of_deployed {sig : Signature} {handler : Handler}
    {args handed : List Value} {result : Int32}
    (hip : globals.rpcServerIp = .live ip)
    (hdeployed : Deployed sig handler globals.rpcCallerTable serverTable)
    (hfit : Fit sig.params args)
    (hexact : forall arg, arg ∈ args -> Exact arg)
    (hhanded : Arguments handler
      (some (.object (argMembers sig.params args))) handed)
    (hreturned : handler.body.resultItem handed
      (callRooms globals sig handler args) = some (some (intItem result)))
    (hfits : CallFits globals sig args (intItem result)) (fd : Int) :
    CallReturns serverTable fd (stub atoi globals sig.method args) result := by
  intro outcome
  have hcall := exchange_call_iff atoi hip hdeployed hfit hexact hhanded
    hreturned (readable_intItem _) fd outcome
  rw [atoi_print_intItem] at hcall
  simp only [hfits, true_and, not_true, false_and, or_false] at hcall
  exact hcall

theorem add_returns (hip : globals.rpcServerIp = .live ip)
    (hadd : Deployed addSignature rpcResponseJsonEncodeAdd
      globals.rpcCallerTable serverTable) (fd : Int) (a b : Int32) :
    CallReturns serverTable fd (add globals a b) (rpcAdd a b) := by
  have hhanded : Arguments rpcResponseJsonEncodeAdd
      (some (.object (argMembers addSignature.params [.int a, .int b])))
      [.int a, .int b] :=
    List.Forall₂.cons ⟨intItem a, rfl, argOf_intItem a⟩
      (List.Forall₂.cons ⟨intItem b, rfl, argOf_intItem b⟩ List.Forall₂.nil)
  have hreturned : rpcResponseJsonEncodeAdd.body.resultItem [.int a, .int b]
      (callRooms globals addSignature rpcResponseJsonEncodeAdd
        [.int a, .int b]) = some (some (intItem (rpcAdd a b))) := rfl
  exact callReturns_of_deployed hip hadd (add_fit a b) (by simp [Exact])
    hhanded hreturned (add_fits globals a b _) fd

theorem sum_returns (hip : globals.rpcServerIp = .live ip)
    (hsum : Deployed sumSignature rpcResponseJsonEncodeSum
      globals.rpcCallerTable serverTable) (fd : Int) (a b c : Int32) :
    CallReturns serverTable fd (sum globals a b c) (rpcSum a b c) := by
  have hhanded : Arguments rpcResponseJsonEncodeSum
      (some (.object (argMembers sumSignature.params
        [.int a, .int b, .int c]))) [.int a, .int b, .int c] :=
    List.Forall₂.cons ⟨intItem a, rfl, argOf_intItem a⟩
      (List.Forall₂.cons ⟨intItem b, rfl, argOf_intItem b⟩
        (List.Forall₂.cons ⟨intItem c, rfl, argOf_intItem c⟩
          List.Forall₂.nil))
  have hreturned : rpcResponseJsonEncodeSum.body.resultItem
      [.int a, .int b, .int c]
      (callRooms globals sumSignature rpcResponseJsonEncodeSum
        [.int a, .int b, .int c]) =
          some (some (intItem (rpcSum a b c))) := rfl
  exact callReturns_of_deployed hip hsum (sum_fit a b c) (by simp [Exact])
    hhanded hreturned (sum_fits globals a b c _) fd

theorem callReturns_iff {sig : Signature} {handler : Handler}
    {args : List Value} {result : Int32}
    (hip : globals.rpcServerIp = .live ip)
    (hregistered : Registered sig handler globals.rpcCallerTable serverTable)
    (hfit : Fit sig.params args)
    (hexact : forall arg, arg ∈ args -> Exact arg) (fd : Int)
    (hreturns : Deployed sig handler globals.rpcCallerTable serverTable ->
      CallReturns serverTable fd (stub atoi globals sig.method args) result) :
    CallReturns serverTable fd (stub atoi globals sig.method args) result <->
      Searchable globals.rpcCallerTable serverTable sig.method := by
  constructor
  · intro h
    by_contra hsearch
    have hcall := exchange_call_of_not_comparable atoi hip hregistered hfit
      hexact hsearch fd (.ok result)
    have hexchange := (h (.ok result)).mpr rfl
    cases hcall.mp hexchange
  · intro h
    apply hreturns
    exact {
      toRegistered := hregistered
      clientComparable := h.left
      serverComparable := h.right }

/-- The remote calls return what the local ones do, and nothing else, exactly
when the tables can be searched. -/
theorem remote_calls_agree_iff (hip : globals.rpcServerIp = .live ip)
    (hadd : Registered addSignature rpcResponseJsonEncodeAdd
      globals.rpcCallerTable serverTable)
    (hsum : Registered sumSignature rpcResponseJsonEncodeSum
      globals.rpcCallerTable serverTable) (fd : Int) (a b c : Int32) :
    (CallReturns serverTable fd (add globals a b) (rpcAdd a b) <->
      Searchable globals.rpcCallerTable serverTable (.lit "add")) ∧
    (CallReturns serverTable fd (sum globals a b c) (rpcSum a b c) <->
      Searchable globals.rpcCallerTable serverTable (.lit "sum")) := by
  constructor
  · exact callReturns_iff hip hadd (add_fit a b) (by simp [Exact]) fd
      fun hdeployed => add_returns hip hdeployed fd a b
  · exact callReturns_iff hip hsum (sum_fit a b c) (by simp [Exact]) fd
      fun hdeployed => sum_returns hip hdeployed fd a b c

end

theorem remote_calls_wrap :
    CallReturns registeredTable 5 (add registeredGlobals 2147483647 1)
      (-2147483648) ∧
    CallReturns registeredTable 5 (sum registeredGlobals 2147483647 1 (-1))
      2147483647 := by
  have hadd : Deployed addSignature rpcResponseJsonEncodeAdd
      registeredGlobals.rpcCallerTable registeredTable := deployed_add
  have hsum : Deployed sumSignature rpcResponseJsonEncodeSum
      registeredGlobals.rpcCallerTable registeredTable := deployed_sum
  have hcalls := @remote_calls_agree_iff registeredGlobals _ registeredTable
    rfl hadd.toRegistered hsum.toRegistered 5
  have hfirst := (hcalls 2147483647 1 0).left.mpr
    ⟨hadd.clientComparable, hadd.serverComparable⟩
  have hsecond := (hcalls 2147483647 1 (-1)).right.mpr
    ⟨hsum.clientComparable, hsum.serverComparable⟩
  exact ⟨hfirst, hsecond⟩

/-- An element of `config` whose method is a number. -/
def namelessEntry : CJson :=
  .object [
    (.lit "method", .number (.finite (0 : ℤ))),
    (.lit "params", .array []),
    (.lit "types", .array []),
    (.lit "rettype", .string (.lit "int"))]

def namelessDocument : CJson :=
  .object [
    (.lit "remote", .string (.lit "172.16.0.6")),
    (.lit "port", .number (.finite (9096 : ℤ))),
    (.lit "config", .array [namelessEntry])]

def namelessFunc : RpcFunc where
  method := none
  slots := Slots.empty
  rettype := some (.lit "int")
  handler := none

/-- The globals of a process that has loaded it behind `register.json`. -/
def namelessGlobals : Globals where
  rpcServerIp := .live (.lit "172.16.0.6")
  rpcServerPort := (9096 : Int32).toInt16
  rpcCallerTable := namelessFunc :: registeredTable
  rpcGlobalCallerId := 0

theorem loaded_namelessGlobals : Loaded librpcMethod namelessGlobals := by
  have hnothing : Readable 1 (.array []) :=
    Readable.array fun item hitem => by cases hitem
  have hentry : Readable 2 namelessEntry := by
    apply Readable.object
    intro m hm
    simp only [List.mem_cons, List.not_mem_nil, or_false] at hm
    rcases hm with rfl | rfl | rfl | rfl
    · exact Readable.number (numberExact_intCast (by norm_num))
    · exact hnothing
    · exact hnothing
    · exact Readable.string _
  have hreadable : Readable 4 namelessDocument := by
    apply Readable.object
    intro m hm
    simp only [List.mem_cons, List.not_mem_nil, or_false] at hm
    rcases hm with rfl | rfl | rfl
    · exact Readable.string _
    · exact Readable.number (numberExact_intCast (by norm_num))
    · apply Readable.array
      intro item hitem
      rw [List.mem_singleton.mp hitem]
      exact hentry
  have hparse := parse_print hreadable (by decide)
  have hrun : (rpcDecodeRegisterJson librpcMethod
      (some (print namelessDocument)) registeredGlobals).result =
        .ok (0, namelessGlobals) := by
    simp only [rpcDecodeRegisterJson, Option.bind_some, hparse]
    rfl
  exact Loaded.load _ loaded_registeredGlobals hrun

/-- A client that has loaded the entry of `add` and then a nameless one stops
in the comparison of names. -/
theorem nameless_entry_stops_add :
    Loaded librpcMethod namelessGlobals ∧
      newest namelessGlobals.rpcCallerTable (.lit "add") =
        some (addSignature.func (some rpcResponseJsonEncodeAdd)) ∧
      Exchange registeredTable 5 (add namelessGlobals 1 2)
        (.error .nullString) ∧
      ¬ CallReturns registeredTable 5 (add namelessGlobals 1 2)
        (rpcAdd 1 2) := by
  have hfound : newest namelessGlobals.rpcCallerTable (.lit "add") =
      some (addSignature.func (some rpcResponseJsonEncodeAdd)) := rfl
  have hregistered : Registered addSignature rpcResponseJsonEncodeAdd
      namelessGlobals.rpcCallerTable registeredTable :=
    ⟨⟨_, hfound⟩, deployed_add.serverFound, rfl⟩
  have hsearch : ¬ (Comparable namelessGlobals.rpcCallerTable (.lit "add") ∧
      Comparable registeredTable (.lit "add")) := by
    intro h
    exact ((comparable_cons_of_ne (by decide) registeredTable).mp h.left).left
      rfl
  have hcall := exchange_call_of_not_comparable atoi
    (show namelessGlobals.rpcServerIp = .live (.lit "172.16.0.6") from rfl)
    hregistered (add_fit 1 2) (by simp [Exact]) hsearch 5
  refine ⟨loaded_namelessGlobals, hfound, (hcall _).mpr rfl, ?_⟩
  intro h
  cases (hcall _).mp ((h _).mpr rfl)

end Session
end Z2wRpc
