import Z2wRpc.Call.Request

/-!
# Arguments on their way to the server

A stub hands its arguments to the encoder in the order of the register entry;
the handler takes them out of the document by name.  What a method receives for
a parameter is therefore the argument of the first parameter whose name agrees
with its own up to letter case, read through `valuestring` or `valueint`.
-/

namespace Z2wRpc

open Foundation

namespace Call

open CJson Dispatch

/-- The newest entries of a method on both sides of a connection are the same,
and the server's has its handler. -/
structure Registered (sig : Signature) (handler : Handler)
    (clientTable serverTable : List RpcFunc) : Prop where
  clientFound : exists bound,
    newest clientTable sig.method = some (sig.func bound)
  serverFound : newest serverTable sig.method = some (sig.func (some handler))
  generated : handler.params = sig.params

/-- Entries that are reached: those in front of them have names. -/
structure Deployed (sig : Signature) (handler : Handler)
    (clientTable serverTable : List RpcFunc) : Prop
    extends Registered sig handler clientTable serverTable where
  clientComparable : Comparable clientTable sig.method
  serverComparable : Comparable serverTable sig.method

/-- The call of the stub leads to the call of the method with `handed`. -/
def Hands (sig : Signature) (clientTable serverTable : List RpcFunc)
    (callerid : Int32) (args handed : List Value) : Prop :=
  exists request,
    (rpcRequestJsonEncode clientTable (some sig.method) callerid args).result =
      .ok (some request) ∧
    calls (rpcProcess serverTable (some request)) = [handed]

abbrev Fit (params : List (CString × CString)) (args : List Value) : Prop :=
  List.Forall₂ (fun p arg => Passes p.2 arg) params args

/-- The argument of the first parameter with a name, up to letter case. -/
def firstNamed (name : CString) (params : List (CString × CString))
    (args : List Value) : Option Value :=
  ((params.zip args).find? fun x => sameName name x.1.1).map Prod.snd

/-!
## Lookup among the members
-/

theorem exists_itemOf {type : CString} {arg : Value} (h : Passes type arg) :
    exists item, itemOf arg = some item := by
  cases h <;> exact ⟨_, rfl⟩

theorem findMember_argMembers {ps : List (CString × CString)}
    {args : List Value} (h : Fit ps args) (name : CString) :
    findMember name (argMembers ps args) =
      (firstNamed name ps args).bind itemOf := by
  induction h with
  | nil => rfl
  | @cons p arg ps args hpass _ ih =>
      rcases exists_itemOf hpass with ⟨item, hitem⟩
      have hcons : argMembers (p :: ps) (arg :: args) =
          (p.1, item) :: argMembers ps args := by
        simp [argMembers, hitem]
      rw [hcons]
      cases hname : sameName name p.1 with
      | true =>
          rw [findMember_cons_of_same item _ hname]
          simp [firstNamed, hname, hitem]
      | false =>
          rw [findMember_cons_of_other item _ hname, ih]
          simp [firstNamed, hname]

theorem exists_firstNamed {ps : List (CString × CString)}
    {args : List Value} (h : Fit ps args) {p : CString × CString}
    (hp : p ∈ ps) :
    exists v q, q ∈ ps ∧ Passes q.2 v ∧ sameName p.1 q.1 = true ∧
      firstNamed p.1 ps args = some v := by
  induction h with
  | nil => cases hp
  | @cons q arg ps args hpass _ ih =>
      cases hname : sameName p.1 q.1 with
      | true =>
          exact ⟨arg, q, List.mem_cons_self .., hpass, hname,
            by simp [firstNamed, hname]⟩
      | false =>
          rcases List.mem_cons.mp hp with rfl | hmem
          · rw [sameName_refl] at hname
            cases hname
          · rcases ih hmem with ⟨v, q', hq', hv, hsame, hfirst⟩
            refine ⟨v, q', List.mem_cons_of_mem q hq', hv, hsame, ?_⟩
            simpa [firstNamed, hname] using hfirst

theorem exists_forall₂ {α β : Type} {R : α -> β -> Prop} {l : List α}
    (h : forall a, a ∈ l -> exists b, R a b) :
    exists bs, List.Forall₂ R l bs := by
  induction l with
  | nil => exact ⟨[], List.Forall₂.nil⟩
  | cons a l ih =>
      rcases h a (List.mem_cons_self ..) with ⟨b, hb⟩
      rcases ih fun x hx => h x (List.mem_cons_of_mem a hx) with ⟨bs, hbs⟩
      exact ⟨b :: bs, List.Forall₂.cons hb hbs⟩

/-!
## What is handed over
-/

def readBack (type : CString) : Value -> Value
  | .int i => if isCharPointer type then .text none else converted type i
  | .real d =>
      if isCharPointer type then .text none else converted type (saturate d)
  | .text s => if isCharPointer type then .text s else converted type 0

theorem argOf_itemOf {arg : Value} {item : CJson}
    (h : itemOf arg = some item) (type : CString) :
    argOf type item = readBack type arg := by
  cases arg with
  | int i =>
      obtain rfl : _ = item := Option.some.inj h
      simp [argOf, readBack, valuestring, valueint]
  | real d =>
      obtain rfl : _ = item := Option.some.inj h
      simp [argOf, readBack, valuestring, valueint]
  | text s =>
      rcases Option.map_eq_some_iff.mp h with ⟨s, rfl, rfl⟩
      simp [argOf, readBack, valuestring, valueint]

section

variable {sig : Signature} {handler : Handler}
  {clientTable serverTable : List RpcFunc} {args handed : List Value}

theorem exists_itemOf_of_firstNamed {ps : List (CString × CString)}
    (hfit : Fit ps args) {name : CString} {v : Value}
    (h : firstNamed name ps args = some v) :
    exists item, itemOf v = some item := by
  rcases Option.map_eq_some_iff.mp h with ⟨x, hfind, rfl⟩
  exact exists_itemOf (List.forall₂_zip hfit (List.mem_of_find?_eq_some hfind))

theorem arguments_iff (hparams : handler.params = sig.params)
    (hfit : Fit sig.params args) :
    Arguments handler (some (.object (argMembers sig.params args))) handed <->
      List.Forall₂ (fun p arg => exists v,
        firstNamed p.1 sig.params args = some v ∧ readBack p.2 v = arg)
        sig.params handed := by
  have hstep : forall (p : CString × CString) (arg : Value),
      (exists item, getObjectItem
          (some (.object (argMembers sig.params args))) p.1 = some item ∧
        argOf p.2 item = arg) <->
      exists v, firstNamed p.1 sig.params args = some v ∧
        readBack p.2 v = arg := by
    intro p arg
    simp only [getObjectItem, findMember_argMembers hfit,
      Option.bind_eq_some_iff]
    constructor
    · intro h
      rcases h with ⟨item, ⟨v, hv, hitem⟩, harg⟩
      rw [argOf_itemOf hitem] at harg
      exact ⟨v, hv, harg⟩
    · intro h
      rcases h with ⟨v, hv, harg⟩
      rcases exists_itemOf_of_firstNamed hfit hv with ⟨item, hitem⟩
      exact ⟨item, ⟨v, hv, hitem⟩, by rw [argOf_itemOf hitem, harg]⟩
  simp only [Arguments, hparams, hstep]

def Deployed.invocation
    (hdeployed : Deployed sig handler clientTable serverTable)
    (hexact : forall arg, arg ∈ args -> Exact arg) (callerid : Int32)
    (hgiven : Arguments handler
      (some (.object (argMembers sig.params args))) handed) :
    Invocation serverTable (print (requestDocument (some sig.method)
      (argMembers sig.params args) callerid)) where
  root := requestDocument (some sig.method) (argMembers sig.params args)
    callerid
  name := sig.method
  callerid := .number (.finite callerid.toInt)
  func := sig.func (some handler)
  handler := handler
  args := handed
  parsed := parse_request hexact sig.method callerid
  named := rfl
  identified := rfl
  comparable := hdeployed.serverComparable
  found := hdeployed.serverFound
  bound := rfl
  complete := hgiven

theorem hands_iff
    (hdeployed : Deployed sig handler clientTable serverTable)
    (hfit : Fit sig.params args)
    (hexact : forall arg, arg ∈ args -> Exact arg) (callerid : Int32) :
    Hands sig clientTable serverTable callerid args handed <->
      List.Forall₂ (fun p arg => exists v,
        firstNamed p.1 sig.params args = some v ∧ readBack p.2 v = arg)
        sig.params handed := by
  rcases hdeployed.clientFound with ⟨bound, hclient⟩
  have hencode := rpcRequestJsonEncode_result hdeployed.clientComparable
    hclient hfit callerid
  have hcalls : forall given,
      Arguments handler (some (.object (argMembers sig.params args))) given ->
      calls (rpcProcess serverTable (some (print (requestDocument
        (some sig.method) (argMembers sig.params args) callerid)))) =
        [given] :=
    fun given hgiven =>
      rpcProcess_calls (hdeployed.invocation hexact callerid hgiven)
  rw [← arguments_iff hdeployed.generated hfit]
  constructor
  · intro h
    rcases h with ⟨request, hrequest, hhanded⟩
    obtain ⟨given, hgiven⟩ : exists given, List.Forall₂ (fun p arg =>
        exists v, firstNamed p.1 sig.params args = some v ∧
          readBack p.2 v = arg) sig.params given := by
      apply exists_forall₂
      intro p hp
      rcases exists_firstNamed hfit hp with ⟨v, _, _, _, _, hv⟩
      exact ⟨_, v, hv, rfl⟩
    rw [← arguments_iff hdeployed.generated hfit] at hgiven
    rw [hencode, Except.ok.injEq, Option.some.injEq] at hrequest
    rw [← hrequest, hcalls given hgiven, List.singleton_inj] at hhanded
    rwa [← hhanded]
  · intro hhanded
    exact ⟨_, hencode, hcalls handed hhanded⟩

/-!
## Integers and strings
-/

/-- Every type is one that reaches the server as an integer or a string. -/
def Plain (params : List (CString × CString)) : Prop :=
  forall p, p ∈ params -> p.2 = .lit "int" ∨ p.2 = .lit "char*"

def DistinctNames (params : List (CString × CString)) : Prop :=
  params.Pairwise fun p q => sameName p.1 q.1 = false

/--
The first argument under the name of a parameter is the parameter's own, or
the two cannot be told apart: a string read as an integer is zero.
-/
def Unmixed (params : List (CString × CString)) (args : List Value) : Prop :=
  forall x, x ∈ params.zip args -> forall v,
    firstNamed x.1.1 params args = some v ->
    v = x.2 ∨ exists s, v = .text s ∧ x.2 = .int 0

theorem readBack_int (v : Value) {i : Int32} (hv : forall d, v ≠ .real d) :
    readBack (.lit "int") v = .int i <->
      v = .int i ∨ exists s, v = .text s ∧ Value.int i = .int 0 := by
  cases v with
  | int j => 
      show Value.int j = .int i <-> _
      simp
  | real d => exact absurd rfl (hv d)
  | text s =>
      show Value.int 0 = .int i <-> _
      simp [eq_comm]

theorem readBack_charPointer (v : Value) {s : CString} :
    readBack (.lit "char*") v = .text (some s) <-> v = .text (some s) := by
  cases v with
  | int j =>
      show Value.text none = .text (some s) <-> _
      simp
  | real d =>
      show Value.text none = .text (some s) <-> _
      simp
  | text t => rfl

theorem readBack_plain {type : CString} {arg v : Value}
    (hplain : type = .lit "int" ∨ type = .lit "char*") (hpass : Passes type arg)
    (hv : forall d, v ≠ .real d) :
    readBack type v = arg <-> v = arg ∨ exists s, v = .text s ∧ arg = .int 0 := by
  cases hpass with
  | int i => exact readBack_int v hv
  | float d => exact absurd hplain (by decide)
  | double d => exact absurd hplain (by decide)
  | charPointer s =>
      rw [readBack_charPointer]
      simp

theorem firstNamed_ne_real {ps : List (CString × CString)}
    (hplain : Plain ps) (hfit : Fit ps args) {name : CString} {v : Value}
    (h : firstNamed name ps args = some v) (d : Double) : v ≠ .real d := by
  rcases Option.map_eq_some_iff.mp h with ⟨x, hfind, rfl⟩
  have hmem := List.mem_of_find?_eq_some hfind
  have hpass := List.forall₂_zip hfit hmem
  have htype := hplain x.1 (List.of_mem_zip hmem).left
  intro hreal
  rw [hreal] at hpass
  generalize x.1.2 = type at hpass htype
  cases hpass <;> exact absurd htype (by decide)

theorem forall₂_firstNamed_iff (hplain : Plain sig.params)
    (hfit : Fit sig.params args) :
    List.Forall₂ (fun p arg => exists v,
        firstNamed p.1 sig.params args = some v ∧ readBack p.2 v = arg)
        sig.params args <->
      Unmixed sig.params args := by
  rw [List.forall₂_iff_zip]
  constructor
  · intro h hgiven hmem v hv
    rcases h with ⟨_, h⟩
    rcases hgiven with ⟨p, arg⟩
    rcases h hmem with ⟨v', hv', hread⟩
    obtain rfl : v' = v := by
      rw [hv'] at hv
      exact Option.some.inj hv
    exact (readBack_plain (hplain p (List.of_mem_zip hmem).left)
      (List.forall₂_zip hfit hmem) (firstNamed_ne_real hplain hfit hv)).mp hread
  · intro h
    refine ⟨hfit.length_eq, ?_⟩
    intro p arg hmem
    rcases exists_firstNamed hfit (List.of_mem_zip hmem).left with
      ⟨v, _, _, _, _, hv⟩
    exact ⟨v, hv, (readBack_plain (hplain p (List.of_mem_zip hmem).left)
      (List.forall₂_zip hfit hmem) (firstNamed_ne_real hplain hfit hv)).mpr
        (h (p, arg) hmem v hv)⟩

theorem firstNamed_of_distinctNames {ps : List (CString × CString)}
    (hfit : Fit ps args) (hdistinct : DistinctNames ps)
    {x : (CString × CString) × Value} (hx : x ∈ ps.zip args) :
    firstNamed x.1.1 ps args = some x.2 := by
  induction hfit with
  | nil => cases hx
  | @cons p arg ps args _ hfit ih =>
      rw [DistinctNames, List.pairwise_cons] at hdistinct
      rcases List.mem_cons.mp hx with rfl | hmem
      · simp [firstNamed, sameName_refl]
      · have hother : sameName x.1.1 p.1 = false := by
          have hname := hdistinct.left x.1 (List.of_mem_zip hmem).left
          cases hsame : sameName x.1.1 p.1 with
          | false => rfl
          | true =>
              rw [sameName_symm hsame] at hname
              exact hname
        have hrest := ih hdistinct.right hmem
        simpa [firstNamed, hother] using hrest

theorem unmixed_of_distinctNames {ps : List (CString × CString)}
    (hfit : Fit ps args) (hdistinct : DistinctNames ps) : Unmixed ps args := by
  intro x hx v hv
  rw [firstNamed_of_distinctNames hfit hdistinct hx] at hv
  exact Or.inl (Option.some.inj hv).symm

/-- Arguments that a method can tell from the ones of `contrast`. -/
def blank (type : CString) : Value :=
  if type = .lit "int" then .int 0 else .text (some (.lit ""))

def contrast (type : CString) : Value :=
  if type = .lit "int" then .int 1 else .text (some (.lit "x"))

theorem fit_map {f : CString -> Value} {ps : List (CString × CString)}
    (hplain : Plain ps)
    (hf : Passes (.lit "int") (f (.lit "int")) ∧
      Passes (.lit "char*") (f (.lit "char*"))) :
    Fit ps (ps.map fun p => f p.2) := by
  rw [Fit, List.forall₂_map_right_iff, List.forall₂_same]
  intro p hp
  rcases hplain p hp with htype | htype
  · rw [htype]
    exact hf.left
  · rw [htype]
    exact hf.right

theorem passes_blank : Passes (.lit "int") (blank (.lit "int")) ∧
    Passes (.lit "char*") (blank (.lit "char*")) :=
  ⟨Passes.int 0, Passes.charPointer _⟩

theorem passes_contrast : Passes (.lit "int") (contrast (.lit "int")) ∧
    Passes (.lit "char*") (contrast (.lit "char*")) :=
  ⟨Passes.int 1, Passes.charPointer _⟩

theorem blank_contrast {type type' : CString}
    (h : type = .lit "int" ∨ type = .lit "char*")
    (h' : type' = .lit "int" ∨ type' = .lit "char*") :
    blank type ≠ contrast type' ∧ contrast type' ≠ .int 0 := by
  rcases h with rfl | rfl <;> rcases h' with rfl | rfl <;> decide

theorem distinctNames_of_unmixed {ps : List (CString × CString)}
    (hplain : Plain ps)
    (h : forall args, Fit ps args -> Unmixed ps args) : DistinctNames ps := by
  induction ps with
  | nil => exact List.Pairwise.nil
  | cons p ps ih =>
      have hrest : Plain ps := fun q hq =>
        hplain q (List.mem_cons_of_mem p hq)
      have hp := hplain p (List.mem_cons_self ..)
      have hblank : Passes p.2 (blank p.2) :=
        (List.forall₂_cons.mp (fit_map hplain passes_blank)).left
      have hhead : forall q, q ∈ ps -> sameName p.1 q.1 = false := by
        intro q hq
        by_contra hsame
        rw [Bool.not_eq_false] at hsame
        have hmem : (q, contrast q.2) ∈
            ps.zip (ps.map fun q => contrast q.2) := by
          rw [List.zip, List.zipWith_map_right, List.zipWith_self]
          exact List.mem_map.mpr ⟨q, hq, rfl⟩
        have hfirst : firstNamed q.1 (p :: ps)
            (blank p.2 :: ps.map fun q => contrast q.2) =
              some (blank p.2) := by
          simp [firstNamed, sameName_symm hsame]
        have hcontrast := blank_contrast hp (hrest q hq)
        rcases h _ (List.Forall₂.cons hblank (fit_map hrest passes_contrast))
          _ (List.mem_cons_of_mem _ hmem) _ hfirst with heq | ⟨_, _, hzero⟩
        · exact hcontrast.left heq
        · exact hcontrast.right hzero
      refine List.pairwise_cons.mpr ⟨hhead, ih hrest fun args hfit => ?_⟩
      intro x hx v hv
      have hother : sameName x.1.1 p.1 = false := by
        by_contra hsame
        rw [Bool.not_eq_false] at hsame
        have hname := hhead x.1 (List.of_mem_zip hx).left
        rw [sameName_symm hsame] at hname
        cases hname
      refine h _ (List.Forall₂.cons hblank hfit) x
        (List.mem_cons_of_mem _ hx) v ?_
      simpa [firstNamed, hother] using hv

theorem exact_of_plain {ps : List (CString × CString)} (hplain : Plain ps)
    (hfit : Fit ps args) {arg : Value} (harg : arg ∈ args) : Exact arg := by
  rcases List.getElem_of_mem harg with ⟨i, hi, rfl⟩
  have hi' : i < ps.length := by
    rw [hfit.length_eq]
    exact hi
  have hpass := hfit.get hi' hi
  have htype := hplain (ps.get ⟨i, hi'⟩) (List.get_mem ps _)
  generalize (ps.get ⟨i, hi'⟩).2 = type at hpass htype
  simp only [List.get_eq_getElem] at hpass
  generalize args[i] = arg at hpass
  cases hpass with
  | int i => trivial
  | float d => exact absurd htype (by decide)
  | double d => exact absurd htype (by decide)
  | charPointer s => trivial

theorem hands_self_iff
    (hdeployed : Deployed sig handler clientTable serverTable)
    (hplain : Plain sig.params) (hfit : Fit sig.params args)
    (callerid : Int32) :
    Hands sig clientTable serverTable callerid args args <->
      Unmixed sig.params args := by
  rw [hands_iff hdeployed hfit (fun _ => exact_of_plain hplain hfit) callerid,
    forall₂_firstNamed_iff hplain hfit]

/--
Integer and string arguments reach the method unchanged and in order exactly
when no argument is hidden by an earlier one under the same name, and they
always do exactly when no two names agree up to letter case.
-/
theorem plain_arguments_iff
    (hdeployed : Deployed sig handler clientTable serverTable)
    (hplain : Plain sig.params) (callerid : Int32) :
    (forall args, Fit sig.params args ->
      (Hands sig clientTable serverTable callerid args args <->
        Unmixed sig.params args)) ∧
    ((forall args, Fit sig.params args ->
        Hands sig clientTable serverTable callerid args args) <->
      DistinctNames sig.params) := by
  refine ⟨fun args hfit => hands_self_iff hdeployed hplain hfit callerid, ?_⟩
  constructor
  · intro h
    apply distinctNames_of_unmixed hplain
    intro args hfit
    exact (hands_self_iff hdeployed hplain hfit callerid).mp (h args hfit)
  · intro hdistinct args hfit
    exact (hands_self_iff hdeployed hplain hfit callerid).mpr
      (unmixed_of_distinctNames hfit hdistinct)

end

section

variable [FreshMemory]

theorem deployed_registered {sig : Signature} {handler : Handler}
    (hfound : newest registeredTable sig.method =
      some (sig.func (some handler)))
    (hparams : handler.params = sig.params) :
    Deployed sig handler registeredTable registeredTable where
  clientComparable := comparable_bound librpcMethod registerJson _
  clientFound := ⟨_, hfound⟩
  serverComparable := comparable_bound librpcMethod registerJson _
  serverFound := hfound
  generated := hparams

theorem deployed_add : Deployed addSignature rpcResponseJsonEncodeAdd
    registeredTable registeredTable :=
  deployed_registered rfl rfl

theorem deployed_sub : Deployed subSignature rpcResponseJsonEncodeSub
    registeredTable registeredTable :=
  deployed_registered rfl rfl

theorem deployed_sum : Deployed sumSignature rpcResponseJsonEncodeSum
    registeredTable registeredTable :=
  deployed_registered rfl rfl

theorem deployed_echo : Deployed echoSignature rpcResponseJsonEncodeEcho
    registeredTable registeredTable :=
  deployed_registered rfl rfl

end

theorem add_arguments_arrive :
    Hands addSignature registeredTable registeredTable 0 [.int 2, .int 3]
      [.int 2, .int 3] := by
  have hfit : Fit addSignature.params [.int 2, .int 3] :=
    .cons (.int 2) (.cons (.int 3) .nil)
  have hdistinct : DistinctNames addSignature.params := by
    unfold DistinctNames
    decide
  exact (plain_arguments_iff deployed_add (by unfold Plain; decide) 0).right.mpr
    hdistinct _ hfit

def caseSignature : Signature where
  method := .lit "pair"
  params := [(.lit "a", .lit "int"), (.lit "A", .lit "int")]
  rettype := .lit "int"
  within := by decide

def caseHandler : Handler :=
  caseSignature.handler (.number fun _ => some (.finite 0)) (by decide)

/-- The method is called with the first argument twice. -/
theorem case_arguments_mixed :
    caseSignature.params.Pairwise (fun p q => p.1 ≠ q.1) ∧
      Fit caseSignature.params [.int 1, .int 2] ∧
      ¬ Hands caseSignature [caseSignature.func (some caseHandler)]
        [caseSignature.func (some caseHandler)] 0 [.int 1, .int 2]
        [.int 1, .int 2] := by
  have hdeployed : Deployed caseSignature caseHandler
      [caseSignature.func (some caseHandler)]
      [caseSignature.func (some caseHandler)] := {
    clientComparable := comparable_cons_of_eq rfl []
    clientFound := ⟨_, rfl⟩
    serverComparable := comparable_cons_of_eq rfl []
    serverFound := rfl
    generated := rfl }
  have hfit : Fit caseSignature.params [.int 1, .int 2] :=
    .cons (.int 1) (.cons (.int 2) .nil)
  refine ⟨by decide, hfit, ?_⟩
  rw [hands_self_iff hdeployed (by unfold Plain; decide) hfit]
  intro hunmixed
  have hmem : ((CString.lit "A", CString.lit "int"), Value.int 2) ∈
      caseSignature.params.zip [.int 1, .int 2] := by
    decide
  rcases hunmixed _ hmem (.int 1) rfl with heq | ⟨_, heq, _⟩
  · exact absurd heq (by decide)
  · cases heq

/-!
## Floating arguments
-/

section

variable {sig : Signature} {handler : Handler}
  {clientTable serverTable : List RpcFunc} {args handed : List Value}

/-- The method receives `x` for the parameter at `i`. -/
def Receives (sig : Signature) (clientTable serverTable : List RpcFunc)
    (callerid : Int32) (args : List Value) (i : Nat) (x : Value) : Prop :=
  exists handed, Hands sig clientTable serverTable callerid args handed ∧
    handed[i]? = some x

/--
The whole numbers in the range of `int`; for a `float` also the power of two
above, to which the largest `int` is rounded.
-/
def Whole (type : CString) (x : ℚ) : Prop :=
  exists n : ℤ, x = n ∧ intMin <= n ∧
    n <= (if type = .lit "float" then 2147483648 else intMax)

theorem receives_iff
    (hdeployed : Deployed sig handler clientTable serverTable)
    (hfit : Fit sig.params args)
    (hexact : forall arg, arg ∈ args -> Exact arg) (callerid : Int32)
    {i : Nat} {p : CString × CString} (hp : sig.params[i]? = some p)
    (x : Value) :
    Receives sig clientTable serverTable callerid args i x <->
      exists v, firstNamed p.1 sig.params args = some v ∧
        readBack p.2 v = x := by
  rcases List.getElem?_eq_some_iff.mp hp with ⟨hi, rfl⟩
  constructor
  · intro h
    rcases h with ⟨handed, hhands, hx⟩
    rw [hands_iff hdeployed hfit hexact] at hhands
    rcases List.getElem?_eq_some_iff.mp hx with ⟨hi', rfl⟩
    exact hhands.get hi hi'
  · intro h
    rcases h with ⟨v, hv, hread⟩
    obtain ⟨handed, hhanded⟩ : exists handed, List.Forall₂ (fun p arg =>
        exists v, firstNamed p.1 sig.params args = some v ∧
          readBack p.2 v = arg) sig.params handed := by
      apply exists_forall₂
      intro q hq
      rcases exists_firstNamed hfit hq with ⟨w, _, _, _, _, hw⟩
      exact ⟨_, w, hw, rfl⟩
    have hi' : i < handed.length := by
      rw [← hhanded.length_eq]
      exact hi
    refine ⟨handed, (hands_iff hdeployed hfit hexact callerid).mpr hhanded, ?_⟩
    rcases hhanded.get hi hi' with ⟨w, hw, hread'⟩
    obtain rfl : v = w := by
      rw [List.get_eq_getElem, hv] at hw
      exact Option.some.inj hw
    rw [List.getElem?_eq_getElem hi', ← hread]
    exact congrArg some hread'.symm

theorem readBack_double (x : ℚ) :
    readBack (.lit "double") (.real (.finite x)) = .real (.finite x) <->
      Whole (.lit "double") x := by
  show Value.real (.finite ((saturate (.finite x)).toInt : ℚ)) = _ <-> _
  rw [Value.real.injEq, Double.finite.injEq, saturate_eq_iff]
  constructor
  · intro h
    rcases h with ⟨i, rfl⟩
    exact ⟨i.toInt, rfl, intMin_le_toInt i, toInt_le_intMax i⟩
  · intro h
    rcases h with ⟨n, rfl, hmin, hmax⟩
    exact ⟨Int32.ofInt n, by rw [Int32.toInt_ofInt_of_le hmin (by
      change n <= intMax at hmax
      unfold intMax at hmax
      omega)]⟩

theorem readBack_float {x : ℚ} (hx : Double.single x = x) :
    readBack (.lit "float") (.real (.finite x)) = .real (.finite x) <->
      Whole (.lit "float") x := by
  show Value.real (.finite (Double.single
    ((saturate (.finite x)).toInt : ℚ))) = _ <-> _
  rw [Value.real.injEq, Double.finite.injEq]
  constructor
  · intro h
    rcases Double.exists_single_intCast (saturate (.finite x)).toInt with
      ⟨m, hm⟩
    have hxm : x = m := by rw [← h, hm]
    by_cases hmax : (intMax : ℚ) <= x
    · -- a saturated value comes back as the power of two
      have hsat : saturate (.finite x) = Int32.ofInt intMax := by
        rw [saturate, if_pos hmax]
      rw [hsat] at h
      exact ⟨2147483648, by rw [← h]; exact Double.single_intMax, by decide,
        by decide⟩
    · by_cases hmin : x <= (intMin : ℚ)
      · have hsat : saturate (.finite x) = Int32.ofInt intMin := by
          rw [saturate, if_neg hmax, if_pos hmin]
        rw [hsat] at h
        exact ⟨intMin, by rw [← h]; exact Double.single_intMin, by decide,
          by decide⟩
      · rw [hxm, Int.cast_le] at hmax hmin
        refine ⟨m, hxm, by omega, ?_⟩
        rw [if_pos rfl]
        unfold intMax at hmax
        omega
  · intro h
    rcases h with ⟨n, rfl, hmin, hmax⟩
    rw [if_pos rfl] at hmax
    by_cases hrange : n <= intMax
    · have hn : (Int32.ofInt n).toInt = n :=
        Int32.toInt_ofInt_of_le hmin (by
          unfold intMax at hrange
          omega)
      rw [← hn, saturate_toInt, hn, hx]
    · have hn : n = 2147483648 := by
        unfold intMax at hrange
        omega
      rw [hn]
      decide +kernel

/--
A floating argument reaches the method unchanged exactly when its parameter
finds an argument that reads back as it.  Where no other name gets in the way
these are the whole numbers in range, since the handler reads `valueint`.
-/
theorem real_argument_iff
    (hdeployed : Deployed sig handler clientTable serverTable)
    (hfit : Fit sig.params args)
    (hexact : forall arg, arg ∈ args -> Exact arg) (callerid : Int32)
    {i : Nat} {name type : CString} {x : ℚ}
    (hparam : sig.params[i]? = some (name, type))
    (harg : args[i]? = some (.real (.finite x)))
    (hvalue : type = .lit "float" -> Double.single x = x) :
    (Receives sig clientTable serverTable callerid args i (.real (.finite x)) <->
      exists v, firstNamed name sig.params args = some v ∧
        readBack type v = .real (.finite x)) ∧
    (DistinctNames sig.params ->
      (Receives sig clientTable serverTable callerid args i
        (.real (.finite x)) <-> Whole type x)) := by
  have hreceives := receives_iff hdeployed hfit hexact callerid hparam
    (.real (.finite x))
  refine ⟨hreceives, fun hdistinct => ?_⟩
  have hmem : ((name, type), Value.real (.finite x)) ∈
      sig.params.zip args := by
    refine List.mem_of_getElem? (i := i) ?_
    rw [List.getElem?_zip_eq_some]
    exact ⟨hparam, harg⟩
  have hpass := List.forall₂_zip hfit hmem
  rw [hreceives, firstNamed_of_distinctNames hfit hdistinct hmem]
  simp only [Option.some.injEq, exists_eq_left']
  simp only at hpass
  generalize hreal : Value.real (.finite x) = arg at hpass
  cases hpass with
  | int _ => cases hreal
  | charPointer _ => cases hreal
  | float _ =>
      rw [← hreal]
      exact readBack_float (hvalue rfl)
  | double _ =>
      rw [← hreal]
      exact readBack_double x

end

theorem numberExact_five_halves : NumberExact (.finite (5 / 2)) where
  literal := by decide +kernel
  restored := by decide +kernel
  starts := ⟨0x32#8, [0x2e#8, 0x35#8], by decide +kernel, by decide⟩

theorem sub_whole_argument :
    Receives subSignature registeredTable registeredTable 0
      [.real (.finite (20 : ℤ)), .real (.finite (3 : ℤ))] 0
      (.real (.finite (20 : ℤ))) := by
  have hexact : forall arg,
      arg ∈ [Value.real (.finite (20 : ℤ)), .real (.finite (3 : ℤ))] ->
        Exact arg := by
    intro arg harg
    rcases List.mem_pair.mp harg with rfl | rfl
    · exact numberExact_intCast (by norm_num)
    · exact numberExact_intCast (by norm_num)
  exact ((real_argument_iff deployed_sub
    (.cons (.double _) (.cons (.double _) .nil)) hexact 0 rfl rfl
    (by decide)).right (by unfold DistinctNames; decide)).mpr
      ⟨20, rfl, by decide, by decide⟩

/-- `sub(2.5, 1)` calls `rpc_sub` with the first argument cut to 2. -/
theorem sub_fraction_lost :
    ¬ Receives subSignature registeredTable registeredTable 0
      [.real (.finite (5 / 2)), .real (.finite (1 : ℤ))] 0
      (.real (.finite (5 / 2))) := by
  have hexact : forall arg,
      arg ∈ [Value.real (.finite (5 / 2)), .real (.finite (1 : ℤ))] ->
        Exact arg := by
    intro arg harg
    rcases List.mem_pair.mp harg with rfl | rfl
    · exact numberExact_five_halves
    · exact numberExact_intCast (by norm_num)
  rw [receives_iff deployed_sub (.cons (.double _) (.cons (.double _) .nil))
    hexact 0 rfl]
  intro h
  rcases h with ⟨v, hv, hread⟩
  obtain rfl : Value.real (.finite (5 / 2)) = v := Option.some.inj hv
  exact absurd hread (by decide +kernel)

/-!
## A request of the service
-/

theorem add_exact : forall arg, arg ∈ [Value.int 2, .int 3] -> Exact arg := by
  simp [Exact]

theorem add_handed : Arguments rpcResponseJsonEncodeAdd
    (some (.object (argMembers addSignature.params [.int 2, .int 3])))
    [.int 2, .int 3] :=
  List.Forall₂.cons ⟨_, rfl, rfl⟩
    (List.Forall₂.cons ⟨_, rfl, rfl⟩ List.Forall₂.nil)

/-- The first request of a client that calls `add(2, 3)`. -/
def addRequest : CString :=
  print (requestDocument (some addSignature.method)
    (argMembers addSignature.params [.int 2, .int 3]) 0)

theorem addRequest_strlen_le : addRequest.strlen <= 65535 := by
  decide +kernel

/-- A server with the entries of `register.json` answers it. -/
def addAnswer [FreshMemory] : Answer registeredTable addRequest where
  toInvocation := deployed_add.invocation add_exact 0 add_handed
  result := some (.number (.finite (rpcAdd 2 3).toInt))
  returned := rfl

end Call
end Z2wRpc
