import Z2wRpc.Foundation.Ledger
import Z2wRpc.Generator.Damage

/-!
# What the clean-up releases

`rpc_generate_method_code` leaves through the label `out` with different
resources held.  A ledger follows them: every array of an entry is freed, the
descriptor, the buffer and the tree are released behind `out`, and a stream that
has been opened is never closed.
-/

namespace Z2wRpc

open Foundation

namespace Generator

open CJson

/-!
## Resources
-/

inductive Resource where
  | descriptor
  | stream (target : Target)
  | block (block : Block)
  | tree
deriving DecidableEq

def transfersOf (s : Setting) : Call -> List (Transfer Resource)
  | .open => if s.register.isSome then [.acquire .descriptor] else []
  | .malloc block _ =>
      if s.mallocs block then [.acquire (.block block)] else []
  | .fopen target => if s.opens target then [.acquire (.stream target)] else []
  | .parse text =>
      if s.parses && (parse text).isSome then [.acquire .tree] else []
  | .close => [.release .descriptor]
  | .free block => [.release (.block block)]
  | .delete => [.release .tree]
  | _ => []

def runLedger (s : Setting) : Option (List Resource) :=
  ledger [] ((rpcGenerateMethodCode s).transfers (transfersOf s))

/--
Nothing is released that is not held, and when the run returns everything is
released and the value tells whether the files were generated.
-/
structure CleansUp (s : Setting) : Prop where
  sound : runLedger s ≠ none
  -- `fclose(NULL)`
  noNullFile : (rpcGenerateMethodCode s).result ≠ .error .nullFile
  -- `cJSON_Delete` of a local that was never assigned
  noWildPointer : (rpcGenerateMethodCode s).result ≠ .error .wildPointer
  released : forall ret, (rpcGenerateMethodCode s).result = .ok ret ->
    runLedger s = some []
  tells : forall ret, (rpcGenerateMethodCode s).result = .ok ret ->
    (ret = -1 <-> ¬ ReachesSuccess s)

/-- The process ends there in front of `out`. -/
def Fault.EndsProcess : Fault -> Prop
  | .nullString => True
  | .heapCorrupted => True
  | _ => False

/-- A part of the run in front of `out`. -/
abbrev Keeps (s : Setting) {α : Type} (held : List Resource) (g : Gen α)
    (post : α -> List Resource) : Prop :=
  g.Balances (transfersOf s) Fault.EndsProcess held post

/-!
## Emissions
-/

/-- An emission that nothing but a `NULL` string stops. -/
abbrev ReadsStrings (e : Emit Unit) : Prop :=
  e.Obeys (fun _ => True) fun fault => fault = .nullString

theorem readsStrings_of_completes {e : Emit Unit} (h : Completes e) :
    ReadsStrings e := by
  refine ⟨fun _ _ => trivial, fun f hf => ?_⟩
  rw [h] at hf
  cases hf

theorem readsStrings_bind {first second : Emit Unit} (h : ReadsStrings first)
    (h' : ReadsStrings second) : ReadsStrings (first >>= fun _ => second) :=
  Traced.obeys_bind_iff.mpr ⟨h, fun _ _ => h'⟩

theorem readsStrings_forParams {item : Param -> Emit Unit}
    (hitem : forall param, ReadsStrings (item param)) (paramNum i : Nat)
    (params : List Param) : ReadsStrings (forParams paramNum item i params) := by
  induction params generalizing i with
  | nil => exact readsStrings_of_completes completes_done
  | cons param rest ih =>
      have hcomma : ReadsStrings (fprintf [.lit ", "]) :=
        readsStrings_of_completes (completes_fprintf _)
      rw [forParams]
      refine readsStrings_bind (hitem param) ?_
      split
      · exact readsStrings_bind hcomma (ih (i + 1))
      · exact ih (i + 1)

theorem readsStrings_handlerArgument (param : Param) :
    ReadsStrings (handlerArgument param) := by
  rcases param with ⟨name, type⟩
  cases type with
  | none =>
      refine Traced.obeys_bind_iff.mpr ⟨?_, fun _ h => by cases h⟩
      exact Traced.obeys_require_iff.mpr fun _ => rfl
  | some type =>
      exact readsStrings_of_completes
        ((completes_handlerArgument_iff _).mpr (Option.some_ne_none type))

theorem readsStrings_stubArgument (param : Param) :
    ReadsStrings (stubArgument param) := by
  rcases param with ⟨name, type⟩
  cases name with
  | none =>
      refine Traced.obeys_bind_iff.mpr ⟨?_, fun _ h => by cases h⟩
      exact Traced.obeys_require_iff.mpr fun _ => rfl
  | some name => exact readsStrings_of_completes (completes_fprintf _)

theorem readsStrings_methodHandler (method type : CString)
    (params : List Param) : ReadsStrings (methodHandler method type params) := by
  have hprint (pieces : List CString) : ReadsStrings (fprintf pieces) :=
    readsStrings_of_completes (completes_fprintf pieces)
  have hlookups : ReadsStrings (handlerLookups params) :=
    readsStrings_of_completes (completes_handlerLookups params)
  have hargs := readsStrings_forParams readsStrings_handlerArgument params.length 0
    params
  unfold methodHandler
  iterate 2 refine readsStrings_bind (hprint _) ?_
  refine readsStrings_bind hlookups (readsStrings_bind (hprint _) ?_)
  refine readsStrings_bind hargs ?_
  iterate 3 refine readsStrings_bind (hprint _) ?_
  split
  all_goals
    iterate 5 refine readsStrings_bind (hprint _) ?_
    exact hprint _

theorem readsStrings_methodStub (method type : CString)
    (params : List Param) : ReadsStrings (methodStub method type params) := by
  have hprint (pieces : List CString) : ReadsStrings (fprintf pieces) :=
    readsStrings_of_completes (completes_fprintf pieces)
  have hdeclared : ReadsStrings (declarations params) :=
    readsStrings_of_completes (completes_declarations params)
  have hargs := readsStrings_forParams readsStrings_stubArgument params.length
    0 params
  have hconversion : ReadsStrings (stubConversion type) :=
    readsStrings_of_completes (completes_stubConversion type)
  unfold methodStub
  refine readsStrings_bind (hprint _) (readsStrings_bind hdeclared ?_)
  iterate 2 refine readsStrings_bind (hprint _) ?_
  refine readsStrings_bind hargs ?_
  iterate 3 refine readsStrings_bind (hprint _) ?_
  refine readsStrings_bind hconversion ?_
  iterate 4 refine readsStrings_bind (hprint _) ?_
  exact hprint _

theorem readsStrings_rpcGenerateCMethod (method type : Option CString)
    (params : List Param) :
    ReadsStrings (rpcGenerateCMethod method type params) := by
  unfold rpcGenerateCMethod
  split
  · refine readsStrings_bind (readsStrings_of_completes (completes_methodBody ..)) ?_
    refine readsStrings_bind (readsStrings_methodHandler ..) ?_
    exact readsStrings_methodStub ..
  · exact readsStrings_of_completes completes_done

/-!
## The loops
-/

section

variable {s : Setting} {held : List Resource}

theorem keeps_call {c : Call} (h : transfersOf s c = []) :
    Keeps s held (call c) fun _ => held :=
  Traced.balances_emit (by rw [h, ledger_nil])

theorem keeps_emitTo {target : Target} {e : Emit Unit} (h : ReadsStrings e) :
    Keeps s held (emitTo target e) fun _ => held := by
  apply Traced.balances_of_silent
  · intro c hc
    rcases List.mem_map.mp hc with ⟨text, _, rfl⟩
    rfl
  · intro f hf
    rw [h.faults f hf]
    trivial

theorem keeps_refuse {α : Type} (text : String) :
    Keeps s held (refuse text : Gen (Option α)) fun _ => held :=
  Traced.balances_bind (keeps_call rfl) fun _ _ => Traced.balances_pure rfl

def withArrays (s : Setting) (i : Nat) (held : List Resource) :
    List Resource :=
  (if s.mallocs (.typeStrArr i) then [.block (.typeStrArr i)] else []) ++
    ((if s.mallocs (.paramStrArr i) then [.block (.paramStrArr i)] else []) ++
      held)

theorem keeps_freeArrays (i : Nat) :
    Keeps s (withArrays s i held) (freeArrays s i) fun _ => held := by
  have hne : Resource.block (.typeStrArr i) ≠ .block (.paramStrArr i) :=
    fun h => by cases h
  unfold freeArrays free withArrays
  split
  all_goals
    split
    all_goals
      refine Traced.balances_of_ok rfl ?_
      simp [Traced.transfers, Traced.bind_def, Traced.bind, call, transfersOf,
        ledger_release, hne]

theorem keeps_freeFilled (i n : Nat) :
    Keeps s (withArrays s i held) (freeFilled s i n) fun _ => held := by
  unfold freeFilled
  split
  · exact keeps_freeArrays i
  · exact Traced.balances_fault trivial

theorem keeps_collectParams (i : Nat) (params types : Option CJson)
    (n j : Nat) :
    Keeps s (withArrays s i held) (collectParams s i params types n j)
      fun
        | none => held
        | some _ => withArrays s i held := by
  induction n generalizing j with
  | zero => exact Traced.balances_pure rfl
  | succ n ih =>
      unfold collectParams
      split
      · refine Traced.balances_bind (keeps_call rfl) fun _ _ => ?_
        refine Traced.balances_bind (keeps_call rfl) fun _ _ => ?_
        refine Traced.balances_bind (ih (j + 1)) fun rest _ => ?_
        cases rest with
        | none => exact Traced.balances_pure rfl
        | some _ => exact Traced.balances_pure rfl
      · refine Traced.balances_bind (keeps_call rfl) fun _ _ => ?_
        refine Traced.balances_bind (keeps_freeArrays i) fun _ _ => ?_
        exact Traced.balances_pure rfl

theorem keeps_malloc (block : Block) (size : Int) :
    Keeps s held (call (.malloc block size)) fun _ =>
      (if s.mallocs block then [.block block] else []) ++ held := by
  apply Traced.balances_emit
  rw [transfersOf]
  split
  · rfl
  · rfl

theorem keeps_generateMethod (i : Nat) (method rettype params types : CJson) :
    Keeps s held (generateMethod s i method rettype params types)
      fun _ => held := by
  unfold generateMethod
  refine Traced.balances_bind (keeps_malloc ..) fun _ _ => ?_
  refine Traced.balances_bind (m := fun _ => withArrays s i held)
    (keeps_malloc ..) fun _ _ => ?_
  split
  · refine Traced.balances_bind (keeps_collectParams ..) fun collected _ => ?_
    cases collected with
    | none => exact Traced.balances_pure rfl
    | some ps =>
        have hheader := readsStrings_of_completes (completes_rpcGenerateHMethod
          method.valuestring rettype.valuestring ps)
        refine Traced.balances_bind (keeps_emitTo hheader) fun _ _ => ?_
        refine Traced.balances_bind
          (keeps_emitTo (readsStrings_rpcGenerateCMethod ..)) fun _ _ => ?_
        refine Traced.balances_bind (keeps_freeFilled i _) fun _ _ => ?_
        exact Traced.balances_pure rfl
  · refine Traced.balances_bind (keeps_call rfl) fun _ _ => ?_
    refine Traced.balances_bind (keeps_freeArrays i) fun _ _ => ?_
    exact Traced.balances_pure rfl

theorem keeps_generateEntry (i : Nat) (config : Option CJson) :
    Keeps s held (generateEntry s i config) fun _ => held := by
  unfold generateEntry
  repeat' split
  all_goals first
    | exact keeps_generateMethod ..
    | exact keeps_refuse _

theorem keeps_generateEntries (config : Option CJson) (n i : Nat) :
    Keeps s held (generateEntries s config n i) fun _ => held := by
  induction n generalizing i with
  | zero => exact Traced.balances_pure rfl
  | succ n ih =>
      refine Traced.balances_bind (keeps_generateEntry i _) fun done _ => ?_
      cases done with
      | none => exact Traced.balances_pure rfl
      | some _ => exact ih (i + 1)

theorem keeps_generateDocument (root : CJson) :
    Keeps s held (generateDocument s root) fun _ => held := by
  unfold generateDocument
  split
  · exact keeps_call rfl
  · rename_i config _
    refine Traced.balances_bind (keeps_generateEntries ..) fun done _ => ?_
    cases done with
    | none => exact Traced.balances_pure rfl
    | some _ =>
        refine Traced.balances_bind
          (keeps_emitTo (readsStrings_of_completes completes_headerEnd))
          fun _ _ => ?_
        exact Traced.balances_bind (keeps_call rfl) fun _ _ => keeps_call rfl

/-!
## The label `out`
-/

def owned (pointer : Pointer) (r : Resource) : List Resource :=
  if pointer = .valid then [r] else []

/-- What is held behind the label `out`. -/
def heldAtOut (locals : Locals) : List Resource :=
  owned locals.root .tree ++
    (owned locals.methodHFp (.stream .header) ++
      (owned locals.methodCFp (.stream .source) ++
        (owned locals.jsonBuf (.block .jsonBuf) ++ [.descriptor])))

theorem keeps_generateFiles (content : List Byte) :
    Keeps s held (generateFiles s content) fun root =>
      owned root .tree ++ held := by
  unfold generateFiles
  refine Traced.balances_bind
    (keeps_emitTo (readsStrings_of_completes completes_headerPreamble))
    fun _ _ => ?_
  refine Traced.balances_bind
    (keeps_emitTo (readsStrings_of_completes completes_sourcePreamble))
    fun _ _ => ?_
  cases hroot : if s.parses then parse (jsonText s content) else none with
  | none =>
      have hnone : (s.parses && (parse (jsonText s content)).isSome) =
          false := by
        cases hparses : s.parses with
        | false => rfl
        | true =>
            rw [hparses, if_pos rfl] at hroot
            rw [hroot]
            rfl
      have hparse : transfersOf s (.parse (jsonText s content)) = [] := by
        rw [transfersOf, hnone]
        rfl
      refine Traced.balances_bind (keeps_call hparse) fun _ _ => ?_
      refine Traced.balances_bind (keeps_call rfl) fun _ _ => ?_
      exact Traced.balances_pure rfl
  | some root =>
      have hsome : (s.parses && (parse (jsonText s content)).isSome) =
          true := by
        rcases Option.ite_none_right_eq_some.mp hroot with ⟨hparses, hparse⟩
        rw [hparses, hparse]
        rfl
      have hparse : Keeps s held (call (.parse (jsonText s content)))
          fun _ => .tree :: held := by
        apply Traced.balances_emit
        rw [transfersOf, hsome]
        rfl
      refine Traced.balances_bind hparse fun _ _ => ?_
      refine Traced.balances_bind (keeps_generateDocument root) fun _ _ => ?_
      exact Traced.balances_pure rfl

theorem keeps_fopen (target : Target) :
    Keeps s held (call (.fopen target)) fun _ =>
      owned (pointer (s.opens target)) (.stream target) ++ held := by
  apply Traced.balances_emit
  rw [transfersOf]
  cases s.opens target with
  | true => rfl
  | false => rfl

theorem keeps_generateFrom (content : List Byte) :
    Keeps s [.descriptor] (generateFrom s content) heldAtOut := by
  unfold generateFrom
  refine Traced.balances_bind (keeps_call rfl) fun _ _ => ?_
  refine Traced.balances_bind (keeps_call rfl) fun _ _ => ?_
  refine Traced.balances_bind (keeps_malloc ..) fun _ _ => ?_
  by_cases hbuffer : s.mallocs .jsonBuf = true
  · rw [if_neg (not_not.mpr hbuffer), if_pos hbuffer]
    refine Traced.balances_bind (keeps_call rfl) fun _ _ => ?_
    split
    · refine Traced.balances_bind (keeps_call rfl) fun _ _ => ?_
      exact Traced.balances_pure rfl
    · refine Traced.balances_bind (keeps_fopen .source) fun _ _ => ?_
      refine Traced.balances_bind (keeps_fopen .header) fun _ _ => ?_
      split
      · rename_i hopens
        rw [Bool.and_eq_true] at hopens
        rw [hopens.left, hopens.right]
        refine Traced.balances_bind (keeps_generateFiles content)
          fun root _ => ?_
        exact Traced.balances_pure rfl
      · refine Traced.balances_bind (keeps_call rfl) fun _ _ => ?_
        exact Traced.balances_pure rfl
  · rw [if_pos hbuffer, if_neg hbuffer]
    refine Traced.balances_bind (keeps_call rfl) fun _ _ => ?_
    exact Traced.balances_pure rfl

end

/-!
## The clean-up
-/

section

variable {s : Setting} {locals : Locals} {content : List Byte}

def leaked (locals : Locals) : List Resource :=
  owned locals.methodHFp (.stream .header) ++
    owned locals.methodCFp (.stream .source)

theorem balances_closeFile {held : List Resource} (var : Local)
    (fp : Pointer) :
    (closeFile s var fp).Balances (transfersOf s) (fun _ => True) held
      fun _ => held := by
  unfold closeFile
  split
  · exact Traced.balances_fault trivial
  · exact Traced.balances_pure rfl

theorem balances_deleteRoot :
    (deleteRoot s locals.root).Balances (transfersOf s) (fun _ => True)
      (owned locals.root .tree ++ leaked locals) fun _ => leaked locals := by
  unfold deleteRoot
  split
  · rename_i hnull
    refine Traced.balances_pure ?_
    have hroot : locals.root ≠ .valid := by
      intro hvalid
      rw [hvalid] at hnull
      cases hnull
    rw [owned, if_neg hroot, List.nil_append]
  · split
    · rename_i hvalid
      apply Traced.balances_emit
      rw [owned, if_pos hvalid, transfersOf]
      simp [ledger_release]
    · exact Traced.balances_fault trivial

theorem balances_cleanUp :
    (cleanUp s locals).Balances (transfersOf s) (fun _ => True)
      (heldAtOut locals) fun _ => leaked locals := by
  have hclose : (call .close).Balances (transfersOf s) (fun _ => True)
      (heldAtOut locals) fun _ => owned locals.root .tree ++
        (owned locals.methodHFp (.stream .header) ++
          (owned locals.methodCFp (.stream .source) ++
            owned locals.jsonBuf (.block .jsonBuf))) := by
    apply Traced.balances_emit
    unfold heldAtOut owned
    split_ifs
    all_goals rfl
  unfold cleanUp
  refine Traced.balances_bind hclose fun _ _ => ?_
  refine Traced.balances_bind (balances_closeFile _ _) fun _ _ => ?_
  refine Traced.balances_bind (balances_closeFile _ _) fun _ _ => ?_
  split
  · rename_i hvalid
    refine Traced.balances_bind ?_ fun _ _ => balances_deleteRoot
    apply Traced.balances_emit
    unfold leaked owned
    rw [if_pos hvalid]
    split_ifs
    all_goals rfl
  · rename_i hvalid
    have hbuffer : owned locals.jsonBuf (.block .jsonBuf) = [] := if_neg hvalid
    rw [hbuffer, List.append_nil]
    exact balances_deleteRoot

theorem deleteRoot_result :
    (deleteRoot s locals.root).result =
      if isNull s .root locals.root ∨ locals.root = .valid then .ok ()
      else .error .wildPointer := by
  unfold deleteRoot
  by_cases hnull : isNull s .root locals.root = true
  · rw [if_pos hnull, if_pos (Or.inl hnull)]
    rfl
  · by_cases hvalid : locals.root = .valid
    · rw [if_neg hnull, if_pos hvalid, if_pos (Or.inr hvalid)]
      rfl
    · rw [if_neg hnull, if_neg hvalid, if_neg (not_or.mpr ⟨hnull, hvalid⟩)]
      rfl

theorem cleanUp_result :
    (cleanUp s locals).result =
      if isNull s .methodCFp locals.methodCFp ∨
        isNull s .methodHFp locals.methodHFp then .error .nullFile
      else if isNull s .root locals.root ∨ locals.root = .valid then .ok ()
      else .error .wildPointer := by
  unfold cleanUp closeFile
  rw [call_bind_result]
  by_cases hc : isNull s .methodCFp locals.methodCFp = true
  · rw [if_pos hc, if_pos (Or.inl hc)]
    rfl
  · rw [if_neg hc]
    by_cases hh : isNull s .methodHFp locals.methodHFp = true
    · rw [if_pos hh, if_pos (Or.inr hh)]
      rfl
    · rw [if_neg hh, if_neg (not_or.mpr ⟨hc, hh⟩), <- deleteRoot_result]
      split
      · rfl
      · rfl

/-!
## How the label `out` is reached
-/

theorem generateFrom_of_unread (h : ¬ ReadWhole s content) :
    exists jsonBuf, (generateFrom s content).result =
      .ok ⟨.unassigned, .unassigned, jsonBuf, .unassigned⟩ := by
  unfold generateFrom
  rw [call_bind_result, call_bind_result, call_bind_result]
  by_cases hbuffer : s.mallocs .jsonBuf = true
  · have hcount : readCount s content (fileSize content) ≠
        fileSize content := fun hread => h ⟨hbuffer, hread⟩
    rw [if_neg (not_not.mpr hbuffer), call_bind_result, if_pos hcount]
    exact ⟨.valid, rfl⟩
  · rw [if_pos hbuffer]
    exact ⟨.null, rfl⟩

theorem generateFrom_of_read (h : ReadWhole s content) :
    (generateFrom s content).result =
      if s.opens .source && s.opens .header then
        (generateFiles s content).result >>= fun root =>
          .ok ⟨.valid, .valid, .valid, root⟩
      else .ok ⟨pointer (s.opens .source), pointer (s.opens .header), .valid,
        .unassigned⟩ := by
  unfold generateFrom
  rw [call_bind_result, call_bind_result, call_bind_result,
    if_neg (not_not.mpr h.left), call_bind_result,
    if_neg (not_not.mpr h.right), call_bind_result, call_bind_result]
  split
  · rw [Traced.bind_result]
    rfl
  · rfl

end

/-!
## Where an entry ends the process
-/

def Stopped {α : Type} (g : Gen α) : Prop :=
  exists f, g.result = .error f

theorem stopped_bind_iff {α β : Type} {g : Gen α} {f : α -> Gen β} :
    Stopped (g >>= f) <->
      Stopped g ∨ exists a, g.result = .ok a ∧ Stopped (f a) := by
  unfold Stopped
  simp only [Traced.bind_result_error_iff, exists_or]
  apply or_congr_right
  constructor
  · intro h
    rcases h with ⟨fault, a, ha, hfault⟩
    exact ⟨a, ha, fault, hfault⟩
  · intro h
    rcases h with ⟨a, ha, fault, hfault⟩
    exact ⟨fault, a, ha, hfault⟩

theorem not_stopped_of_ok {α : Type} {g : Gen α} {a : α}
    (h : g.result = .ok a) : ¬ Stopped g := by
  intro hstopped
  rcases hstopped with ⟨f, hf⟩
  rw [h] at hf
  cases hf

theorem stopped_bind_of_ok {α β : Type} {g : Gen α} {a : α}
    (h : g.result = .ok a) (f : α -> Gen β) :
    Stopped (g >>= f) <-> Stopped (f a) := by
  unfold Stopped
  rw [Traced.bind_of_ok h]

theorem stopped_emitTo_iff (target : Target) (e : Emit Unit) :
    Stopped (emitTo target e) <-> ¬ Completes e := by
  unfold Stopped Completes emitTo
  cases e.result with
  | ok _ => simp
  | error f => simp

/-- An entry with all that is asked for, among it a `NULL` string that is
compared or printed alone, or more parameters than the arrays can hold. -/
def StoppingEntry (s : Setting) (i : Nat) (config : Option CJson) : Prop :=
  exists method rettype params types,
    getObjectItem config (.lit "method") = some method ∧
    getObjectItem config (.lit "rettype") = some rettype ∧
    getObjectItem config (.lit "params") = some params ∧
    getObjectItem config (.lit "types") = some types ∧
    getArraySize (some params) = getArraySize (some types) ∧
    s.mallocs (.paramStrArr i) = true ∧ s.mallocs (.typeStrArr i) = true ∧
    (¬ Writable method rettype params types ∨ 3 < getArraySize (some params))

def StopsAtEntry (s : Setting) (content : List Byte) : Prop :=
  s.opens .source = true ∧ s.opens .header = true ∧ s.parses = true ∧
    exists root config i, parse (jsonText s content) = some root ∧
      getObjectItem (some root) (.lit "config") = some config ∧
      i < getArraySize (some config) ∧
      (forall j, j < i -> GoodEntry s j (getArrayItem (some config) j)) ∧
      StoppingEntry s i (getArrayItem (some config) i)

section

variable {s : Setting}

theorem stopped_freeFilled_iff (i n : Nat) :
    Stopped (freeFilled s i n) <-> 3 < n := by
  rw [<- not_le, <- fits_usable_iff, freeFilled]
  split
  · rename_i hfits
    exact iff_of_false (not_stopped_of_ok (freeArrays_result i))
      (not_not.mpr hfits)
  · rename_i hfits
    exact iff_of_true ⟨.heapCorrupted, rfl⟩ hfits

theorem stopped_generateMethod_iff (i : Nat)
    {method rettype params types : CJson}
    (hsize : getArraySize (some params) = getArraySize (some types)) :
    Stopped (generateMethod s i method rettype params types) <->
      s.mallocs (.paramStrArr i) = true ∧ s.mallocs (.typeStrArr i) = true ∧
        (¬ Writable method rettype params types ∨
          3 < getArraySize (some params)) := by
  have hheader := completes_rpcGenerateHMethod method.valuestring
    rettype.valuestring (List.zipWith paramOf params.children types.children)
  rw [generateMethod, stopped_bind_of_ok (g := call _) rfl,
    stopped_bind_of_ok (g := call _) rfl, <- completes_writers_iff hsize,
    <- and_assoc, <- Bool.and_eq_true]
  split
  · rename_i hmallocs
    rw [stopped_bind_of_ok (collectParams_of_size i hsize)]
    simp only [hmallocs, true_and]
    rw [stopped_bind_of_ok (g := emitTo .header _) hheader, stopped_bind_iff,
      stopped_emitTo_iff]
    have hfree : Stopped (freeFilled s i (getArraySize (some params)) >>=
        fun _ => return some ()) <-> 3 < getArraySize (some params) := by
      rw [stopped_bind_iff, stopped_freeFilled_iff, or_iff_left]
      intro h
      rcases h with ⟨_, _, hreturn⟩
      exact not_stopped_of_ok rfl hreturn
    constructor
    · intro h
      rcases h with hsource | ⟨_, _, hstopped⟩
      · exact Or.inl hsource
      · exact Or.inr (hfree.mp hstopped)
    · intro h
      rw [or_iff_not_imp_left, not_not]
      intro hsource
      rcases h with hnot | hmany
      · exact absurd hsource hnot
      · exact ⟨(), hsource, hfree.mpr hmany⟩
  · rename_i hmallocs
    simp only [hmallocs, Bool.false_eq_true, false_and, iff_false]
    exact not_stopped_of_ok (a := none) (by
      rw [call_bind_result, freeArrays_bind_result]
      rfl)

theorem stopped_generateEntry_iff (i : Nat) (config : Option CJson) :
    Stopped (generateEntry s i config) <-> StoppingEntry s i config := by
  have hrefuse (text : String) :
      ¬ Stopped (refuse text : Gen (Option Unit)) :=
    not_stopped_of_ok (refuse_result text)
  unfold generateEntry StoppingEntry
  cases config with
  | none => simp [hrefuse, getObjectItem]
  | some config =>
      cases hmethod : getObjectItem (some config) (.lit "method") with
      | none => simp [hmethod, hrefuse]
      | some method =>
      cases hrettype : getObjectItem (some config) (.lit "rettype") with
      | none => simp [hmethod, hrettype, hrefuse]
      | some rettype =>
      cases hparams : getObjectItem (some config) (.lit "params") with
      | none => simp [hmethod, hrettype, hparams, hrefuse]
      | some params =>
      cases htypes : getObjectItem (some config) (.lit "types") with
      | none => simp [hmethod, hrettype, hparams, htypes, hrefuse]
      | some types =>
      by_cases hsize :
          getArraySize (some params) = getArraySize (some types)
      · simp [hmethod, hrettype, hparams, htypes, hsize,
          stopped_generateMethod_iff i hsize]
      · simp [hmethod, hrettype, hparams, htypes, hsize, hrefuse]

theorem stopped_generateEntries_iff (config : Option CJson) (n i : Nat) :
    Stopped (generateEntries s config n i) <->
      exists k, k < n ∧
        (forall j, j < k -> GoodEntry s (i + j) (getArrayItem config (i + j))) ∧
        StoppingEntry s (i + k) (getArrayItem config (i + k)) := by
  induction n generalizing i with
  | zero => simp [generateEntries, Stopped]
  | succ n ih =>
      rw [generateEntries, stopped_bind_iff, stopped_generateEntry_iff]
      constructor
      · intro h
        rcases h with hfirst | ⟨done, hdone, hrest⟩
        · exact ⟨0, by omega, fun j hj => absurd hj (Nat.not_lt_zero j), hfirst⟩
        · cases done with
          | none => exact absurd hrest (not_stopped_of_ok rfl)
          | some _ =>
              rcases (ih (i + 1)).mp hrest with ⟨k, hk, hgood, hstop⟩
              have hindex (j : Nat) : i + 1 + j = i + (j + 1) := by omega
              simp only [hindex] at hgood hstop
              refine ⟨k + 1, by omega, fun j hj => ?_, hstop⟩
              cases j with
              | zero => exact (generateEntry_result_iff i _).mp hdone
              | succ j => exact hgood j (by omega)
      · intro h
        rcases h with ⟨k, hk, hgood, hstop⟩
        cases k with
        | zero => exact Or.inl hstop
        | succ k =>
            right
            refine ⟨some (), (generateEntry_result_iff i _).mpr
              (hgood 0 (by omega)), (ih (i + 1)).mpr ⟨k, by omega, ?_, ?_⟩⟩
            · intro j hj
              have hindex : i + 1 + j = i + (j + 1) := by omega
              rw [hindex]
              exact hgood (j + 1) (by omega)
            · have hindex : i + 1 + k = i + (k + 1) := by omega
              rw [hindex]
              exact hstop

theorem stopped_generateDocument_iff (root : CJson) :
    Stopped (generateDocument s root) <->
      exists config i,
        getObjectItem (some root) (.lit "config") = some config ∧
        i < getArraySize (some config) ∧
        (forall j, j < i -> GoodEntry s j (getArrayItem (some config) j)) ∧
        StoppingEntry s i (getArrayItem (some config) i) := by
  unfold generateDocument
  cases hconfig : getObjectItem (some root) (.lit "config") with
  | none => simp [Stopped, call]
  | some config =>
      have hloop := stopped_generateEntries_iff (s := s) (some config)
        (getArraySize (some config)) 0
      simp only [Nat.zero_add] at hloop
      simp only [Option.some.injEq, exists_and_left, exists_eq_left']
      rw [stopped_bind_iff, hloop, or_iff_left]
      intro h
      rcases h with ⟨done, _, hrest⟩
      cases done with
      | none => exact not_stopped_of_ok rfl hrest
      | some _ => exact not_stopped_of_ok rfl hrest

theorem stopped_generateFiles_iff {content : List Byte}
    (hsource : s.opens .source = true) (hheader : s.opens .header = true) :
    Stopped (generateFiles s content) <-> StopsAtEntry s content := by
  unfold generateFiles StopsAtEntry
  have hpreambles : (emitTo .header headerPreamble).result = .ok () ∧
      (emitTo .source sourcePreamble).result = .ok () := ⟨rfl, rfl⟩
  rw [stopped_bind_of_ok hpreambles.left,
    stopped_bind_of_ok hpreambles.right, stopped_bind_of_ok (g := call _) rfl]
  cases hroot : if s.parses then parse (jsonText s content) else none with
  | none =>
      constructor
      · intro h
        exact absurd h (not_stopped_of_ok rfl)
      · intro h
        rcases h with ⟨_, _, hparses, root, _, _, hparse, _⟩
        rw [if_pos hparses, hparse] at hroot
        cases hroot
  | some root =>
      rcases Option.ite_none_right_eq_some.mp hroot with ⟨hparses, hparse⟩
      simp only [stopped_bind_iff, stopped_generateDocument_iff, hsource,
        hheader, hparses, hparse, Option.some.injEq, true_and,
        exists_and_left, exists_eq_left']
      rw [or_iff_left]
      intro h
      rcases h with ⟨_, _, hreturn⟩
      exact not_stopped_of_ok rfl hreturn

end

/-!
## When everything is released
-/

/-- The locals that were not assigned hold what the clean-up passes over. -/
def PassesOver (s : Setting) : Prop :=
  s.holdsNull .methodCFp = false ∧ s.holdsNull .methodHFp = false ∧
    s.holdsNull .root = true

section

variable {s : Setting} {content : List Byte}

theorem run_eq (hregister : s.register = some content) :
    rpcGenerateMethodCode s = (do
      call .open
      let locals ← generateFrom s content
      cleanUp s locals
      return -1) := by
  rw [rpcGenerateMethodCode, hregister]

theorem balances_open (hregister : s.register = some content)
    {Q : Fault -> Prop} :
    (call .open).Balances (transfersOf s) Q [] fun _ => [.descriptor] := by
  apply Traced.balances_emit
  rw [transfersOf, hregister]
  rfl

theorem cleansUp_of_stopped (hregister : s.register = some content)
    (h : Stopped (generateFrom s content)) : CleansUp s := by
  rcases h with ⟨f, hf⟩
  have hkeeps := keeps_generateFrom (s := s) content
  have hends := hkeeps.faults f hf
  have hrun : (do
      call .open
      let locals ← generateFrom s content
      cleanUp s locals
      return -1 : Gen Int) =
        ⟨.open :: (generateFrom s content).events, .error f⟩ := by
    rw [Traced.bind_of_ok (x := call .open) rfl, Traced.bind_of_error hf]
    rfl
  have hledger : runLedger s ≠ none := by
    rw [runLedger, run_eq hregister, hrun, Traced.transfers,
      List.flatMap_cons, transfersOf, hregister]
    exact hkeeps.sound
  have hresult : (rpcGenerateMethodCode s).result = .error f := by
    rw [run_eq hregister, hrun]
  refine ⟨hledger, ?_, ?_, by simp [hresult], by simp [hresult]⟩
  · intro hfile
    rw [Except.error.inj (hresult.symm.trans hfile)] at hends
    exact hends
  · intro hwild
    rw [Except.error.inj (hresult.symm.trans hwild)] at hends
    exact hends

theorem cleansUp_iff_of_out {locals : Locals}
    (hregister : s.register = some content)
    (hout : (generateFrom s content).result = .ok locals) :
    CleansUp s <-> (cleanUp s locals).result = .ok () ∧
      leaked locals = [] ∧ ¬ ReachesSuccess s := by
  have hbalances : (rpcGenerateMethodCode s).Balances (transfersOf s)
      (fun _ => True) [] fun _ => leaked locals := by
    rw [run_eq hregister]
    refine Traced.balances_bind (balances_open hregister) fun _ _ => ?_
    have hfrom := keeps_generateFrom (s := s) content
    refine Traced.balances_bind
      ⟨hfrom.sound, hfrom.ends, fun _ _ => trivial⟩ fun after hafter => ?_
    rw [hout] at hafter
    obtain rfl : locals = after := Except.ok.inj hafter
    refine Traced.balances_bind balances_cleanUp fun _ _ => ?_
    exact Traced.balances_pure rfl
  have hresult : (rpcGenerateMethodCode s).result =
      (cleanUp s locals).result >>= fun _ => .ok (-1) := by
    rw [run_eq hregister, Traced.bind_of_ok (x := call .open) rfl,
      Traced.bind_of_ok hout, Traced.bind_result]
    rfl
  constructor
  · intro h
    have hclean : (cleanUp s locals).result = .ok () := by
      have hfile := h.noNullFile
      have hwild := h.noWildPointer
      rw [hresult, cleanUp_result] at hfile hwild
      rw [cleanUp_result]
      split_ifs at hfile hwild ⊢
      · exact absurd rfl hfile
      · rfl
      · exact absurd rfl hwild
    rw [hclean] at hresult
    have hnone := h.released (-1) hresult
    have hleaked : runLedger s = some (leaked locals) :=
      hbalances.ends (-1) hresult
    rw [hleaked, Option.some.injEq] at hnone
    exact ⟨hclean, hnone, (h.tells (-1) hresult).mp rfl⟩
  · intro h
    rcases h with ⟨hclean, hleaked, hfailure⟩
    rw [hclean] at hresult
    refine ⟨hbalances.sound, by simp [hresult, Bind.bind, Except.bind],
      by simp [hresult, Bind.bind, Except.bind], ?_, ?_⟩
    · intro ret hret
      rw [<- hleaked]
      exact hbalances.ends ret hret
    · intro ret hret
      rw [hresult] at hret
      obtain rfl : -1 = ret := Except.ok.inj hret
      simp [hfailure]

theorem cleansUp_of_unopened (hregister : s.register = none) :
    CleansUp s := by
  have hrun : rpcGenerateMethodCode s = (do
      call .open
      call (.perror (.lit "open register json file failed"))
      return -1) := by
    rw [rpcGenerateMethodCode, hregister]
  have hledger : runLedger s = some [] := by
    rw [runLedger, hrun]
    simp [Traced.transfers, Traced.bind_def, Traced.bind, call, transfersOf,
      hregister]
  have hresult : (rpcGenerateMethodCode s).result = .ok (-1) := by
    rw [hrun]
    rfl
  refine ⟨by simp [hledger], by simp [hresult], by simp [hresult],
    fun _ _ => hledger, ?_⟩
  intro ret hret
  rw [hresult] at hret
  obtain rfl : -1 = ret := Except.ok.inj hret
  rw [reachesSuccess_iff, Accepted, hregister]
  simp

theorem not_cleansUp_of_unopened_file (hregister : s.register = some content)
    (hread : ReadWhole s content)
    (hopens : ¬ (s.opens .source && s.opens .header) = true) :
    ¬ CleansUp s := by
  have hfrom := generateFrom_of_read hread
  rw [if_neg hopens] at hfrom
  rw [cleansUp_iff_of_out hregister hfrom]
  rw [Bool.and_eq_true, not_and_or, Bool.not_eq_true, Bool.not_eq_true]
    at hopens
  intro h
  have hclean := h.left
  rw [cleanUp_result, if_pos] at hclean
  · cases hclean
  · rcases hopens with hsource | hheader
    · left
      rw [hsource]
      rfl
    · right
      rw [hheader]
      rfl

theorem cleansUp_iff_of_read (hregister : s.register = some content)
    (hread : ReadWhole s content) :
    CleansUp s <-> StopsAtEntry s content := by
  by_cases hopens : (s.opens .source && s.opens .header) = true
  · have hfrom := generateFrom_of_read hread
    rw [if_pos hopens] at hfrom
    rw [Bool.and_eq_true] at hopens
    rw [<- stopped_generateFiles_iff hopens.left hopens.right]
    cases hfiles : (generateFiles s content).result with
    | error f =>
        have hstopped : Stopped (generateFrom s content) := by
          rw [hfiles] at hfrom
          exact ⟨f, hfrom⟩
        exact iff_of_true (cleansUp_of_stopped hregister hstopped)
          ⟨f, hfiles⟩
    | ok root =>
        -- behind the last entry the two streams stay open
        rw [hfiles] at hfrom
        rw [cleansUp_iff_of_out hregister hfrom]
        refine iff_of_false ?_ (not_stopped_of_ok hfiles)
        intro h
        cases h.right.left
  · refine iff_of_false (not_cleansUp_of_unopened_file hregister hread hopens)
      fun h => hopens ?_
    rw [Bool.and_eq_true]
    exact ⟨h.left, h.right.left⟩

theorem cleansUp_iff_of_unread (hregister : s.register = some content)
    (hread : ¬ ReadWhole s content) : CleansUp s <-> PassesOver s := by
  rcases generateFrom_of_unread hread with ⟨jsonBuf, hfrom⟩
  have hfailure : ¬ ReachesSuccess s := by
    rw [reachesSuccess_iff]
    intro h
    rcases h with ⟨content', hregister', hread', _⟩
    rw [hregister, Option.some.injEq] at hregister'
    subst hregister'
    exact hread hread'
  have hnone : leaked ⟨.unassigned, .unassigned, jsonBuf, .unassigned⟩ = [] :=
    rfl
  rw [cleansUp_iff_of_out hregister hfrom]
  simp only [hfailure, not_false_eq_true, hnone, and_true]
  rw [cleanUp_result]
  unfold PassesOver isNull
  cases s.holdsNull .methodCFp with
  | true => simp
  | false =>
  cases s.holdsNull .methodHFp with
  | true => simp
  | false =>
  cases s.holdsNull .root with
  | true => simp
  | false => simp

end

/--
Everything is released and nothing else exactly when the register file cannot
be opened, or is not read as a whole and the locals that were not assigned hold
what the clean-up passes over, or when an entry ends the process first.
-/
theorem cleansUp_iff (s : Setting) :
    CleansUp s <-> forall content, s.register = some content ->
      (ReadWhole s content -> StopsAtEntry s content) ∧
        (¬ ReadWhole s content -> PassesOver s) := by
  cases hregister : s.register with
  | none => simp [cleansUp_of_unopened hregister]
  | some content =>
      simp only [Option.some.injEq, forall_eq']
      by_cases hread : ReadWhole s content
      · rw [cleansUp_iff_of_read hregister hread]
        simp only [hread, forall_const, not_true, IsEmpty.forall_iff, and_true]
      · rw [cleansUp_iff_of_unread hregister hread]
        simp only [hread, IsEmpty.forall_iff, not_false_eq_true, forall_const,
          true_and]

/-- Both files are generated, and the process keeps two streams that nothing
can close any more and is told that the generation failed. -/
theorem emptyConfig_leaks_streams :
    ReachesSuccess (workingSetting (ascii "\x7b\"config\":[]\x7d")) ∧
      (rpcGenerateMethodCode (workingSetting
        (ascii "\x7b\"config\":[]\x7d"))).result = .ok (-1) ∧
      runLedger (workingSetting (ascii "\x7b\"config\":[]\x7d")) =
        some [.stream .header, .stream .source] ∧
      ¬ CleansUp (workingSetting (ascii "\x7b\"config\":[]\x7d")) := by
  have hledger : runLedger (workingSetting (ascii "\x7b\"config\":[]\x7d")) =
      some [.stream .header, .stream .source] := by decide +kernel
  have hreturns : (rpcGenerateMethodCode (workingSetting
      (ascii "\x7b\"config\":[]\x7d"))).result = .ok (-1) := by
    decide +kernel
  refine ⟨by unfold ReachesSuccess; decide +kernel, hreturns, hledger, ?_⟩
  intro h
  have hnone := h.released (-1) hreturns
  rw [hledger] at hnone
  cases hnone

end Generator
end Z2wRpc
