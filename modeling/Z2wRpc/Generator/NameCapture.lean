import Z2wRpc.Generator.EmittedCode

/-!
# Names in the emitted code

The handler keeps its locals apart from the names of a register file by the
prefix `cjson_`; the method and the stub declare theirs next to the parameters
as they are.
-/

namespace Z2wRpc

open Foundation

namespace Generator

open CFragment CJson Dispatch

/--
The three written functions declare no name twice, and in the initialiser of
`request`, the first line of the stub, every name in the call is a parameter.
-/
structure CaptureFree (source : List Byte) (entry : EntryText) : Prop where
  written : source =
    (functions entry (sentOperands entry)).flatMap Function.text
  once : forall f, f ∈ functions entry (sentOperands entry) -> f.scope.Nodup
  refers : forall x, .name x ∈ sentOperands entry ->
    (stubFunction entry (sentOperands entry)).refersTo 0 x = some .parameter

def templateNames : List CString :=
  [.lit "request", .lit "response", .lit "result", .lit "ret"]

section

variable (entry : EntryText)

/-!
## What the functions declare
-/

theorem names_methodFunction :
    (methodFunction entry).head.names = entry.params.map Prod.fst := by
  show (entry.params.map parameter).map Declaration.name = _
  rw [List.map_map]
  rfl

theorem names_stubFunction (sent : List Operand) :
    (stubFunction entry sent).head.names = entry.params.map Prod.fst :=
  names_methodFunction entry

theorem names_handlerFunction :
    (handlerFunction entry).head.names = [.lit "params", .lit "task"] := rfl

theorem locals_methodFunction :
    locals (methodFunction entry).body = [.lit "ret"] := by
  unfold methodFunction
  split
  · rfl
  · rfl

theorem locals_handlerFunction :
    locals (handlerFunction entry).body =
      (entry.params.map Prod.fst).map cjsonName ++
        [.lit "ret", .lit "root", .lit "response"] := by
  have hlookups : locals (entry.params.map lookupStatement) =
      (entry.params.map Prod.fst).map cjsonName := by
    rw [locals, List.flatMap_map, List.map_map, List.map_eq_flatMap]
    rfl
  rw [handlerFunction, locals, List.flatMap_append]
  exact congrArg (· ++ _) hlookups

theorem declared_conversion (type : CString) :
    (conversionStatement type).declared = [.lit "ret"] := by
  unfold conversionStatement
  split_ifs
  all_goals rfl

theorem locals_stubFunction (sent : List Operand) :
    locals (stubFunction entry sent).body = templateNames := by
  rw [stubFunction, locals]
  simp only [List.flatMap_cons, declared_conversion]
  rfl

/-!
## Handler
-/

theorem cjsonName_injective : Function.Injective cjsonName := by
  intro x y h
  ext1
  exact List.append_cancel_left (congrArg CString.bytes h)

theorem cjsonName_ne {name y : CString}
    (h : ¬ (CString.lit "cjson_").bytes <+: y.bytes) : cjsonName name ≠ y := by
  intro heq
  apply h
  rw [<- heq]
  exact List.prefix_append _ _

theorem once_handlerFunction (h : (entry.params.map Prod.fst).Nodup) :
    (handlerFunction entry).scope.Nodup := by
  have happart : forall y, y ∈ [CString.lit "params", .lit "task"] ++
      [.lit "ret", .lit "root", .lit "response"] ->
        y ∉ (entry.params.map Prod.fst).map cjsonName := by
    have hfront : forall y, y ∈ [CString.lit "params", .lit "task"] ++
        [.lit "ret", .lit "root", .lit "response"] ->
          ¬ (CString.lit "cjson_").bytes <+: y.bytes := by
      decide
    intro y hy hcjson
    rcases List.mem_map.mp hcjson with ⟨name, _, hname⟩
    exact cjsonName_ne (hfront y hy) hname
  have hfixed : forall y, y ∈ [CString.lit "params", .lit "task"] ->
      y ∉ [CString.lit "ret", .lit "root", .lit "response"] := by
    decide
  have hlocals : ((entry.params.map Prod.fst).map cjsonName).Disjoint
      [.lit "ret", .lit "root", .lit "response"] := by
    intro y hcjson hy
    exact happart y (List.mem_append_right _ hy) hcjson
  rw [scope_nodup_iff, names_handlerFunction, locals_handlerFunction,
    List.nodup_append']
  refine ⟨by decide, ⟨h.map cjsonName_injective, by decide, hlocals⟩, ?_⟩
  intro y hy hlocal
  rcases List.mem_append.mp hlocal with hcjson | hlocal
  · exact happart y (List.mem_append_left _ hy) hcjson
  · exact hfixed y hy hlocal

/-!
## Method and stub
-/

theorem once_methodFunction_iff (h : (entry.params.map Prod.fst).Nodup) :
    (methodFunction entry).scope.Nodup <->
      .lit "ret" ∉ entry.params.map Prod.fst := by
  rw [scope_nodup_iff, names_methodFunction, locals_methodFunction]
  constructor
  · intro honce hret
    exact honce.right.right _ hret List.mem_cons_self
  · intro hret
    refine ⟨h, List.nodup_singleton _, fun x hx hlocal => ?_⟩
    rw [List.mem_singleton.mp hlocal] at hx
    exact hret hx

theorem once_stubFunction_iff (sent : List Operand)
    (h : (entry.params.map Prod.fst).Nodup) :
    (stubFunction entry sent).scope.Nodup <->
      forall x, x ∈ entry.params.map Prod.fst -> x ∉ templateNames := by
  have hnodup : templateNames.Nodup := by decide
  rw [scope_nodup_iff, names_stubFunction, locals_stubFunction]
  constructor
  · intro honce
    exact honce.right.right
  · intro hapart
    exact ⟨h, hnodup, hapart⟩

theorem name_mem_sentOperands_iff {x : CString} :
    .name x ∈ sentOperands entry <-> x ∈ entry.params.map Prod.fst := by
  unfold sentOperands
  split
  · rename_i hnone
    simp [hnone]
  · simp

theorem refersTo_stubFunction (sent : List Operand) {x : CString}
    (hparam : x ∈ entry.params.map Prod.fst) (hlocal : x ∉ templateNames) :
    (stubFunction entry sent).refersTo 0 x = some .parameter := by
  rw [refersTo_eq_parameter_iff, names_stubFunction]
  refine ⟨fun hrequest => hlocal ?_, hparam⟩
  rw [List.mem_singleton.mp hrequest]
  exact List.mem_cons_self

end

/--
The code written for an accepted entry with different parameter names is free
of capture exactly when no parameter has the name of a local.
-/
theorem captureFree_iff {s : Setting} {i : Nat} {item : CJson}
    {entry : EntryText} (hwritten : WrittenEntry s i (some item))
    (hlists : Lists item entry)
    (hdistinct : (entry.params.map Prod.fst).Nodup) :
    CaptureFree (written s i item .source) entry <->
      forall x, x ∈ entry.params.map Prod.fst -> x ∉ templateNames := by
  have hstub := once_stubFunction_iff entry (sentOperands entry) hdistinct
  constructor
  · intro h
    exact hstub.mp (h.once _ (by simp [functions]))
  · intro hapart
    refine ⟨(written_of_lists entry hwritten hlists).left, ?_, ?_⟩
    · intro f hf
      simp only [functions, List.mem_cons, List.not_mem_nil, or_false] at hf
      rcases hf with rfl | rfl | rfl
      · apply (once_methodFunction_iff entry hdistinct).mpr
        intro hret
        exact hapart _ hret (by decide)
      · exact once_handlerFunction entry hdistinct
      · exact hstub.mpr hapart
    · intro x hx
      rw [name_mem_sentOperands_iff] at hx
      exact refersTo_stubFunction entry _ hx (hapart x hx)

theorem captureFree_add :
    CaptureFree (written (workingSetting []) 1 addSignature.text.document
      .source) addSignature.text <->
        forall x, x ∈ addSignature.text.params.map Prod.fst ->
          x ∉ templateNames := by
  have hwritten : WrittenEntry (workingSetting []) 1
      (some addSignature.text.document) :=
    (writtenEntry_iff (fun _ => rfl) 1 _).mpr
      (generatorWrites_of_describes (describes_entry _))
  exact captureFree_iff hwritten (lists_of_describes (describes_entry _))
    (by decide)

def resultEntry : EntryText where
  method := .lit "report"
  params := [(.lit "result", .lit "int")]
  rettype := .lit "int"

def resultDocument : CJson :=
  entriesDocument (.lit "172.16.0.6") 9096 [resultEntry]

/-- The generator accepts it, and the stub declares `result` twice. -/
theorem resultEntry_declared_twice :
    ReachesSuccess (workingSetting (print resultDocument).bytes) ∧
      ¬ CaptureFree (written (workingSetting (print resultDocument).bytes) 0
        resultEntry.document .source) resultEntry := by
  constructor
  · exact reachesSuccess_entriesDocument (by decide) (by decide +kernel)
  · intro h
    have honce := h.once (stubFunction resultEntry (sentOperands resultEntry))
      (by simp [functions])
    have hparam : CString.lit "result" ∈ resultEntry.params.map Prod.fst :=
      List.mem_cons_self
    rw [once_stubFunction_iff resultEntry _ (by decide)] at honce
    exact honce _ hparam (by decide)

end Generator
end Z2wRpc
