import Z2wRpc.Dispatch.Process
import Z2wRpc.Dispatch.RegisterJson

/-!
# Which requests are dispatched safely

`rpc_process` and the generated handler read fields of items without looking
whether the items are there.  A request is dispatched safely when every field
that is read belongs to an item of the right kind and nothing is called through
`NULL`; the conditions below say when, from the table and the document alone.
-/

namespace Z2wRpc

open Foundation

namespace Dispatch

open CJson

def Proper : Event -> Prop
  | .valuestring item => exists s, item = some (.string s)
  | .valueint item => exists d, item = some (.number d)
  | .call _ => True

/--
No field of an absent or ill-typed item is read, and no fault occurs outside
the method that is called.
-/
abbrev Safe {α : Type} (run : Run α) : Prop :=
  Traced.Obeys Proper (fun fault => fault = .outOfBounds) run

def HasKind (type : CString) (item : Option CJson) : Prop :=
  if isCharPointer type then exists s, item = some (.string s)
  else exists d, item = some (.number d)

def ProperParams (handler : Handler) (params : Option CJson) : Prop :=
  forall p, p ∈ handler.params -> HasKind p.2 (getObjectItem params p.1)

structure Complete (table : List RpcFunc) (root : CJson) (name : CString)
    (func : RpcFunc) (handler : Handler) : Prop where
  named : member root "method" = some (.string name)
  found : newest table name = some func
  identified : exists d, member root "callerid" = some (.number d)
  bound : func.handler = some handler
  params : ProperParams handler (member root "params")

def LacksNothing (table : List RpcFunc) (request : CString) : Prop :=
  exists root name func handler, parse request = some root ∧
    Complete table root name func handler

/-- The request is dispatched safely, and refused when it lacks something. -/
def SafelyDispatched (table : List RpcFunc) (request : CString) : Prop :=
  Safe (rpcProcess table (some request)) ∧
    (¬ LacksNothing table request ->
      (rpcProcess table (some request)).result = .ok none)

/--
When the table has entries, a request that is JSON names its method by a
string, every entry in front of the one it finds has a name, and that entry is
complete.
-/
def DispatchCondition (table : List RpcFunc) (request : CString) : Prop :=
  forall root, parse request = some root -> table ≠ [] ->
    exists name, member root "method" = some (.string name) ∧
      Comparable table name ∧
      forall func, newest table name = some func ->
        exists handler, Complete table root name func handler

/-!
## Reading
-/

theorem safe_bind_iff {α β : Type} {x : Run α} {f : α -> Run β} :
    Safe (x >>= f) <-> Safe x ∧ forall a, x.result = .ok a -> Safe (f a) :=
  Traced.obeys_bind_iff

theorem safe_pure {α : Type} (a : α) : Safe (pure a : Run α) :=
  Traced.obeys_pure a

theorem safe_emit_iff {e : Event} :
    Safe (Traced.emit e : Run Unit) <-> Proper e :=
  Traced.obeys_emit_iff

theorem safe_require_iff {α : Type} {f : Fault} {a : Option α} :
    Safe (Traced.require f a : Run α) <-> (a = none -> f = .outOfBounds) :=
  Traced.obeys_require_iff

theorem safe_readValuestring_iff {item : Option CJson} :
    Safe (readValuestring item) <-> exists s, item = some (.string s) := by
  rw [readValuestring, safe_bind_iff, safe_emit_iff]
  constructor
  · intro h
    rcases h with ⟨h, _⟩
    exact h
  · intro h
    rcases h with ⟨s, rfl⟩
    exact ⟨⟨s, rfl⟩, fun _ _ => safe_pure _⟩

theorem safe_readValueint_iff {item : Option CJson} :
    Safe (readValueint item) <-> exists d, item = some (.number d) := by
  rw [readValueint, safe_bind_iff, safe_emit_iff]
  constructor
  · intro h
    rcases h with ⟨h, _⟩
    exact h
  · intro h
    rcases h with ⟨d, rfl⟩
    exact ⟨⟨d, rfl⟩, fun _ _ => safe_pure _⟩

theorem safe_handlerArg_iff {type : CString} {item : Option CJson} :
    Safe (handlerArg type item) <-> HasKind type item := by
  unfold handlerArg HasKind
  split
  · rw [safe_bind_iff, safe_readValuestring_iff]
    exact ⟨fun h => h.left, fun h => ⟨h, fun _ _ => safe_pure _⟩⟩
  · rw [safe_bind_iff, safe_readValueint_iff]
    exact ⟨fun h => h.left, fun h => ⟨h, fun _ _ => safe_pure _⟩⟩

theorem exists_handlerArg_result {type : CString} {item : Option CJson}
    (h : HasKind type item) :
    exists arg, (handlerArg type item).result = .ok arg := by
  unfold HasKind at h
  split at h
  · rcases h with ⟨s, rfl⟩
    exact ⟨_, handlerArg_result_some type _⟩
  · rcases h with ⟨d, rfl⟩
    exact ⟨_, handlerArg_result_some type _⟩

theorem safe_handlerArgs_iff {params : Option CJson}
    {ps : List (CString × CString)} :
    Safe (handlerArgs params ps) <->
      forall p, p ∈ ps -> HasKind p.2 (getObjectItem params p.1) := by
  induction ps with
  | nil => simp [handlerArgs, safe_pure]
  | cons p ps ih =>
      rw [List.forall_mem_cons, handlerArgs, safe_bind_iff,
        safe_handlerArg_iff]
      constructor
      · intro h
        rcases h with ⟨hkind, hrest⟩
        rcases exists_handlerArg_result hkind with ⟨arg, harg⟩
        exact ⟨hkind, ih.mp (safe_bind_iff.mp (hrest arg harg)).left⟩
      · intro h
        rcases h with ⟨hkind, hrest⟩
        refine ⟨hkind, fun arg _ => ?_⟩
        exact safe_bind_iff.mpr
          ⟨ih.mpr hrest, fun _ _ => safe_pure _⟩

theorem safe_run_iff {handler : Handler} {room : CString -> Room}
    {params : Option CJson} {task : RpcTask} :
    Safe (handler.run room params task) <-> ProperParams handler params := by
  rw [Handler.run, safe_bind_iff, safe_handlerArgs_iff]
  constructor
  · intro h
    rcases h with ⟨h, _⟩
    exact h
  · intro h
    refine ⟨h, fun args _ => ?_⟩
    refine safe_bind_iff.mpr
      ⟨safe_emit_iff.mpr trivial, fun _ _ => ?_⟩
    exact safe_bind_iff.mpr
      ⟨safe_require_iff.mpr fun _ => rfl,
        fun _ _ => safe_pure _⟩

/-!
## The walk along the table
-/

theorem safe_sameString {a b : CString} :
    Safe (sameString (some a) (some b)) := by
  exact safe_bind_iff.mpr
    ⟨safe_pure _, fun _ _ => safe_bind_iff.mpr
      ⟨safe_pure _, fun _ _ => safe_pure _⟩⟩

theorem safe_findFunc {name : CString} {table : List RpcFunc}
    (h : Comparable table name) :
    Safe (findFunc (readValuestring (some (.string name))) table) := by
  induction table with
  | nil => exact safe_pure _
  | cons func rest ih =>
      refine safe_bind_iff.mpr
        ⟨safe_readValuestring_iff.mpr ⟨name, rfl⟩, fun name' hname' => ?_⟩
      obtain rfl : some name = name' := Except.ok.inj hname'
      cases hmethod : func.method with
      | none =>
          have hne : func.method ≠ some name := by simp [hmethod]
          exact absurd hmethod ((comparable_cons_of_ne hne rest).mp h).left
      | some m =>
          refine safe_bind_iff.mpr ⟨safe_sameString, fun same hsame => ?_⟩
          cases same with
          | true => exact safe_pure _
          | false =>
              have hne : func.method ≠ some name := by
                intro heq
                obtain rfl : m = name := by
                  rw [hmethod] at heq
                  exact Option.some.inj heq
                simp [sameString, Traced.require, Traced.bind_def, Traced.bind,
                  Traced.done] at hsame
              exact ih ((comparable_cons_of_ne hne rest).mp h).right

theorem safe_findFunc_iff {item : Option CJson} {table : List RpcFunc} :
    Safe (findFunc (readValuestring item) table) <->
      (table ≠ [] -> exists name, item = some (.string name) ∧
        Comparable table name) := by
  constructor
  · intro hsafe hne
    rcases List.exists_cons_of_ne_nil hne with ⟨func, rest, rfl⟩
    have h := hsafe
    rw [findFunc, safe_bind_iff, safe_readValuestring_iff] at h
    rcases h.left with ⟨name, rfl⟩
    refine ⟨name, rfl, ?_⟩
    by_contra hcomparable
    have hfault := (findFunc_result (readValuestring_result_some
      (.string name)) (func :: rest)).right hcomparable
    exact absurd (hsafe.faults _ hfault) (by decide)
  · intro h
    by_cases hne : table = []
    · rw [hne]
      exact safe_pure _
    · rcases h hne with ⟨name, rfl, hcomparable⟩
      exact safe_findFunc hcomparable

/-!
## The whole dispatch
-/

theorem safe_dispatch_iff {root : CJson} {room : CString -> Room}
    {name : CString} {func : RpcFunc} {table : List RpcFunc}
    (hname : member root "method" = some (.string name))
    (hfound : newest table name = some func) :
    Safe (do
        let name ← readValuestring (member root "method")
        let id ← readValueint (member root "callerid")
        let handler ← Traced.require .nullHandler func.handler
        handler.run room (member root "params")
          { method := name, callerid := id.toUInt32 } : Run (Option CString)) <->
      exists handler, Complete table root name func handler := by
  rw [safe_bind_iff, safe_readValuestring_iff]
  constructor
  · intro h
    rcases h with ⟨_, h⟩
    have hread : (readValuestring (member root "method")).result =
        .ok (some name) := by
      rw [hname]
      rfl
    rcases safe_bind_iff.mp (h _ hread) with ⟨hid, h⟩
    rcases safe_readValueint_iff.mp hid with ⟨d, hd⟩
    have hint : (readValueint (member root "callerid")).result =
        .ok (saturate d) := by
      rw [hd]
      rfl
    rcases safe_bind_iff.mp (h _ hint) with ⟨hrequire, h⟩
    cases hbound : func.handler with
    | none =>
        exact absurd (safe_require_iff.mp hrequire hbound) (by decide)
    | some handler =>
        have hrun := h handler (by rw [hbound]; rfl)
        exact ⟨handler, {
          named := hname
          found := hfound
          identified := ⟨d, hd⟩
          bound := hbound
          params := safe_run_iff.mp hrun }⟩
  · intro h
    rcases h with ⟨handler, hcomplete⟩
    refine ⟨⟨name, hname⟩, fun name' _ => ?_⟩
    refine safe_bind_iff.mpr
      ⟨safe_readValueint_iff.mpr hcomplete.identified, fun id _ => ?_⟩
    rw [hcomplete.bound]
    exact safe_run_iff.mpr hcomplete.params

theorem safe_rpcProcess_iff {table : List RpcFunc} {request : CString} :
    Safe (rpcProcess table (some request)) <->
      DispatchCondition table request := by
  unfold DispatchCondition
  cases hparse : parse request with
  | none =>
      rw [rpcProcess_of_not_json hparse]
      simp [safe_pure]
  | some root =>
      simp only [Option.some.injEq, forall_eq']
      rw [rpcProcess_of_json hparse, rpcProcessRoot, safe_bind_iff,
        safe_findFunc_iff]
      constructor
      · intro h hne
        rcases h with ⟨hwalk, h⟩
        rcases hwalk hne with ⟨name, hname, hcomparable⟩
        refine ⟨name, hname, hcomparable, fun func hfound => ?_⟩
        have hvalue : (member root "method").bind valuestring = some name := by
          rw [hname]
          rfl
        have hfind := findFunc_readValuestring_iff.mpr
          ⟨name, hvalue, hcomparable, hfound⟩
        exact (safe_dispatch_iff hname hfound).mp (h (some func) hfind)
      · intro h
        refine ⟨fun hne => ?_, fun func? hfind => ?_⟩
        · rcases h hne with ⟨name, hname, hcomparable, _⟩
          exact ⟨name, hname, hcomparable⟩
        · cases func? with
          | none => exact safe_pure none
          | some func =>
              rcases findFunc_readValuestring_iff.mp hfind with
                ⟨name, hvalue, _, hfound⟩
              have hne : table ≠ [] := by
                intro heq
                subst heq
                cases hfound
              rcases h hne with ⟨name', hname', _, hentry⟩
              obtain rfl : name' = name := by
                rw [hname'] at hvalue
                exact Option.some.inj hvalue
              exact (safe_dispatch_iff hname' hfound).mpr (hentry func hfound)

theorem rpcProcess_result_of_lacking {table : List RpcFunc}
    {request : CString} (h : DispatchCondition table request)
    (hlacks : ¬ LacksNothing table request) :
    (rpcProcess table (some request)).result = .ok none := by
  cases hparse : parse request with
  | none =>
      rw [rpcProcess_of_not_json hparse]
      rfl
  | some root =>
      rw [rpcProcess_of_json hparse]
      by_cases hne : table = []
      · rw [hne]
        rfl
      · rcases h root hparse hne with ⟨name, hname, hcomparable, hentry⟩
        have hread : (readValuestring (member root "method")).result =
            .ok (some name) := by
          rw [hname]
          rfl
        have hfind := (findFunc_result hread table).left hcomparable
        cases hfound : newest table name with
        | some func =>
            rcases hentry func hfound with ⟨handler, hcomplete⟩
            exact absurd ⟨root, name, func, handler, hparse, hcomplete⟩ hlacks
        | none =>
            rw [hfound] at hfind
            exact Traced.bind_result_ok_iff.mpr ⟨none, hfind, rfl⟩

/-- A request is dispatched safely exactly under the dispatch condition. -/
theorem safelyDispatched_iff (table : List RpcFunc) (request : CString) :
    SafelyDispatched table request <-> DispatchCondition table request := by
  rw [SafelyDispatched, safe_rpcProcess_iff]
  exact ⟨fun h => h.left, fun h => ⟨h, rpcProcess_result_of_lacking h⟩⟩

/-- The document `{}` makes a server with the methods of `register.json` read
a field of the method that is not there. -/
theorem empty_document_unsafe :
    Loaded librpcMethod registeredGlobals ∧
      (rpcProcess registeredGlobals.rpcCallerTable
        (some (print (.object [])))).result = .error .absentItem ∧
      ¬ SafelyDispatched registeredGlobals.rpcCallerTable
        (print (.object [])) := by
  have hreadable : Readable 1 (.object []) :=
    Readable.object fun m hm => by cases hm
  have hparse := parse_print hreadable (by decide)
  have hresult : (rpcProcess registeredGlobals.rpcCallerTable
      (some (print (.object [])))).result = .error .absentItem := by
    rw [rpcProcess_of_json hparse]
    rfl
  refine ⟨loaded_registeredGlobals, hresult, ?_⟩
  intro hsafe
  exact absurd (hsafe.left.faults _ hresult) (by decide)

end Dispatch
end Z2wRpc
