import Z2wRpc.Dispatch.Register

/-!
# Processing a request

`rpc_process`: parse the request, find the newest entry with its method, set up
the task and call the handler.
-/

namespace Z2wRpc

open Foundation

namespace Dispatch

open CJson

def member (root : CJson) (name : String) : Option CJson :=
  getObjectItem (some root) (.lit name)

/-- `rpc_process` behind the parser: look the method up and call its handler. -/
def rpcProcessRoot (table : List RpcFunc) (room : CString -> Room)
    (root : CJson) : Run (Option CString) := do
  let method := member root "method"
  let params := member root "params"
  let callerid := member root "callerid"
  let func ← findFunc (readValuestring method) table
  match func with
  | none => return none
  | some func => do
      let name ← readValuestring method
      let id ← readValueint callerid
      let handler ← Traced.require .nullHandler func.handler
      handler.run room params { method := name, callerid := id.toUInt32 }

def paramRoom (request : CString) (root : CJson) (name : CString) : Room :=
  match member root "params" with
  | none => .empty
  | some params =>
      (rooms request)[itemOffset (.lit "params") root +
        itemOffset name params]?.getD .empty

/-- `rpc_process`, over the caller table of the server. -/
def rpcProcess (table : List RpcFunc) (requestJson : Option CString) :
    Run (Option CString) :=
  match requestJson with
  | none => return none
  | some request =>
      match parse request with
      | none => return none
      | some root => rpcProcessRoot table (paramRoom request root) root

/-!
## What a request names

The notions below read a request document without running anything: the entry
that the table holds for it and the arguments that its parameters denote.
-/

/-- Every parameter of the handler has an item, and `args` are their values. -/
def Arguments (handler : Handler) (params : Option CJson) (args : List Value) :
    Prop :=
  List.Forall₂ (fun p arg => exists item,
    getObjectItem params p.1 = some item ∧ argOf p.2 item = arg)
    handler.params args

structure Invocation (table : List RpcFunc) (request : CString) where
  root : CJson
  name : CString
  callerid : CJson
  func : RpcFunc
  handler : Handler
  args : List Value
  parsed : parse request = some root
  named : (member root "method").bind valuestring = some name
  identified : member root "callerid" = some callerid
  comparable : Comparable table name
  found : newest table name = some func
  bound : func.handler = some handler
  complete : Arguments handler (member root "params") args

def Invocation.rooms {table : List RpcFunc} {request : CString}
    (i : Invocation table request) : List Room :=
  i.handler.rooms (paramRoom request i.root)

def Invoked (table : List RpcFunc) (request : CString) : Prop :=
  Nonempty (Invocation table request)

/-- A request that the table can carry out: the method has a result for it. -/
structure Answer (table : List RpcFunc) (request : CString)
    extends Invocation table request where
  result : Option CJson
  returned : handler.body.resultItem args toInvocation.rooms = some result

def Answer.document {table : List RpcFunc} {request : CString}
    (a : Answer table request) : CJson :=
  responseDocument (some a.name) a.result a.callerid.valueint.toUInt32

def Answerable (table : List RpcFunc) (request : CString) : Prop :=
  Nonempty (Answer table request)

/-!
## Spec lemmas
-/

theorem rpcProcess_of_not_json {request : CString}
    (h : parse request = none) (table : List RpcFunc) :
    rpcProcess table (some request) = pure none := by
  simp only [rpcProcess, h]

theorem rpcProcess_of_json {request : CString} {root : CJson}
    (h : parse request = some root) (table : List RpcFunc) :
    rpcProcess table (some request) =
      rpcProcessRoot table (paramRoom request root) root := by
  simp only [rpcProcess, h]

theorem findFunc_readValuestring_iff {item : Option CJson}
    {table : List RpcFunc} {func : RpcFunc} :
    (findFunc (readValuestring item) table).result = .ok (some func) <->
      exists name, item.bind valuestring = some name ∧
        Comparable table name ∧ newest table name = some func := by
  cases hvalue : item.bind valuestring with
  | some name =>
      have hread : (readValuestring item).result = .ok (some name) := by
        cases item with
        | none => cases hvalue
        | some item => exact congrArg Except.ok hvalue
      have hfind := findFunc_result hread table
      by_cases hcomparable : Comparable table name
      · rw [hfind.left hcomparable]
        simp [hcomparable]
      · rw [hfind.right hcomparable]
        simp [hcomparable]
  | none =>
      -- without a name the first comparison faults
      cases table with
      | nil => simp [findFunc]
      | cons func' rest =>
          cases item with
          | none => simp [findFunc, readValuestring, Traced.require,
              Traced.bind_def, Traced.bind]
          | some item =>
              have hread : (readValuestring (some item)).result = .ok none :=
                congrArg Except.ok hvalue
              rw [findFunc, Traced.bind_of_ok hread]
              cases func'.method <;>
                simp [sameString, Traced.require, Traced.bind_def, Traced.bind,
                  Traced.done, Traced.fault]

theorem require_result_ok_iff {α : Type} {f : Fault} {a : Option α} {b : α} :
    (Traced.require f a : Run α).result = .ok b <-> a = some b := by
  cases a <;> simp [Traced.require, Traced.done, Traced.fault]

theorem readValuestring_result_ok_iff {item : Option CJson}
    {s : Option CString} :
    (readValuestring item).result = .ok s <->
      exists c, item = some c ∧ c.valuestring = s := by
  cases item with
  | none => simp [readValuestring, Traced.require, Traced.bind_def,
      Traced.bind, Traced.emit, Traced.fault]
  | some c => simp

theorem readValueint_result_ok_iff {item : Option CJson} {i : Int32} :
    (readValueint item).result = .ok i <->
      exists c, item = some c ∧ c.valueint = i := by
  cases item with
  | none => simp [readValueint, Traced.require, Traced.bind_def, Traced.bind,
      Traced.emit, Traced.fault]
  | some c => simp

theorem Handler.run_result_ok_iff {handler : Handler} {room : CString -> Room}
    {params : Option CJson} {task : RpcTask} {reply : Option CString} :
    (handler.run room params task).result = .ok reply <->
      exists args result, Arguments handler params args ∧
        handler.body.resultItem args (handler.rooms room) = some result ∧
        reply = some (print (responseDocument task.method result task.callerid)) := by
  simp only [Handler.run, Traced.bind_result_ok_iff, handlerArgs_result_ok_iff,
    require_result_ok_iff, Traced.emit_result, Traced.pure_result,
    Except.ok.injEq]
  constructor
  · intro h
    rcases h with ⟨args, hargs, _, _, result, hresult, rfl⟩
    exact ⟨args, result, hargs, hresult, rfl⟩
  · intro h
    rcases h with ⟨args, result, hargs, hresult, rfl⟩
    exact ⟨args, hargs, (), trivial, result, hresult, rfl⟩

theorem rpcProcess_result_of_not_comparable {table : List RpcFunc}
    {request name : CString} {root : CJson} (hparse : parse request = some root)
    (hname : member root "method" = some (.string name))
    (h : ¬ Comparable table name) :
    (rpcProcess table (some request)).result = .error .nullString := by
  have hread : (readValuestring (member root "method")).result =
      .ok (some name) :=
    readValuestring_result_ok_iff.mpr ⟨_, hname, rfl⟩
  have hfind := (findFunc_result hread table).right h
  rw [rpcProcess_of_json hparse]
  exact congrArg Traced.result (Traced.bind_of_error hfind _)

theorem rpcProcess_result_of_invocation {table : List RpcFunc}
    {request : CString} (i : Invocation table request) :
    (rpcProcess table (some request)).result =
      (i.handler.run (paramRoom request i.root) (member i.root "params")
        { method := some i.name
          callerid := i.callerid.valueint.toUInt32 }).result := by
  have hfind : (findFunc (readValuestring (member i.root "method"))
      table).result = .ok (some i.func) :=
    findFunc_readValuestring_iff.mpr
      ⟨i.name, i.named, i.comparable, i.found⟩
  have hread : (readValuestring (member i.root "method")).result =
      .ok (some i.name) := by
    rcases Option.bind_eq_some_iff.mp i.named with ⟨m, hm, hname⟩
    exact readValuestring_result_ok_iff.mpr ⟨m, hm, hname⟩
  have hid : (readValueint (member i.root "callerid")).result =
      .ok i.callerid.valueint :=
    readValueint_result_ok_iff.mpr ⟨_, i.identified, rfl⟩
  rw [rpcProcess_of_json i.parsed, rpcProcessRoot, Traced.bind_of_ok hfind]
  simp only
  rw [Traced.bind_of_ok hread, Traced.bind_of_ok hid, i.bound,
    Traced.require_some_bind]

theorem rpcProcess_result_of_no_result {table : List RpcFunc}
    {request : CString} (i : Invocation table request)
    (h : i.handler.body.resultItem i.args i.rooms = none) :
    (rpcProcess table (some request)).result = .error .outOfBounds := by
  have hargs := handlerArgs_result_ok_iff.mpr i.complete
  have hemit : (Traced.emit (.call i.args) : Run Unit).result = .ok () := rfl
  rw [rpcProcess_result_of_invocation, Handler.run, Traced.bind_of_ok hargs,
    Traced.bind_of_ok hemit, <- Invocation.rooms, h]
  rfl

theorem rpcProcess_result_of_not_answerable {table : List RpcFunc}
    {request : CString} (hinvoked : Invoked table request)
    (h : ¬ Answerable table request) :
    (rpcProcess table (some request)).result = .error .outOfBounds := by
  rcases hinvoked with ⟨i⟩
  cases hresult : i.handler.body.resultItem i.args i.rooms with
  | some result =>
      exact absurd ⟨{ i with result := result, returned := hresult }⟩ h
  | none => exact rpcProcess_result_of_no_result i hresult

theorem rpcProcess_result_some_iff {table : List RpcFunc}
    {request reply : CString} :
    (rpcProcess table (some request)).result = .ok (some reply) <->
      exists a : Answer table request, reply = print a.document := by
  constructor
  · intro h
    cases hparse : parse request with
    | none =>
        rw [rpcProcess_of_not_json hparse] at h
        cases h
    | some root =>
        rw [rpcProcess_of_json hparse] at h
        rcases Traced.bind_result_ok_iff.mp h with ⟨func?, hfind, h⟩
        cases func? with
        | none => simp at h
        | some func =>
            rcases findFunc_readValuestring_iff.mp hfind with
              ⟨name, hname, hcomparable, hfound⟩
            rcases Traced.bind_result_ok_iff.mp h with ⟨name', hread, h⟩
            rcases Traced.bind_result_ok_iff.mp h with ⟨id, hid, h⟩
            rcases Traced.bind_result_ok_iff.mp h with ⟨handler, hbound, h⟩
            rcases Handler.run_result_ok_iff.mp h with
              ⟨args, result, hargs, hresult, hreply⟩
            rcases readValueint_result_ok_iff.mp hid with ⟨c, hc, rfl⟩
            obtain rfl : name' = some name := by
              rcases readValuestring_result_ok_iff.mp hread with ⟨m, hm, rfl⟩
              rw [hm] at hname
              exact hname
            exact ⟨{
              root := root
              name := name
              callerid := c
              func := func
              handler := handler
              args := args
              result := result
              parsed := hparse
              named := hname
              identified := hc
              comparable := hcomparable
              found := hfound
              bound := require_result_ok_iff.mp hbound
              complete := hargs
              returned := hresult }, Option.some.inj hreply⟩
  · intro h
    rcases h with ⟨a, rfl⟩
    rw [rpcProcess_result_of_invocation a.toInvocation]
    exact Handler.run_result_ok_iff.mpr
      ⟨a.args, a.result, a.complete, a.returned, rfl⟩

theorem answerable_iff {table : List RpcFunc} {request : CString} :
    Answerable table request <->
      exists reply, (rpcProcess table (some request)).result =
        .ok (some reply) := by
  constructor
  · intro h
    rcases h with ⟨a⟩
    exact ⟨_, rpcProcess_result_some_iff.mpr ⟨a, rfl⟩⟩
  · intro h
    rcases h with ⟨reply, h⟩
    rcases rpcProcess_result_some_iff.mp h with ⟨a, _⟩
    exact ⟨a⟩

/-!
## The calls of a run
-/

def calls {α : Type} (run : Run α) : List (List Value) :=
  run.events.filterMap fun
    | .call args => some args
    | _ => none

def IsRead : Event -> Prop
  | .call _ => False
  | _ => True

abbrev OnlyReads {α : Type} (run : Run α) : Prop :=
  Traced.Obeys IsRead (fun _ => True) run

theorem calls_of_onlyReads {α : Type} {run : Run α} (h : OnlyReads run) :
    calls run = [] := by
  rw [calls, List.filterMap_eq_nil_iff]
  intro e he
  have hread := h.events e he
  cases e with
  | call args => exact hread.elim
  | _ => rfl

theorem calls_bind {α β : Type} {x : Run α} {a : α} (h : x.result = .ok a)
    (f : α -> Run β) : calls (x >>= f) = calls x ++ calls (f a) := by
  rw [Traced.bind_of_ok h, calls, calls, calls, List.filterMap_append]

theorem onlyReads_access {α β : Type} {e : Event} (he : IsRead e)
    (fault : Fault) (item : Option α) (field : α -> β) :
    OnlyReads (do
      Traced.emit e
      let item ← Traced.require fault item
      return field item) := by
  refine Traced.obeys_bind_iff.mpr ⟨Traced.obeys_emit_iff.mpr he, ?_⟩
  intro _ _
  exact Traced.obeys_bind_iff.mpr
    ⟨Traced.obeys_require_iff.mpr fun _ => trivial,
      fun _ _ => Traced.obeys_pure _⟩

theorem onlyReads_readValuestring (item : Option CJson) :
    OnlyReads (readValuestring item) :=
  onlyReads_access (e := .valuestring item) trivial .absentItem item
    CJson.valuestring

theorem onlyReads_readValueint (item : Option CJson) :
    OnlyReads (readValueint item) :=
  onlyReads_access (e := .valueint item) trivial .absentItem item
    CJson.valueint

theorem onlyReads_sameString (a b : Option CString) :
    OnlyReads (sameString a b) :=
  Traced.obeys_bind_iff.mpr
    ⟨Traced.obeys_require_iff.mpr fun _ => trivial, fun _ _ =>
      Traced.obeys_bind_iff.mpr
        ⟨Traced.obeys_require_iff.mpr fun _ => trivial,
          fun _ _ => Traced.obeys_pure _⟩⟩

theorem onlyReads_findFunc (item : Option CJson) (table : List RpcFunc) :
    OnlyReads (findFunc (readValuestring item) table) := by
  induction table with
  | nil => exact Traced.obeys_pure _
  | cons func rest ih =>
      refine Traced.obeys_bind_iff.mpr
        ⟨onlyReads_readValuestring item, fun name _ => ?_⟩
      refine Traced.obeys_bind_iff.mpr
        ⟨onlyReads_sameString func.method name, fun same _ => ?_⟩
      cases same with
      | true => exact Traced.obeys_pure _
      | false => exact ih

theorem onlyReads_handlerArg (type : CString) (item : Option CJson) :
    OnlyReads (handlerArg type item) := by
  unfold handlerArg
  split
  · exact Traced.obeys_bind_iff.mpr
      ⟨onlyReads_readValuestring item, fun _ _ => Traced.obeys_pure _⟩
  · exact Traced.obeys_bind_iff.mpr
      ⟨onlyReads_readValueint item, fun _ _ => Traced.obeys_pure _⟩

theorem onlyReads_handlerArgs (params : Option CJson)
    (ps : List (CString × CString)) : OnlyReads (handlerArgs params ps) := by
  induction ps with
  | nil => exact Traced.obeys_pure _
  | cons p ps ih =>
      refine Traced.obeys_bind_iff.mpr
        ⟨onlyReads_handlerArg p.2 _, fun _ _ => ?_⟩
      exact Traced.obeys_bind_iff.mpr ⟨ih, fun _ _ => Traced.obeys_pure _⟩

theorem Handler.run_calls {handler : Handler} {params : Option CJson}
    {args : List Value} (h : Arguments handler params args)
    (room : CString -> Room) (task : RpcTask) :
    calls (handler.run room params task) = [args] := by
  have hargs := handlerArgs_result_ok_iff.mpr h
  have hemit : (Traced.emit (.call args) : Run Unit).result = .ok () := rfl
  rw [Handler.run, calls_bind hargs,
    calls_of_onlyReads (onlyReads_handlerArgs params handler.params),
    calls_bind hemit]
  cases handler.body.resultItem args (handler.rooms room) <;> rfl

theorem rpcProcess_calls {table : List RpcFunc} {request : CString}
    (i : Invocation table request) :
    calls (rpcProcess table (some request)) = [i.args] := by
  have hfind := findFunc_readValuestring_iff.mpr
    ⟨i.name, i.named, i.comparable, i.found⟩
  have hread : exists s, (readValuestring (member i.root "method")).result =
      .ok s := by
    rcases Option.bind_eq_some_iff.mp i.named with ⟨m, hm, _⟩
    exact ⟨_, readValuestring_result_ok_iff.mpr ⟨m, hm, rfl⟩⟩
  rcases hread with ⟨s, hs⟩
  have hint := readValueint_result_ok_iff.mpr ⟨i.callerid, i.identified, rfl⟩
  have hrun := Handler.run_calls i.complete (paramRoom request i.root)
    { method := s, callerid := i.callerid.valueint.toUInt32 }
  rw [rpcProcess_of_json i.parsed, rpcProcessRoot, calls_bind hfind,
    calls_of_onlyReads (onlyReads_findFunc _ table), List.nil_append]
  simp only
  rw [calls_bind hs, calls_of_onlyReads (onlyReads_readValuestring _),
    calls_bind hint, calls_of_onlyReads (onlyReads_readValueint _), i.bound,
    Traced.require_some_bind, hrun]
  rfl

end Dispatch
end Z2wRpc
