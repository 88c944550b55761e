import Z2wRpc.Call.Request
import Z2wRpc.Dispatch.Reloading

/-!
# The most recent registration

Every load pushes its entries at the front of the caller table, and two separate
loops search it from there: `rpc_process` for the method of a request and
`rpc_request_json_encode` for the name of its caller.  Over any sequence of
loads both should arrive at the entry that was registered last.
-/

namespace Z2wRpc

open Foundation

namespace Call

open CJson Dispatch

/-!
## Sequences of loads
-/

/-- `rpc_decode_register_json` on one text after the other, with the codes that
the calls return. -/
def decodeAll (find : CString -> Option Handler) :
    List (Option CString × Reuse) -> Globals -> Run (List Int × Globals)
  | [], globals => return ([], globals)
  | (json, reuse) :: rest, globals => do
      let (code, globals) ← decodeReusing find reuse json globals
      let (codes, globals) ← decodeAll find rest globals
      return (code :: codes, globals)

/-- A text whose `config`, when it is a document, lists these entries. -/
structure RegisterInput where
  json : Option CString
  entries : List EntryText
  describes : forall root, json.bind parse = some root ->
    List.Forall₂ Describes
      (itemsOf (getObjectItem (some root) (.lit "config"))) entries
  fit : forall e, e ∈ entries -> e.params.length <= rpcParamsMaxCount

/-- A load of it, and what its document finds in the block of an address that
dangles. -/
structure Load where
  input : RegisterInput
  reuse : Reuse

def Load.call (load : Load) : Option CString × Reuse :=
  (load.input.json, load.reuse)

def RegisterInput.load (input : RegisterInput) : Load :=
  ⟨input, .untaken⟩

def loadedEntries : List RegisterInput -> List Int -> List EntryText
  | input :: inputs, code :: codes =>
      (if code = 0 then input.entries else []) ++ loadedEntries inputs codes
  | _, _ => []

def lastNamed (entries : List EntryText) (name : CString) :
    Option EntryText :=
  entries.reverse.find? fun entry => entry.method == name

def HasAddress (json : Option CString) : Prop :=
  exists root remote, json.bind parse = some root ∧
    getObjectItem (some root) (.lit "remote") = some (.string remote)

def DropsAddress (json : Option CString) : Prop :=
  exists text, json = some text ∧ LacksPort text

theorem hasAddress_of_parse {text remote : CString} {root : CJson}
    (hparse : parse text = some root)
    (hremote : getObjectItem (some root) (.lit "remote") =
      some (.string remote)) : HasAddress (some text) :=
  ⟨root, remote, hparse, hremote⟩

theorem hasAddress_of_dropsAddress {json : Option CString}
    (h : DropsAddress json) : HasAddress json := by
  rcases h with ⟨text, rfl, root, remote, hparse, hremote, _⟩
  exact ⟨root, remote, hparse, hremote⟩

inductive DecodeStep (find : CString -> Option Handler) (load : Load)
    (globals : Globals) : Prop where
  | refused (code : Int) (noAddress : ¬ HasAddress load.input.json)
      (nonzero : code ≠ 0)
      (result : (decodeReusing find load.reuse load.input.json globals).result =
        .ok (code, globals))
  | stopped (address : HasAddress load.input.json)
      (dangling : globals.rpcServerIp = .released)
      (harm : DropsAddress load.input.json ∨ load.reuse.harmless = false)
      (result : (decodeReusing find load.reuse load.input.json globals).result =
        .error .useAfterFree)
  | dropped (drops : DropsAddress load.input.json)
      (freeable : Freeable globals.rpcServerIp)
      (result : (decodeReusing find load.reuse load.input.json globals).result =
        .ok (-4, { globals with rpcServerIp := .released }))
  | loaded (address : HasAddress load.input.json)
      (keeps : ¬ DropsAddress load.input.json)
      (harmless : globals.rpcServerIp = .released ->
        load.reuse.harmless = true)
      (after : Globals) (funcs : List RpcFunc)
      (result : (decodeReusing find load.reuse load.input.json globals).result =
        .ok (0, after))
      (dangles : after.rpcServerIp = .released <->
        globals.rpcServerIp = .released ∧ load.reuse = .remote)
      (table : after.rpcCallerTable = funcs.reverse ++ globals.rpcCallerTable)
      (holds : List.Forall₂ (Says find) funcs load.input.entries)

theorem decodeStep_of_port (find : CString -> Option Handler) (load : Load)
    (globals : Globals) {text remote : CString} {root : CJson} {port : Double}
    (hjson : load.input.json = some text) (hparse : parse text = some root)
    (hremote : getObjectItem (some root) (.lit "remote") =
      some (.string remote))
    (hport : getObjectItem (some root) (.lit "port") = some (.number port)) :
    DecodeStep find load globals := by
  have hdescribes := load.input.describes root (by rw [hjson]; exact hparse)
  have haddress : HasAddress load.input.json := by
    rw [hjson]
    exact hasAddress_of_parse hparse hremote
  have hrun := @decodeReusing_of_port find load.reuse globals text remote root
    port hparse hremote hport
  by_cases hharmless : globals.rpcServerIp = .released ->
      load.reuse.harmless = true
  · rcases registerEntries_of_describes find globals.rpcCallerTable
      List.drop_zero hdescribes load.input.fit with ⟨funcs, hresult, hsays⟩
    rw [<- hdescribes.length_eq, <- getArraySize_eq] at hresult
    rw [freeReused_bind hharmless, Traced.bind_of_ok hresult] at hrun
    have hkeeps : ¬ DropsAddress load.input.json := by
      intro hdrops
      rcases hdrops with ⟨text', htext, root', _, hparse', _, hno⟩
      rw [hjson, Option.some.injEq] at htext
      rw [<- htext, hparse, Option.some.injEq] at hparse'
      rw [<- hparse'] at hno
      exact hno port hport
    exact .loaded haddress hkeeps hharmless _ funcs (by rw [hjson, hrun]; rfl)
      nextAddress_dangles_iff rfl hsays
  · have hboth := hharmless
    rw [Classical.not_imp, Bool.not_eq_true] at hboth
    refine .stopped haddress hboth.left (Or.inr hboth.right) ?_
    rw [hjson, hrun]
    exact freeReused_bind_of_not hharmless _

theorem decodeStep_of_no_port (find : CString -> Option Handler) (load : Load)
    (globals : Globals) {text : CString} (hjson : load.input.json = some text)
    (hlacks : LacksPort text) : DecodeStep find load globals := by
  have hdrops : DropsAddress load.input.json := ⟨text, hjson, hlacks⟩
  by_cases hip : Freeable globals.rpcServerIp
  · refine .dropped hdrops hip ?_
    rw [hjson, decodeReusing_of_freeable hip]
    exact rpcDecodeRegisterJson_of_lacksPort hlacks hip
  · refine .stopped (hasAddress_of_dropsAddress hdrops) (not_not.mp hip)
      (Or.inl hdrops) ?_
    rcases hlacks with ⟨root, remote, hparse, hremote, hport⟩
    rw [hjson]
    exact decodeReusing_of_no_port hparse hremote hport (not_not.mp hip)

theorem decodeStep (find : CString -> Option Handler) (load : Load)
    (globals : Globals) : DecodeStep find load globals := by
  cases hjson : load.input.json with
  | none =>
      have hno : ¬ HasAddress load.input.json := by
        intro h
        rcases h with ⟨root, remote, hparse, _⟩
        rw [hjson] at hparse
        cases hparse
      exact .refused (-1) hno (by decide) (by rw [hjson]; rfl)
  | some text =>
      by_cases haddress : HasAddress load.input.json
      · rcases haddress with ⟨root, remote, hparse, hremote⟩
        rw [hjson, Option.bind_some] at hparse
        by_cases hport : exists port, getObjectItem (some root)
            (.lit "port") = some (.number port)
        · rcases hport with ⟨port, hport⟩
          exact decodeStep_of_port find load globals hjson hparse hremote hport
        · rw [not_exists] at hport
          exact decodeStep_of_no_port find load globals hjson
            ⟨root, remote, hparse, hremote, hport⟩
      · cases hparse : parse text with
        | none =>
            refine .refused (-1) haddress (by decide) ?_
            rw [hjson, decodeReusing, Option.bind_some, hparse]
            rfl
        | some root =>
            have hremote : forall remote, getObjectItem (some root)
                (.lit "remote") ≠ some (.string remote) := by
              intro remote hremote
              apply haddress
              rw [hjson]
              exact ⟨root, remote, hparse, hremote⟩
            refine .refused (-3) haddress (by decide) ?_
            rw [hjson, decodeReusing_of_no_remote hparse hremote]
            rfl

def DanglesBehind (dangles : Prop) (load : Load) : Prop :=
  DropsAddress load.input.json ∨
    dangles ∧ (HasAddress load.input.json -> load.reuse = .remote)

/-- Whenever a document with an address comes while the old one dangles, it has
a port and nothing in the block of the old one that is read again. -/
def FreesHarmlessly : Prop -> List Load -> Prop
  | _, [] => True
  | dangles, load :: rest =>
      (dangles -> HasAddress load.input.json ->
        ¬ DropsAddress load.input.json ∧ load.reuse.harmless = true) ∧
      FreesHarmlessly (DanglesBehind dangles load) rest

section

variable {find : CString -> Option Handler} {load : Load} {globals : Globals}

theorem danglesBehind_of_no_address {dangles : Prop}
    (h : ¬ HasAddress load.input.json) :
    DanglesBehind dangles load <-> dangles := by
  have hkeeps : ¬ DropsAddress load.input.json :=
    fun hdrops => h (hasAddress_of_dropsAddress hdrops)
  simp [DanglesBehind, h, hkeeps]

theorem danglesBehind_of_keeps {dangles : Prop}
    (haddress : HasAddress load.input.json)
    (hkeeps : ¬ DropsAddress load.input.json) :
    DanglesBehind dangles load <-> dangles ∧ load.reuse = .remote := by
  simp [DanglesBehind, haddress, hkeeps]

theorem decodeAll_cons_of_ok {rest : List Load} {next : Globals} {code : Int}
    (h : (decodeReusing find load.reuse load.input.json globals).result =
      .ok (code, next)) :
    (decodeAll find ((load :: rest).map Load.call) globals).result =
      (decodeAll find (rest.map Load.call) next >>= fun after =>
        return (code :: after.1, after.2)).result := by
  rw [List.map_cons, Load.call, decodeAll, Traced.bind_of_ok h]

/-- After a sequence of loads the entries of the loaded documents stand in front
of the table, the last one first. -/
theorem decodeAll_result (loads : List Load) (globals : Globals)
    {dangles : Prop} (hdangles : dangles <-> globals.rpcServerIp = .released)
    (h : FreesHarmlessly dangles loads) :
    exists codes after funcs,
      (decodeAll find (loads.map Load.call) globals).result =
        .ok (codes, after) ∧
      after.rpcCallerTable = funcs.reverse ++ globals.rpcCallerTable ∧
      List.Forall₂ (Says find) funcs
        (loadedEntries (loads.map Load.input) codes) := by
  induction loads generalizing globals dangles with
  | nil => exact ⟨[], globals, [], rfl, rfl, .nil⟩
  | cons load rest ih =>
      rcases h with ⟨hfirst, hrest⟩
      cases decodeStep find load globals with
      | refused code noAddress nonzero result =>
          have hnext := (danglesBehind_of_no_address noAddress).trans hdangles
          rcases ih globals hnext hrest with
            ⟨codes, after, funcs, hrun, htable, hsays⟩
          refine ⟨code :: codes, after, funcs, ?_, htable, ?_⟩
          · rw [decodeAll_cons_of_ok result, Traced.bind_of_ok hrun]
            rfl
          · rw [List.map_cons, loadedEntries, if_neg nonzero]
            exact hsays
      | stopped address dangling harm result =>
          rcases hfirst (hdangles.mpr dangling) address with
            ⟨hkeeps, hharmless⟩
          rcases harm with hdrops | hharm
          · exact absurd hdrops hkeeps
          · rw [hharmless] at hharm
            cases hharm
      | dropped drops freeable result =>
          have hnext : DanglesBehind dangles load <->
              ({ globals with rpcServerIp := .released } :
                Globals).rpcServerIp = .released :=
            iff_of_true (Or.inl drops) rfl
          rcases ih _ hnext hrest with
            ⟨codes, after, funcs, hrun, htable, hsays⟩
          refine ⟨-4 :: codes, after, funcs, ?_, htable, ?_⟩
          · rw [decodeAll_cons_of_ok result, Traced.bind_of_ok hrun]
            rfl
          · rw [List.map_cons, loadedEntries, if_neg (by decide)]
            exact hsays
      | loaded address keeps harmless next funcs result behind table holds =>
          have hnext : DanglesBehind dangles load <->
              next.rpcServerIp = .released := by
            rw [danglesBehind_of_keeps address keeps, hdangles, behind]
          rcases ih next hnext hrest with
            ⟨codes, after, more, hrun, htable, hsays⟩
          refine ⟨0 :: codes, after, funcs ++ more, ?_, ?_, ?_⟩
          · rw [decodeAll_cons_of_ok result, Traced.bind_of_ok hrun]
            rfl
          · rw [htable, table, List.reverse_append, List.append_assoc]
          · rw [List.map_cons, loadedEntries, if_pos rfl]
            exact List.rel_append holds hsays

theorem freesHarmlessly_of_decodeAll (loads : List Load) (globals : Globals)
    {dangles : Prop} (hdangles : dangles <-> globals.rpcServerIp = .released)
    {after : List Int × Globals}
    (h : (decodeAll find (loads.map Load.call) globals).result = .ok after) :
    FreesHarmlessly dangles loads := by
  induction loads generalizing globals dangles after with
  | nil => trivial
  | cons load rest ih =>
      cases decodeStep find load globals with
      | refused code noAddress nonzero result =>
          rw [decodeAll_cons_of_ok result] at h
          rcases Traced.bind_result_ok_iff.mp h with ⟨_, hrun, _⟩
          have hnext := (danglesBehind_of_no_address noAddress).trans hdangles
          exact ⟨fun _ address => absurd address noAddress,
            ih globals hnext hrun⟩
      | stopped address dangling harm result =>
          rw [List.map_cons, Load.call, decodeAll,
            Traced.bind_of_error result] at h
          cases h
      | dropped drops freeable result =>
          rw [decodeAll_cons_of_ok result] at h
          rcases Traced.bind_result_ok_iff.mp h with ⟨_, hrun, _⟩
          refine ⟨fun hd => absurd (hdangles.mp hd) freeable, ih _ ?_ hrun⟩
          exact iff_of_true (Or.inl drops) rfl
      | loaded address keeps harmless next funcs result behind table holds =>
          rw [decodeAll_cons_of_ok result] at h
          rcases Traced.bind_result_ok_iff.mp h with ⟨_, hrun, _⟩
          refine ⟨fun hd _ => ⟨keeps, harmless (hdangles.mp hd)⟩,
            ih next ?_ hrun⟩
          rw [danglesBehind_of_keeps address keeps, hdangles, behind]

end

/-!
## The two walks
-/

theorem newest_of_says {find : CString -> Option Handler}
    {funcs : List RpcFunc} {entries : List EntryText}
    (h : List.Forall₂ (Says find) funcs entries) (name : CString) :
    Option.Rel (Says find) (newest funcs name)
      (entries.find? fun entry => entry.method == name) := by
  induction h with
  | nil => exact .none
  | @cons func entry funcs entries hentry _ ih =>
      by_cases hname : entry.method = name
      · have hfunc : func.method = some name := by rw [hentry.method, hname]
        rw [newest_cons_of_eq hfunc,
          List.find?_cons_of_pos (by simpa using hname)]
        exact .some hentry
      · have hfunc : func.method ≠ some name := by
          rw [hentry.method]
          simpa using hname
        rw [newest_cons_of_ne hfunc,
          List.find?_cons_of_neg (by simpa using hname)]
        exact ih

/--
Both loops arrive at the entry: `rpc_process` for every request that names the
method and `rpc_request_json_encode` for a caller of that name.  Each does what
it would do with a table that holds nothing else.
-/
structure BothUse (table : List RpcFunc) (name : CString) (func : RpcFunc) :
    Prop where
  server : forall request root, parse request = some root ->
    (member root "method").bind valuestring = some name ->
      (findFunc (readValuestring (member root "method")) table).result =
          .ok (some func) ∧
        (rpcProcess table (some request)).result =
          (rpcProcess [func] (some request)).result ∧
        calls (rpcProcess table (some request)) =
          calls (rpcProcess [func] (some request))
  client : forall callerid args,
    (findFunc (return some name) table).result = .ok (some func) ∧
      (rpcRequestJsonEncode table (some name) callerid args).result =
        (rpcRequestJsonEncode [func] (some name) callerid args).result

structure NeitherUses (table : List RpcFunc) (name : CString) : Prop where
  server : forall request root, parse request = some root ->
    (member root "method").bind valuestring = some name ->
      (rpcProcess table (some request)).result = .ok none ∧
        calls (rpcProcess table (some request)) = []
  client : forall callerid args,
    (rpcRequestJsonEncode table (some name) callerid args).result = .ok none

section

variable {table : List RpcFunc} {name : CString} {func : RpcFunc}

theorem findFunc_of_named {root : CJson} (hcomparable : Comparable table name)
    (hname : (member root "method").bind valuestring = some name) :
    (findFunc (readValuestring (member root "method")) table).result =
      .ok (newest table name) := by
  rcases Option.bind_eq_some_iff.mp hname with ⟨item, hitem, hvalue⟩
  have hread : (readValuestring (member root "method")).result =
      .ok (some name) :=
    readValuestring_result_ok_iff.mpr ⟨item, hitem, hvalue⟩
  exact (findFunc_result hread table).left hcomparable

theorem bothUse_of_newest (hcomparable : Comparable table name)
    (hnewest : newest table name = some func)
    (hmethod : func.method = some name) : BothUse table name func where
  server := by
    intro request root hparse hname
    have hfind := findFunc_of_named hcomparable hname
    have hsingle := findFunc_of_named (comparable_cons_of_eq hmethod []) hname
    rw [hnewest] at hfind
    rw [newest_cons_of_eq hmethod] at hsingle
    refine ⟨hfind, ?_, ?_⟩
    · rw [rpcProcess_of_json hparse, rpcProcess_of_json hparse, rpcProcessRoot,
        rpcProcessRoot, Traced.bind_of_ok hfind, Traced.bind_of_ok hsingle]
    · rw [rpcProcess_of_json hparse, rpcProcess_of_json hparse, rpcProcessRoot,
        rpcProcessRoot, calls_bind hfind, calls_bind hsingle,
        calls_of_onlyReads (onlyReads_findFunc _ table),
        calls_of_onlyReads (onlyReads_findFunc _ [func])]
  client := by
    intro callerid args
    have hfind := (findFunc_pure name table).left hcomparable
    have hsingle := (findFunc_pure name [func]).left
      (comparable_cons_of_eq hmethod [])
    rw [hnewest] at hfind
    rw [newest_cons_of_eq hmethod] at hsingle
    refine ⟨hfind, ?_⟩
    rw [rpcRequestJsonEncode, rpcRequestJsonEncode, Traced.bind_of_ok hfind,
      Traced.bind_of_ok hsingle]

theorem neitherUses_of_newest (hcomparable : Comparable table name)
    (hnewest : newest table name = none) : NeitherUses table name where
  server := by
    intro request root hparse hname
    have hfind := findFunc_of_named hcomparable hname
    rw [hnewest] at hfind
    constructor
    · rw [rpcProcess_of_json hparse, rpcProcessRoot, Traced.bind_of_ok hfind]
      rfl
    · rw [rpcProcess_of_json hparse, rpcProcessRoot, calls_bind hfind,
        calls_of_onlyReads (onlyReads_findFunc _ table)]
      rfl
  client := by
    intro callerid args
    have hfind := (findFunc_pure name table).left hcomparable
    rw [hnewest] at hfind
    rw [rpcRequestJsonEncode, Traced.bind_of_ok hfind]
    rfl

end

/-!
## The law
-/

/--
The loads run through, and then both loops use the last entry with a name in the
documents that were loaded, or find that there is none.
-/
def MostRecentWins (find : CString -> Option Handler) (loads : List Load) :
    Prop :=
  exists codes after,
    (decodeAll find (loads.map Load.call) .initial).result =
      .ok (codes, after) ∧
    forall name,
      (forall entry,
        lastNamed (loadedEntries (loads.map Load.input) codes) name =
          some entry ->
        exists func, Says find func entry ∧
          BothUse after.rpcCallerTable name func) ∧
      (lastNamed (loadedEntries (loads.map Load.input) codes) name = none ->
        NeitherUses after.rpcCallerTable name)

theorem uses_of_says {find : CString -> Option Handler} {funcs : List RpcFunc}
    {entries : List EntryText} (h : List.Forall₂ (Says find) funcs entries)
    (name : CString) :
    (forall entry, lastNamed entries name = some entry ->
      exists func, Says find func entry ∧ BothUse funcs.reverse name func) ∧
    (lastNamed entries name = none -> NeitherUses funcs.reverse name) := by
  have hcomparable : Comparable funcs.reverse name := by
    refine comparable_of_named (fun func hfunc => ?_) name
    rcases exists_related h (List.mem_reverse.mp hfunc) with
      ⟨entry, _, hentry⟩
    simp [hentry.method]
  have hrelated := newest_of_says (List.rel_reverse h) name
  constructor
  · intro entry hlast
    rw [lastNamed] at hlast
    rw [hlast] at hrelated
    cases hnewest : newest funcs.reverse name with
    | none =>
        rw [hnewest] at hrelated
        cases hrelated
    | some func =>
        rw [hnewest] at hrelated
        cases hrelated with
        | some hsays =>
            have hname := List.find?_some hnewest
            exact ⟨func, hsays,
              bothUse_of_newest hcomparable hnewest (by simpa using hname)⟩
  · intro hlast
    rw [lastNamed] at hlast
    rw [hlast] at hrelated
    cases hnewest : newest funcs.reverse name with
    | none => exact neitherUses_of_newest hcomparable hnewest
    | some func =>
        rw [hnewest] at hrelated
        cases hrelated

theorem initial_dangles_iff :
    False <-> Globals.initial.rpcServerIp = .released :=
  iff_of_false not_false fun h => by cases h

/-- The most recent registration wins exactly in the sequences in which an
address that dangles is never freed with harm. -/
theorem mostRecentWins_iff (find : CString -> Option Handler)
    (loads : List Load) :
    MostRecentWins find loads <-> FreesHarmlessly False loads := by
  constructor
  · intro hwins
    rcases hwins with ⟨codes, after, hrun, _⟩
    exact freesHarmlessly_of_decodeAll loads .initial initial_dangles_iff hrun
  · intro hharmless
    rcases @decodeAll_result find loads .initial False initial_dangles_iff
      hharmless with ⟨codes, after, funcs, hrun, htable, hsays⟩
    refine ⟨codes, after, hrun, fun name => ?_⟩
    have htable' : after.rpcCallerTable = funcs.reverse := by
      rw [htable]
      exact List.append_nil _
    rw [htable']
    exact uses_of_says hsays name

def addressOnlyInput : RegisterInput where
  json := some (print addressOnly)
  entries := []
  describes := by
    intro root hparse
    rw [Option.bind_some, parse_addressOnly, Option.some.injEq] at hparse
    rw [← hparse]
    exact .nil
  fit := by
    intro e he
    cases he

theorem parse_registerJson :
    parse (print (registerDocument (.lit "172.16.0.6") 9096 registerJson)) =
      some (registerDocument (.lit "172.16.0.6") 9096 registerJson) :=
  parse_print (readable_registerDocument _ _ _) (by decide)

def registerJsonInput : RegisterInput where
  json := some (print (registerDocument (.lit "172.16.0.6") 9096 registerJson))
  entries := registerJson.map Signature.text
  describes := by
    intro root hparse
    rw [Option.bind_some, parse_registerJson, Option.some.injEq] at hparse
    rw [← hparse]
    exact describes_signatures registerJson
  fit := by decide

theorem dropsAddress_addressOnly : DropsAddress addressOnlyInput.json :=
  ⟨print addressOnly, rfl, lacksPort_addressOnly⟩

/-- Whatever `malloc` does, the second document without a port ends the run: it
is deleted together with the block that it has just lost, or it never had it. -/
theorem decodeAll_after_two_drops (find : CString -> Option Handler)
    {first second : Load} (hfirst : DropsAddress first.input.json)
    (hsecond : DropsAddress second.input.json) (rest : List Load) :
    (decodeAll find ((first :: second :: rest).map Load.call)
      .initial).result = .error .useAfterFree := by
  have hinitial : Freeable Globals.initial.rpcServerIp := by
    intro h
    cases h
  cases decodeStep find first .initial with
  | refused _ noAddress _ _ =>
      exact absurd (hasAddress_of_dropsAddress hfirst) noAddress
  | stopped _ dangling _ _ => exact absurd dangling hinitial
  | loaded _ keeps _ _ _ _ _ _ _ => exact absurd hfirst keeps
  | dropped _ _ result =>
      rw [decodeAll_cons_of_ok result]
      cases decodeStep find second
          { Globals.initial with rpcServerIp := .released } with
      | refused _ noAddress _ _ =>
          exact absurd (hasAddress_of_dropsAddress hsecond) noAddress
      | dropped _ freeable _ => exact absurd rfl freeable
      | loaded _ keeps _ _ _ _ _ _ _ => exact absurd hsecond keeps
      | stopped _ _ _ result =>
          have hrest : (decodeAll find ((second :: rest).map Load.call)
              { Globals.initial with rpcServerIp := .released }).result =
                .error .useAfterFree := by
            rw [List.map_cons, Load.call, decodeAll,
              Traced.bind_of_error result]
          exact congrArg Traced.result (Traced.bind_of_error hrest _)

/-- A document that loses the address, once more, and `register.json`. -/
def addressOnlyTwice (first second third : Reuse) : List Load :=
  [⟨addressOnlyInput, first⟩, ⟨addressOnlyInput, second⟩,
    ⟨registerJsonInput, third⟩]

/-- The process does not come to `register.json`. -/
theorem addressOnlyTwice_stops :
    (forall first second third, (decodeAll librpcMethod
      ((addressOnlyTwice first second third).map Load.call) .initial).result =
        .error .useAfterFree) ∧
    ¬ exists first second third,
      MostRecentWins librpcMethod (addressOnlyTwice first second third) := by
  have hrun (first second third : Reuse) : (decodeAll librpcMethod
      ((addressOnlyTwice first second third).map Load.call) .initial).result =
        .error .useAfterFree :=
    decodeAll_after_two_drops librpcMethod
      (show DropsAddress (Load.mk addressOnlyInput first).input.json from
        dropsAddress_addressOnly)
      (show DropsAddress (Load.mk addressOnlyInput second).input.json from
        dropsAddress_addressOnly)
      [⟨registerJsonInput, third⟩]
  refine ⟨hrun, fun hwins => ?_⟩
  rcases hwins with ⟨first, second, third, codes, after, hok, _⟩
  rw [hrun] at hok
  cases hok

end Call
end Z2wRpc
