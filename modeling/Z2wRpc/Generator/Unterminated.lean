import Z2wRpc.CJson.ParseCut
import Z2wRpc.Generator.CleanUp
import Z2wRpc.Generator.Printed

/-!
# A register text without its terminator

`rpc_generate_method_code` parses its buffer without writing a terminator behind
the bytes that it has read.  What the memory held before can complete a document
that the file does not hold, and nothing but such a document tells.
-/

namespace Z2wRpc

open Foundation

namespace Generator

open CJson Dispatch

/-!
## Two runs on one register file
-/

/-- The same surroundings, with other bytes in the memory of the buffer. -/
def Setting.withMemory (s : Setting) (memory : List Byte) : Setting :=
  { s with memory := memory }

/-- The part of the file that `read` is asked for. -/
def bytesRead (content : List Byte) : List Byte :=
  content.take (fileSize content).toNat

def Terminated (content memory : List Byte) : Prop :=
  0#8 ∈ memory.drop (fileSize content).toNat

def leftFile (s : Setting) (prior : Target -> List Byte) (target : Target) :
    List Byte :=
  match (rpcGenerateMethodCode s).result with
  | .ok _ => (filesAfter s prior).flushed target
  | .error _ => (filesAfter s prior).contents target

/-- Whatever the memory held, the same decision and the same two files. -/
def SameOutput (content : List Byte) : Prop :=
  forall (s : Setting) memory memory', s.register = some content ->
    Terminated content memory -> Terminated content memory' ->
    (ReachesSuccess (s.withMemory memory) <->
      ReachesSuccess (s.withMemory memory')) ∧
    forall prior target, leftFile (s.withMemory memory) prior target =
      leftFile (s.withMemory memory') prior target

/-!
## Documents that leave something behind
-/

def CompleteEntry (item : CJson) : Prop :=
  exists method rettype params types,
    getObjectItem (some item) (.lit "method") = some method ∧
    getObjectItem (some item) (.lit "rettype") = some rettype ∧
    getObjectItem (some item) (.lit "params") = some params ∧
    getObjectItem (some item) (.lit "types") = some types ∧
    getArraySize (some params) = getArraySize (some types)

def Shows : List CJson -> Prop
  | [] => True
  | item :: rest => CompleteEntry item ∧
      (Named item ∨ 3 < getArraySize (paramsOf item) ∨ Shows rest)

def Generates (document : Option CJson) : Prop :=
  exists root config, document = some root ∧
    getObjectItem (some root) (.lit "config") = some config ∧
    Shows (itemsOf (some config))

/-!
## Visible calls
-/

def isVisible : Call -> Bool
  | .fopen _ => true
  | .fprintf _ _ => true
  | c => decide (c ∈ successMessages)

def visible {α : Type} (g : Gen α) : List Call :=
  g.events.filter isVisible

section

variable {α β : Type}

theorem visible_bind_of_ok {g : Gen α} {a : α} (h : g.result = .ok a)
    (f : α -> Gen β) : visible (g >>= f) = visible g ++ visible (f a) := by
  rw [Traced.bind_of_ok h, visible, List.filter_append]
  rfl

theorem visible_eq_nil {g : Gen α} (hquiet : Quiet g)
    (hsilent : PrintsNothing g) : visible g = [] := by
  rw [visible, List.filter_eq_nil_iff]
  intro c hc hvisible
  have hloud := hquiet.events c hc
  cases c with
  | fopen target => exact hloud trivial
  | fprintf target text => exact hsilent.events _ hc trivial
  | printf text =>
      have hmember := of_decide_eq_true hvisible
      exact hloud hmember
  | _ => simp [isVisible, successMessages] at hvisible

theorem visible_call {c : Call} (h : isVisible c = false) :
    visible (call c) = [] := by
  simp [visible, call, h]

end

section

variable {s : Setting} {memory : List Byte}

theorem after_of_not_visible {files : Files} {c : Call}
    (h : isVisible c = false) : files.after s c = files := by
  cases c with
  | fopen target => cases h
  | fprintf target text => cases h
  | _ => rfl

theorem foldl_after_visible (files : Files) (calls : List Call) :
    (calls.filter isVisible).foldl (Files.after s) files =
      calls.foldl (Files.after s) files := by
  induction calls generalizing files with
  | nil => rfl
  | cons c rest ih =>
      cases hc : isVisible c with
      | true => rw [List.filter_cons_of_pos hc, List.foldl_cons,
          List.foldl_cons, ih]
      | false =>
          rw [List.filter_cons_of_neg (by simp [hc]), List.foldl_cons, ih,
            after_of_not_visible hc]

theorem reachesSuccess_iff_visible :
    ReachesSuccess s <->
      successMessages ⊆ visible (rpcGenerateMethodCode s) := by
  have hvisible : forall c, c ∈ successMessages -> isVisible c = true := by
    decide
  constructor
  · intro h c hc
    exact List.mem_filter.mpr ⟨h hc, hvisible c hc⟩
  · intro h c hc
    exact (List.mem_filter.mp (h hc)).left

theorem same_of_visible {memory' : List Byte}
    (hvisible : visible (rpcGenerateMethodCode (s.withMemory memory)) =
      visible (rpcGenerateMethodCode (s.withMemory memory')))
    (hstopped : Stopped (rpcGenerateMethodCode (s.withMemory memory)) <->
      Stopped (rpcGenerateMethodCode (s.withMemory memory'))) :
    (ReachesSuccess (s.withMemory memory) <->
      ReachesSuccess (s.withMemory memory')) ∧
    forall prior target, leftFile (s.withMemory memory) prior target =
      leftFile (s.withMemory memory') prior target := by
  rw [reachesSuccess_iff_visible, reachesSuccess_iff_visible, hvisible]
  refine ⟨Iff.rfl, fun prior target => ?_⟩
  have hfiles : filesAfter (s.withMemory memory) prior =
      filesAfter (s.withMemory memory') prior := by
    rw [filesAfter, <- foldl_after_visible, <- visible, hvisible, visible,
      foldl_after_visible]
    rfl
  unfold leftFile
  rw [hfiles]
  unfold Stopped at hstopped
  cases hresult : (rpcGenerateMethodCode (s.withMemory memory)).result with
  | ok ret =>
      cases hresult' :
          (rpcGenerateMethodCode (s.withMemory memory')).result with
      | ok ret' => rfl
      | error f =>
          rcases hstopped.mpr ⟨f, hresult'⟩ with ⟨f', hf'⟩
          rw [hresult] at hf'
          cases hf'
  | error f =>
      rcases hstopped.mp ⟨f, hresult⟩ with ⟨f', hf'⟩
      rw [hf']

/-!
## What does not see the memory
-/

theorem freeArrays_withMemory (i : Nat) :
    freeArrays (s.withMemory memory) i = freeArrays s i := rfl

theorem freeFilled_withMemory (i n : Nat) :
    freeFilled (s.withMemory memory) i n = freeFilled s i n := rfl

theorem collectParams_withMemory (i : Nat) (params types : Option CJson)
    (n j : Nat) :
    collectParams (s.withMemory memory) i params types n j =
      collectParams s i params types n j := by
  induction n generalizing j with
  | zero => rfl
  | succ n ih => rw [collectParams, collectParams, ih, freeArrays_withMemory]

theorem generateEntry_withMemory (i : Nat) (config : Option CJson) :
    generateEntry (s.withMemory memory) i config =
      generateEntry s i config := by
  have hmethod (method rettype params types : CJson) :
      generateMethod (s.withMemory memory) i method rettype params types =
        generateMethod s i method rettype params types := by
    rw [generateMethod, generateMethod, collectParams_withMemory,
      freeArrays_withMemory]
    simp only [freeFilled_withMemory]
    rfl
  unfold generateEntry
  simp only [hmethod]

theorem generateEntries_withMemory (config : Option CJson) (n i : Nat) :
    generateEntries (s.withMemory memory) config n i =
      generateEntries s config n i := by
  induction n generalizing i with
  | zero => rfl
  | succ n ih =>
      rw [generateEntries, generateEntries, generateEntry_withMemory]
      simp only [ih]

theorem generateDocument_withMemory (root : CJson) :
    generateDocument (s.withMemory memory) root = generateDocument s root := by
  unfold generateDocument
  simp only [generateEntries_withMemory]

/-!
## Runs that do not come to the document
-/

def ReachesParse (s : Setting) (content : List Byte) : Prop :=
  ReadWhole s content ∧ forall target, s.opens target = true

theorem run_withMemory {content : List Byte}
    (hregister : s.register = some content) (h : ¬ ReachesParse s content) :
    rpcGenerateMethodCode (s.withMemory memory) = rpcGenerateMethodCode s := by
  have hfrom : generateFrom (s.withMemory memory) content =
      generateFrom s content := by
    by_cases hbuffer : s.mallocs .jsonBuf = true
    · by_cases hcount : readCount s content (fileSize content) =
          fileSize content
      · have hopens : ¬ (s.opens .source && s.opens .header) = true := by
          intro hopens
          rw [Bool.and_eq_true] at hopens
          refine h ⟨⟨hbuffer, hcount⟩, fun target => ?_⟩
          cases target with
          | source => exact hopens.left
          | header => exact hopens.right
        have hopens' : ¬ ((s.withMemory memory).opens .source &&
            (s.withMemory memory).opens .header) = true := hopens
        rw [generateFrom, generateFrom, if_neg hopens, if_neg hopens']
        rfl
      · have hcount' : readCount (s.withMemory memory) content
            (fileSize content) ≠ fileSize content := hcount
        rw [generateFrom, generateFrom, if_pos hcount, if_pos hcount']
        rfl
    · have hbuffer' : ¬ (s.withMemory memory).mallocs .jsonBuf = true :=
        hbuffer
      rw [generateFrom, generateFrom, if_pos hbuffer, if_pos hbuffer']
  have hregister' : (s.withMemory memory).register = some content := hregister
  rw [run_eq hregister, run_eq hregister', hfrom]
  rfl

/-!
## Runs that come to the document
-/

def documentRun (s : Setting) : Option CJson -> Gen Unit
  | none => return ()
  | some root => generateDocument s root

def readDocument (s : Setting) (content : List Byte) : Option CJson :=
  if s.parses then parse (jsonText s content) else none

theorem visible_generateFiles (content : List Byte) :
    visible (generateFiles s content) =
        headerPreamble.events.map (.fprintf .header) ++
          (sourcePreamble.events.map (.fprintf .source) ++
            visible (documentRun s (readDocument s content))) ∧
      (Stopped (generateFiles s content) <->
        Stopped (documentRun s (readDocument s content))) := by
  have hheader : (emitTo .header headerPreamble).result = .ok () := rfl
  have hsource : (emitTo .source sourcePreamble).result = .ok () := rfl
  have hparse : visible (call (.parse (jsonText s content))) = [] :=
    visible_call rfl
  have hcall : (call (.parse (jsonText s content))).result = .ok () := rfl
  have hpreambles : visible (emitTo .header headerPreamble) =
      headerPreamble.events.map (.fprintf .header) ∧
        visible (emitTo .source sourcePreamble) =
          sourcePreamble.events.map (.fprintf .source) := ⟨rfl, rfl⟩
  unfold generateFiles
  rw [visible_bind_of_ok hheader, visible_bind_of_ok hsource,
    visible_bind_of_ok hcall, hparse, List.nil_append,
    stopped_bind_of_ok hheader, stopped_bind_of_ok hsource,
    stopped_bind_of_ok hcall, <- readDocument, hpreambles.left,
    hpreambles.right]
  cases readDocument s content with
  | none => exact ⟨rfl, iff_of_false (not_stopped_of_ok rfl)
      (not_stopped_of_ok rfl)⟩
  | some root =>
      simp only [documentRun]
      cases hdocument : (generateDocument s root).result with
      | ok _ =>
          rw [visible_bind_of_ok hdocument, stopped_bind_of_ok hdocument]
          refine ⟨by simp [visible], iff_of_false (not_stopped_of_ok rfl)
            (not_stopped_of_ok hdocument)⟩
      | error f =>
          rw [Traced.bind_of_error hdocument]
          exact ⟨rfl, iff_of_true ⟨f, rfl⟩ ⟨f, hdocument⟩⟩

theorem generateFiles_root {content : List Byte} {root : Pointer}
    (h : (generateFiles s content).result = .ok root) :
    root = .null ∨ root = .valid := by
  have hheader : (emitTo .header headerPreamble).result = .ok () := rfl
  have hsource : (emitTo .source sourcePreamble).result = .ok () := rfl
  have hcall : (call (.parse (jsonText s content))).result = .ok () := rfl
  rw [generateFiles, Traced.bind_of_ok hheader, Traced.bind_of_ok hsource,
    Traced.bind_of_ok hcall, <- readDocument] at h
  cases hdocument : readDocument s content with
  | none =>
      rw [hdocument] at h
      exact Or.inl (Except.ok.inj h).symm
  | some document =>
      rw [hdocument] at h
      rcases Traced.bind_result_ok_iff.mp h with ⟨_, _, hreturn⟩
      exact Or.inr (Except.ok.inj hreturn).symm

theorem visible_run {content : List Byte}
    (hregister : s.register = some content) (h : ReachesParse s content) :
    visible (rpcGenerateMethodCode s) =
        [.fopen .source, .fopen .header] ++ visible (generateFiles s content) ∧
      (Stopped (rpcGenerateMethodCode s) <->
        Stopped (generateFiles s content)) := by
  rcases h with ⟨hread, hopens⟩
  constructor
  · rcases events_of_opens hregister hread hopens with
      ⟨after, hquiet, hsilent, hrun⟩
    rw [visible, hrun, List.filter_append, List.filter_append, <- visible,
      <- visible, visible_eq_nil hquiet hsilent, List.append_nil]
    rfl
  · have hfrom := generateFrom_of_read hread
    rw [hopens, hopens, Bool.and_self, if_pos rfl] at hfrom
    rw [run_eq hregister, stopped_bind_of_ok (g := call .open) rfl]
    cases hfiles : (generateFiles s content).result with
    | error f =>
        rw [hfiles] at hfrom
        rw [Traced.bind_of_error hfrom]
        exact iff_of_true ⟨f, rfl⟩ ⟨f, hfiles⟩
    | ok root =>
        rw [hfiles] at hfrom
        have hclean : (cleanUp s ⟨.valid, .valid, .valid, root⟩).result =
            .ok () := by
          rw [cleanUp_result, if_neg (by simp [isNull]), if_pos]
          rcases generateFiles_root hfiles with rfl | rfl
          · exact Or.inl rfl
          · exact Or.inr rfl
        rw [Traced.bind_of_ok hfrom, Traced.bind_of_ok hclean]
        exact iff_of_false (not_stopped_of_ok rfl) (not_stopped_of_ok hfiles)

/-!
## Documents that leave nothing behind
-/

variable {item : CJson} {i : Nat}

def RefusesEntry (s : Setting) (i : Nat) (item : CJson) : Prop :=
  ¬ CompleteEntry item ∧ exists text,
    .printf (.lit text) ∉ successMessages ∧
      generateEntry s i (some item) = refuse text

theorem generateEntry_cases (s : Setting) (i : Nat) (item : CJson) :
    RefusesEntry s i item ∨
    exists method rettype params types,
      getObjectItem (some item) (.lit "method") = some method ∧
      getObjectItem (some item) (.lit "rettype") = some rettype ∧
      getObjectItem (some item) (.lit "params") = some params ∧
      getObjectItem (some item) (.lit "types") = some types ∧
      getArraySize (some params) = getArraySize (some types) ∧
      generateEntry s i (some item) =
        generateMethod s i method rettype params types := by
  cases hmethod : getObjectItem (some item) (.lit "method") with
  | none =>
      exact Or.inl ⟨by simp [CompleteEntry, hmethod],
        "get method name failed\n", by decide,
        by simp only [generateEntry, hmethod]⟩
  | some method =>
  cases hrettype : getObjectItem (some item) (.lit "rettype") with
  | none =>
      exact Or.inl ⟨by simp [CompleteEntry, hrettype],
        "get rettype failed\n", by decide,
        by simp only [generateEntry, hmethod, hrettype]⟩
  | some rettype =>
  cases hparams : getObjectItem (some item) (.lit "params") with
  | none =>
      exact Or.inl ⟨by simp [CompleteEntry, hparams],
        "get params or types failed\n", by decide,
        by simp only [generateEntry, hmethod, hrettype, hparams]⟩
  | some params =>
  cases htypes : getObjectItem (some item) (.lit "types") with
  | none =>
      exact Or.inl ⟨by simp [CompleteEntry, htypes],
        "get params or types failed\n", by decide,
        by simp only [generateEntry, hmethod, hrettype, hparams, htypes]⟩
  | some types =>
  by_cases hsize : getArraySize (some params) = getArraySize (some types)
  · right
    exact ⟨method, rettype, params, types, rfl, rfl, rfl, rfl, hsize,
      generateEntry_of_found i hmethod hrettype hparams htypes hsize⟩
  · left
    refine ⟨by simp [CompleteEntry, hparams, htypes, hsize],
      "params and types size not equal\n", by decide, ?_⟩
    simp only [generateEntry, hmethod, hrettype, hparams, htypes, hsize, ne_eq,
      not_false_eq_true, if_true]

theorem entry_of_incomplete (h : ¬ CompleteEntry item) :
    visible (generateEntry s i (some item)) = [] ∧
      (generateEntry s i (some item)).result = .ok none := by
  rcases generateEntry_cases s i item with ⟨_, text, htext, hentry⟩ |
    ⟨method, rettype, params, types, hmethod, hrettype, hparams, htypes, hsize,
      _⟩
  · rw [hentry]
    refine ⟨visible_eq_nil (quiet_refuse htext) ?_, refuse_result text⟩
    exact Traced.obeys_bind_iff.mpr
      ⟨Traced.obeys_emit_iff.mpr not_false, fun _ _ => Traced.obeys_pure _⟩
  · exact absurd ⟨method, rettype, params, types, hmethod, hrettype, hparams,
      htypes, hsize⟩ h

theorem printsNothing_generateMethod {method rettype params types : CJson}
    (hheader : forall ps, rpcGenerateHMethod method.valuestring
      rettype.valuestring ps = pure ())
    (hsource : forall ps, rpcGenerateCMethod method.valuestring
      rettype.valuestring ps = pure ()) :
    PrintsNothing (generateMethod s i method rettype params types) := by
  have hcall {c : Call} (hc : ¬ IsPrint c) : PrintsNothing (call c) :=
    Traced.obeys_emit_iff.mpr hc
  have hemit (target : Target) : PrintsNothing (emitTo target (pure ())) :=
    ⟨fun c hc => (by cases hc), fun _ _ => trivial⟩
  unfold generateMethod
  refine Traced.obeys_bind_iff.mpr ⟨hcall not_false, fun _ _ => ?_⟩
  refine Traced.obeys_bind_iff.mpr ⟨hcall not_false, fun _ _ => ?_⟩
  split
  · refine Traced.obeys_bind_iff.mpr
      ⟨printsNothing_collectParams .., fun collected _ => ?_⟩
    cases collected with
    | none => exact Traced.obeys_pure none
    | some ps =>
        simp only [hheader, hsource]
        refine Traced.obeys_bind_iff.mpr ⟨hemit _, fun _ _ => ?_⟩
        refine Traced.obeys_bind_iff.mpr ⟨hemit _, fun _ _ => ?_⟩
        exact Traced.obeys_bind_iff.mpr
          ⟨printsNothing_freeFilled i _, fun _ _ => Traced.obeys_pure _⟩
  · refine Traced.obeys_bind_iff.mpr ⟨hcall not_false, fun _ _ => ?_⟩
    exact Traced.obeys_bind_iff.mpr
      ⟨printsNothing_freeArrays i, fun _ _ => Traced.obeys_pure _⟩

theorem entry_of_unnamed (h : ¬ Named item)
    (hfew : getArraySize (paramsOf item) <= 3) :
    visible (generateEntry s i (some item)) = [] ∧
      ((generateEntry s i (some item)).result = .ok none ∨
        (generateEntry s i (some item)).result = .ok (some ())) := by
  rcases generateEntry_cases s i item with ⟨hincomplete, _⟩ |
    ⟨method, rettype, params, types, hmethod, hrettype, hparams, _, hsize,
      hentry⟩
  · rcases entry_of_incomplete (s := s) (i := i) hincomplete with
      ⟨hvisible, hresult⟩
    exact ⟨hvisible, Or.inl hresult⟩
  · rw [Named, hmethod, hrettype, not_and_or, Option.bind_some,
      Option.bind_some, not_not, not_not] at h
    have hnone (target : Target) (ps : List Param) :
        writerOn target method.valuestring rettype.valuestring ps = pure () :=
      writerOn_none h target ps
    have hheader (ps : List Param) : rpcGenerateHMethod method.valuestring
        rettype.valuestring ps = pure () := hnone .header ps
    have hsource (ps : List Param) : rpcGenerateCMethod method.valuestring
        rettype.valuestring ps = pure () := hnone .source ps
    rw [hentry]
    constructor
    · exact visible_eq_nil (quiet_generateMethod ..)
        (printsNothing_generateMethod hheader hsource)
    · rw [generateMethod, call_bind_result, call_bind_result]
      split
      · right
        rw [paramsOf, hparams] at hfew
        have hfree := (freeFilled_result_iff (s := s) i _).mpr hfew
        rw [Traced.bind_of_ok (collectParams_of_size i hsize)]
        simp only [hheader, hsource]
        rw [Traced.bind_of_ok (x := emitTo .header _) rfl,
          Traced.bind_of_ok (x := emitTo .source _) rfl,
          Traced.bind_of_ok hfree]
        rfl
      · left
        rw [call_bind_result, freeArrays_bind_result]
        rfl

theorem entry_stops (hvisible : visible (generateEntry s i (some item)) = [])
    (hresult : (generateEntry s i (some item)).result = .ok none)
    (next : Unit -> Gen (Option Unit)) :
    visible (generateEntry s i (some item) >>= fun
      | none => return none
      | some u => next u) = [] ∧
    (generateEntry s i (some item) >>= fun
      | none => return none
      | some u => next u).result = .ok none := by
  rw [visible_bind_of_ok hresult, hvisible, Traced.bind_of_ok hresult]
  exact ⟨rfl, rfl⟩

theorem entries_of_not_shows {config : Option CJson} {rest : List CJson}
    (hitems : (itemsOf config).drop i = rest) (h : ¬ Shows rest) :
    visible (generateEntries s config rest.length i) = [] ∧
      (generateEntries s config rest.length i).result = .ok none := by
  induction rest generalizing i with
  | nil => exact absurd trivial h
  | cons item rest ih =>
      rcases getArrayItem_of_drop hitems with ⟨hitem, hnext⟩
      rw [Shows, not_and_or, not_or, not_or, not_lt] at h
      rw [List.length_cons, generateEntries, hitem]
      rcases h with hincomplete | ⟨hunnamed, hfew, hrest⟩
      · rcases entry_of_incomplete (s := s) (i := i) hincomplete with
          ⟨hvisible, hresult⟩
        exact entry_stops hvisible hresult _
      · rcases entry_of_unnamed (s := s) (i := i) hunnamed hfew with
          ⟨hvisible, hresult | hresult⟩
        · exact entry_stops hvisible hresult _
        · rw [visible_bind_of_ok hresult, hvisible, Traced.bind_of_ok hresult]
          exact ih hnext hrest

theorem documentRun_of_not_generates {document : Option CJson}
    (h : ¬ Generates document) :
    visible (documentRun s document) = [] ∧
      ¬ Stopped (documentRun s document) := by
  cases document with
  | none => exact ⟨rfl, not_stopped_of_ok rfl⟩
  | some root =>
      rw [documentRun, generateDocument]
      cases hconfig : getObjectItem (some root) (.lit "config") with
      | none => exact ⟨visible_call (by decide), not_stopped_of_ok rfl⟩
      | some config =>
          have hshows : ¬ Shows (itemsOf (some config)) :=
            fun hshows => h ⟨root, config, rfl, hconfig, hshows⟩
          rcases entries_of_not_shows (s := s) (i := 0) List.drop_zero hshows
            with ⟨hvisible, hresult⟩
          rw [<- getArraySize_eq] at hvisible hresult
          simp only
          rw [visible_bind_of_ok hresult, hvisible,
            stopped_bind_of_ok hresult]
          exact ⟨rfl, not_stopped_of_ok rfl⟩

/-!
## Documents that leave something in the header, or end the process
-/

theorem text_of_named (hmallocs : forall block, s.mallocs block = true)
    (hcomplete : CompleteEntry item) (hnamed : Named item) :
    exists text, .fprintf .header text ∈
      (generateEntry s i (some item)).events ∧ text.bytes ≠ [] := by
  rcases generateEntry_cases s i item with ⟨hincomplete, _⟩ |
    ⟨method, rettype, params, types, hmethod, hrettype, _, _, hsize, hentry⟩
  · exact absurd hcomplete hincomplete
  · rw [Named, hmethod, hrettype] at hnamed
    rcases Option.ne_none_iff_exists'.mp hnamed.left with ⟨m, hm⟩
    rcases Option.ne_none_iff_exists'.mp hnamed.right with ⟨t, ht⟩
    rw [Option.bind_some] at hm ht
    refine ⟨[t, .lit " ", m, .lit "("].foldr CString.append (.lit ""), ?_, ?_⟩
    · rw [hentry, generateMethod, mem_call_bind_iff, mem_call_bind_iff,
        hmallocs, hmallocs, Bool.and_self, if_pos rfl,
        Traced.bind_of_ok (collectParams_of_size i hsize), hm, ht]
      right; right
      apply List.mem_append_right
      apply Traced.mem_events_bind_iff.mpr
      left
      exact List.mem_map.mpr ⟨_, List.mem_cons_self, rfl⟩
    · have hblank : (CString.lit " ").bytes = [0x20#8] := rfl
      simp [CString.append, hblank]

theorem entries_of_shows (hmallocs : forall block, s.mallocs block = true)
    {config : Option CJson} {rest : List CJson}
    (hitems : (itemsOf config).drop i = rest) (h : Shows rest) :
    (exists text, .fprintf .header text ∈
      (generateEntries s config rest.length i).events ∧ text.bytes ≠ []) ∨
    Stopped (generateEntries s config rest.length i) ∨
    (generateEntries s config rest.length i).result = .ok (some ()) := by
  induction rest generalizing i with
  | nil => exact Or.inr (Or.inr rfl)
  | cons item rest ih =>
      rcases getArrayItem_of_drop hitems with ⟨hitem, hnext⟩
      rcases h with ⟨hcomplete, hrest⟩
      rw [List.length_cons, generateEntries, hitem]
      by_cases hnamed : Named item
      · rcases text_of_named (i := i) hmallocs hcomplete hnamed with
          ⟨text, hmem, hbytes⟩
        exact Or.inl
          ⟨text, Traced.mem_events_bind_iff.mpr (Or.inl hmem), hbytes⟩
      · rcases hcomplete with ⟨method, rettype, params, types, hmethod,
          hrettype, hparams, htypes, hsize⟩
        by_cases hfew : getArraySize (paramsOf item) <= 3
        · have hwritten : WrittenEntry s i (some item) := by
            refine ⟨method, rettype, params, types, hmethod, hrettype, hparams,
              htypes, hsize, hmallocs _, hmallocs _, ?_⟩
            intro hm ht
            rw [Named, hmethod, hrettype] at hnamed
            exact absurd ⟨hm, ht⟩ hnamed
          have hresult := (generateEntry_result_iff i (some item)).mpr
            ⟨hwritten, hfew⟩
          rw [Traced.bind_of_ok hresult]
          rcases ih hnext ((hrest.resolve_left hnamed).resolve_left
            (not_lt.mpr hfew)) with ⟨text, hmem, hbytes⟩ | hdone
          · exact Or.inl ⟨text, List.mem_append_right _ hmem, hbytes⟩
          · exact Or.inr hdone
        · right; left
          rw [paramsOf, hparams, not_le] at hfew
          apply stopped_bind_iff.mpr
          left
          apply (stopped_generateEntry_iff i (some item)).mpr
          exact ⟨method, rettype, params, types, hmethod, hrettype, hparams,
            htypes, hsize, hmallocs _, hmallocs _, Or.inr hfew⟩

theorem text_of_generates (hmallocs : forall block, s.mallocs block = true)
    {document : Option CJson} (h : Generates document) :
    (exists text, .fprintf .header text ∈ (documentRun s document).events ∧
      text.bytes ≠ []) ∨ Stopped (documentRun s document) := by
  rcases h with ⟨root, config, rfl, hconfig, hshows⟩
  rw [documentRun, generateDocument, hconfig]
  have hentries := entries_of_shows (i := 0) hmallocs List.drop_zero hshows
  rw [<- getArraySize_eq] at hentries
  rcases hentries with ⟨text, hmem, hbytes⟩ | hstopped | hdone
  · exact Or.inl
      ⟨text, Traced.mem_events_bind_iff.mpr (Or.inl hmem), hbytes⟩
  · exact Or.inr (stopped_bind_iff.mpr (Or.inl hstopped))
  · left
    refine ⟨.lit "#ifdef __cplusplus\n", ?_, by decide⟩
    simp only
    rw [Traced.bind_of_ok hdone]
    apply List.mem_append_right
    apply Traced.mem_events_bind_iff.mpr
    left
    exact List.mem_map.mpr ⟨_, List.mem_cons_self, rfl⟩

/-!
## What the header file is left with
-/

theorem printed_eq_visible {α : Type} (target : Target) (g : Gen α) :
    printed target g = printed target (⟨visible g, .ok ()⟩ : Gen Unit) := by
  rw [printed, printed, visible, List.filterMap_filter]
  congr 1
  funext c
  cases c with
  | fprintf other text => rfl
  | fopen other => rfl
  | _ => exact (ite_self none).symm

theorem printed_document (target : Target) (content : List Byte) :
    printed target (generateFiles s content) = preambleOf target ++
      printed target (documentRun s (readDocument s content)) := by
  rw [printed_eq_visible, (visible_generateFiles content).left,
    printed_eq_visible target (documentRun s _)]
  cases target with
  | source => simp [printed, preambleOf, List.filterMap_map]
  | header => simp [printed, preambleOf, List.filterMap_map]

theorem leftFile_of_stopped
    (hflushes : forall target bytes, s.flushes target bytes = 0)
    (hstopped : Stopped (rpcGenerateMethodCode s)) (target : Target) :
    leftFile s (fun _ => []) target = [] := by
  have hcontents : forall (calls : List Call) (files : Files),
      files.contents target = [] ->
        (calls.foldl (Files.after s) files).contents target = [] := by
    intro calls
    induction calls with
    | nil => exact fun _ h => h
    | cons c rest ih =>
        intro files h
        rw [List.foldl_cons]
        apply ih
        cases c with
        | fopen other =>
            rw [Files.after]
            split
            · by_cases hother : target = other
              · simp [hother]
              · simp [Function.update_of_ne hother, h]
            · exact h
        | fprintf other text =>
            rw [Files.after]
            split
            · exact h
            · by_cases hother : target = other
              · subst hother
                simp [hflushes, h]
              · simp [Function.update_of_ne hother, h]
        | _ => exact h
  rcases hstopped with ⟨f, hf⟩
  rw [leftFile, hf]
  exact hcontents _ _ rfl

theorem leftFile_of_returned (h : ¬ Stopped (rpcGenerateMethodCode s))
    (prior : Target -> List Byte) (target : Target) :
    leftFile s prior target = generatedFile s prior target := by
  unfold leftFile
  split
  · rfl
  · rename_i f hf
    exact absurd ⟨f, hf⟩ h

/-!
## The text that is parsed
-/

theorem jsonText_append {content : List Byte}
    (h : 0#8 ∉ bytesRead content) :
    jsonText (s.withMemory memory) content =
      (CString.ofBytes (bytesRead content)).append
        (CString.ofBytes (memory.drop (fileSize content).toNat)) := by
  ext1
  show (bytesRead content ++ memory.drop (fileSize content).toNat).takeWhile
    (· != 0#8) = (CString.ofBytes (bytesRead content)).bytes ++ _
  rw [CString.ofBytes_bytes_of_noNul h]
  exact List.takeWhile_append_of_pos fun b hb => CString.ne_nul_of_mem h hb

theorem jsonText_of_nul {content memory' : List Byte}
    (h : 0#8 ∈ bytesRead content) :
    jsonText (s.withMemory memory) content =
      jsonText (s.withMemory memory') content := by
  ext1
  have htake (others : List Byte) :
      (bytesRead content ++ others).takeWhile (· != 0#8) =
        (bytesRead content).takeWhile (· != 0#8) := by
    rw [List.takeWhile_append, if_neg]
    intro hlength
    have hall := (List.takeWhile_prefix (l := bytesRead content)
      (· != (0#8 : Byte))).eq_of_length hlength
    have hnul := List.mem_takeWhile_imp (hall ▸ h)
    simp at hnul
  exact (htake _).trans (htake _).symm

def Alike (s : Setting) (document document' : Option CJson) : Prop :=
  visible (documentRun s document) = visible (documentRun s document') ∧
    (Stopped (documentRun s document) <-> Stopped (documentRun s document'))

theorem alike_of_not_generates {document document' : Option CJson}
    (h : ¬ Generates document) (h' : ¬ Generates document') :
    Alike s document document' := by
  rcases documentRun_of_not_generates (s := s) h with ⟨hvisible, hstopped⟩
  rcases documentRun_of_not_generates (s := s) h' with ⟨hvisible', hstopped'⟩
  exact ⟨by rw [hvisible, hvisible'], iff_of_false hstopped hstopped'⟩

theorem generates_object {document : Option CJson} (h : Generates document) :
    exists members, document = some (.object members) := by
  rcases h with ⟨root, config, rfl, hconfig, _⟩
  cases root with
  | object members => exact ⟨members, rfl⟩
  | _ => cases hconfig

/-- What is read from a text that holds a value does not depend on its
continuation, as far as it can be seen. -/
theorem alike_of_parses {text tail tail' : CString}
    (h : parse text ≠ none) :
    Alike s (parse (text.append tail)) (parse (text.append tail')) := by
  rcases Option.ne_none_iff_exists'.mp h with ⟨t, ht⟩
  have hobject {tail : CString} (hgenerates : Generates (parse
      (text.append tail))) : exists members, parse text =
        some (.object members) := by
    rcases generates_object hgenerates with ⟨members, hmembers⟩
    exact ⟨members, object_of_parse_append ht hmembers⟩
  by_cases hread : exists members, parse text = some (.object members)
  · rcases hread with ⟨members, hmembers⟩
    rw [parse_append_of_object hmembers, parse_append_of_object hmembers]
    exact ⟨rfl, Iff.rfl⟩
  · exact alike_of_not_generates (fun hgenerates => hread (hobject hgenerates))
      fun hgenerates => hread (hobject hgenerates)

theorem documentRun_withMemory (document : Option CJson) :
    documentRun (s.withMemory memory) document = documentRun s document := by
  cases document with
  | none => rfl
  | some root => exact generateDocument_withMemory root

theorem same_of_alike {content memory' : List Byte}
    (hregister : s.register = some content) (h : ReachesParse s content)
    (halike : Alike s (readDocument (s.withMemory memory) content)
      (readDocument (s.withMemory memory') content)) :
    (ReachesSuccess (s.withMemory memory) <->
      ReachesSuccess (s.withMemory memory')) ∧
    forall prior target, leftFile (s.withMemory memory) prior target =
      leftFile (s.withMemory memory') prior target := by
  have hrun (memory : List Byte) := visible_run (s := s.withMemory memory)
    hregister h
  have hfiles (memory : List Byte) :=
    visible_generateFiles (s := s.withMemory memory) content
  simp only [documentRun_withMemory] at hfiles
  apply same_of_visible
  · rw [(hrun memory).left, (hrun memory').left, (hfiles memory).left,
      (hfiles memory').left, halike.left]
  · rw [(hrun memory).right, (hrun memory').right, (hfiles memory).right,
      (hfiles memory').right, halike.right]

end

/-!
## When the memory does not matter
-/

/-- Every call succeeds, if `read` can return `file_size` at all, and streams
are written out at the end. -/
def lazySetting (content : List Byte) : Setting where
  register := some content
  mallocs _ := true
  memory := []
  delivers := if fileSize content < 0 then none else some content.length
  opens _ := true
  parses := true
  flushes _ _ := 0
  holdsNull _ := false

theorem fileSize_le {content : List Byte} (h : 0 <= fileSize content) :
    fileSize content <= content.length := by
  rw [fileSize, Int32.toInt_ofNat'] at h ⊢
  have hmodulus : (Int32.size : Int) = 2 ^ 32 := rfl
  rw [Int.bmod_def, hmodulus] at h ⊢
  split_ifs at h ⊢
  all_goals omega

theorem reachesParse_lazy {content : List Byte}
    (h : -1 <= fileSize content) :
    ReachesParse (lazySetting content) content := by
  refine ⟨⟨rfl, ?_⟩, fun _ => rfl⟩
  unfold readCount lazySetting
  by_cases hnegative : fileSize content < 0
  · simp only [if_pos hnegative]
    omega
  · have hle := fileSize_le (not_lt.mp hnegative)
    simp only [if_neg hnegative]
    omega

theorem readCount_ge (s : Setting) (content : List Byte) (count : Int) :
    -1 <= readCount s content count := by
  unfold readCount
  split
  · omega
  · split
    · omega
    · omega

/-- The memory in which a text stands behind the bytes that are read. -/
def memoryWith (content : List Byte) (tail : CString) : List Byte :=
  List.replicate (fileSize content).toNat 0#8 ++ tail.stored

theorem memoryWith_drop (content : List Byte) (tail : CString) :
    (memoryWith content tail).drop (fileSize content).toNat = tail.stored := by
  simp [memoryWith]

theorem terminated_memoryWith (content : List Byte) (tail : CString) :
    Terminated content (memoryWith content tail) := by
  rw [Terminated, memoryWith_drop, CString.stored]
  exact List.mem_append_right _ List.mem_cons_self

section

variable {content : List Byte}

theorem readDocument_of_tail (hnul : 0#8 ∉ bytesRead content)
    (tail : CString) :
    readDocument ((lazySetting content).withMemory (memoryWith content tail))
        content =
      parse ((CString.ofBytes (bytesRead content)).append tail) := by
  have htext := @jsonText_append (lazySetting content)
    (memoryWith content tail) content hnul
  rw [memoryWith_drop, CString.ofBytes_stored] at htext
  rw [readDocument, htext]
  rfl

theorem stopped_of_tail (hsize : -1 <= fileSize content)
    (hnul : 0#8 ∉ bytesRead content) (tail : CString) :
    Stopped (rpcGenerateMethodCode
        ((lazySetting content).withMemory (memoryWith content tail))) <->
      Stopped (documentRun (lazySetting content)
        (parse ((CString.ofBytes (bytesRead content)).append tail))) := by
  have hregister : ((lazySetting content).withMemory
      (memoryWith content tail)).register = some content := rfl
  rw [(visible_run hregister (reachesParse_lazy hsize)).right,
    (visible_generateFiles content).right, readDocument_of_tail hnul,
    documentRun_withMemory]

theorem leftFile_of_tail (hsize : -1 <= fileSize content)
    (hnul : 0#8 ∉ bytesRead content) {tail : CString}
    (hreturns : ¬ Stopped (documentRun (lazySetting content)
      (parse ((CString.ofBytes (bytesRead content)).append tail))))
    (prior : Target -> List Byte) :
    leftFile ((lazySetting content).withMemory (memoryWith content tail))
        prior .header =
      headerPreamble.events.flatMap CString.bytes ++
        (printed .header (documentRun (lazySetting content)
          (parse ((CString.ofBytes (bytesRead content)).append
            tail)))).flatMap CString.bytes := by
  rcases reachesParse_lazy hsize with ⟨hread, hopens⟩
  have hregister : ((lazySetting content).withMemory
      (memoryWith content tail)).register = some content := rfl
  rw [leftFile_of_returned (mt (stopped_of_tail hsize hnul tail).mp hreturns),
    (generatedFile_of_opens hregister hread hopens prior .header).right,
    printed_document, readDocument_of_tail hnul, documentRun_withMemory,
    preambleOf, List.flatMap_append]

theorem not_sameOutput_of_generates {tail : CString}
    (hsize : -1 <= fileSize content) (hnul : 0#8 ∉ bytesRead content)
    (hnone : parse (CString.ofBytes (bytesRead content)) = none)
    (hgenerates : Generates
      (parse ((CString.ofBytes (bytesRead content)).append tail))) :
    ¬ SameOutput content := by
  intro h
  have hsame := (h (lazySetting content) (memoryWith content (.lit ""))
    (memoryWith content tail) rfl (terminated_memoryWith _ _)
    (terminated_memoryWith _ _)).right (fun _ => []) .header
  have hempty : (CString.ofBytes (bytesRead content)).append (.lit "") =
      CString.ofBytes (bytesRead content) := by
    ext1
    exact List.append_nil _
  have hrefused : ¬ Stopped (documentRun (lazySetting content)
      (parse ((CString.ofBytes (bytesRead content)).append (.lit "")))) := by
    rw [hempty, hnone]
    exact not_stopped_of_ok rfl
  rw [leftFile_of_tail hsize hnul hrefused, hempty, hnone] at hsame
  by_cases hstopped : Stopped (documentRun (lazySetting content)
      (parse ((CString.ofBytes (bytesRead content)).append tail)))
  · rw [leftFile_of_stopped (fun _ _ => rfl)
      ((stopped_of_tail hsize hnul tail).mpr hstopped)] at hsame
    have hpreamble : headerPreamble.events.flatMap CString.bytes ≠ [] := by
      decide
    exact hpreamble (List.append_eq_nil_iff.mp hsame).left
  · rw [leftFile_of_tail hsize hnul hstopped, List.append_right_inj] at hsame
    rcases text_of_generates (s := lazySetting content) (fun _ => rfl)
      hgenerates with ⟨text, hmem, hbytes⟩ | hstops
    · have hprinted : text ∈ printed .header (documentRun
          (lazySetting content)
            (parse ((CString.ofBytes (bytesRead content)).append tail))) :=
        List.mem_filterMap.mpr ⟨_, hmem, rfl⟩
      exact hbytes (List.flatMap_eq_nil_iff.mp hsame.symm text hprinted)
    · exact hstopped hstops

end

theorem alike_of_condition {s : Setting} {content : List Byte}
    (h : 0#8 ∈ bytesRead content ∨
      parse (CString.ofBytes (bytesRead content)) ≠ none ∨
      forall tail, ¬ Generates
        (parse ((CString.ofBytes (bytesRead content)).append tail)))
    (memory memory' : List Byte) :
    Alike s (readDocument (s.withMemory memory) content)
      (readDocument (s.withMemory memory') content) := by
  by_cases hparses : s.parses = true
  · have hread (memory : List Byte) : readDocument (s.withMemory memory)
        content = parse (jsonText (s.withMemory memory) content) :=
      if_pos hparses
    rw [hread, hread]
    by_cases hnul : 0#8 ∈ bytesRead content
    · rw [jsonText_of_nul hnul]
      exact ⟨rfl, Iff.rfl⟩
    · rw [jsonText_append hnul, jsonText_append hnul]
      rcases h with hmem | hvalue | hnever
      · exact absurd hmem hnul
      · exact alike_of_parses hvalue
      · exact alike_of_not_generates (hnever _) (hnever _)
  · have hread (memory : List Byte) : readDocument (s.withMemory memory)
        content = none := if_neg hparses
    rw [hread, hread]
    exact ⟨rfl, Iff.rfl⟩

/--
The memory does not matter exactly when the file is too large to be read, holds
a NUL byte or a value of its own, or cannot be continued to a document that
leaves something behind.
-/
theorem sameOutput_iff (content : List Byte) :
    SameOutput content <-> fileSize content < -1 ∨
      0#8 ∈ bytesRead content ∨
      parse (CString.ofBytes (bytesRead content)) ≠ none ∨
      forall tail, ¬ Generates
        (parse ((CString.ofBytes (bytesRead content)).append tail)) := by
  constructor
  · intro h
    by_contra hcondition
    simp only [not_or, not_lt, ne_eq, not_not, not_forall] at hcondition
    rcases hcondition with ⟨hsize, hnul, hnone, tail, hgenerates⟩
    exact not_sameOutput_of_generates hsize hnul hnone hgenerates h
  · intro h s memory memory' hregister _ _
    by_cases hreaches : ReachesParse s content
    · have hsize : ¬ fileSize content < -1 := by
        have hge := readCount_ge s content (fileSize content)
        rw [hreaches.left.right] at hge
        exact not_lt.mpr hge
      exact same_of_alike hregister hreaches
        (alike_of_condition (h.resolve_left hsize) memory memory')
    · have hrun (memory : List Byte) : rpcGenerateMethodCode
          (s.withMemory memory) = rpcGenerateMethodCode s :=
        run_withMemory hregister hreaches
      apply same_of_visible
      · rw [hrun, hrun]
      · rw [hrun, hrun]

def cutContent : List Byte := ascii "\x7b\"config\":[]"

/-- It is refused, or accepted when the next byte of the memory is a bracket
that an earlier text has left there. -/
theorem cutContent_completed :
    ¬ ReachesSuccess ((lazySetting cutContent).withMemory
        (memoryWith cutContent (.lit ""))) ∧
      ReachesSuccess ((lazySetting cutContent).withMemory
        (memoryWith cutContent (.lit "\x7d"))) ∧
      ¬ SameOutput cutContent := by
  have hrefused : ¬ ReachesSuccess ((lazySetting cutContent).withMemory
      (memoryWith cutContent (.lit ""))) := by
    unfold ReachesSuccess
    decide +kernel
  have haccepted : ReachesSuccess ((lazySetting cutContent).withMemory
      (memoryWith cutContent (.lit "\x7d"))) := by
    unfold ReachesSuccess
    decide +kernel
  refine ⟨hrefused, haccepted, fun h => ?_⟩
  have hsame := (h (lazySetting cutContent) _ _ rfl
    (terminated_memoryWith cutContent (.lit ""))
    (terminated_memoryWith cutContent (.lit "\x7d"))).left
  exact hrefused (hsame.mpr haccepted)

end Generator
end Z2wRpc
