import Z2wRpc.Dispatch.Acceptance
import Z2wRpc.Generator.Damage

/-!
# What an accepted register file is turned into

The texts that a run prints to the two streams, and what the files hold when
the buffers of the streams have been written: preambles, the code of every
element that has a name and a return type, and the end of the header.
-/

namespace Z2wRpc

open Foundation

namespace Generator

open CJson Dispatch

/-!
## What a run prints to a stream
-/

def printed (target : Target) {α : Type} (g : Gen α) : List CString :=
  g.events.filterMap fun
    | .fprintf other text => if other = target then some text else none
    | _ => none

def entryParams (entry : EntryText) : List Param :=
  entry.params.map fun p => (some p.1, some p.2)

def writer (target : Target) (entry : EntryText) : Emit Unit :=
  match target with
  | .source =>
      rpcGenerateCMethod (some entry.method) (some entry.rettype)
        (entryParams entry)
  | .header =>
      rpcGenerateHMethod (some entry.method) (some entry.rettype)
        (entryParams entry)

def codeOf (target : Target) (entry : EntryText) : List CString :=
  (writer target entry).events

def preambleOf : Target -> List CString
  | .source => sourcePreamble.events
  | .header => headerPreamble.events

def endOf : Target -> List CString
  | .source => []
  | .header => headerEnd.events

def IsPrint : Call -> Prop
  | .fprintf _ _ => True
  | _ => False

abbrev PrintsNothing {α : Type} (g : Gen α) : Prop :=
  Traced.Obeys (fun c => ¬ IsPrint c) (fun _ => True) g

section

variable {s : Setting} {target : Target} {α β : Type}

theorem printed_bind {g : Gen α} {a : α} (h : g.result = .ok a)
    (f : α -> Gen β) :
    printed target (g >>= f) = printed target g ++ printed target (f a) := by
  rw [Traced.bind_of_ok h, printed, List.filterMap_append]
  rfl

theorem printed_of_printsNothing {g : Gen α} (h : PrintsNothing g) :
    printed target g = [] := by
  rw [printed, List.filterMap_eq_nil_iff]
  intro c hc
  have hsilent := h.events c hc
  cases c with
  | fprintf other text => exact absurd trivial hsilent
  | _ => rfl

theorem printed_call_bind {c : Call} (hc : ¬ IsPrint c) (f : Unit -> Gen β) :
    printed target (call c >>= f) = printed target (f ()) := by
  have hsilent : PrintsNothing (call c) := Traced.obeys_emit_iff.mpr hc
  have hok : (call c).result = .ok () := rfl
  rw [printed_bind hok, printed_of_printsNothing hsilent, List.nil_append]

theorem printed_emitTo (other : Target) (e : Emit Unit) :
    printed target (emitTo other e) =
      if other = target then e.events else [] := by
  rw [printed, emitTo, List.filterMap_map]
  by_cases hother : other = target
  · simp [hother]
  · simp [hother]

theorem printsNothing_free (block : Block) : PrintsNothing (free s block) := by
  unfold free
  split
  · exact Traced.obeys_emit_iff.mpr not_false
  · exact Traced.obeys_pure ()

theorem printsNothing_freeArrays (i : Nat) : PrintsNothing (freeArrays s i) :=
  Traced.obeys_bind_iff.mpr
    ⟨printsNothing_free _, fun _ _ => printsNothing_free _⟩

theorem printsNothing_freeFilled (i n : Nat) :
    PrintsNothing (freeFilled s i n) := by
  unfold freeFilled
  split
  · exact printsNothing_freeArrays i
  · exact Traced.obeys_fault_iff.mpr trivial

theorem printsNothing_collectParams (i : Nat) (params types : Option CJson)
    (n j : Nat) : PrintsNothing (collectParams s i params types n j) := by
  induction n generalizing j with
  | zero => exact Traced.obeys_pure _
  | succ n ih =>
      have hcall {c : Call} (hc : ¬ IsPrint c) : PrintsNothing (call c) :=
        Traced.obeys_emit_iff.mpr hc
      unfold collectParams
      split
      · refine Traced.obeys_bind_iff.mpr ⟨hcall not_false, fun _ _ => ?_⟩
        refine Traced.obeys_bind_iff.mpr ⟨hcall not_false, fun _ _ => ?_⟩
        exact Traced.obeys_bind_iff.mpr
          ⟨ih (j + 1), fun _ _ => Traced.obeys_pure _⟩
      · refine Traced.obeys_bind_iff.mpr ⟨hcall not_false, fun _ _ => ?_⟩
        exact Traced.obeys_bind_iff.mpr
          ⟨printsNothing_freeArrays i, fun _ _ => Traced.obeys_pure _⟩

end

/-!
## The code of one element
-/

def writerOn (target : Target) (method type : Option CString)
    (params : List Param) : Emit Unit :=
  match target with
  | .source => rpcGenerateCMethod method type params
  | .header => rpcGenerateHMethod method type params

def shownEntry (item : CJson) : Option EntryText :=
  match (getObjectItem (some item) (.lit "method")).bind valuestring,
    (getObjectItem (some item) (.lit "rettype")).bind valuestring with
  | some method, some rettype => some {
      method := method
      params := (List.zipWith paramOf (itemsOf (paramsOf item))
        (itemsOf (typesOf item))).map fun p => (shown p.1, shown p.2)
      rettype := rettype }
  | _, _ => none

def Named (item : CJson) : Prop :=
  (getObjectItem (some item) (.lit "method")).bind valuestring ≠ none ∧
    (getObjectItem (some item) (.lit "rettype")).bind valuestring ≠ none

theorem shownEntry_eq_none_iff (item : CJson) :
    shownEntry item = none <-> ¬ Named item := by
  unfold shownEntry Named
  split
  · rename_i hmethod hrettype
    simp [hmethod, hrettype]
  · rename_i hnone
    simp only [true_iff, not_and_or, ne_eq, not_not]
    by_contra hnames
    rw [not_or] at hnames
    rcases Option.ne_none_iff_exists'.mp hnames.left with ⟨m, hm⟩
    rcases Option.ne_none_iff_exists'.mp hnames.right with ⟨t, ht⟩
    exact hnone m t hm ht

def codeOfItem (target : Target) (item : CJson) : List CString :=
  (shownEntry item).toList.flatMap (codeOf target)

def shownParam (param : Param) : Param :=
  (some (shown param.1), some (shown param.2))

theorem map_shownParam {params : List Param} (htypes : TypesAreStrings params)
    (hnames : NamesAreStrings params) : params.map shownParam = params := by
  have hsame : forall param, param ∈ params -> shownParam param = param := by
    intro param hparam
    rcases Option.ne_none_iff_exists'.mp (hnames param hparam) with
      ⟨name, hname⟩
    rcases Option.ne_none_iff_exists'.mp (htypes param hparam) with
      ⟨type, htype⟩
    rcases param with ⟨_, _⟩
    obtain rfl : _ = some name := hname
    obtain rfl : _ = some type := htype
    rfl
  rw [List.map_congr_left hsame, List.map_id']

theorem writerOn_none {method type : Option CString}
    (h : method = none ∨ type = none) (target : Target) (params : List Param) :
    writerOn target method type params = pure () := by
  cases target with
  | source =>
      rcases h with rfl | rfl
      · rfl
      · cases method <;> rfl
  | header =>
      rcases h with rfl | rfl
      · rfl
      · cases method <;> rfl

/-!
## The loop over the elements
-/

section

variable {s : Setting} {item : CJson}

theorem printed_generateMethod {i : Nat} {method rettype params types : CJson}
    (hsize : getArraySize (some params) = getArraySize (some types))
    (hparamArr : s.mallocs (.paramStrArr i) = true)
    (htypeArr : s.mallocs (.typeStrArr i) = true)
    (hwritable : Writable method rettype params types) (target : Target) :
    printed target (generateMethod s i method rettype params types) =
      (writerOn target method.valuestring rettype.valuestring
        (List.zipWith paramOf params.children types.children)).events := by
  have hcollect : printed target (collectParams s i (some params) (some types)
      (getArraySize (some params)) 0) = [] :=
    printed_of_printsNothing (printsNothing_collectParams ..)
  have hfree : printed target
      (freeFilled s i (getArraySize (some params))) = [] :=
    printed_of_printsNothing (printsNothing_freeFilled ..)
  have hemit (other : Target) (e : Emit Unit) :
      printed target (emitTo other e) =
        if other = target then e.events else [] :=
    printed_emitTo other e
  unfold printed emitTo at hemit
  rw [printed] at hcollect hfree
  rw [printed, generateMethod_events hsize hparamArr htypeArr hwritable]
  simp only [List.filterMap_append, hcollect, hfree, hemit]
  cases target with
  | source => simp [writerOn]
  | header => simp [writerOn]

theorem printed_generateEntry {i : Nat} (h : WrittenEntry s i (some item))
    (target : Target) :
    printed target (generateEntry s i (some item)) =
      codeOfItem target item := by
  rcases h with ⟨method, rettype, params, types, hmethod, hrettype, hparams,
    htypes, hsize, hparamArr, htypeArr, hwritable⟩
  rw [generateEntry_of_found i hmethod hrettype hparams htypes hsize,
    printed_generateMethod hsize hparamArr htypeArr hwritable,
    codeOfItem, shownEntry, hmethod, hrettype, paramsOf, typesOf, hparams,
    htypes, Option.bind_some, Option.bind_some]
  cases hm : method.valuestring with
  | none => rw [writerOn_none (Or.inl rfl)]; rfl
  | some m =>
      cases ht : rettype.valuestring with
      | none => rw [writerOn_none (Or.inr rfl)]; rfl
      | some t =>
          rcases hwritable (by rw [hm]; simp) (by rw [ht]; simp) with
            ⟨htypeStrings, hnameStrings⟩
          rw [<- map_shownParam
            ((typesAreStrings_zipWith_iff hsize).mpr htypeStrings)
            ((namesAreStrings_zipWith_iff hsize).mpr hnameStrings)]
          cases target with
          | source => simp [codeOf, writer, writerOn, entryParams, shownParam,
              itemsOf]
          | header => simp [codeOf, writer, writerOn, entryParams, shownParam,
              itemsOf]

theorem printed_generateEntries {config : Option CJson} {rest : List CJson}
    {i : Nat} (hitems : (itemsOf config).drop i = rest)
    (h : forall k, k < rest.length ->
      GoodEntry s (i + k) (getArrayItem config (i + k)))
    (target : Target) :
    printed target (generateEntries s config rest.length i) =
      rest.flatMap (codeOfItem target) := by
  induction rest generalizing i with
  | nil => rfl
  | cons item rest ih =>
      rcases getArrayItem_of_drop hitems with ⟨hitem, hnext⟩
      have hfirst := h 0 (Nat.succ_pos _)
      rw [Nat.add_zero, hitem] at hfirst
      have hrest := ih hnext (by
        intro k hk
        have hindex : i + 1 + k = i + (k + 1) := by omega
        rw [hindex]
        exact h (k + 1) (Nat.succ_lt_succ hk))
      have hresult := (generateEntry_result_iff i (some item)).mpr hfirst
      rw [List.length_cons, generateEntries, hitem, printed_bind hresult,
        printed_generateEntry hfirst.left, List.flatMap_cons, hrest]

end

/-!
## The whole run
-/

section

variable {s : Setting} {root config : CJson} {content : List Byte}

theorem printed_generateDocument
    (hconfig : getObjectItem (some root) (.lit "config") = some config)
    (h : forall i, i < getArraySize (some config) ->
      GoodEntry s i (getArrayItem (some config) i)) :
    (generateDocument s root).result = .ok () ∧
      forall target, printed target (generateDocument s root) =
        (itemsOf (some config)).flatMap (codeOfItem target) ++
          endOf target := by
  have hgood : forall k, k < (itemsOf (some config)).length ->
      GoodEntry s (0 + k) (getArrayItem (some config) (0 + k)) := by
    intro k hk
    rw [Nat.zero_add]
    exact h k hk
  have hresult := (generateEntries_result_iff (some config) _ 0).mpr hgood
  have hprinted := printed_generateEntries List.drop_zero hgood
  rw [<- getArraySize_eq] at hresult hprinted
  have hend : (emitTo .header headerEnd).result = .ok () := completes_headerEnd
  rw [generateDocument, hconfig]
  constructor
  · refine Traced.bind_result_ok_iff.mpr ⟨some (), hresult, ?_⟩
    exact Traced.bind_result_ok_iff.mpr ⟨(), completes_headerEnd, rfl⟩
  · intro target
    have hmessages : printed target (do
        call (.printf (.lit "Generate rpc_method.h success\n"))
        call (.printf (.lit "Generate rpc_method.c success\n"))) = [] :=
      printed_of_printsNothing (Traced.obeys_bind_iff.mpr
        ⟨Traced.obeys_emit_iff.mpr not_false,
          fun _ _ => Traced.obeys_emit_iff.mpr not_false⟩)
    simp only [printed_bind hresult, printed_bind hend, hmessages,
      printed_emitTo, hprinted target, List.append_nil]
    cases target with
    | source => simp [endOf]
    | header => simp [endOf]

theorem printed_generateFiles (hparses : s.parses = true)
    (hparse : parse (jsonText s content) = some root)
    (hconfig : getObjectItem (some root) (.lit "config") = some config)
    (h : forall i, i < getArraySize (some config) ->
      GoodEntry s i (getArrayItem (some config) i)) :
    (generateFiles s content).result = .ok .valid ∧
      forall target, printed target (generateFiles s content) =
        preambleOf target ++
          ((itemsOf (some config)).flatMap (codeOfItem target) ++
            endOf target) := by
  rcases printed_generateDocument hconfig h with ⟨hresult, hprinted⟩
  have hheader : (emitTo .header headerPreamble).result = .ok () := rfl
  have hsource : (emitTo .source sourcePreamble).result = .ok () := rfl
  have hcall : (call (.parse (jsonText s content))).result = .ok () := rfl
  rw [generateFiles, if_pos hparses, hparse]
  constructor
  · rw [Traced.bind_of_ok hheader, Traced.bind_of_ok hsource,
      Traced.bind_of_ok hcall]
    simp only [Traced.bind_of_ok hresult]
    rfl
  · intro target
    rw [printed_bind hheader, printed_bind hsource,
      printed_call_bind (c := .parse _) not_false]
    simp only [printed_bind hresult, printed_emitTo, hprinted target]
    cases target with
    | source => simp [preambleOf, printed]
    | header => simp [preambleOf, printed]

theorem printsNothing_cleanUp (locals : Locals) :
    PrintsNothing (cleanUp s locals) := by
  have hcall {c : Call} (hc : ¬ IsPrint c) : PrintsNothing (call c) :=
    Traced.obeys_emit_iff.mpr hc
  have hclose (var : Local) (fp : Pointer) :
      PrintsNothing (closeFile s var fp) := by
    unfold closeFile
    split
    · exact Traced.obeys_fault_iff.mpr trivial
    · exact Traced.obeys_pure ()
  have hdelete : PrintsNothing (deleteRoot s locals.root) := by
    unfold deleteRoot
    split
    · exact Traced.obeys_pure ()
    · split
      · exact hcall not_false
      · exact Traced.obeys_fault_iff.mpr trivial
  unfold cleanUp
  refine Traced.obeys_bind_iff.mpr ⟨hcall not_false, fun _ _ => ?_⟩
  refine Traced.obeys_bind_iff.mpr ⟨hclose _ _, fun _ _ => ?_⟩
  refine Traced.obeys_bind_iff.mpr ⟨hclose _ _, fun _ _ => ?_⟩
  split
  · exact Traced.obeys_bind_iff.mpr ⟨hcall not_false, fun _ _ => hdelete⟩
  · exact hdelete

def openingCalls (content : List Byte) : List Call :=
  [.open, .seekEnd, .seekStart, .malloc .jsonBuf (fileSize content + 1),
    .read (fileSize content), .fopen .source, .fopen .header]

theorem generateFrom_of_opens (hread : ReadWhole s content)
    (hopens : forall target, s.opens target = true) :
    generateFrom s content = (do
      call .seekEnd
      call .seekStart
      call (.malloc .jsonBuf (fileSize content + 1))
      call (.read (fileSize content))
      call (.fopen .source)
      call (.fopen .header)
      let root ← generateFiles s content
      return ⟨.valid, .valid, .valid, root⟩) := by
  have hbuf : ¬ ¬ s.mallocs .jsonBuf = true := not_not.mpr hread.left
  have hcount : ¬ readCount s content (fileSize content) ≠
      fileSize content := not_not.mpr hread.right
  have hboth : (s.opens .source && s.opens .header) = true := by
    rw [hopens, hopens]
    rfl
  simp only [generateFrom, if_neg hbuf, if_neg hcount, if_pos hboth]

theorem events_of_opens (hregister : s.register = some content)
    (hread : ReadWhole s content)
    (hopens : forall target, s.opens target = true) :
    exists after : Gen Unit, Quiet after ∧ PrintsNothing after ∧
      (rpcGenerateMethodCode s).events = openingCalls content ++
        ((generateFiles s content).events ++ after.events) := by
  have hrun : (rpcGenerateMethodCode s).events =
      .open :: (generateFrom s content >>= fun locals => do
        cleanUp s locals
        return (-1 : Int)).events := by
    rw [rpcGenerateMethodCode, hregister]
    rfl
  have hfrom : forall g : Pointer -> Gen Locals,
      (do
        call .seekEnd
        call .seekStart
        call (.malloc .jsonBuf (fileSize content + 1))
        call (.read (fileSize content))
        call (.fopen .source)
        call (.fopen .header)
        let root ← generateFiles s content
        g root : Gen Locals) =
      ⟨(openingCalls content).tail ++ (generateFiles s content >>= g).events,
        (generateFiles s content >>= g).result⟩ := fun _ => rfl
  rw [hrun, generateFrom_of_opens hread hopens, hfrom]
  cases hfiles : (generateFiles s content).result with
  | ok root =>
      refine ⟨cleanUp s ⟨.valid, .valid, .valid, root⟩, quiet_cleanUp _,
        printsNothing_cleanUp _, ?_⟩
      rw [Traced.bind_of_ok hfiles]
      cases hclean : (cleanUp s ⟨.valid, .valid, .valid, root⟩).result with
      | ok _ => simp [Traced.bind_def, Traced.bind, hclean, openingCalls]
      | error _ => simp [Traced.bind_def, Traced.bind, hclean, openingCalls]
  | error f =>
      refine ⟨pure (), quiet_pure (), Traced.obeys_pure (), ?_⟩
      rw [Traced.bind_of_error hfiles]
      simp [Traced.bind_def, Traced.bind, openingCalls]

end

/-!
## The files
-/

def Files.flushed (files : Files) (target : Target) : List Byte :=
  files.contents target ++ (files.stream target).getD []

def generatedFile (s : Setting) (prior : Target -> List Byte)
    (target : Target) : List Byte :=
  (filesAfter s prior).flushed target

def HasItems (s : Setting) (items : List CJson) : Prop :=
  exists content root config, s.register = some content ∧
    parse (jsonText s content) = some root ∧
    getObjectItem (some root) (.lit "config") = some config ∧
    itemsOf (some config) = items

section

variable {s : Setting} {files : Files} {target : Target}

theorem after_flushed {c : Call} (hstream : files.stream target ≠ none)
    (hc : c ≠ .fopen target) :
    (files.after s c).stream target ≠ none ∧
      (files.after s c).flushed target = files.flushed target ++
        (printed target (call c)).flatMap CString.bytes := by
  cases c with
  | fopen other =>
      have hne : target ≠ other := by
        intro heq
        exact hc (by rw [heq])
      rw [Files.after]
      split
      · simp [Files.flushed, Function.update_of_ne hne, hstream, printed, call]
      · simp [hstream, printed, call]
  | fprintf other text =>
      rcases Option.ne_none_iff_exists'.mp hstream with ⟨buffer, hbuffer⟩
      by_cases hother : other = target
      · subst hother
        simp [Files.after, hbuffer, Files.flushed, printed, call]
      · rw [Files.after]
        split
        · simp [hstream, printed, call, hother]
        · simp [Files.flushed, Function.update_of_ne (Ne.symm hother), hstream,
            printed, call, hother]
  | _ => simp [Files.after, hstream, printed, call]

theorem foldl_after_flushed {calls : List Call}
    (hstream : files.stream target ≠ none) (hno : .fopen target ∉ calls) :
    (calls.foldl (Files.after s) files).flushed target =
      files.flushed target ++
        (printed target (⟨calls, .ok ()⟩ : Gen Unit)).flatMap
          CString.bytes := by
  induction calls generalizing files with
  | nil => simp [printed]
  | cons c rest ih =>
      rw [List.mem_cons, not_or] at hno
      rcases after_flushed (s := s) hstream (Ne.symm hno.left) with
        ⟨hstream', hflushed⟩
      rw [List.foldl_cons, ih hstream' hno.right, hflushed, List.append_assoc,
        <- List.flatMap_append]
      congr 2
      simp [printed, call, List.filterMap_cons]
      split <;> rfl

theorem opened_flushed (hopens : forall target, s.opens target = true)
    (content : List Byte) (prior : Target -> List Byte) (target : Target) :
    let files := (openingCalls content).foldl (Files.after s)
      (Files.closed prior)
    files.stream target ≠ none ∧ files.flushed target = [] := by
  cases target with
  | source =>
      simp [openingCalls, Files.after, hopens, Files.flushed, Files.closed]
  | header =>
      simp [openingCalls, Files.after, hopens, Files.flushed, Files.closed]

theorem generatedFile_of_opens {content : List Byte}
    (hregister : s.register = some content) (hread : ReadWhole s content)
    (hopens : forall target, s.opens target = true)
    (prior : Target -> List Byte) (target : Target) :
    printed target (rpcGenerateMethodCode s) =
        printed target (generateFiles s content) ∧
      generatedFile s prior target =
        (printed target (generateFiles s content)).flatMap
          CString.bytes := by
  rcases events_of_opens hregister hread hopens with
    ⟨after, hquiet, hsilent, hrun⟩
  have hnone : printed target after = [] := printed_of_printsNothing hsilent
  rw [printed] at hnone
  constructor
  · rw [printed, hrun, List.filterMap_append, List.filterMap_append, hnone,
      List.append_nil]
    rfl
  · have hno : .fopen target ∉ (generateFiles s content).events ++
        after.events := by
      rw [List.mem_append, not_or]
      constructor
      · intro hmem
        rw [mem_generateFiles_iff (c := .fopen target) trivial] at hmem
        simp [successMessages] at hmem
      · exact not_mem_of_quiet (c := .fopen target) trivial hquiet
    rcases opened_flushed hopens content prior target with ⟨hstream, hempty⟩
    rw [generatedFile, filesAfter, hrun, List.foldl_append,
      foldl_after_flushed hstream hno, hempty, List.nil_append]
    congr 1
    rw [printed, List.filterMap_append, hnone, List.append_nil]
    rfl

theorem generatedFile_of_accepted (h : Accepted s)
    (prior : Target -> List Byte) :
    exists items, HasItems s items ∧
      (forall i item, items[i]? = some item -> GoodEntry s i (some item)) ∧
      forall target,
        printed target (rpcGenerateMethodCode s) = preambleOf target ++
          (items.flatMap (codeOfItem target) ++ endOf target) ∧
        generatedFile s prior target =
          (printed target (rpcGenerateMethodCode s)).flatMap
            CString.bytes := by
  rcases h with ⟨content, hregister, hread, hsource, hheader, hparses, root,
    hparse, config, hconfig, hgood⟩
  have hopens : forall target, s.opens target = true := by
    intro target
    cases target with
    | source => exact hsource
    | header => exact hheader
  refine ⟨itemsOf (some config), ⟨content, root, config, hregister, hparse,
    hconfig, rfl⟩, ?_, ?_⟩
  · intro i item hitem
    have hi : i < getArraySize (some config) := by
      rw [getArraySize_eq]
      exact (List.getElem?_eq_some_iff.mp hitem).choose
    have hsome : getArrayItem (some config) i = some item := hitem
    rw [<- hsome]
    exact hgood i hi
  · intro target
    have hdocument := (printed_generateFiles hparses hparse hconfig
      hgood).right target
    rcases generatedFile_of_opens hregister hread hopens prior target with
      ⟨hprinted, hfile⟩
    rw [hfile, hprinted]
    exact ⟨hdocument, rfl⟩

end

end Generator
end Z2wRpc
