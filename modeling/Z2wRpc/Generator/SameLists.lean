import Z2wRpc.Dispatch.Reloading
import Z2wRpc.Generator.Printed

/-!
# Generator and loader over one document

`rpc_generate_method_code` and `rpc_decode_register_json` read the same register
file with two separate sets of checks.  They accept the same list of methods
exactly when both of them take the document and every name in it is a string,
or when both refuse it.
-/

namespace Z2wRpc

open Foundation

namespace Generator

open CJson Dispatch

/-!
## One entry
-/

/-- An element of `config` in which the generator finds these strings. -/
structure Lists (item : CJson) (entry : EntryText) : Prop where
  method : getObjectItem (some item) (.lit "method") =
    some (.string entry.method)
  rettype : getObjectItem (some item) (.lit "rettype") =
    some (.string entry.rettype)
  lists : exists params types, paramsOf item = some params ∧
    typesOf item = some types ∧
    getArraySize (some params) = getArraySize (some types) ∧
    List.zipWith paramOf params.children types.children =
      entry.params.map fun p => (some p.1, some p.2)

theorem shownEntry_of_lists {item : CJson} {entry : EntryText}
    (h : Lists item entry) : shownEntry item = some entry := by
  rcases h with ⟨hmethod, hrettype, params, types, hparams, htypes, _, hzip⟩
  have hps : itemsOf (some params) = params.children := rfl
  have hts : itemsOf (some types) = types.children := rfl
  rw [shownEntry, hmethod, hrettype, hparams, htypes, hps, hts, hzip,
    List.map_map]
  simp [valuestring, shown, Function.comp_def]

theorem codeOfItem_of_allLists {items : List CJson} {entries : List EntryText}
    (h : List.Forall₂ Lists items entries) (target : Target) :
    items.flatMap (codeOfItem target) = entries.flatMap (codeOf target) := by
  induction h with
  | nil => rfl
  | cons hfirst _ ih =>
      rw [List.flatMap_cons, List.flatMap_cons, ih, codeOfItem,
        shownEntry_of_lists hfirst]
      simp

/-- The register file is read as this text, and every file is opened and every
allocation made. -/
structure Works (s : Setting) (json : CString) : Prop where
  read : exists content, s.register = some content ∧ ReadWhole s content ∧
    jsonText s content = json
  mallocs : forall block, s.mallocs block = true
  opens : forall target, s.opens target = true
  parses : s.parses = true

/-!
## What each of them takes
-/

def GeneratorWritesEntry (item : CJson) : Prop :=
  exists method rettype params types,
    getObjectItem (some item) (.lit "method") = some method ∧
    getObjectItem (some item) (.lit "rettype") = some rettype ∧
    paramsOf item = some params ∧ typesOf item = some types ∧
    getArraySize (some params) = getArraySize (some types) ∧
    Writable method rettype params types

def GeneratorTakesEntry (item : CJson) : Prop :=
  GeneratorWritesEntry item ∧ getArraySize (paramsOf item) <= 3

structure AllStrings (item : CJson) : Prop where
  method : (getObjectItem (some item) (.lit "method")).bind valuestring ≠ none
  rettype : (getObjectItem (some item) (.lit "rettype")).bind valuestring ≠
    none
  params : forall p, p ∈ itemsOf (paramsOf item) -> p.valuestring ≠ none
  types : forall t, t ∈ itemsOf (typesOf item) -> t.valuestring ≠ none

/-- A document that the generator takes: it has a list of methods. -/
def GeneratorTakes (root : CJson) : Prop :=
  exists config, getObjectItem (some root) (.lit "config") = some config ∧
    forall item, item ∈ itemsOf (some config) -> GeneratorTakesEntry item

section

variable {s : Setting} {json : CString} {root : CJson}

theorem writtenEntry_iff (hmallocs : forall block, s.mallocs block = true)
    (i : Nat) (item : CJson) :
    WrittenEntry s i (some item) <-> GeneratorWritesEntry item := by
  unfold WrittenEntry GeneratorWritesEntry paramsOf typesOf
  simp only [hmallocs, true_and]

theorem goodEntry_iff (hmallocs : forall block, s.mallocs block = true)
    (i : Nat) (item : CJson) :
    GoodEntry s i (some item) <-> GeneratorTakesEntry item :=
  and_congr_left' (writtenEntry_iff hmallocs i item)

theorem reachesSuccess_iff_generatorTakes (hs : Works s json)
    (hparse : parse json = some root) :
    ReachesSuccess s <-> GeneratorTakes root := by
  rcases hs.read with ⟨content, hregister, hread, rfl⟩
  rw [reachesSuccess_iff, Accepted, hregister]
  simp only [Option.some.injEq, exists_eq_left', hread, hs.opens, GoodText,
    hs.parses, hparse, true_and, GoodDocument, GeneratorTakes]
  apply exists_congr
  intro config
  apply and_congr_right
  intro _
  rw [List.forall_mem_iff_getElem, getArraySize_eq]
  apply forall_congr'
  intro i
  apply forall_congr'
  intro hi
  have hitem : getArrayItem (some config) i =
      some (itemsOf (some config))[i] := List.getElem?_eq_getElem hi
  rw [hitem, goodEntry_iff hs.mallocs]

end

/-!
## Strings
-/

section

variable {find : CString -> Option Handler} {item : CJson} {func : RpcFunc}
  {entry : EntryText}

theorem exists_pairs {ps ts : List CJson} (hlength : ps.length = ts.length)
    (hps : forall p, p ∈ ps -> p.valuestring ≠ none)
    (hts : forall t, t ∈ ts -> t.valuestring ≠ none) :
    exists pairs : List (CString × CString), List.zipWith paramOf ps ts =
      pairs.map fun p => (some p.1, some p.2) := by
  induction ps generalizing ts with
  | nil => exact ⟨[], rfl⟩
  | cons p ps ih =>
      cases ts with
      | nil => cases hlength
      | cons t ts =>
          rw [List.forall_mem_cons] at hps hts
          rcases Option.ne_none_iff_exists'.mp hps.left with ⟨name, hname⟩
          rcases Option.ne_none_iff_exists'.mp hts.left with ⟨type, htype⟩
          rcases ih (Nat.succ.inj hlength) hps.right hts.right with
            ⟨pairs, hpairs⟩
          exists (name, type) :: pairs
          rw [List.zipWith_cons_cons, hpairs, List.map_cons, paramOf, hname,
            htype]

theorem strings_of_pairs {ps ts : List CJson}
    {pairs : List (CString × CString)} (hlength : ps.length = ts.length)
    (h : List.zipWith storedParam ps ts =
      pairs.map fun p => (some p.1, some p.2)) :
    (forall p, p ∈ ps -> p.valuestring ≠ none) ∧
      forall t, t ∈ ts -> t.valuestring ≠ none := by
  induction ps generalizing ts pairs with
  | nil =>
      rw [List.length_eq_zero_iff.mp hlength.symm]
      simp
  | cons p ps ih =>
      cases ts with
      | nil => cases hlength
      | cons t ts =>
          cases pairs with
          | nil => cases h
          | cons pair pairs =>
              rw [List.zipWith_cons_cons, List.map_cons, List.cons.injEq,
                storedParam, Prod.mk.injEq] at h
              rcases h with ⟨⟨hname, htype⟩, hrest⟩
              rcases ih (Nat.succ.inj hlength) hrest with ⟨hps, hts⟩
              rw [List.forall_mem_cons, List.forall_mem_cons, hname, htype]
              exact ⟨⟨by simp, hps⟩, by simp, hts⟩

theorem exists_string {item : Option CJson}
    (h : item.bind valuestring ≠ none) :
    exists text, item = some (.string text) := by
  cases item with
  | none => exact absurd rfl h
  | some item =>
      cases item with
      | string text => exact ⟨text, rfl⟩
      | _ => exact absurd rfl h

theorem exists_lists (hwrites : GeneratorWritesEntry item)
    (hstrings : AllStrings item) : exists entry, Lists item entry := by
  rcases exists_string hstrings.method with ⟨method, hmethod⟩
  rcases exists_string hstrings.rettype with ⟨rettype, hrettype⟩
  rcases hwrites with ⟨_, _, params, types, _, _, hparams, htypes, hsize, _⟩
  have hps := hstrings.params
  have hts := hstrings.types
  rw [hparams] at hps
  rw [htypes] at hts
  rcases exists_pairs hsize hps hts with ⟨pairs, hpairs⟩
  exact ⟨{ method := method, params := pairs, rettype := rettype }, hmethod,
    hrettype, params, types, hparams, htypes, hsize, hpairs⟩

theorem says_of_lists (hlists : Lists item entry)
    (hstored : Stored find item func) : Says find func entry := by
  rcases hlists with
    ⟨hmethod, hrettype, params, types, hparams, htypes, _, hzip⟩
  rcases hstored with ⟨⟨m, hm, hname⟩, ⟨r, hr, htype⟩, _, hslots, hhandler⟩
  rw [hmethod, Option.some.injEq] at hm
  rw [hrettype, Option.some.injEq] at hr
  have hname' : func.method = some entry.method := by rw [hname, <- hm]; rfl
  have htype' : func.rettype = some entry.rettype := by rw [htype, <- hr]; rfl
  refine ⟨hname', htype', ?_, ?_⟩
  · rw [hslots, hparams, htypes]
    exact hzip
  · rw [hhandler, hname']

theorem allStrings_of_stored (hstored : Stored find item func)
    (hentry : Says find func entry) : AllStrings item := by
  rcases hstored with ⟨⟨m, hm, hname⟩, ⟨r, hr, htype⟩, hsize, hslots, _⟩
  rw [hentry.method] at hname
  rw [hentry.rettype] at htype
  rw [hentry.slots] at hslots
  rw [getArraySize_eq, getArraySize_eq] at hsize
  rcases strings_of_pairs hsize hslots.symm with ⟨hps, hts⟩
  refine ⟨?_, ?_, hps, hts⟩
  · rw [hm, Option.bind_some, <- hname]
    simp
  · rw [hr, Option.bind_some, <- htype]
    simp

end

/-!
## The same lists
-/

def Emits (s : Setting) (entries : List EntryText) : Prop :=
  ReachesSuccess s ∧ forall target, printed target (rpcGenerateMethodCode s) =
    preambleOf target ++ (entries.flatMap (codeOf target) ++ endOf target)

def Adds (find : CString -> Option Handler) (reuse : Reuse) (json : CString)
    (globals : Globals) (entries : List EntryText) : Prop :=
  exists after funcs,
    (decodeReusing find reuse (some json) globals).result = .ok (0, after) ∧
    after.rpcCallerTable = funcs.reverse ++ globals.rpcCallerTable ∧
    List.Forall₂ (Says find) funcs entries

/-- Both refuse the register file, or both accept the same list from it. -/
def AcceptSameList (s : Setting) (find : CString -> Option Handler)
    (reuse : Reuse) (json : CString) (globals : Globals) : Prop :=
  (¬ ReachesSuccess s ∧ forall after,
    (decodeReusing find reuse (some json) globals).result ≠ .ok (0, after)) ∨
  exists entries, Emits s entries ∧ Adds find reuse json globals entries

/-- All the names that the elements of `config` hold are strings. -/
def AllNamed (root : CJson) : Prop :=
  forall item, item ∈ itemsOf (getObjectItem (some root) (.lit "config")) ->
    AllStrings item

section

variable {s : Setting} {find : CString -> Option Handler} {reuse : Reuse}
  {json remote : CString} {globals : Globals} {root : CJson} {port : Double}

theorem exists_allLists {items : List CJson}
    (htakes : forall item, item ∈ items -> GeneratorTakesEntry item)
    (hstrings : forall item, item ∈ items -> AllStrings item) :
    exists entries, List.Forall₂ Lists items entries := by
  induction items with
  | nil => exact ⟨[], .nil⟩
  | cons item rest ih =>
      rw [List.forall_mem_cons] at htakes hstrings
      rcases exists_lists htakes.left.left hstrings.left with
        ⟨entry, hentry⟩
      rcases ih htakes.right hstrings.right with ⟨entries, hentries⟩
      exact ⟨entry :: entries, .cons hentry hentries⟩

theorem says_of_allLists {items : List CJson} {funcs : List RpcFunc}
    {entries : List EntryText} (hlists : List.Forall₂ Lists items entries)
    (hstored : List.Forall₂ (Stored find) items funcs) :
    List.Forall₂ (Says find) funcs entries := by
  induction hlists generalizing funcs with
  | nil =>
      cases hstored
      exact .nil
  | cons hfirst _ ih =>
      cases hstored with
      | cons hfunc hfuncs =>
          exact .cons (says_of_lists hfirst hfunc) (ih hfuncs)

theorem emits_of_allLists {config : CJson} {entries : List EntryText}
    (hs : Works s json) (hparse : parse json = some root)
    (htakes : GeneratorTakes root)
    (hconfig : getObjectItem (some root) (.lit "config") = some config)
    (h : List.Forall₂ Lists (itemsOf (some config)) entries) :
    Emits s entries := by
  have hreaches := (reachesSuccess_iff_generatorTakes hs hparse).mpr htakes
  refine ⟨hreaches, fun target => ?_⟩
  rcases generatedFile_of_accepted ((reachesSuccess_iff s).mp hreaches)
    (fun _ => []) with
    ⟨items, ⟨content, _, _, hregister, hroot, hfound, rfl⟩, _, hprinted⟩
  rcases hs.read with ⟨_, hregister', _, rfl⟩
  obtain rfl := Option.some.inj (hregister.symm.trans hregister')
  obtain rfl := Option.some.inj (hroot.symm.trans hparse)
  obtain rfl := Option.some.inj (hfound.symm.trans hconfig)
  rw [(hprinted target).left, codeOfItem_of_allLists h]

theorem adds_of_allLists {entries : List EntryText}
    (hparse : parse json = some root)
    (hremote : getObjectItem (some root) (.lit "remote") =
      some (.string remote))
    (hport : getObjectItem (some root) (.lit "port") = some (.number port))
    (htakes : LoaderTakes reuse root globals)
    (h : List.Forall₂ Lists
      (itemsOf (getObjectItem (some root) (.lit "config"))) entries) :
    Adds find reuse json globals entries := by
  have hloads := @loads_iff_loaderTakes find reuse globals json remote root
    port hparse hremote hport
  rcases hloads.mpr htakes with ⟨after, hresult⟩
  rcases (decodeReusing_result_zero_iff hparse hremote hport).mp
    hresult with ⟨_, funcs, hstored, hafter⟩
  refine ⟨after, funcs, hresult, ?_, says_of_allLists h hstored⟩
  rw [hafter]

theorem allNamed_of_adds {entries : List EntryText}
    (hparse : parse json = some root)
    (hremote : getObjectItem (some root) (.lit "remote") =
      some (.string remote))
    (hport : getObjectItem (some root) (.lit "port") = some (.number port))
    (h : Adds find reuse json globals entries) : AllNamed root := by
  rcases h with ⟨after, funcs, hresult, htable, hsays⟩
  rcases (decodeReusing_result_zero_iff hparse hremote hport).mp
    hresult with ⟨_, stored, hstored, hafter⟩
  rw [hafter, List.append_left_inj, List.reverse_inj] at htable
  rw [htable] at hstored
  intro item hitem
  rcases exists_related hstored hitem with ⟨func, hfunc, hitem⟩
  rcases exists_related hsays hfunc with ⟨entry, _, hentry⟩
  exact allStrings_of_stored hitem hentry

end

section

variable {item : CJson} {entry : EntryText}

theorem sizes_of_describes (h : Describes item entry) :
    getArraySize (paramsOf item) = entry.params.length ∧
      getArraySize (typesOf item) = entry.params.length := by
  rw [paramsOf, typesOf, h.params, h.types]
  simp [getArraySize, children]

theorem allStrings_of_describes (h : Describes item entry) :
    AllStrings item := by
  rcases h with ⟨hmethod, hrettype, hparams, htypes⟩
  have hstrings {names : List CString} {t : CJson}
      (ht : t ∈ itemsOf (some (.array (names.map .string)))) :
      t.valuestring ≠ none := by
    rcases List.mem_map.mp ht with ⟨name, _, rfl⟩
    simp [valuestring]
  have hps : CJson.array (entry.params.map fun p => .string p.1) =
      .array ((entry.params.map Prod.fst).map .string) := by
    rw [List.map_map]
    rfl
  have hts : CJson.array (entry.params.map fun p => .string p.2) =
      .array ((entry.params.map Prod.snd).map .string) := by
    rw [List.map_map]
    rfl
  refine ⟨by simp [hmethod, valuestring], by simp [hrettype, valuestring],
    ?_, ?_⟩
  · intro p hp
    rw [paramsOf, hparams, hps] at hp
    exact hstrings hp
  · intro t ht
    rw [typesOf, htypes, hts] at ht
    exact hstrings ht

theorem generatorWrites_of_describes (h : Describes item entry) :
    GeneratorWritesEntry item := by
  rcases sizes_of_describes h with ⟨hparams, htypes⟩
  have hstrings := allStrings_of_describes h
  have hps := hstrings.params
  have hts := hstrings.types
  rw [paramsOf, h.params] at hparams hps
  rw [typesOf, h.types] at htypes hts
  exact ⟨_, _, _, _, h.method, h.rettype, h.params, h.types,
    hparams.trans htypes.symm, fun _ _ => ⟨hts, hps⟩⟩

theorem generatorTakes_of_describes (h : Describes item entry)
    (hfew : entry.params.length <= 3) : GeneratorTakesEntry item := by
  refine ⟨generatorWrites_of_describes h, ?_⟩
  rw [(sizes_of_describes h).left]
  exact hfew

theorem loaderTakes_of_describes (h : Describes item entry)
    (hfit : entry.params.length <= rpcParamsMaxCount) :
    LoaderTakesEntry item := by
  rcases sizes_of_describes h with ⟨hparams, htypes⟩
  refine ⟨by simp [h.method], by simp [h.rettype],
    hparams.trans htypes.symm, ?_⟩
  rw [hparams]
  exact hfit

theorem lists_of_describes (h : Describes item entry) : Lists item entry := by
  refine ⟨h.method, h.rettype, _, _, h.params, h.types, ?_, ?_⟩
  · simp [getArraySize, children]
  · simp only [children, List.zipWith_map, List.zipWith_self]
    rfl

theorem describes_entry (entry : EntryText) : Describes entry.document entry :=
  ⟨rfl, rfl, rfl, rfl⟩

end

theorem generatorTakes_entriesDocument (remote : CString) (port : Int32)
    {entries : List EntryText}
    (hfew : forall e, e ∈ entries -> e.params.length <= 3) :
    GeneratorTakes (entriesDocument remote port entries) := by
  refine ⟨.array (entries.map EntryText.document), rfl, ?_⟩
  intro item hitem
  rcases List.mem_map.mp hitem with ⟨entry, hentry, rfl⟩
  exact generatorTakes_of_describes (describes_entry entry)
    (hfew entry hentry)

theorem works_workingSetting {json : CString} (h : json.strlen < 2 ^ 31) :
    Works (workingSetting json.bytes) json := by
  have hsize : fileSize json.bytes = json.bytes.length := by
    rw [CString.strlen] at h
    rw [fileSize, Int32.toInt_ofNat_of_lt h]
  refine ⟨⟨json.bytes, rfl, ⟨rfl, ?_⟩, ?_⟩, fun _ => rfl, fun _ => rfl, rfl⟩
  · rw [readCount, hsize]
    simp [workingSetting]
  · rw [jsonText, hsize, Int.toNat_natCast, List.take_length]
    have hmemory : (workingSetting json.bytes).memory.drop json.bytes.length =
        [0#8] := by
      simp [workingSetting]
    rw [hmemory]
    exact CString.ofBytes_stored json

theorem reachesSuccess_entriesDocument {remote : CString} {port : Int32}
    {entries : List EntryText}
    (hfew : forall e, e ∈ entries -> e.params.length <= 3)
    (hlength : (print (entriesDocument remote port entries)).strlen < 2 ^ 31) :
    ReachesSuccess (workingSetting
      (print (entriesDocument remote port entries)).bytes) := by
  have hparse : parse (print (entriesDocument remote port entries)) =
      some (entriesDocument remote port entries) :=
    parse_print (readable_entriesDocument remote port entries) (by decide)
  apply (reachesSuccess_iff_generatorTakes (works_workingSetting hlength)
    hparse).mpr
  exact generatorTakes_entriesDocument remote port hfew

def noMethods : CJson :=
  .object [
    (.lit "remote", .string (.lit "172.16.0.6")),
    (.lit "port", .number (.finite (9096 : Int32).toInt))]

theorem parse_noMethods : parse (print noMethods) = some noMethods := by
  have hreadable : Readable 1 noMethods := by
    apply Readable.object
    intro m hm
    simp only [List.mem_cons, List.not_mem_nil, or_false] at hm
    rcases hm with rfl | rfl
    · exact Readable.string _
    · exact Readable.number (numberExact_toInt 9096)
  exact parse_print hreadable (by decide)

theorem works_noMethods :
    Works (workingSetting (print noMethods).bytes) (print noMethods) :=
  works_workingSetting (by decide +kernel)

def addDocument : CJson :=
  entriesDocument (.lit "172.16.0.6") 9096 [addSignature.text]

theorem parse_addDocument : parse (print addDocument) = some addDocument :=
  parse_print (readable_entriesDocument _ _ _) (by decide)

theorem works_addDocument :
    Works (workingSetting (print addDocument).bytes) (print addDocument) :=
  works_workingSetting (by decide +kernel)

end Generator
end Z2wRpc
