import Z2wRpc.Generator.Generate

/-!
# Which register files are accepted

The success messages of `rpc_generate_method_code` are reached exactly from the
register files that are read as a whole and hold a document of good entries.
Nothing else in a run opens a file or reports success.
-/

namespace Z2wRpc

open Foundation

namespace Generator

open CJson

def successMessages : List Call :=
  [.printf (.lit "Generate rpc_method.h success\n"),
    .printf (.lit "Generate rpc_method.c success\n")]

def ReachesSuccess (s : Setting) : Prop :=
  successMessages ⊆ (rpcGenerateMethodCode s).events

/-!
## Calls that open a file or report success
-/

def Loud : Call -> Prop
  | .fopen _ => True
  | .printf text => .printf text ∈ successMessages
  | _ => False

abbrev Quiet {α : Type} (g : Gen α) : Prop :=
  Traced.Obeys (fun c => ¬ Loud c) (fun _ => True) g

theorem quiet_call {c : Call} (h : ¬ Loud c) : Quiet (call c) :=
  Traced.obeys_emit_iff.mpr h

theorem quiet_printf {text : CString}
    (h : Call.printf text ∉ successMessages) : Quiet (call (.printf text)) :=
  quiet_call h

theorem quiet_bind {α β : Type} {g : Gen α} {f : α -> Gen β} (hg : Quiet g)
    (hf : forall a, Quiet (f a)) : Quiet (g >>= f) :=
  Traced.obeys_bind_iff.mpr ⟨hg, fun a _ => hf a⟩

theorem quiet_pure {α : Type} (a : α) : Quiet (pure a : Gen α) :=
  Traced.obeys_pure a

theorem quiet_refuse {α : Type} {text : String}
    (h : Call.printf (.lit text) ∉ successMessages) :
    Quiet (refuse text : Gen (Option α)) :=
  quiet_bind (quiet_printf h) fun _ => quiet_pure none

theorem quiet_emitTo (target : Target) (e : Emit Unit) :
    Quiet (emitTo target e) where
  events c hc := by
    rcases List.mem_map.mp hc with ⟨text, _, rfl⟩
    exact not_false
  faults _ _ := trivial

section

variable {s : Setting}

theorem quiet_free (block : Block) : Quiet (free s block) := by
  unfold free
  split
  · exact quiet_call not_false
  · exact quiet_pure ()

theorem quiet_freeArrays (i : Nat) : Quiet (freeArrays s i) :=
  quiet_bind (quiet_free _) fun _ => quiet_free _

theorem quiet_freeFilled (i n : Nat) : Quiet (freeFilled s i n) := by
  unfold freeFilled
  split
  · exact quiet_freeArrays i
  · exact Traced.obeys_fault_iff.mpr trivial

theorem quiet_collectParams (i : Nat) (params types : Option CJson)
    (n j : Nat) : Quiet (collectParams s i params types n j) := by
  induction n generalizing j with
  | zero => exact quiet_pure _
  | succ n ih =>
      unfold collectParams
      split
      · refine quiet_bind (quiet_call not_false) fun _ => ?_
        refine quiet_bind (quiet_call not_false) fun _ => ?_
        exact quiet_bind (ih (j + 1)) fun _ => quiet_pure _
      · refine quiet_bind (quiet_printf (by decide)) fun _ => ?_
        exact quiet_bind (quiet_freeArrays i) fun _ => quiet_pure none

theorem quiet_generateMethod (i : Nat)
    (method rettype params types : CJson) :
    Quiet (generateMethod s i method rettype params types) := by
  unfold generateMethod
  refine quiet_bind (quiet_call not_false) fun _ => ?_
  refine quiet_bind (quiet_call not_false) fun _ => ?_
  split
  · refine quiet_bind (quiet_collectParams ..) fun collected => ?_
    cases collected with
    | none => exact quiet_pure none
    | some ps =>
        refine quiet_bind (quiet_emitTo ..) fun _ => ?_
        refine quiet_bind (quiet_emitTo ..) fun _ => ?_
        exact quiet_bind (quiet_freeFilled i _) fun _ => quiet_pure _
  · refine quiet_bind (quiet_printf (by decide)) fun _ => ?_
    exact quiet_bind (quiet_freeArrays i) fun _ => quiet_pure none

theorem quiet_generateEntry (i : Nat) (config : Option CJson) :
    Quiet (generateEntry s i config) := by
  unfold generateEntry
  repeat' split
  all_goals first
    | exact quiet_generateMethod ..
    | exact quiet_refuse (by decide)

theorem quiet_generateEntries (config : Option CJson) (n i : Nat) :
    Quiet (generateEntries s config n i) := by
  induction n generalizing i with
  | zero => exact quiet_pure _
  | succ n ih =>
      refine quiet_bind (quiet_generateEntry ..) fun done => ?_
      cases done with
      | none => exact quiet_pure none
      | some _ => exact ih (i + 1)

theorem quiet_cleanUp (locals : Locals) : Quiet (cleanUp s locals) := by
  unfold cleanUp
  have hclose (var : Local) (fp : Pointer) : Quiet (closeFile s var fp) := by
    unfold closeFile
    split
    · exact Traced.obeys_fault_iff.mpr trivial
    · exact quiet_pure ()
  have hdelete : Quiet (deleteRoot s locals.root) := by
    unfold deleteRoot
    split
    · exact quiet_pure ()
    · split
      · exact quiet_call not_false
      · exact Traced.obeys_fault_iff.mpr trivial
  refine quiet_bind (quiet_call not_false) fun _ => ?_
  apply quiet_bind (hclose ..)
  intro _
  apply quiet_bind (hclose ..)
  intro _
  split
  · exact quiet_bind (quiet_call not_false)
      fun _ => hdelete
  · exact hdelete

/-!
## Register files that are accepted
-/

/-- A string where the item is one, as `cJSON_GetStringValue` reads it. -/
def paramOf (param type : CJson) : Param :=
  (param.valuestring, type.valuestring)

theorem collectParams_result (i : Nat) {params types : CJson}
    {ps ts : List CJson} {j : Nat}
    (hps : (itemsOf (some params)).drop j = ps)
    (hts : (itemsOf (some types)).drop j = ts) (hlength : ps.length = ts.length) :
    (collectParams s i (some params) (some types) ps.length j).result =
      .ok (some (List.zipWith paramOf ps ts)) := by
  induction ps generalizing ts j with
  | nil => rfl
  | cons p ps ih =>
      cases ts with
      | nil => cases hlength
      | cons t ts =>
          rcases getArrayItem_of_drop hps with ⟨hparam, hps⟩
          rcases getArrayItem_of_drop hts with ⟨htype, hts⟩
          have hrest := ih hps hts (Nat.succ.inj hlength)
          simp only [List.length_cons, collectParams, hparam, htype]
          refine Traced.bind_result_ok_iff.mpr ⟨(), rfl, ?_⟩
          refine Traced.bind_result_ok_iff.mpr ⟨(), rfl, ?_⟩
          exact Traced.bind_result_ok_iff.mpr ⟨_, hrest, rfl⟩

theorem collectParams_of_size (i : Nat) {params types : CJson}
    (hsize : getArraySize (some params) = getArraySize (some types)) :
    (collectParams s i (some params) (some types)
      (getArraySize (some params)) 0).result =
        .ok (some (List.zipWith paramOf params.children types.children)) :=
  collectParams_result i List.drop_zero List.drop_zero hsize

def Writable (method rettype params types : CJson) : Prop :=
  method.valuestring ≠ none -> rettype.valuestring ≠ none ->
    (forall type, type ∈ types.children -> type.valuestring ≠ none) ∧
      forall param, param ∈ params.children -> param.valuestring ≠ none

def WrittenEntry (s : Setting) (i : Nat) (config : Option CJson) : Prop :=
  exists method rettype params types,
    getObjectItem config (.lit "method") = some method ∧
    getObjectItem config (.lit "rettype") = some rettype ∧
    getObjectItem config (.lit "params") = some params ∧
    getObjectItem config (.lit "types") = some types ∧
    getArraySize (some params) = getArraySize (some types) ∧
    s.mallocs (.paramStrArr i) = true ∧ s.mallocs (.typeStrArr i) = true ∧
    Writable method rettype params types

def GoodEntry (s : Setting) (i : Nat) (config : Option CJson) : Prop :=
  WrittenEntry s i config ∧
    getArraySize (getObjectItem config (.lit "params")) <= 3

theorem fits_usable_iff (n : Nat) : 8 * n <= usable n <-> n <= 3 := by
  unfold usable
  omega

theorem forall_zipWith_iff {α β : Type} {f : α -> β -> Param}
    {P : Param -> Prop} {Q : α -> Prop} {R : β -> Prop}
    (h : forall a b, P (f a b) <-> Q a ∧ R b) {as : List α} {bs : List β}
    (hlength : as.length = bs.length) :
    (forall p, p ∈ List.zipWith f as bs -> P p) <->
      (forall a, a ∈ as -> Q a) ∧ forall b, b ∈ bs -> R b := by
  induction as generalizing bs with
  | nil =>
      rw [List.length_eq_zero_iff.mp hlength.symm]
      simp
  | cons a as ih =>
      cases bs with
      | nil => cases hlength
      | cons b bs =>
          have hrest := ih (Nat.succ.inj hlength)
          rw [List.zipWith_cons_cons, List.forall_mem_cons,
            List.forall_mem_cons, List.forall_mem_cons, h, hrest,
            and_and_and_comm]

theorem typesAreStrings_zipWith_iff {ps ts : List CJson}
    (hlength : ps.length = ts.length) :
    TypesAreStrings (List.zipWith paramOf ps ts) <->
      forall type, type ∈ ts -> type.valuestring ≠ none := by
  have hboth (p t : CJson) : (paramOf p t).2 ≠ none <->
      True ∧ t.valuestring ≠ none := ⟨fun h => ⟨trivial, h⟩, And.right⟩
  rw [TypesAreStrings, forall_zipWith_iff hboth hlength]
  simp

theorem namesAreStrings_zipWith_iff {ps ts : List CJson}
    (hlength : ps.length = ts.length) :
    NamesAreStrings (List.zipWith paramOf ps ts) <->
      forall param, param ∈ ps -> param.valuestring ≠ none := by
  have hboth (p t : CJson) : (paramOf p t).1 ≠ none <->
      p.valuestring ≠ none ∧ True := ⟨fun h => ⟨h, trivial⟩, And.left⟩
  rw [NamesAreStrings, forall_zipWith_iff hboth hlength]
  simp

theorem call_bind_result {β : Type} (c : Call) (f : Unit -> Gen β) :
    (call c >>= f).result = (f ()).result := rfl

theorem freeArrays_result (i : Nat) : (freeArrays s i).result = .ok () := by
  have hfree (block : Block) : (free s block).result = .ok () := by
    unfold free
    split
    · rfl
    · rfl
  rw [freeArrays, Traced.bind_of_ok (hfree _)]
  exact hfree _

theorem freeArrays_bind_result {β : Type} (i : Nat) (f : Unit -> Gen β) :
    (freeArrays s i >>= f).result = (f ()).result := by
  rw [Traced.bind_of_ok (freeArrays_result i)]

theorem freeFilled_result_iff (i n : Nat) :
    (freeFilled s i n).result = .ok () <-> n <= 3 := by
  rw [freeFilled, <- fits_usable_iff]
  split
  · rename_i hfits
    exact iff_of_true (freeArrays_result i) hfits
  · rename_i hfits
    exact iff_of_false (fun h => by cases h) hfits

theorem refuse_result {α : Type} (text : String) :
    (refuse text : Gen (Option α)).result = .ok none := rfl

theorem completes_writers_iff {method rettype params types : CJson}
    (hsize : getArraySize (some params) = getArraySize (some types)) :
    Completes (rpcGenerateCMethod method.valuestring rettype.valuestring
        (List.zipWith paramOf params.children types.children)) <->
      Writable method rettype params types := by
  rw [completes_rpcGenerateCMethod_iff, Writable,
    typesAreStrings_zipWith_iff hsize, namesAreStrings_zipWith_iff hsize]

theorem generateMethod_result_iff (i : Nat)
    {method rettype params types : CJson}
    (hsize : getArraySize (some params) = getArraySize (some types)) :
    (generateMethod s i method rettype params types).result = .ok (some ()) <->
      (s.mallocs (.paramStrArr i) = true ∧ s.mallocs (.typeStrArr i) = true ∧
        Writable method rettype params types) ∧
          getArraySize (some params) <= 3 := by
  have hheader := completes_rpcGenerateHMethod method.valuestring
    rettype.valuestring (List.zipWith paramOf params.children types.children)
  rw [generateMethod, call_bind_result, call_bind_result,
    <- completes_writers_iff hsize, <- and_assoc, <- Bool.and_eq_true]
  split
  · rename_i hmallocs
    rw [Traced.bind_of_ok (collectParams_of_size i hsize)]
    simp only [hmallocs, true_and]
    rw [Traced.bind_of_ok (x := emitTo .header _) hheader,
      Traced.bind_result_ok_iff, <- freeFilled_result_iff]
    constructor
    · intro h
      rcases h with ⟨_, hsource, hfree⟩
      rcases Traced.bind_result_ok_iff.mp hfree with ⟨_, hfree, _⟩
      exact ⟨hsource, hfree⟩
    · intro h
      exact ⟨(), h.left,
        Traced.bind_result_ok_iff.mpr ⟨(), h.right, rfl⟩⟩
  · rename_i hmallocs
    rw [call_bind_result, freeArrays_bind_result]
    simp [hmallocs]

theorem generateMethod_events {i : Nat} {method rettype params types : CJson}
    (hsize : getArraySize (some params) = getArraySize (some types))
    (hparamArr : s.mallocs (.paramStrArr i) = true)
    (htypeArr : s.mallocs (.typeStrArr i) = true)
    (hwritable : Writable method rettype params types) :
    (generateMethod s i method rettype params types).events =
      [.malloc (.paramStrArr i) (getArraySize (some params)),
        .malloc (.typeStrArr i) (getArraySize (some params))] ++
        ((collectParams s i (some params) (some types)
          (getArraySize (some params)) 0).events ++
          ((rpcGenerateHMethod method.valuestring rettype.valuestring
            (List.zipWith paramOf params.children
              types.children)).events.map (.fprintf .header) ++
            ((rpcGenerateCMethod method.valuestring rettype.valuestring
              (List.zipWith paramOf params.children
                types.children)).events.map (.fprintf .source) ++
              (freeFilled s i (getArraySize (some params))).events))) := by
  have hheader : (emitTo .header (rpcGenerateHMethod method.valuestring
      rettype.valuestring
        (List.zipWith paramOf params.children types.children))).result =
          .ok () :=
    completes_rpcGenerateHMethod _ _ _
  have hsource : (emitTo .source (rpcGenerateCMethod method.valuestring
      rettype.valuestring
        (List.zipWith paramOf params.children types.children))).result =
          .ok () :=
    (completes_writers_iff hsize).mpr hwritable
  have hfree : (freeFilled s i (getArraySize (some params)) >>=
      fun _ => return some ()).events =
        (freeFilled s i (getArraySize (some params))).events := by
    rw [Traced.bind_def, Traced.bind]
    split
    · exact List.append_nil _
    · rfl
  rw [generateMethod, hparamArr, htypeArr, Bool.and_self, if_pos rfl,
    Traced.bind_of_ok (x := call _) rfl, Traced.bind_of_ok (x := call _) rfl,
    Traced.bind_of_ok (collectParams_of_size i hsize)]
  simp only
  rw [Traced.bind_of_ok hheader, Traced.bind_of_ok hsource, hfree]
  simp [call, emitTo]

theorem generateEntry_of_found (i : Nat)
    {config method rettype params types : CJson}
    (hmethod : getObjectItem (some config) (.lit "method") = some method)
    (hrettype : getObjectItem (some config) (.lit "rettype") = some rettype)
    (hparams : getObjectItem (some config) (.lit "params") = some params)
    (htypes : getObjectItem (some config) (.lit "types") = some types)
    (hsize : getArraySize (some params) = getArraySize (some types)) :
    generateEntry s i (some config) =
      generateMethod s i method rettype params types := by
  simp only [generateEntry, hmethod, hrettype, hparams, htypes, hsize, ne_eq,
    not_true, if_false]

theorem generateEntry_result_iff (i : Nat) (config : Option CJson) :
    (generateEntry s i config).result = .ok (some ()) <->
      GoodEntry s i config := by
  unfold generateEntry GoodEntry WrittenEntry
  cases config with
  | none => simp [refuse_result, getObjectItem]
  | some config =>
      cases hmethod : getObjectItem (some config) (.lit "method") with
      | none => simp [hmethod, refuse_result]
      | some method =>
      cases hrettype : getObjectItem (some config) (.lit "rettype") with
      | none => simp [hmethod, hrettype, refuse_result]
      | some rettype =>
      cases hparams : getObjectItem (some config) (.lit "params") with
      | none => simp [hmethod, hrettype, hparams, refuse_result]
      | some params =>
      cases htypes : getObjectItem (some config) (.lit "types") with
      | none => simp [hmethod, hrettype, hparams, htypes, refuse_result]
      | some types =>
      by_cases hsize :
          getArraySize (some params) = getArraySize (some types)
      · simp [hmethod, hrettype, hparams, htypes, hsize,
          generateMethod_result_iff i hsize]
      · simp [hmethod, hrettype, hparams, htypes, hsize, refuse_result]

theorem generateEntries_result_iff (config : Option CJson) (n i : Nat) :
    (generateEntries s config n i).result = .ok (some ()) <->
      forall k, k < n -> GoodEntry s (i + k) (getArrayItem config (i + k)) := by
  induction n generalizing i with
  | zero => simp [generateEntries]
  | succ n ih =>
      rw [generateEntries, Traced.bind_result_ok_iff]
      constructor
      · intro h k hk
        rcases h with ⟨done, hdone, hrest⟩
        cases done with
        | none => cases hrest
        | some _ =>
            cases k with
            | zero => exact (generateEntry_result_iff i _).mp hdone
            | succ k =>
                have hindex : i + (k + 1) = i + 1 + k := by omega
                rw [hindex]
                exact (ih (i + 1)).mp hrest k (by omega)
      · intro h
        refine ⟨some (), (generateEntry_result_iff i _).mpr (h 0 (by omega)), ?_⟩
        apply (ih (i + 1)).mpr
        intro k hk
        have hindex : i + 1 + k = i + (k + 1) := by omega
        rw [hindex]
        exact h (k + 1) (by omega)

/-!
## When files are opened and success is reported
-/

def ReadWhole (s : Setting) (content : List Byte) : Prop :=
  s.mallocs .jsonBuf = true ∧
    readCount s content (fileSize content) = fileSize content

def GoodDocument (s : Setting) (root : CJson) : Prop :=
  exists config, getObjectItem (some root) (.lit "config") = some config ∧
    forall i, i < getArraySize (some config) ->
      GoodEntry s i (getArrayItem (some config) i)

def GoodText (s : Setting) (content : List Byte) : Prop :=
  s.parses = true ∧ exists root,
    parse (jsonText s content) = some root ∧ GoodDocument s root

def Accepted (s : Setting) : Prop :=
  exists content, s.register = some content ∧ ReadWhole s content ∧
    s.opens .source = true ∧ s.opens .header = true ∧ GoodText s content

section

variable {c : Call}

theorem not_mem_of_quiet {α : Type} {g : Gen α} (hloud : Loud c)
    (hg : Quiet g) : c ∉ g.events :=
  fun hc => hg.events c hc hloud

theorem mem_quiet_bind_iff {α β : Type} {g : Gen α} {f : α -> Gen β}
    (hloud : Loud c) (hg : Quiet g) : c ∈ (g >>= f).events <->
      exists a, g.result = .ok a ∧ c ∈ (f a).events := by
  rw [Traced.mem_events_bind_iff]
  simp [not_mem_of_quiet hloud hg]

theorem mem_call_bind_iff {β : Type} {d : Call} {f : Unit -> Gen β} :
    c ∈ (call d >>= f).events <-> c = d ∨ c ∈ (f ()).events :=
  List.mem_cons

theorem mem_quiet_call_bind_iff {β : Type} {d : Call} {f : Unit -> Gen β}
    (hloud : Loud c) (hd : ¬ Loud d) :
    c ∈ (call d >>= f).events <-> c ∈ (f ()).events := by
  rw [mem_call_bind_iff, or_iff_right]
  intro h
  rw [h] at hloud
  exact hd hloud

theorem mem_emitTo_bind_iff {β : Type} {target : Target} {e : Emit Unit}
    {f : Unit -> Gen β} (hloud : Loud c) (he : Completes e) :
    c ∈ (emitTo target e >>= f).events <-> c ∈ (f ()).events := by
  have hresult : (emitTo target e).result = .ok () := he
  rw [Traced.bind_of_ok hresult, List.mem_append,
    or_iff_right (not_mem_of_quiet hloud (quiet_emitTo target e))]

theorem completes_headerPreamble : Completes headerPreamble := rfl

theorem completes_sourcePreamble : Completes sourcePreamble := rfl

theorem completes_headerEnd : Completes headerEnd := rfl

theorem mem_generateDocument_iff (hloud : Loud c) (root : CJson) :
    c ∈ (generateDocument s root).events <->
      GoodDocument s root ∧ c ∈ successMessages := by
  unfold generateDocument GoodDocument
  cases hconfig : getObjectItem (some root) (.lit "config") with
  | none =>
      have hquiet : Quiet
          (call (.printf (.lit "get config items failed\n"))) :=
        quiet_printf (by decide)
      simp [not_mem_of_quiet hloud hquiet]
  | some config =>
      have hdone := generateEntries_result_iff (s := s) (some config)
        (getArraySize (some config)) 0
      simp only [Nat.zero_add] at hdone
      rw [mem_quiet_bind_iff hloud (quiet_generateEntries ..)]
      simp only [Option.some.injEq, exists_eq_left', <- hdone]
      constructor
      · intro h
        rcases h with ⟨done, hresult, hc⟩
        cases done with
        | none => simp at hc
        | some _ =>
            rw [mem_emitTo_bind_iff hloud completes_headerEnd] at hc
            rw [mem_call_bind_iff] at hc
            exact ⟨hresult, by simpa [call, successMessages] using hc⟩
      · intro h
        refine ⟨some (), h.left,
          (mem_emitTo_bind_iff hloud completes_headerEnd).mpr ?_⟩
        rw [mem_call_bind_iff]
        simpa [call, successMessages] using h.right

theorem mem_generateFiles_iff (hloud : Loud c) (content : List Byte) :
    c ∈ (generateFiles s content).events <->
      GoodText s content ∧ c ∈ successMessages := by
  unfold generateFiles GoodText
  rw [mem_emitTo_bind_iff hloud completes_headerPreamble,
    mem_emitTo_bind_iff hloud completes_sourcePreamble,
    mem_quiet_call_bind_iff hloud (d := .parse _) not_false]
  have hrefused : Quiet (do
      call (.printf (.lit "parse register json file failed\n"))
      return Pointer.null) :=
    quiet_bind (quiet_printf (by decide)) fun _ => quiet_pure _
  cases hparses : s.parses with
  | false => simp [not_mem_of_quiet hloud hrefused]
  | true =>
      cases hroot : parse (jsonText s content) with
      | none => simp [not_mem_of_quiet hloud hrefused]
      | some root =>
          simp [Traced.mem_events_bind_iff, mem_generateDocument_iff hloud]

theorem mem_generateFrom_iff (hloud : Loud c) (content : List Byte) :
    c ∈ (generateFrom s content).events <->
      ReadWhole s content ∧ ((exists target, c = .fopen target) ∨
        s.opens .source = true ∧ s.opens .header = true ∧
          GoodText s content ∧ c ∈ successMessages) := by
  unfold generateFrom ReadWhole
  rw [mem_quiet_call_bind_iff hloud (d := .seekEnd) not_false,
    mem_quiet_call_bind_iff hloud (d := .seekStart) not_false,
    mem_quiet_call_bind_iff hloud (d := .malloc _ _) not_false]
  have hperror {α : Type} (text : CString) (a : α) :
      c ∉ (call (.perror text) >>= fun _ => pure a).events :=
    not_mem_of_quiet hloud
      (quiet_bind (quiet_call not_false) fun _ => quiet_pure a)
  have htarget : (exists target, c = .fopen target) <->
      c = .fopen .source ∨ c = .fopen .header := by
    constructor
    · intro h
      rcases h with ⟨target, rfl⟩
      cases target with
      | source => exact Or.inl rfl
      | header => exact Or.inr rfl
    · intro h
      rcases h with h | h
      · exact ⟨_, h⟩
      · exact ⟨_, h⟩
  cases hbuf : s.mallocs .jsonBuf with
  | false => simp [hperror]
  | true =>
      rw [if_neg (by simp),
        mem_quiet_call_bind_iff hloud (d := .read _) not_false]
      by_cases hread : readCount s content (fileSize content) = fileSize content
      · rw [if_neg (by simpa using hread), mem_call_bind_iff,
          mem_call_bind_iff, htarget, or_assoc]
        split
        · rename_i hopens
          rw [Bool.and_eq_true] at hopens
          simp [hopens, hread, Traced.mem_events_bind_iff,
            mem_generateFiles_iff hloud]
        · rename_i hopens
          rw [Bool.and_eq_true, not_and] at hopens
          have hnot : ¬ (s.opens .source = true ∧ s.opens .header = true ∧
              GoodText s content ∧ c ∈ successMessages) :=
            fun h => hopens h.left h.right.left
          simp [hnot, hread, hperror]
      · rw [if_pos hread]
        simp [hread, hperror]

theorem mem_rpcGenerateMethodCode_iff (hloud : Loud c) :
    c ∈ (rpcGenerateMethodCode s).events <->
      exists content, s.register = some content ∧ ReadWhole s content ∧
        ((exists target, c = .fopen target) ∨
          s.opens .source = true ∧ s.opens .header = true ∧
            GoodText s content ∧ c ∈ successMessages) := by
  unfold rpcGenerateMethodCode
  rw [mem_quiet_call_bind_iff hloud (d := .open) not_false]
  cases hregister : s.register with
  | none =>
      have hquiet : Quiet (do
          call (.perror (.lit "open register json file failed"))
          return (-1 : Int)) :=
        quiet_bind (quiet_call not_false) fun _ => quiet_pure _
      simp [not_mem_of_quiet hloud hquiet]
  | some content =>
      have hrest (locals : Locals) :
          c ∉ (cleanUp s locals >>= fun _ => pure (-1 : Int)).events :=
        not_mem_of_quiet hloud
          (quiet_bind (quiet_cleanUp locals) fun _ => quiet_pure _)
      simp only [Option.some.injEq, exists_eq_left']
      rw [Traced.mem_events_bind_iff, <- mem_generateFrom_iff hloud content]
      simp [hrest]

end

theorem mem_fopen_iff (target : Target) :
    .fopen target ∈ (rpcGenerateMethodCode s).events <->
      exists content, s.register = some content ∧ ReadWhole s content := by
  rw [mem_rpcGenerateMethodCode_iff (c := .fopen target) trivial]
  simp

theorem reachesSuccess_iff (s : Setting) :
    ReachesSuccess s <-> Accepted s := by
  have hmem (c : Call) (hc : c ∈ successMessages) :
      c ∈ (rpcGenerateMethodCode s).events <-> Accepted s := by
    have hprinted : exists text, c = .printf text := by
      simp only [successMessages, List.mem_cons, List.not_mem_nil,
        or_false] at hc
      rcases hc with rfl | rfl
      · exact ⟨_, rfl⟩
      · exact ⟨_, rfl⟩
    rcases hprinted with ⟨text, rfl⟩
    rw [mem_rpcGenerateMethodCode_iff (c := .printf text) hc]
    simp [Accepted, hc]
  constructor
  · intro h
    exact (hmem _ List.mem_cons_self).mp (h List.mem_cons_self)
  · intro h c hc
    exact (hmem c hc).mpr h

end

end Generator
end Z2wRpc
