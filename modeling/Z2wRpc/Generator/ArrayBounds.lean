import Z2wRpc.Generator.Arity

/-!
# The arrays of an entry

`rpc_generate_method_code` allocates as many bytes as an entry has parameters
and stores a pointer of eight bytes for each.  Only the arrays of an entry
without parameters are large enough.
-/

namespace Z2wRpc

open Foundation

namespace Generator

open CJson Dispatch

/-!
## Accesses
-/

structure Access where
  block : Block
  offset : Nat
  width : Nat
deriving DecidableEq

def storesOf (calls : List Call) : List Access :=
  calls.filterMap fun
    | .store block offset width => some ⟨block, offset, width⟩
    | _ => none

/-- `param_str_arr[j]` of the entry with index `i`. -/
def paramAccess (i j : Nat) : Access where
  block := .paramStrArr i
  offset := 8 * j
  width := 8

/-- `type_str_arr[j]` of the entry with index `i`. -/
def typeAccess (i j : Nat) : Access where
  block := .typeStrArr i
  offset := 8 * j
  width := 8

/-- The loads of a loop that prints `<type> <name>`. -/
def declarationLoads (i n : Nat) : List Access :=
  (List.range n).flatMap fun j => [typeAccess i j, paramAccess i j]

/-- The loads for one argument of the handler's call; a type that is not
`char*` is compared twice. -/
def argumentLoads (i j : Nat) (param : Param) : List Access :=
  if param.2 = some (.lit "char*") then [typeAccess i j, paramAccess i j]
  else [typeAccess i j, typeAccess i j, paramAccess i j]

/-- The loads of `rpc_generate_h_method`. -/
def hMethodLoads (i n : Nat) : List Access :=
  declarationLoads i n ++ declarationLoads i n

/-- The loads of `rpc_generate_c_method`. -/
def cMethodLoads (i : Nat) (params : List Param) : List Access :=
  declarationLoads i params.length ++
    ((List.range params.length).flatMap fun j =>
      [paramAccess i j, paramAccess i j]) ++
    (params.zipIdx.flatMap fun p => argumentLoads i p.2 p.1) ++
    declarationLoads i params.length ++
    (List.range params.length).map (paramAccess i)

def collectedParams (item : CJson) : List Param :=
  List.zipWith paramOf (itemsOf (paramsOf item)) (itemsOf (typesOf item))

def loadsOf (i : Nat) (item : CJson) : List Access :=
  match (getObjectItem (some item) (.lit "method")).bind valuestring,
    (getObjectItem (some item) (.lit "rettype")).bind valuestring with
  | some _, some _ =>
      hMethodLoads i (collectedParams item).length ++
        cMethodLoads i (collectedParams item)
  | _, _ => []

/-- Every access for an element lies inside the block that was allocated. -/
def ArraysSuffice (s : Setting) (i : Nat) (item : CJson) : Prop :=
  forall access,
    access ∈ storesOf (generateEntry s i (some item)).events ++
      loadsOf i item ->
    exists size,
      .malloc access.block size ∈ (generateEntry s i (some item)).events ∧
        (access.offset + access.width : Int) <= size

/-!
## What the body of the loop does with the arrays
-/

section

variable {s : Setting} {i : Nat} {item : CJson}

def storesAt (i j : Nat) : List Call :=
  [.store (.paramStrArr i) (8 * j) 8, .store (.typeStrArr i) (8 * j) 8]

theorem collectParams_events {params types : CJson} {ps ts : List CJson}
    {j : Nat} (hps : (itemsOf (some params)).drop j = ps)
    (hts : (itemsOf (some types)).drop j = ts)
    (hlength : ps.length = ts.length) :
    (collectParams s i (some params) (some types) ps.length j).events =
      (List.range' j ps.length).flatMap (storesAt i) := by
  induction ps generalizing ts j with
  | nil => rfl
  | cons p ps ih =>
      cases ts with
      | nil => cases hlength
      | cons t ts =>
          rcases getArrayItem_of_drop hps with ⟨hparam, hps⟩
          rcases getArrayItem_of_drop hts with ⟨htype, hts⟩
          have hlength := Nat.succ.inj hlength
          have hrest := collectParams_result (s := s) i hps hts hlength
          have hevents := ih hps hts hlength
          simp only [List.length_cons, collectParams, hparam, htype]
          rw [Traced.bind_of_ok (x := call _) rfl,
            Traced.bind_of_ok (x := call _) rfl, Traced.bind_of_ok hrest,
            hevents, List.range'_succ, List.flatMap_cons]
          simp [call, storesAt]

theorem storesOf_append (calls others : List Call) :
    storesOf (calls ++ others) = storesOf calls ++ storesOf others :=
  List.filterMap_append

theorem storesOf_fprintf (target : Target) (texts : List CString) :
    storesOf (texts.map (.fprintf target)) = [] := by
  rw [storesOf, List.filterMap_eq_nil_iff]
  intro c hc
  rcases List.mem_map.mp hc with ⟨text, _, rfl⟩
  rfl

theorem free_of_mem {n : Nat} {c : Call}
    (h : c ∈ (freeFilled s i n).events) : exists block, c = .free block := by
  have hfree {block : Block} (hc : c ∈ (free s block).events) :
      c = .free block := by
    unfold free at hc
    split at hc
    · exact List.mem_singleton.mp hc
    · cases hc
  unfold freeFilled at h
  split at h
  case isFalse => cases h
  rcases Traced.mem_events_bind_iff.mp h with hfirst | ⟨_, _, hsecond⟩
  · exact ⟨_, hfree hfirst⟩
  · exact ⟨_, hfree hsecond⟩

theorem calls_of_written (h : WrittenEntry s i (some item)) :
    storesOf (generateEntry s i (some item)).events =
        (List.range' 0 (getArraySize (paramsOf item))).flatMap (fun j =>
          [paramAccess i j, typeAccess i j]) ∧
      forall block (size : Int),
        .malloc block size ∈ (generateEntry s i (some item)).events <->
          (block = .paramStrArr i ∨ block = .typeStrArr i) ∧
            size = getArraySize (paramsOf item) := by
  rcases h with ⟨method, rettype, params, types, hmethod, hrettype, hparams,
    htypes, hsize, hparamArr, htypeArr, hwritable⟩
  have hcollect : (collectParams s i (some params) (some types)
      (getArraySize (some params)) 0).events =
        (List.range' 0 (getArraySize (some params))).flatMap (storesAt i) :=
    collectParams_events List.drop_zero List.drop_zero hsize
  rw [generateEntry_of_found i hmethod hrettype hparams htypes hsize,
    generateMethod_events hsize hparamArr htypeArr hwritable, hcollect,
    paramsOf, hparams]
  constructor
  · have hfree : storesOf
        (freeFilled s i (getArraySize (some params))).events = [] := by
      rw [storesOf, List.filterMap_eq_nil_iff]
      intro c hc
      rcases free_of_mem hc with ⟨block, rfl⟩
      rfl
    have hstores (js : List Nat) : storesOf (js.flatMap (storesAt i)) =
        js.flatMap fun j => [paramAccess i j, typeAccess i j] := by
      rw [storesOf, List.filterMap_flatMap]
      rfl
    simp only [storesOf_append, storesOf_fprintf, hfree, hstores,
      List.append_nil]
    rfl
  · intro block size
    have hfree : .malloc block size ∉
        (freeFilled s i (getArraySize (some params))).events := by
      intro hmem
      rcases free_of_mem hmem with ⟨block, hblock⟩
      cases hblock
    simp [hfree, storesAt, or_and_right]

theorem loadsOf_of_none (h : getArraySize (paramsOf item) = 0) :
    loadsOf i item = [] := by
  have hnone : collectedParams item = [] := by
    rw [getArraySize_eq] at h
    rw [collectedParams, List.length_eq_zero_iff.mp h]
    rfl
  unfold loadsOf
  split
  · simp [hnone, hMethodLoads, cMethodLoads, declarationLoads]
  · rfl

theorem none_of_arraysSuffice (h : WrittenEntry s i (some item))
    (hsuffice : ArraysSuffice s i item) :
    getArraySize (paramsOf item) = 0 := by
  rcases calls_of_written h with ⟨hstores, hmalloc⟩
  by_contra hsome
  have hlast : paramAccess i (getArraySize (paramsOf item) - 1) ∈
      storesOf (generateEntry s i (some item)).events := by
    rw [hstores]
    apply List.mem_flatMap.mpr
    refine ⟨getArraySize (paramsOf item) - 1, ?_, List.mem_cons_self⟩
    rw [List.mem_range'_1]
    omega
  rcases hsuffice _ (List.mem_append_left _ hlast) with ⟨size, hmem, hfits⟩
  rw [((hmalloc _ _).mp hmem).right] at hfits
  simp only [paramAccess] at hfits
  omega

end

/--
The arrays of an accepted entry are large enough exactly when nothing is stored
in them.
-/
theorem arraysSuffice_iff {s : Setting} {i : Nat} {item : CJson}
    (h : WrittenEntry s i (some item)) :
    ArraysSuffice s i item <-> getArraySize (paramsOf item) = 0 := by
  constructor
  · intro hsuffice
    exact none_of_arraysSuffice h hsuffice
  · intro hnone access haccess
    rw [(calls_of_written h).left, hnone, loadsOf_of_none hnone] at haccess
    cases haccess

theorem arraysSuffice_ping :
    ArraysSuffice (workingSetting []) 0 pingEntry.document :=
  (arraysSuffice_iff ((writtenEntry_iff (fun _ => rfl) 0 _).mpr
    (generatorWrites_of_describes (describes_entry _)))).mpr rfl

/-- Two bytes are allocated for the two pointers of `add`. -/
theorem addSignature_stored_outside :
    ReachesSuccess (workingSetting (print addDocument).bytes) ∧
      .malloc (.paramStrArr 0) 2 ∈
        (generateEntry (workingSetting (print addDocument).bytes) 0
          (some addSignature.text.document)).events ∧
      .store (.paramStrArr 0) 8 8 ∈
        (generateEntry (workingSetting (print addDocument).bytes) 0
          (some addSignature.text.document)).events ∧
      ¬ ArraysSuffice (workingSetting (print addDocument).bytes) 0
        addSignature.text.document := by
  have hwritten : WrittenEntry (workingSetting (print addDocument).bytes) 0
      (some addSignature.text.document) :=
    (writtenEntry_iff (fun _ => rfl) 0 _).mpr
      (generatorWrites_of_describes (describes_entry _))
  rcases calls_of_written hwritten with ⟨hstores, hmalloc⟩
  refine ⟨reachesSuccess_entriesDocument (by decide) (by decide +kernel),
    (hmalloc _ _).mpr ⟨Or.inl rfl, rfl⟩, ?_, ?_⟩
  · have hmem : paramAccess 0 1 ∈ storesOf (generateEntry
        (workingSetting (print addDocument).bytes) 0
          (some addSignature.text.document)).events := by
      rw [hstores]
      exact List.mem_flatMap.mpr ⟨1, by decide, List.mem_cons_self⟩
    rcases List.mem_filterMap.mp hmem with ⟨c, hc, haccess⟩
    cases c with
    | store block offset width =>
        obtain ⟨rfl, rfl, rfl⟩ : block = .paramStrArr 0 ∧ offset = 8 ∧
            width = 8 := by simpa [paramAccess] using haccess
        exact hc
    | _ => cases haccess
  · intro hsuffice
    cases none_of_arraysSuffice hwritten hsuffice

end Generator
end Z2wRpc
