import Z2wRpc.Dispatch.Loading
import Z2wRpc.Dispatch.Process

/-!
# What the loader accepts

Address and port of a document are checked with `cJSON_IsString` and
`cJSON_IsNumber`; the entries of `config` are copied into the table with no
check but the assertion on the number of parameters.  A load therefore comes
back safely exactly when it does not get to the entries or all of them are
complete.
-/

namespace Z2wRpc

open Foundation

namespace Dispatch

open CJson

/-!
## One entry
-/

/-- The two strings of a slot, `NULL` where the item is no string. -/
def storedParam (param type : CJson) : Option CString × Option CString :=
  (param.valuestring, type.valuestring)

def paramsOf (item : CJson) : Option CJson :=
  getObjectItem (some item) (.lit "params")

def typesOf (item : CJson) : Option CJson :=
  getObjectItem (some item) (.lit "types")

/-- A table entry as it is stored for an element of `config`. -/
structure Stored (find : CString -> Option Handler) (item : CJson)
    (func : RpcFunc) : Prop where
  method : exists m, getObjectItem (some item) (.lit "method") = some m ∧
    func.method = m.valuestring
  rettype : exists r, getObjectItem (some item) (.lit "rettype") = some r ∧
    func.rettype = r.valuestring
  sizes : getArraySize (paramsOf item) = getArraySize (typesOf item)
  slots : func.slots.entries =
    List.zipWith storedParam (itemsOf (paramsOf item)) (itemsOf (typesOf item))
  handler : func.handler = find (methodName func.method)

theorem store_result_ok_iff {slots next : Slots}
    {param type : Option CString} :
    (slots.store param type).result = .ok next <->
      next.entries = slots.entries ++ [(param, type)] := by
  constructor
  · intro h
    by_cases hroom : slots.entries.length < rpcParamsMaxCount
    · rcases exists_store hroom param type with ⟨next', hstore, hnext⟩
      obtain rfl : next' = next := Except.ok.inj (hstore.symm.trans h)
      exact hnext
    · unfold Slots.store at h
      rw [dif_neg hroom] at h
      cases h
  · intro h
    have hwithin := next.within
    rw [h, List.length_append, List.length_singleton] at hwithin
    rcases exists_store hwithin param type with ⟨next', hstore, hnext⟩
    have heq : next' = next := by
      ext1
      rw [hnext, h]
    rw [hstore, heq]

theorem readSlots_result_ok_iff {params types : Option CJson}
    {ps ts : List CJson} {j : Nat} (hps : (itemsOf params).drop j = ps)
    (hts : (itemsOf types).drop j = ts) (hlength : ps.length = ts.length)
    (slots slots' : Slots) :
    (readSlots params types ps.length j slots).result = .ok slots' <->
      slots'.entries = slots.entries ++ List.zipWith storedParam ps ts := by
  induction ps generalizing ts j slots with
  | nil =>
      rw [List.zipWith_nil_left, List.append_nil]
      constructor
      · intro h
        rw [Except.ok.inj h]
      · intro h
        have heq : slots' = slots := by
          ext1
          exact h
        rw [heq]
        rfl
  | cons p ps ih =>
      cases ts with
      | nil => cases hlength
      | cons t ts =>
          rcases getArrayItem_of_drop hps with ⟨hparam, hps⟩
          rcases getArrayItem_of_drop hts with ⟨htype, hts⟩
          have hrest (next : Slots) := ih hps hts (Nat.succ.inj hlength) next
          rw [List.length_cons, readSlots, hparam, htype,
            Traced.bind_of_ok (readValuestring_result_some _),
            Traced.bind_of_ok (readValuestring_result_some _)]
          simp only [Traced.bind_result_ok_iff, store_result_ok_iff, hrest]
          constructor
          · intro h
            rcases h with ⟨next, hnext, hentries⟩
            rw [hentries, hnext, List.zipWith_cons_cons, List.append_assoc]
            rfl
          · intro h
            have hwithin := slots'.within
            rw [h, List.zipWith_cons_cons, List.length_append,
              List.length_cons] at hwithin
            refine ⟨⟨slots.entries ++ [storedParam p t], ?_⟩, rfl, ?_⟩
            · rw [List.length_append, List.length_singleton]
              omega
            · rw [h, List.zipWith_cons_cons, List.append_assoc]
              rfl

theorem readSlots_empty_iff {params types : Option CJson}
    (hsize : getArraySize params = getArraySize types) (slots : Slots) :
    (readSlots params types (getArraySize params) 0 Slots.empty).result =
        .ok slots <->
      slots.entries =
        List.zipWith storedParam (itemsOf params) (itemsOf types) := by
  rw [getArraySize_eq, getArraySize_eq] at hsize
  rw [getArraySize_eq]
  exact readSlots_result_ok_iff List.drop_zero List.drop_zero hsize _ _

theorem registerEntry_result_ok_iff {find : CString -> Option Handler}
    {item : CJson} {func : RpcFunc} :
    (registerEntry find (some item)).result = .ok func <->
      Stored find item func := by
  have hassert {c : Prop} [Decidable c] (run : Run RpcFunc) :
      (if c then Traced.fault .assertion else run).result = .ok func <->
        ¬ c ∧ run.result = .ok func := by
    by_cases hc : c <;> simp [hc]
  rw [registerEntry]
  simp only [Traced.bind_result_ok_iff, readValuestring_result_ok_iff, hassert,
    not_not]
  constructor
  · intro h
    rcases h with ⟨_, ⟨m, hm, rfl⟩, _, ⟨r, hr, rfl⟩, hsize, slots, hslots, h⟩
    rw [← Except.ok.inj h]
    exact ⟨⟨m, hm, rfl⟩, ⟨r, hr, rfl⟩, hsize,
      (readSlots_empty_iff hsize slots).mp hslots, rfl⟩
  · intro h
    rcases h with ⟨⟨m, hm, hmethod⟩, ⟨r, hr, hrettype⟩, hsize, hslots, hhandler⟩
    refine ⟨_, ⟨m, hm, rfl⟩, _, ⟨r, hr, rfl⟩, hsize, func.slots,
      (readSlots_empty_iff hsize func.slots).mpr hslots, ?_⟩
    rw [← hmethod, ← hrettype, ← hhandler]
    rfl

/-!
## All entries
-/

theorem registerEntries_result_ok_iff {find : CString -> Option Handler}
    {config : Option CJson} {rest : List CJson} {i : Nat}
    (hitems : (itemsOf config).drop i = rest) (table table' : List RpcFunc) :
    (registerEntries find config rest.length i table).result = .ok table' <->
      exists funcs, table' = funcs.reverse ++ table ∧
        List.Forall₂ (Stored find) rest funcs := by
  induction rest generalizing i table with
  | nil =>
      constructor
      · intro h
        exact ⟨[], (Except.ok.inj h).symm, .nil⟩
      · intro h
        rcases h with ⟨funcs, rfl, hfuncs⟩
        cases hfuncs
        rfl
  | cons item rest ih =>
      rcases getArrayItem_of_drop hitems with ⟨hitem, hnext⟩
      rw [List.length_cons, registerEntries, hitem]
      simp only [Traced.bind_result_ok_iff, registerEntry_result_ok_iff,
        ih hnext]
      constructor
      · intro h
        rcases h with ⟨func, hfunc, funcs, rfl, hfuncs⟩
        exact ⟨func :: funcs, by simp, .cons hfunc hfuncs⟩
      · intro h
        rcases h with ⟨funcs, rfl, hfuncs⟩
        cases hfuncs with
        | cons hfunc hfuncs =>
            exact ⟨_, hfunc, _, by simp, hfuncs⟩

theorem registerEntries_all_iff {find : CString -> Option Handler}
    {config : Option CJson} (table table' : List RpcFunc) :
    (registerEntries find config (getArraySize config) 0 table).result =
        .ok table' <->
      exists funcs, table' = funcs.reverse ++ table ∧
        List.Forall₂ (Stored find) (itemsOf config) funcs := by
  rw [getArraySize_eq]
  exact registerEntries_result_ok_iff List.drop_zero table table'

/-!
## What is taken
-/

structure LoaderTakesEntry (item : CJson) : Prop where
  method : getObjectItem (some item) (.lit "method") ≠ none
  rettype : getObjectItem (some item) (.lit "rettype") ≠ none
  sizes : getArraySize (paramsOf item) = getArraySize (typesOf item)
  fit : getArraySize (paramsOf item) <= rpcParamsMaxCount

theorem exists_stored_iff {find : CString -> Option Handler} {item : CJson} :
    (exists func, Stored find item func) <-> LoaderTakesEntry item := by
  constructor
  · intro h
    rcases h with ⟨func, ⟨m, hm, _⟩, ⟨r, hr, _⟩, hsize, hslots, _⟩
    have hwithin := func.slots.within
    rw [getArraySize_eq, getArraySize_eq] at hsize
    rw [hslots, List.length_zipWith, hsize, Nat.min_self, ← hsize,
      ← getArraySize_eq] at hwithin
    refine ⟨by simp [hm], by simp [hr], ?_, hwithin⟩
    rw [getArraySize_eq, getArraySize_eq, hsize]
  · intro h
    rcases Option.ne_none_iff_exists'.mp h.method with ⟨m, hm⟩
    rcases Option.ne_none_iff_exists'.mp h.rettype with ⟨r, hr⟩
    have hfit := h.fit
    rw [getArraySize_eq] at hfit
    have hwithin : (List.zipWith storedParam (itemsOf (paramsOf item))
        (itemsOf (typesOf item))).length <= rpcParamsMaxCount := by
      rw [List.length_zipWith]
      omega
    exact ⟨{
      method := m.valuestring
      slots := ⟨_, hwithin⟩
      rettype := r.valuestring
      handler := find (methodName m.valuestring) },
      ⟨m, hm, rfl⟩, ⟨r, hr, rfl⟩, h.sizes, rfl, rfl⟩

theorem exists_funcs_iff {find : CString -> Option Handler}
    {items : List CJson} :
    (exists funcs, List.Forall₂ (Stored find) items funcs) <->
      forall item, item ∈ items -> LoaderTakesEntry item := by
  constructor
  · intro h item hitem
    rcases h with ⟨funcs, hfuncs⟩
    rcases exists_related hfuncs hitem with ⟨func, _, hfunc⟩
    exact exists_stored_iff.mp ⟨func, hfunc⟩
  · intro h
    induction items with
    | nil => exact ⟨[], .nil⟩
    | cons item rest ih =>
        rw [List.forall_mem_cons] at h
        rcases exists_stored_iff.mpr h.left with ⟨func, hfunc⟩
        rcases ih h.right with ⟨funcs, hfuncs⟩
        exact ⟨func :: funcs, .cons hfunc hfuncs⟩

/-!
## Whole entries
-/

def WholeEntry (item : CJson) : Prop :=
  exists entry, Describes item entry ∧ entry.params.length <= rpcParamsMaxCount

/-- A table entry without a `NULL` name. -/
structure Named (func : RpcFunc) : Prop where
  method : func.method ≠ none
  rettype : func.rettype ≠ none
  slots : forall slot, slot ∈ func.slots.entries ->
    slot.1 ≠ none ∧ slot.2 ≠ none

theorem named_of_entry {find : CString -> Option Handler} {func : RpcFunc}
    {entry : EntryText} (h : Says find func entry) : Named func where
  method := by
    rw [h.method]
    simp
  rettype := by
    rw [h.rettype]
    simp
  slots := by
    rw [h.slots]
    intro slot hslot
    rcases List.mem_map.mp hslot with ⟨p, _, rfl⟩
    simp

theorem exists_entries {items : List CJson}
    (h : forall item, item ∈ items -> WholeEntry item) :
    exists entries, List.Forall₂ Describes items entries ∧
      forall e, e ∈ entries -> e.params.length <= rpcParamsMaxCount := by
  induction items with
  | nil => exact ⟨[], .nil, by simp⟩
  | cons item rest ih =>
      rw [List.forall_mem_cons] at h
      rcases h with ⟨⟨entry, hdescribes, hfit⟩, hrest⟩
      rcases ih hrest with ⟨entries, hentries, hfits⟩
      refine ⟨entry :: entries, .cons hdescribes hentries, ?_⟩
      rw [List.forall_mem_cons]
      exact ⟨hfit, hfits⟩

theorem wholeEntry_of_stored {find : CString -> Option Handler} {item : CJson}
    {func : RpcFunc} {entry : EntryText} (hstored : Stored find item func)
    (h : Describes item entry) : WholeEntry item := by
  refine ⟨entry, h, ?_⟩
  have hwithin := func.slots.within
  rw [hstored.slots, paramsOf, typesOf, h.params, h.types] at hwithin
  simpa [itemsOf, children] using hwithin

/-!
## Malformed documents
-/

/--
The load comes back with one of its codes, stores no `NULL` name, and accepts a
document only when every element of its `config` is a whole entry.
-/
def LoadsSafely (find : CString -> Option Handler) (json : Option CString)
    (globals : Globals) : Prop :=
  exists code after,
    (rpcDecodeRegisterJson find json globals).result = .ok (code, after) ∧
    code <= 0 ∧
    (forall func, func ∈ after.rpcCallerTable ->
      func ∈ globals.rpcCallerTable ∨ Named func) ∧
    (code = 0 -> forall root, json.bind parse = some root ->
      forall item, item ∈ itemsOf (getObjectItem (some root) (.lit "config")) ->
        exists entry, Describes item entry)

/-- The old address can be released, and if there is a port the entries are
complete. -/
def SafeToLoad (root : CJson) (globals : Globals) : Prop :=
  globals.rpcServerIp ≠ .released ∧
    forall port, getObjectItem (some root) (.lit "port") =
        some (.number port) ->
      forall item, item ∈ itemsOf (getObjectItem (some root) (.lit "config")) ->
        WholeEntry item

section

variable {find : CString -> Option Handler} {globals : Globals}
  {json remote : CString} {root : CJson}

theorem loadsSafely_of_refused {json : Option CString} {code : Int}
    {after : Globals}
    (h : (rpcDecodeRegisterJson find json globals).result = .ok (code, after))
    (hcode : code < 0)
    (htable : after.rpcCallerTable = globals.rpcCallerTable) :
    LoadsSafely find json globals := by
  refine ⟨code, after, h, Int.le_of_lt hcode, ?_, ?_⟩
  · intro func hfunc
    rw [htable] at hfunc
    exact Or.inl hfunc
  · intro hzero
    omega

theorem loadsSafely_of_safeToLoad (hparse : parse json = some root)
    (hremote : getObjectItem (some root) (.lit "remote") =
      some (.string remote))
    (h : SafeToLoad root globals) :
    LoadsSafely find (some json) globals := by
  rcases h with ⟨hip, hwhole⟩
  by_cases hport : exists port,
      getObjectItem (some root) (.lit "port") = some (.number port)
  · rcases hport with ⟨port, hport⟩
    have hitems := hwhole port hport
    rcases exists_entries hitems with ⟨entries, hdescribes, hfit⟩
    rcases registerEntries_of_describes find globals.rpcCallerTable
      List.drop_zero hdescribes hfit with ⟨funcs, hresult, hentries⟩
    rw [← hdescribes.length_eq, ← getArraySize_eq] at hresult
    have hrun := @rpcDecodeRegisterJson_of_port find globals json root remote
      port hparse hremote hport
    rw [freeServerIp_bind hip, Traced.bind_of_ok hresult] at hrun
    refine ⟨0, _, by rw [hrun]; rfl, Int.le_refl 0, ?_, ?_⟩
    · intro func hfunc
      rcases List.mem_append.mp hfunc with hnew | hold
      · right
        rcases exists_related hentries (List.mem_reverse.mp hnew) with
          ⟨entry, _, hentry⟩
        exact named_of_entry hentry
      · exact Or.inl hold
    · intro _ root' hparse' item hitem
      rw [Option.bind_some, hparse, Option.some.injEq] at hparse'
      rw [← hparse'] at hitem
      rcases hitems item hitem with ⟨entry, hentry, _⟩
      exact ⟨entry, hentry⟩
  · rw [not_exists] at hport
    exact loadsSafely_of_refused (rpcDecodeRegisterJson_of_lacksPort
      ⟨root, remote, hparse, hremote, hport⟩ hip) (by decide) rfl

theorem safeToLoad_of_loadsSafely (hparse : parse json = some root)
    (hremote : getObjectItem (some root) (.lit "remote") =
      some (.string remote))
    (h : LoadsSafely find (some json) globals) : SafeToLoad root globals := by
  rcases h with ⟨code, after, hresult, _, _, hdescribes⟩
  by_cases hip : Freeable globals.rpcServerIp
  · refine ⟨hip, fun port hport item hitem => ?_⟩
    rw [rpcDecodeRegisterJson_of_port hparse hremote hport,
      freeServerIp_bind hip] at hresult
    rcases Traced.bind_result_ok_iff.mp hresult with ⟨table, htable, hresult⟩
    rcases (registerEntries_all_iff _ _).mp htable with ⟨funcs, _, hstored⟩
    obtain rfl : code = 0 := (Prod.mk.inj (Except.ok.inj hresult)).left.symm
    rcases hdescribes rfl root hparse item hitem with ⟨entry, hentry⟩
    rcases exists_related hstored hitem with ⟨func, _, hfunc⟩
    exact wholeEntry_of_stored hfunc hentry
  · by_cases hport : exists port,
        getObjectItem (some root) (.lit "port") = some (.number port)
    · rcases hport with ⟨port, hport⟩
      rw [rpcDecodeRegisterJson_of_port hparse hremote hport,
        freeServerIp_bind_of_not hip] at hresult
      cases hresult
    · rw [not_exists] at hport
      rw [rpcDecodeRegisterJson_of_no_port hparse hremote hport,
        freeServerIp_bind_of_not hip] at hresult
      cases hresult

end

/-- A load is safe exactly when the text is refused in front of the address, or
is safe to load. -/
theorem loadsSafely_iff (find : CString -> Option Handler)
    (json : Option CString) (globals : Globals) :
    LoadsSafely find json globals <->
      forall root remote, json.bind parse = some root ->
        getObjectItem (some root) (.lit "remote") = some (.string remote) ->
        SafeToLoad root globals := by
  cases json with
  | none =>
      have hrun : (rpcDecodeRegisterJson find none globals).result =
          .ok (-1, globals) := rfl
      constructor
      · intro _ root remote hparse
        cases hparse
      · intro _
        exact loadsSafely_of_refused hrun (by decide) rfl
  | some text =>
      constructor
      · intro hsafe root remote hparse hremote
        exact safeToLoad_of_loadsSafely hparse hremote hsafe
      · intro h
        cases hparse : parse text with
        | none =>
            have hrun : (rpcDecodeRegisterJson find (some text)
                globals).result = .ok (-1, globals) := by
              rw [rpcDecodeRegisterJson, Option.bind_some, hparse]
              rfl
            exact loadsSafely_of_refused hrun (by decide) rfl
        | some root =>
            by_cases hremote : exists remote, getObjectItem (some root)
                (.lit "remote") = some (.string remote)
            · rcases hremote with ⟨remote, hremote⟩
              exact loadsSafely_of_safeToLoad hparse hremote
                (h root remote hparse hremote)
            · rw [not_exists] at hremote
              have hrun := @rpcDecodeRegisterJson_of_no_remote find globals
                text root hparse hremote
              exact loadsSafely_of_refused (by rw [hrun]; rfl) (by decide) rfl

def emptyEntryDocument : CJson :=
  .object [
    (.lit "remote", .string (.lit "172.16.0.6")),
    (.lit "port", .number (.finite (9096 : Int32).toInt)),
    (.lit "config", .array [.object []])]

theorem parse_emptyEntryDocument :
    parse (print emptyEntryDocument) = some emptyEntryDocument := by
  have hreadable : Readable 3 emptyEntryDocument := by
    apply Readable.object
    intro m hm
    simp only [List.mem_cons, List.not_mem_nil, or_false] at hm
    rcases hm with rfl | rfl | rfl
    · exact Readable.string _
    · exact Readable.number (numberExact_toInt 9096)
    · apply Readable.array
      intro item hitem
      rw [List.mem_singleton.mp hitem]
      apply Readable.object
      intro m hm
      cases hm
  exact parse_print hreadable (by decide)

/-- The method of the entry is read through a `NULL` item. -/
theorem emptyEntry_read :
    (rpcDecodeRegisterJson librpcMethod (some (print emptyEntryDocument))
        .initial).result = .error .absentItem ∧
      ¬ LoadsSafely librpcMethod (some (print emptyEntryDocument))
        .initial := by
  have hremote : getObjectItem (some emptyEntryDocument) (.lit "remote") =
      some (.string (.lit "172.16.0.6")) := rfl
  have hport : getObjectItem (some emptyEntryDocument) (.lit "port") =
      some (.number (.finite (9096 : Int32).toInt)) := rfl
  have hrun : (rpcDecodeRegisterJson librpcMethod
      (some (print emptyEntryDocument)) .initial).result =
        .error .absentItem := by
    rw [rpcDecodeRegisterJson_of_port parse_emptyEntryDocument hremote hport]
    rfl
  refine ⟨hrun, fun hsafe => ?_⟩
  rcases hsafe with ⟨code, after, hresult, _⟩
  rw [hrun] at hresult
  cases hresult

end Dispatch
end Z2wRpc
