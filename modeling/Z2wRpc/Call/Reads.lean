import Z2wRpc.Call.Request

/-!
# The arguments that the encoder reads

A stub passes its parameters as variadic arguments, promoted from the types
that the generator declared, and `rpc_request_json_encode` reads them back by
the types of the register entry.  The two programs compare the same spellings
with different lists.
-/

namespace Z2wRpc

open Foundation

namespace Call

open CJson Dispatch

inductive VaType where
  | int
  | long
  | longLong
  | double
  | charPointer
deriving DecidableEq

/-- The type that a parameter of a generated stub is passed as, for the
spellings that `rpc_generate_c_method` distinguishes. -/
def promotedType (type : CString) : Option VaType :=
  if isCharPointer type then some .charPointer
  else if type = .lit "int" then some .int
  else if type = .lit "long" then some .long
  else if type = .lit "long long" then some .longLong
  else if type = .lit "float" then some .double
  else if type = .lit "double" then some .double
  else none

/-- The type that the encoder hands to `va_arg`; it asserts that there is one. -/
def vaType (type : CString) : Option VaType :=
  if type = .lit "int" then some .int
  else if type = .lit "float" then some .double
  else if type = .lit "double" then some .double
  else if type = .lit "char*" then some .charPointer
  else none

/-- The `va_arg` reads of the loop over the types of an entry. -/
def encodeReads : List (Option CString) -> Traced VaType Fault Unit
  | [] => return ()
  | type :: rest => do
      let type ← Traced.require .nullString type
      let read ← Traced.require .assertion (vaType type)
      Traced.emit read
      encodeReads rest

def valueType : Value -> VaType
  | .int _ => .int
  | .real _ => .double
  | .text _ => .charPointer

/-!
## The reads are those of the encoder
-/

/-- One `va_arg` of the encoder, and the item made of it. -/
def vaArg (read : VaType) : List Value -> Run (Option CJson × List Value)
  | [] => Traced.fault .wrongArgument
  | arg :: rest =>
      if valueType arg = read then return (itemOf arg, rest)
      else Traced.fault .wrongArgument

section

variable {params : Members} {name : Option CString} {α : Type}
  (next : Members -> List Value -> Run α) (args : List Value)

theorem vaInt_bind :
    (vaInt args >>= fun arg =>
      next (addNumberToObject params name (.finite arg.1.toInt)) arg.2) =
    vaArg .int args >>= fun arg =>
      next (addItemToObject params name arg.1) arg.2 := by
  cases args with
  | nil => rfl
  | cons arg args => cases arg <;> rfl

theorem vaDouble_bind :
    (vaDouble args >>= fun arg =>
      next (addNumberToObject params name arg.1) arg.2) =
    vaArg .double args >>= fun arg =>
      next (addItemToObject params name arg.1) arg.2 := by
  cases args with
  | nil => rfl
  | cons arg args => cases arg <;> rfl

theorem vaString_bind :
    (vaString args >>= fun arg =>
      next (addStringToObject params name arg.1) arg.2) =
    vaArg .charPointer args >>= fun arg =>
      next (addItemToObject params name arg.1) arg.2 := by
  cases args with
  | nil => rfl
  | cons arg args => cases arg <;> rfl

end

theorem encodeArgs_cons_eq (params : Members) (name : Option CString)
    (type : CString) (rest : List (Option CString × Option CString))
    (args : List Value) :
    encodeArgs params ((name, some type) :: rest) args =
      Traced.require .assertion (vaType type) >>= fun read =>
        vaArg read args >>= fun arg =>
          encodeArgs (addItemToObject params name arg.1) rest arg.2 := by
  let next := fun members args => encodeArgs members rest args
  rw [encodeArgs, Traced.require_some_bind, vaType]
  by_cases hint : type = .lit "int"
  · rw [if_pos hint, if_pos hint]
    exact vaInt_bind next args
  rw [if_neg hint, if_neg hint]
  by_cases hfloat : type = .lit "float"
  · rw [if_pos hfloat, if_pos hfloat]
    exact vaDouble_bind next args
  rw [if_neg hfloat, if_neg hfloat]
  by_cases hdouble : type = .lit "double"
  · rw [if_pos hdouble, if_pos hdouble]
    exact vaDouble_bind next args
  rw [if_neg hdouble, if_neg hdouble]
  by_cases hchar : type = .lit "char*"
  · rw [if_pos hchar, if_pos hchar]
    exact vaString_bind next args
  rw [if_neg hchar, if_neg hchar]
  rfl

theorem vaArg_result_ok_iff {read : VaType} {args : List Value}
    {r : Option CJson × List Value} :
    (vaArg read args).result = .ok r <->
      exists arg, valueType arg = read ∧ args = arg :: r.2 ∧
        r.1 = itemOf arg := by
  cases args with
  | nil => simp [vaArg]
  | cons arg args =>
      by_cases htype : valueType arg = read
      · simp only [vaArg, if_pos htype, Traced.pure_result, Except.ok.injEq]
        constructor
        · intro h
          subst h
          exact ⟨arg, htype, rfl, rfl⟩
        · intro h
          rcases h with ⟨arg', _, hargs, hitem⟩
          rcases List.cons.inj hargs with ⟨rfl, hrest⟩
          exact Prod.ext hitem.symm hrest
      · simp only [vaArg, if_neg htype, Traced.fault_result]
        constructor
        · intro h
          cases h
        · intro h
          rcases h with ⟨arg', htype', hargs, _⟩
          rcases List.cons.inj hargs with ⟨rfl, _⟩
          exact absurd htype' htype

theorem encodeReads_cons_ok_iff {type : Option CString}
    {rest : List (Option CString)} {reads : List VaType} :
    encodeReads (type :: rest) = ⟨reads, .ok ()⟩ <->
      exists t read reads', type = some t ∧ vaType t = some read ∧
        encodeReads rest = ⟨reads', .ok ()⟩ ∧ reads = read :: reads' := by
  cases type with
  | none =>
      have hfault : (encodeReads (none :: rest)).result =
          .error .nullString := rfl
      constructor
      · intro h
        rw [h] at hfault
        cases hfault
      · intro h
        rcases h with ⟨t, _, _, ht, _⟩
        cases ht
  | some t =>
      rw [encodeReads, Traced.require_some_bind]
      cases hread : vaType t with
      | none =>
          constructor
          · intro h
            have hresult := congrArg Traced.result h
            cases hresult
          · intro h
            rcases h with ⟨t', read, _, ht, hread', _⟩
            rw [← Option.some.inj ht, hread] at hread'
            cases hread'
      | some read =>
          have hemit : (Traced.emit read : Traced VaType Fault Unit).result =
              .ok () := rfl
          rw [Traced.require_some_bind, Traced.bind_of_ok hemit]
          simp only [Traced.mk.injEq, Traced.emit_events, List.singleton_append]
          constructor
          · intro h
            rcases h with ⟨hevents, hresult⟩
            refine ⟨t, read, (encodeReads rest).events, rfl, hread, ?_,
              hevents.symm⟩
            rw [← hresult]
          · intro h
            rcases h with ⟨t', read', reads', ht, hread', hrest, hreads⟩
            rw [← Option.some.inj ht, hread] at hread'
            rw [hrest, hreads, ← Option.some.inj hread']
            exact ⟨rfl, rfl⟩

theorem encodeArgs_ok_iff {entries : List (Option CString × Option CString)}
    {params : Members} {args : List Value} :
    (exists members, (encodeArgs params entries args).result = .ok members) <->
      exists reads, encodeReads (entries.map Prod.snd) = ⟨reads, .ok ()⟩ ∧
        reads <+: args.map valueType := by
  induction entries generalizing params args with
  | nil =>
      exact ⟨fun _ => ⟨[], rfl, List.nil_prefix⟩, fun _ => ⟨params, rfl⟩⟩
  | cons entry rest ih =>
      rcases entry with ⟨name, type⟩
      simp only [List.map_cons, encodeReads_cons_ok_iff]
      constructor
      · intro h
        rcases h with ⟨members, h⟩
        cases type with
        | none => cases h
        | some t =>
            rw [encodeArgs_cons_eq] at h
            rcases Traced.bind_result_ok_iff.mp h with ⟨read, hread, h⟩
            rcases Traced.bind_result_ok_iff.mp h with ⟨r, hr, h⟩
            rcases vaArg_result_ok_iff.mp hr with ⟨arg, htype, hargs, _⟩
            rcases ih.mp ⟨members, h⟩ with ⟨reads, hreads, htypes⟩
            refine ⟨read :: reads, ⟨t, read, reads, rfl,
              require_result_ok_iff.mp hread, hreads, rfl⟩, ?_⟩
            rw [hargs, List.map_cons, htype]
            exact List.cons_prefix_cons.mpr ⟨rfl, htypes⟩
      · intro h
        rcases h with ⟨_, ⟨t, read, reads, rfl, hread, hreads, rfl⟩, htypes⟩
        cases args with
        | nil =>
            have hnil := List.prefix_nil.mp htypes
            cases hnil
        | cons arg args =>
            rw [List.map_cons, List.cons_prefix_cons] at htypes
            rcases htypes with ⟨htype, htypes⟩
            have hr : (vaArg read (arg :: args)).result =
                .ok (itemOf arg, args) :=
              vaArg_result_ok_iff.mpr ⟨arg, htype.symm, rfl, rfl⟩
            rcases ih.mpr ⟨reads, hreads, htypes⟩ with ⟨members, hmembers⟩
            refine ⟨members, ?_⟩
            rw [encodeArgs_cons_eq, hread, Traced.require_some_bind,
              Traced.bind_of_ok hr]
            exact hmembers

/-!
## Generator and encoder
-/

/-- One of the spellings that `rpc_generate_c_method` distinguishes. -/
def Distinguished (type : CString) : Prop :=
  type = .lit "char*" ∨ type = .lit "char *" ∨ type = .lit "int" ∨
    type = .lit "long" ∨ type = .lit "long long" ∨ type = .lit "float" ∨
    type = .lit "double"

instance (type : CString) : Decidable (Distinguished type) :=
  inferInstanceAs (Decidable (_ ∨ _ ∨ _ ∨ _ ∨ _ ∨ _ ∨ _))

/-- Searching the table, the encoder finds an entry and reads from the variadic
arguments exactly these types, without a failed assertion. -/
def EncoderReads (table : List RpcFunc) (method : CString)
    (passed : List (Option VaType)) : Prop :=
  exists func reads, Comparable table method ∧
    newest table method = some func ∧
    encodeReads (func.slots.entries.map Prod.snd) = ⟨reads, .ok ()⟩ ∧
    passed = reads.map some

theorem vaType_eq_promotedType_iff {type : CString}
    (h : Distinguished type) :
    (exists read, vaType type = some read ∧ promotedType type = some read) <->
      type ≠ .lit "char *" ∧ type ≠ .lit "long" ∧
        type ≠ .lit "long long" := by
  rcases h with rfl | rfl | rfl | rfl | rfl | rfl | rfl <;> decide

theorem encodeReads_types_iff {types : List CString}
    {passed : List (Option VaType)}
    (hpassed : passed = types.map promotedType) :
    (exists reads, encodeReads (types.map some) = ⟨reads, .ok ()⟩ ∧
        passed = reads.map some) <->
      forall t, t ∈ types ->
        exists read, vaType t = some read ∧ promotedType t = some read := by
  subst hpassed
  induction types with
  | nil =>
      constructor
      · intro _ t ht
        cases ht
      · intro _
        exact ⟨[], rfl, rfl⟩
  | cons t types ih =>
      simp only [List.map_cons, encodeReads_cons_ok_iff, List.forall_mem_cons]
      rw [← ih]
      constructor
      · intro h
        rcases h with
          ⟨_, ⟨t', read, reads, ht, hread, hreads, rfl⟩, hpassed⟩
        obtain rfl : t = t' := Option.some.inj ht
        rcases List.cons.inj hpassed with ⟨hfirst, hrest⟩
        exact ⟨⟨read, hread, hfirst⟩, reads, hreads, hrest⟩
      · intro h
        rcases h with ⟨⟨read, hread, hfirst⟩, reads, hreads, hrest⟩
        refine ⟨read :: reads, ⟨t, read, reads, rfl, hread, hreads, rfl⟩, ?_⟩
        rw [List.map_cons, hfirst, hrest]

/-- The encoder reads what the stub passes exactly when no parameter is spelled
in a way that only the generator knows. -/
theorem encoderReads_iff {table : List RpcFunc} {sig : Signature}
    {handler : Option Handler}
    (hfound : newest table sig.method = some (sig.func handler))
    (hdistinguished : forall p, p ∈ sig.params -> Distinguished p.2) :
    EncoderReads table sig.method
        (sig.params.map fun p => promotedType p.2) <->
      Comparable table sig.method ∧ forall p, p ∈ sig.params ->
        p.2 ≠ .lit "char *" ∧ p.2 ≠ .lit "long" ∧ p.2 ≠ .lit "long long" := by
  have htypes : (sig.func handler).slots.entries.map Prod.snd =
      (sig.params.map Prod.snd).map some := by
    rw [Signature.func, List.map_map, List.map_map]
    rfl
  have hpassed : (sig.params.map fun p => promotedType p.2) =
      (sig.params.map Prod.snd).map promotedType := by
    rw [List.map_map]
    rfl
  have hreads := encodeReads_types_iff hpassed
  rw [← htypes] at hreads
  have hspellings : (forall t, t ∈ sig.params.map Prod.snd ->
      exists read, vaType t = some read ∧ promotedType t = some read) <->
        forall p, p ∈ sig.params -> p.2 ≠ .lit "char *" ∧
          p.2 ≠ .lit "long" ∧ p.2 ≠ .lit "long long" := by
    rw [List.forall_mem_map]
    exact forall₂_congr fun p hp =>
      vaType_eq_promotedType_iff (hdistinguished p hp)
  rw [EncoderReads, hfound, ← hspellings, ← hreads]
  constructor
  · intro h
    rcases h with ⟨func, reads, hcomparable, hfunc, hreads, hpassed⟩
    obtain rfl : sig.func handler = func := Option.some.inj hfunc
    exact ⟨hcomparable, reads, hreads, hpassed⟩
  · intro h
    rcases h with ⟨hcomparable, reads, hreads, hpassed⟩
    exact ⟨_, reads, hcomparable, rfl, hreads, hpassed⟩

theorem add_encoderReads :
    EncoderReads registeredTable (.lit "add") [some .int, some .int] := by
  have hiff := @encoderReads_iff registeredTable addSignature
    (some rpcResponseJsonEncodeAdd) rfl (by decide)
  refine hiff.mpr ⟨?_, by decide⟩
  exact comparable_bound librpcMethod registerJson _

/-- A signature with a `long` parameter. -/
def longSignature : Signature where
  method := .lit "f"
  params := [(.lit "a", .lit "long")]
  rettype := .lit "long"
  within := by decide

/-- The encoder asserts that there is no `long` parameter. -/
theorem long_parameter_asserted :
    Distinguished (.lit "long") ∧
      (rpcDecodeRegisterJson librpcMethod
        (some (print (registerDocument (.lit "172.16.0.6") 9096
          [longSignature]))) .initial).result =
        .ok (0, {
          rpcServerIp := .live (.lit "172.16.0.6")
          rpcServerPort := (9096 : Int32).toInt16
          rpcCallerTable := [longSignature.bound librpcMethod]
          rpcGlobalCallerId := 0 }) ∧
      (forall args, (rpcRequestJsonEncode [longSignature.bound librpcMethod]
        (some (.lit "f")) 0 args).result = .error .assertion) ∧
      ¬ EncoderReads [longSignature.bound librpcMethod] (.lit "f")
        [some .long] := by
  refine ⟨by decide, ?_, fun args => rfl, fun h => ?_⟩
  · exact rpcDecodeRegisterJson_registerDocument librpcMethod
      (.lit "172.16.0.6") 9096 [longSignature] rfl
  · rcases h with ⟨func, reads, _, hfunc, hread, _⟩
    obtain rfl : longSignature.bound librpcMethod = func :=
      Option.some.inj hfunc
    have hreads : (encodeReads ((longSignature.bound
        librpcMethod).slots.entries.map Prod.snd)).result =
          .error .assertion := rfl
    rw [hread] at hreads
    cases hreads

end Call
end Z2wRpc
