import Z2wRpc.Dispatch.RegisterJson
import Z2wRpc.Generator.Emit

/-!
# The symbols of the handlers

The generator prints the name of a handler with the whole name of its method.
The loader builds the name that it looks up in a buffer of 64 bytes, so both
agree as long as prefix and name fit into the buffer.
-/

namespace Z2wRpc

open Foundation

namespace Generator

open CJson Dispatch

def handlerSymbol (method : CString) : CString :=
  (CString.lit "rpc_response_json_encode_").append method

/--
The generator defines the handler of the method under its symbol, and whatever
the dynamic library holds, the loader binds an entry of the method to what it
finds under that symbol.
-/
structure BoundToOwn (method : CString) : Prop where
  defined : forall type params,
    ((CString.lit "char* ").append (handlerSymbol method)).append (.lit "(") ∈
      (rpcGenerateCMethod (some method) (some type) params).events
  lookedUp : forall (find : CString -> Option Handler) (item : CJson)
    (func : RpcFunc),
    getObjectItem (some item) (.lit "method") = some (.string method) ->
      (registerEntry find (some item)).result = .ok func ->
      func.handler = find (handlerSymbol method)

/-- Whatever the library holds, entries of both methods are bound to the same
handler. -/
def SameHandler (method other : CString) : Prop :=
  forall (find : CString -> Option Handler) (item item' : CJson)
    (func func' : RpcFunc),
    getObjectItem (some item) (.lit "method") = some (.string method) ->
      getObjectItem (some item') (.lit "method") = some (.string other) ->
      (registerEntry find (some item)).result = .ok func ->
      (registerEntry find (some item')).result = .ok func' ->
      func.handler = func'.handler

/-!
## Emission
-/

theorem append_lit_empty (s : CString) : s.append (.lit "") = s := by
  ext1
  exact List.append_nil s.bytes

theorem append_assoc (a b c : CString) :
    (a.append b).append c = a.append (b.append c) := by
  ext1
  exact List.append_assoc a.bytes b.bytes c.bytes

theorem handlerSymbol_emitted (method type : CString) (params : List Param) :
    ((CString.lit "char* ").append (handlerSymbol method)).append (.lit "(") ∈
      (rpcGenerateCMethod (some method) (some type) params).events := by
  have hlit : CString.lit "char* rpc_response_json_encode_" =
      (CString.lit "char* ").append (.lit "rpc_response_json_encode_") := by
    decide
  have htext : ((CString.lit "char* ").append (handlerSymbol method)).append
      (.lit "(") =
        [.lit "char* rpc_response_json_encode_", method,
          .lit "("].foldr CString.append (.lit "") := by
    simp only [List.foldr_cons, List.foldr_nil, append_lit_empty, hlit,
      handlerSymbol, append_assoc]
  have hbody : (methodBody method type params).result = .ok () :=
    completes_methodBody method type params
  rw [rpcGenerateCMethod, Traced.mem_events_bind_iff, htext]
  refine Or.inr ⟨(), hbody, ?_⟩
  rw [Traced.mem_events_bind_iff]
  left
  rw [methodHandler, Traced.mem_events_bind_iff]
  exact Or.inl List.mem_cons_self

/-!
## Lookup
-/

theorem registerEntry_handler {find : CString -> Option Handler} {item : CJson}
    {func : RpcFunc} {method : CString}
    (hmethod : getObjectItem (some item) (.lit "method") =
      some (.string method))
    (h : (registerEntry find (some item)).result = .ok func) :
    func.handler = find (methodName (some method)) := by
  rw [registerEntry, hmethod,
    Traced.bind_of_ok (readValuestring_result_some _)] at h
  rcases Traced.bind_result_ok_iff.mp h with ⟨rettype, _, h⟩
  simp only at h
  split at h
  · cases h
  · rcases Traced.bind_result_ok_iff.mp h with ⟨slots, _, h⟩
    rw [← Except.ok.inj h]
    rfl

def plainEntry (method : CString) : EntryText where
  method := method
  params := []
  rettype := .lit "int"

theorem registerEntry_plainEntry (find : CString -> Option Handler)
    (method : CString) :
    exists func,
      (registerEntry find (some (plainEntry method).document)).result =
        .ok func ∧ func.handler = find (methodName (some method)) := by
  have hdescribes : Describes (plainEntry method).document
      (plainEntry method) := ⟨rfl, rfl, rfl, rfl⟩
  rcases registerEntry_of_describes find hdescribes (Nat.zero_le _) with
    ⟨func, hresult, hentry⟩
  exact ⟨func, hresult, hentry.handler⟩

def onlySymbol (symbol : CString) (name : CString) : Option Handler :=
  if name = symbol then some rpcResponseJsonEncodeAdd else none

theorem handlerPrefix_length :
    (CString.lit "rpc_response_json_encode_").bytes.length = 25 := by
  decide

theorem methodName_bytes (method : CString) :
    (methodName (some method)).bytes =
      (CString.lit "rpc_response_json_encode_").bytes ++
        method.bytes.take 38 := by
  rw [methodName, CString.take, CString.append, Option.getD_some]
  simp only [List.take_append, handlerPrefix_length]
  rw [List.take_of_length_le (by rw [handlerPrefix_length]; omega)]

theorem methodName_eq_iff (method other : CString) :
    methodName (some method) = methodName (some other) <->
      method.take 38 = other.take 38 := by
  rw [CString.ext_iff, CString.ext_iff, methodName_bytes, methodName_bytes,
    List.append_right_inj]
  rfl

theorem methodName_eq_handlerSymbol_iff (method : CString) :
    methodName (some method) = handlerSymbol method <->
      method.strlen <= 38 := by
  rw [CString.ext_iff, methodName_bytes, handlerSymbol, CString.append,
    List.append_right_inj, List.take_eq_self_iff, CString.strlen]

/-!
## The law
-/

theorem boundToOwn_iff (method : CString) :
    BoundToOwn method <-> method.strlen <= 38 := by
  rw [← methodName_eq_handlerSymbol_iff]
  constructor
  · intro hbound
    rcases registerEntry_plainEntry (onlySymbol (methodName (some method)))
      method with ⟨func, hresult, hhandler⟩
    have hown := hbound.lookedUp _ _ func rfl hresult
    rw [hhandler, onlySymbol, onlySymbol, if_pos rfl] at hown
    by_contra hne
    rw [if_neg (fun h => hne h.symm)] at hown
    cases hown
  · intro hsymbol
    refine ⟨handlerSymbol_emitted method, ?_⟩
    intro find item func hmethod hresult
    rw [registerEntry_handler hmethod hresult, hsymbol]

theorem sameHandler_iff (method other : CString) :
    SameHandler method other <-> method.take 38 = other.take 38 := by
  rw [← methodName_eq_iff]
  constructor
  · intro hsame
    let find := onlySymbol (methodName (some method))
    rcases registerEntry_plainEntry find method with
      ⟨func, hresult, hhandler⟩
    rcases registerEntry_plainEntry find other with
      ⟨func', hresult', hhandler'⟩
    have heq := hsame find _ _ func func' rfl rfl hresult hresult'
    by_contra hne
    have hfirst : find (methodName (some method)) =
        some rpcResponseJsonEncodeAdd := if_pos rfl
    have hsecond : find (methodName (some other)) = none :=
      if_neg (fun h => hne h.symm)
    rw [hhandler, hhandler', hfirst, hsecond] at heq
    cases heq
  · intro hsymbol find item item' func func' hmethod hother hresult hresult'
    rw [registerEntry_handler hmethod hresult,
      registerEntry_handler hother hresult', hsymbol]

/--
A method is bound to its own handler exactly when its name has at most 38
bytes; two methods share a handler exactly when their first 38 bytes agree.
-/
theorem handler_binding_iff (method : CString) :
    (BoundToOwn method <-> method.strlen <= 38) ∧
      forall other, SameHandler method other <->
        method.take 38 = other.take 38 :=
  ⟨boundToOwn_iff method, sameHandler_iff method⟩

def longName : CString where
  bytes := List.replicate 38 0x61#8
  noNul h := absurd (List.eq_of_mem_replicate h) (by decide)

def longerName : CString :=
  longName.append (.lit "b")

/-- The entry of the longer name gets the handler of the other method. -/
theorem longerName_bound_to_longName :
    longerName ≠ longName ∧ ¬ BoundToOwn longerName ∧
      SameHandler longerName longName := by
  refine ⟨by decide, ?_, ?_⟩
  · rw [boundToOwn_iff]
    decide
  · rw [sameHandler_iff]
    decide

end Generator
end Z2wRpc
