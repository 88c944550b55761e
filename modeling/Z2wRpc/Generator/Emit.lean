import Z2wRpc.Dispatch.Handler

/-!
# The emitted texts

What `rpc_generate_h_method` and `rpc_generate_c_method` write for one method:
a run of `fprintf` calls that a `NULL` type or a `NULL` name can stop.
-/

namespace Z2wRpc

open Foundation

namespace Generator

inductive Fault where
  -- a `NULL` string goes to `strcmp` or `fputs`
  | nullString
  -- `free` finds the memory behind an array overwritten
  | heapCorrupted
  -- a `NULL` stream goes to `fclose`
  | nullFile
  -- a pointer that was never assigned goes to `cJSON_Delete`
  | wildPointer
deriving DecidableEq

/-- Each event is the text of one `fprintf` call. -/
abbrev Emit := Traced CString Fault

/-- `param_str_arr[i]` and `type_str_arr[i]`. -/
abbrev Param := Option CString × Option CString

/-- An argument of `%s`, as glibc prints it. -/
def shown (s : Option CString) : CString :=
  s.getD (.lit "(null)")

def fprintf (pieces : List CString) : Emit Unit :=
  Traced.emit (pieces.foldr CString.append (.lit ""))

def forParams (paramNum : Nat) (item : Param -> Emit Unit) :
    Nat -> List Param -> Emit Unit
  | _, [] => return ()
  | i, param :: rest => do
      item param
      if (i : Int) ≠ (paramNum : Int) - 1 then
        fprintf [.lit ", "]
      forParams paramNum item (i + 1) rest

/-- `<type> <name>` in a parameter list. -/
def declaration (param : Param) : Emit Unit :=
  fprintf [shown param.2, .lit " ", shown param.1]

def declarations (params : List Param) : Emit Unit :=
  forParams params.length declaration 0 params

/-- `cjson_<name>->valuestring` or `cjson_<name>->valueint`. -/
def handlerArgument (param : Param) : Emit Unit := do
  let type ← Traced.require .nullString param.2
  if Dispatch.isCharPointer type then
    fprintf [.lit "cjson_", shown param.1, .lit "->valuestring"]
  else
    fprintf [.lit "cjson_", shown param.1, .lit "->valueint"]

def handlerLookup (param : Param) : Emit Unit :=
  fprintf [.lit "\tcJSON *cjson_", shown param.1,
    .lit " = cJSON_GetObjectItem(params, \"", shown param.1, .lit "\");\n"]

def handlerLookups : List Param -> Emit Unit
  | [] => return ()
  | param :: rest => do
      handlerLookup param
      handlerLookups rest

/-- One argument of the stub's call.  Its format is a `%s` alone, which compilers
turn into a call of `fputs`. -/
def stubArgument (param : Param) : Emit Unit := do
  let name ← Traced.require .nullString param.1
  fprintf [name]

def spelled (type : CString) (name : String) : Bool :=
  type == .lit name || type == (CString.lit name).append (.lit " ")

def stubConversion (type : CString) : Emit Unit :=
  if Dispatch.isCharPointer type then
    fprintf [.lit "\tchar *ret = strdup(result);\n"]
  else if spelled type "int" then
    fprintf [.lit "\tint ret = atoi(result);\n"]
  else if spelled type "long" then
    fprintf [.lit "\tlong ret = atol(result);\n"]
  else if spelled type "long long" then
    fprintf [.lit "\tlong long ret = atoll(result);\n"]
  else if spelled type "float" then
    fprintf [.lit "\tfloat ret = atof(result);\n"]
  else if spelled type "double" then
    fprintf [.lit "\tdouble ret = strtod(result, NULL);\n"]
  else
    fprintf [.lit "\t", type, .lit " ret = -1;\n"]

/-- `rpc_generate_h_method`; neither stream nor array is `NULL`. -/
def rpcGenerateHMethod (method type : Option CString) (params : List Param) :
    Emit Unit :=
  match method, type with
  | some method, some type => do
      fprintf [type, .lit " ", method, .lit "("]
      declarations params
      fprintf [.lit ");\n"]
      fprintf [.lit "char* rpc_response_json_encode_", method,
        .lit "(cJSON *params, rpc_task_t *task);\n"]
      fprintf [type, .lit " rpc_", method, .lit "("]
      declarations params
      fprintf [.lit ");\n"]
  | _, _ => return ()

def methodBody (method type : CString) (params : List Param) : Emit Unit := do
  fprintf [type, .lit " rpc_", method, .lit "("]
  declarations params
  fprintf [.lit ")\n\x7b\n"]
  if Dispatch.isCharPointer type then
    fprintf [.lit "\tchar *ret = NULL;\n"]
  else
    fprintf [.lit "\t", type, .lit " ret = -1;\n"]
  fprintf [.lit "\t/*to do..*/\n"]
  fprintf [.lit "\treturn ret;\n"]
  fprintf [.lit "\x7d\n\n"]

def methodHandler (method type : CString) (params : List Param) :
    Emit Unit := do
  fprintf [.lit "char* rpc_response_json_encode_", method, .lit "("]
  fprintf [.lit "cJSON *params, rpc_task_t *task)\n\x7b\n"]
  handlerLookups params
  fprintf [.lit "\t", type, .lit " ret = rpc_", method, .lit "("]
  forParams params.length handlerArgument 0 params
  fprintf [.lit ");\n"]
  fprintf [.lit "\tcJSON *root = cJSON_CreateObject();\n"]
  fprintf [.lit
    "\tcJSON_AddStringToObject(root, \"method\", task->method);\n"]
  if Dispatch.isCharPointer type then
    fprintf [.lit "\tcJSON_AddStringToObject(root, \"result\", ret);\n"]
  else
    fprintf [.lit "\tcJSON_AddNumberToObject(root, \"result\", ret);\n"]
  fprintf [.lit
    "\tcJSON_AddNumberToObject(root, \"callerid\", task->callerid);\n"]
  fprintf [.lit "\tchar *response = cJSON_Print(root);\n"]
  fprintf [.lit "\tcJSON_Delete(root);\n"]
  fprintf [.lit "\treturn response;\n"]
  fprintf [.lit "\x7d\n\n"]

def methodStub (method type : CString) (params : List Param) : Emit Unit := do
  fprintf [type, .lit " ", method, .lit "("]
  declarations params
  fprintf [.lit ")\n\x7b\n"]
  fprintf [.lit "\tchar *request = rpc_request_json_encode(",
    CString.ofBytes (decimal params.length), .lit ", "]
  forParams params.length stubArgument 0 params
  fprintf [.lit ");\n"]
  fprintf [.lit "\tchar *response = rpc_client_session(request);\n"]
  fprintf [.lit "\tchar *result = rpc_response_json_decode(response);\n"]
  stubConversion type
  fprintf [.lit "\trpc_free(result);\n"]
  fprintf [.lit "\trpc_free(response);\n"]
  fprintf [.lit "\trpc_free(request);\n"]
  fprintf [.lit "\treturn ret;\n"]
  fprintf [.lit "\x7d\n\n"]

def rpcGenerateCMethod (method type : Option CString) (params : List Param) :
    Emit Unit :=
  match method, type with
  | some method, some type => do
      methodBody method type params
      methodHandler method type params
      methodStub method type params
  | _, _ => return ()

/-!
## Where a text stops

The comparison of a parameter type in the handler's call and the name alone in
the stub's call can stop an emission, so it runs to its end exactly when every
type and every name is a string.
-/

def Completes (e : Emit Unit) : Prop :=
  e.result = .ok ()

theorem completes_fprintf (pieces : List CString) :
    Completes (fprintf pieces) := rfl

theorem completes_done : Completes (pure ()) := rfl

theorem completes_bind_iff (first second : Emit Unit) :
    Completes (first >>= fun _ => second) <->
      Completes first ∧ Completes second := by
  unfold Completes
  rw [Traced.bind_result_ok_iff]
  constructor
  · intro h
    rcases h with ⟨_, hfirst, hsecond⟩
    exact ⟨hfirst, hsecond⟩
  · intro h
    exact ⟨(), h.left, h.right⟩

theorem completes_ite {c : Prop} [Decidable c] {e e' : Emit Unit}
    (h : Completes e) (h' : Completes e') :
    Completes (if c then e else e') := by
  split
  · exact h
  · exact h'

theorem completes_forParams_iff (paramNum i : Nat) (item : Param -> Emit Unit)
    (params : List Param) :
    Completes (forParams paramNum item i params) <->
      forall param, param ∈ params -> Completes (item param) := by
  induction params generalizing i with
  | nil => simp [forParams, completes_done]
  | cons param rest ih =>
      rw [forParams]
      split
      · simp [completes_bind_iff, completes_fprintf, ih]
      · simp [completes_bind_iff, ih]

theorem completes_declarations (params : List Param) :
    Completes (declarations params) := by
  apply (completes_forParams_iff _ _ _ _).mpr
  intro param _
  exact completes_fprintf _

theorem completes_handlerLookups (params : List Param) :
    Completes (handlerLookups params) := by
  induction params with
  | nil => exact completes_done
  | cons param rest ih =>
      exact (completes_bind_iff _ _).mpr ⟨completes_fprintf _, ih⟩

theorem completes_handlerArgument_iff (param : Param) :
    Completes (handlerArgument param) <-> param.2 ≠ none := by
  rcases param with ⟨name, type⟩
  cases type with
  | none =>
      simp [Completes, handlerArgument, Traced.require, Traced.bind_def,
        Traced.bind]
  | some type =>
      simp only [handlerArgument, Traced.require_some_bind, ne_eq,
        reduceCtorEq, not_false_eq_true, iff_true]
      exact completes_ite (completes_fprintf _) (completes_fprintf _)

theorem completes_stubArgument_iff (param : Param) :
    Completes (stubArgument param) <-> param.1 ≠ none := by
  rcases param with ⟨name, type⟩
  cases name with
  | none =>
      simp [Completes, stubArgument, Traced.require, Traced.bind_def,
        Traced.bind]
  | some name =>
      simp only [stubArgument, Traced.require_some_bind, ne_eq, reduceCtorEq,
        not_false_eq_true, iff_true]
      exact completes_fprintf _

theorem completes_stubConversion (type : CString) :
    Completes (stubConversion type) := by
  unfold stubConversion
  repeat' apply completes_ite
  all_goals exact completes_fprintf _

theorem completes_rpcGenerateHMethod (method type : Option CString)
    (params : List Param) :
    Completes (rpcGenerateHMethod method type params) := by
  unfold rpcGenerateHMethod
  split
  · simp [completes_bind_iff, completes_fprintf, completes_declarations]
  · exact completes_done

theorem completes_methodBody (method type : CString) (params : List Param) :
    Completes (methodBody method type params) := by
  simp [methodBody, completes_bind_iff, completes_fprintf,
    completes_declarations, completes_ite]

def TypesAreStrings (params : List Param) : Prop :=
  forall param, param ∈ params -> param.2 ≠ none

theorem completes_methodHandler_iff (method type : CString)
    (params : List Param) :
    Completes (methodHandler method type params) <->
      TypesAreStrings params := by
  simp [methodHandler, completes_bind_iff, completes_fprintf,
    completes_handlerLookups, completes_forParams_iff,
    completes_handlerArgument_iff, completes_ite, TypesAreStrings]

def NamesAreStrings (params : List Param) : Prop :=
  forall param, param ∈ params -> param.1 ≠ none

theorem completes_methodStub_iff (method type : CString)
    (params : List Param) :
    Completes (methodStub method type params) <-> NamesAreStrings params := by
  simp [methodStub, completes_bind_iff, completes_fprintf,
    completes_declarations, completes_stubConversion, completes_forParams_iff,
    completes_stubArgument_iff, NamesAreStrings]

theorem completes_rpcGenerateCMethod_iff (method type : Option CString)
    (params : List Param) :
    Completes (rpcGenerateCMethod method type params) <->
      (method ≠ none -> type ≠ none ->
        TypesAreStrings params ∧ NamesAreStrings params) := by
  unfold rpcGenerateCMethod
  split
  · simp [completes_bind_iff, completes_methodBody,
      completes_methodHandler_iff, completes_methodStub_iff]
  · rename_i hnone
    constructor
    · intro _ hmethod htype
      rcases Option.ne_none_iff_exists'.mp hmethod with ⟨m, hm⟩
      rcases Option.ne_none_iff_exists'.mp htype with ⟨t, ht⟩
      exact absurd ht (hnone m t hm)
    · intro _
      exact completes_done

end Generator
end Z2wRpc
