import Z2wRpc.Dispatch.Handler

/-!
# The caller table

`rpc_decode_register_json` reads a register document into the global variables
of the process: the server address and a linked list of entries, the newest in
front.  An entry has a fixed number of slots for its parameters.
-/

namespace Z2wRpc

open Foundation

namespace Dispatch

open CJson

def rpcParamsMaxCount : Nat := 16

/-- The filled slots of `params` and `types`. -/
@[ext] structure Slots where
  entries : List (Option CString × Option CString)
  within : entries.length <= rpcParamsMaxCount

namespace Slots

def empty : Slots where
  entries := []
  within := Nat.zero_le _

def store (slots : Slots) (param type : Option CString) : Run Slots :=
  if h : slots.entries.length < rpcParamsMaxCount then
    return {
      entries := slots.entries ++ [(param, type)]
      within := by simpa using h }
  else Traced.fault .outOfBounds

end Slots

/-- `rpc_func_t`; the list node is an element of the table. -/
structure RpcFunc where
  method : Option CString
  slots : Slots
  rettype : Option CString
  handler : Option Handler

/-- `rpc_server_ip`: the string belongs to the document it was read from. -/
inductive ServerIp where
  | null
  | live (ip : CString)
  | released

structure Globals where
  rpcServerIp : ServerIp
  rpcServerPort : Int16
  rpcCallerTable : List RpcFunc
  rpcGlobalCallerId : Int32

def Globals.initial : Globals where
  rpcServerIp := .null
  rpcServerPort := 0
  rpcCallerTable := []
  rpcGlobalCallerId := 0

def rpcGetCallerId (globals : Globals) : Int32 × Globals :=
  (globals.rpcGlobalCallerId,
    { globals with rpcGlobalCallerId := globals.rpcGlobalCallerId + 1 })

/-!
## Loading
-/

/-- The name that `snprintf` leaves in the 64 bytes of `method_name`. -/
def methodName (method : Option CString) : CString :=
  ((CString.lit "rpc_response_json_encode_").append
    (method.getD (.lit "(null)"))).take 63

/-- The loop over the parameters of one entry, from index `j`. -/
def readSlots (params types : Option CJson) :
    Nat -> Nat -> Slots -> Run Slots
  | 0, _, slots => return slots
  | n + 1, j, slots => do
      let param ← readValuestring (getArrayItem params j)
      let type ← readValuestring (getArrayItem types j)
      let slots ← slots.store param type
      readSlots params types n (j + 1) slots

/-- The body of the loop over `config`; `find` is `rpc_method_find`. -/
def registerEntry (find : CString -> Option Handler) (iter : Option CJson) :
    Run RpcFunc := do
  let method ← readValuestring (getObjectItem iter (.lit "method"))
  let rettype ← readValuestring (getObjectItem iter (.lit "rettype"))
  let params := getObjectItem iter (.lit "params")
  let types := getObjectItem iter (.lit "types")
  if getArraySize params ≠ getArraySize types then
    Traced.fault .assertion
  else
    let slots ← readSlots params types (getArraySize params) 0 Slots.empty
    return {
      method := method
      slots := slots
      rettype := rettype
      handler := find (methodName method) }

/-- The loop over `config`, from index `i`. -/
def registerEntries (find : CString -> Option Handler)
    (config : Option CJson) : Nat -> Nat -> List RpcFunc -> Run (List RpcFunc)
  | 0, _, table => return table
  | n + 1, i, table => do
      let func ← registerEntry find (getArrayItem config i)
      registerEntries find config n (i + 1) (func :: table)

/-- `free(rpc_server_ip)`, when there is an address. -/
def freeServerIp : ServerIp -> Run Unit
  | .released => Traced.fault .useAfterFree
  | _ => return ()

/--
`rpc_decode_register_json`: the returned code and the globals afterwards.  The
error path behind `out` deletes the document and with it the address that was
just taken from it.
-/
def rpcDecodeRegisterJson (find : CString -> Option Handler)
    (json : Option CString) (globals : Globals) : Run (Int × Globals) :=
  match json.bind parse with
  | none => return (-1, globals)
  | some root =>
      match getObjectItem (some root) (.lit "remote") with
      | some (.string remote) => do
          freeServerIp globals.rpcServerIp
          match getObjectItem (some root) (.lit "port") with
          | some (.number port) => do
              let config := getObjectItem (some root) (.lit "config")
              let table ← registerEntries find config (getArraySize config) 0
                globals.rpcCallerTable
              return (0, {
                globals with
                rpcServerIp := .live remote
                rpcServerPort := (saturate port).toInt16
                rpcCallerTable := table })
          | _ => return (-4, { globals with rpcServerIp := .released })
      | _ => return (-3, globals)

/-- The globals that a process can have after loading register documents. -/
inductive Loaded (find : CString -> Option Handler) : Globals -> Prop where
  | initial : Loaded find .initial
  | load {globals globals' : Globals} {code : Int} (json : Option CString)
      (before : Loaded find globals)
      (run : (rpcDecodeRegisterJson find json globals).result =
        .ok (code, globals')) :
      Loaded find globals'

/-!
## Looking up an entry
-/

def sameString (a b : Option CString) : Run Bool := do
  let a ← Traced.require .nullString a
  let b ← Traced.require .nullString b
  return a == b

/--
The walk along the table.  The name it compares with is an expression that is
evaluated again for every entry.
-/
def findFunc (name : Run (Option CString)) :
    List RpcFunc -> Run (Option RpcFunc)
  | [] => return none
  | func :: rest => do
      let name' ← name
      let same ← sameString func.method name'
      if same then return some func else findFunc name rest

def newest (table : List RpcFunc) (name : CString) : Option RpcFunc :=
  table.find? fun func => func.method == some name

/-- The entries that are compared in front of the newest match have names. -/
def Comparable (table : List RpcFunc) (name : CString) : Prop :=
  forall func, func ∈ table.takeWhile (fun func => func.method != some name) ->
    func.method ≠ none

theorem newest_cons_of_eq {func : RpcFunc} {name : CString}
    (h : func.method = some name) (rest : List RpcFunc) :
    newest (func :: rest) name = some func := by
  simp [newest, h]

theorem newest_cons_of_ne {func : RpcFunc} {name : CString}
    (h : func.method ≠ some name) (rest : List RpcFunc) :
    newest (func :: rest) name = newest rest name := by
  simp [newest, h]

theorem comparable_cons_of_eq {func : RpcFunc} {name : CString}
    (h : func.method = some name) (rest : List RpcFunc) :
    Comparable (func :: rest) name := by
  simp [Comparable, h]

theorem comparable_cons_of_ne {func : RpcFunc} {name : CString}
    (h : func.method ≠ some name) (rest : List RpcFunc) :
    Comparable (func :: rest) name <->
      func.method ≠ none ∧ Comparable rest name := by
  simp [Comparable, h]

theorem comparable_of_named {table : List RpcFunc}
    (h : forall func, func ∈ table -> func.method ≠ none) (name : CString) :
    Comparable table name := by
  intro func hfunc
  exact h func ((List.takeWhile_sublist _).mem hfunc)

theorem findFunc_result {name : Run (Option CString)} {n : CString}
    (hname : name.result = .ok (some n)) (table : List RpcFunc) :
    (Comparable table n ->
      (findFunc name table).result = .ok (newest table n)) ∧
    (¬ Comparable table n ->
      (findFunc name table).result = .error .nullString) := by
  induction table with
  | nil => exact ⟨fun _ => rfl, fun h => absurd (by simp [Comparable]) h⟩
  | cons func rest ih =>
      rw [findFunc, Traced.bind_of_ok hname]
      cases hmethod : func.method with
      | none =>
          have hne : func.method ≠ some n := by simp [hmethod]
          rw [comparable_cons_of_ne hne]
          exact ⟨fun h => absurd hmethod h.left, fun _ => rfl⟩
      | some m =>
          by_cases hm : m = n
          · have heq : func.method = some n := by rw [hmethod, hm]
            rw [newest_cons_of_eq heq]
            refine ⟨fun _ => ?_, fun h => absurd (comparable_cons_of_eq heq rest) h⟩
            have hsame : (sameString (some m) (some n)).result = .ok true := by
              rw [hm]
              simp [sameString, Traced.require, Traced.bind_def, Traced.bind,
                Traced.done]
            simp only [Traced.bind_of_ok hsame]
            rfl
          · have hne : func.method ≠ some n := by simp [hmethod, hm]
            have hsame : (sameString (some m) (some n)).result = .ok false := by
              simp [sameString, Traced.require, Traced.bind_def, Traced.bind,
                Traced.done, hm]
            rw [newest_cons_of_ne hne, comparable_cons_of_ne hne, hmethod]
            simp only [Traced.bind_of_ok hsame]
            simpa using ih

theorem findFunc_pure (n : CString) (table : List RpcFunc) :
    (Comparable table n ->
      (findFunc (pure (some n)) table).result = .ok (newest table n)) ∧
    (¬ Comparable table n ->
      (findFunc (pure (some n)) table).result = .error .nullString) :=
  findFunc_result rfl table

end Dispatch
end Z2wRpc
