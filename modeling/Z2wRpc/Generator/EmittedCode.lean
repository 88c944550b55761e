import Z2wRpc.Foundation.CFragment
import Z2wRpc.Generator.SameLists

/-!
# The emitted functions as trees

The texts that the writers print for an entry, read as three functions and
three prototypes.
-/

namespace Z2wRpc

open Foundation

namespace Generator

open CFragment Dispatch

/-!
## The functions
-/

def typed (type name : CString) : Declaration where
  specifier := type.append (.lit " ")
  name := name

def parameter (p : CString × CString) : Declaration :=
  typed p.2 p.1

def charPointer (name : CString) : Declaration where
  specifier := .lit "char *"
  name := name

def cjsonPointer (name : CString) : Declaration where
  specifier := .lit "cJSON *"
  name := name

def cjsonName (name : CString) : CString :=
  (CString.lit "cjson_").append name

def methodHead (entry : EntryText) : Head where
  declares := typed entry.rettype ((CString.lit "rpc_").append entry.method)
  params := entry.params.map parameter

def handlerHead (entry : EntryText) : Head where
  declares := {
    specifier := .lit "char* "
    name := (CString.lit "rpc_response_json_encode_").append entry.method }
  params := [cjsonPointer (.lit "params"),
    { specifier := .lit "rpc_task_t *", name := .lit "task" }]

def stubHead (entry : EntryText) : Head where
  declares := typed entry.rettype entry.method
  params := entry.params.map parameter

def methodFunction (entry : EntryText) : Function where
  head := methodHead entry
  body := [
    if isCharPointer entry.rettype then
      .declare (charPointer (.lit "ret")) (.operand (.literal (.lit "NULL")))
    else
      .declare (typed entry.rettype (.lit "ret"))
        (.operand (.literal (.lit "-1"))),
    .comment (.lit "to do.."),
    .ret (.name (.lit "ret"))]

def lookupStatement (p : CString × CString) : Statement :=
  .declare (cjsonPointer (cjsonName p.1))
    (.call (.lit "cJSON_GetObjectItem") [.name (.lit "params"),
      .literal ((CString.lit "\"").append (p.1.append (.lit "\"")))])

def itemOperand (p : CString × CString) : Operand :=
  .member (cjsonName p.1)
    (if isCharPointer p.2 then .lit "valuestring" else .lit "valueint")

def handlerFunction (entry : EntryText) : Function where
  head := handlerHead entry
  body := entry.params.map lookupStatement ++ [
    .declare (typed entry.rettype (.lit "ret"))
      (.call ((CString.lit "rpc_").append entry.method)
        (entry.params.map itemOperand)),
    .declare (cjsonPointer (.lit "root"))
      (.call (.lit "cJSON_CreateObject") []),
    .eval (.call (.lit "cJSON_AddStringToObject") [.name (.lit "root"),
      .literal (.lit "\"method\""), .member (.lit "task") (.lit "method")]),
    .eval (.call
      (if isCharPointer entry.rettype then .lit "cJSON_AddStringToObject"
        else .lit "cJSON_AddNumberToObject")
      [.name (.lit "root"), .literal (.lit "\"result\""),
        .name (.lit "ret")]),
    .eval (.call (.lit "cJSON_AddNumberToObject") [.name (.lit "root"),
      .literal (.lit "\"callerid\""),
      .member (.lit "task") (.lit "callerid")]),
    .declare (charPointer (.lit "response"))
      (.call (.lit "cJSON_Print") [.name (.lit "root")]),
    .eval (.call (.lit "cJSON_Delete") [.name (.lit "root")]),
    .ret (.name (.lit "response"))]

/-- The conversion of the result, with the declaration of `ret`. -/
def conversionStatement (type : CString) : Statement :=
  let converted (specifier callee : String) : Statement :=
    .declare ⟨.lit specifier, .lit "ret"⟩
      (.call (.lit callee) [.name (.lit "result")])
  if isCharPointer type then converted "char *" "strdup"
  else if spelled type "int" then converted "int " "atoi"
  else if spelled type "long" then converted "long " "atol"
  else if spelled type "long long" then converted "long long " "atoll"
  else if spelled type "float" then converted "float " "atof"
  else if spelled type "double" then
    .declare ⟨.lit "double ", .lit "ret"⟩
      (.call (.lit "strtod") [.name (.lit "result"), .literal (.lit "NULL")])
  else
    .declare (typed type (.lit "ret")) (.operand (.literal (.lit "-1")))

/-- The client stub, with what it passes to `rpc_request_json_encode`. -/
def stubFunction (entry : EntryText) (sent : List Operand) : Function where
  head := stubHead entry
  body := [
    .declare (charPointer (.lit "request"))
      (.call (.lit "rpc_request_json_encode") sent),
    .declare (charPointer (.lit "response"))
      (.call (.lit "rpc_client_session") [.name (.lit "request")]),
    .declare (charPointer (.lit "result"))
      (.call (.lit "rpc_response_json_decode") [.name (.lit "response")]),
    conversionStatement entry.rettype,
    .eval (.call (.lit "rpc_free") [.name (.lit "result")]),
    .eval (.call (.lit "rpc_free") [.name (.lit "response")]),
    .eval (.call (.lit "rpc_free") [.name (.lit "request")]),
    .ret (.name (.lit "ret"))]

/-!
## Texts of emissions
-/

def text (e : Emit Unit) : List Byte :=
  e.events.flatMap CString.bytes

theorem text_pure : text (pure ()) = [] := rfl

theorem text_bind {first : Emit Unit} (h : Completes first)
    (second : Emit Unit) :
    text (first >>= fun _ => second) = text first ++ text second := by
  rw [Traced.bind_of_ok h, text, List.flatMap_append]
  rfl

theorem text_fprintf (pieces : List CString) :
    text (fprintf pieces) = pieces.flatMap CString.bytes := by
  have hfold : (pieces.foldr CString.append (.lit "")).bytes =
      pieces.flatMap CString.bytes := by
    induction pieces with
    | nil => rfl
    | cons piece rest ih =>
        rw [List.foldr_cons, List.flatMap_cons, <- ih]
        rfl
  rw [fprintf, text, Traced.emit_events, List.flatMap_singleton, hfold]

theorem text_fprintf_bind (pieces : List CString) (rest : Emit Unit) :
    text (fprintf pieces >>= fun _ => rest) =
      pieces.flatMap CString.bytes ++ text rest := by
  rw [text_bind (completes_fprintf pieces), text_fprintf]

theorem text_forParams {item : Param -> Emit Unit} {params : List Param}
    {paramNum i : Nat} (hnum : i + params.length = paramNum)
    (hitem : forall param, param ∈ params -> Completes (item param)) :
    text (forParams paramNum item i params) =
      commaSeparated (params.map fun param => text (item param)) := by
  induction params generalizing i with
  | nil => rfl
  | cons param rest ih =>
      rw [List.forall_mem_cons] at hitem
      rw [List.length_cons] at hnum
      have hrest := ih (i := i + 1) (by omega) hitem.right
      rw [forParams]
      cases rest with
      | nil =>
          rw [List.length_nil] at hnum
          have hlast : ¬ (i : Int) ≠ (paramNum : Int) - 1 := by omega
          rw [text_bind hitem.left, if_neg hlast]
          simp [forParams, text_pure]
      | cons next rest =>
          rw [List.length_cons] at hnum
          have hmore : (i : Int) ≠ (paramNum : Int) - 1 := by omega
          have hcomma : (CString.lit ", ").bytes = ascii ", " := rfl
          rw [text_bind hitem.left, if_pos hmore, text_fprintf_bind, hrest,
            List.map_cons, List.map_cons, List.map_cons,
            commaSeparated_cons_cons, List.flatMap_singleton, hcomma]

theorem text_line {pieces : List CString} {line : Statement}
    {rest : Emit Unit} {others : List Byte}
    (hline : pieces.flatMap CString.bytes = line.text)
    (hrest : text rest = others) :
    text (fprintf pieces >>= fun _ => rest) = line.text ++ others := by
  rw [text_fprintf_bind, hline, hrest]

theorem text_choice {c : Prop} [Decidable c] {pieces others : List CString}
    {line : Statement} {rest : Emit Unit} {after : List Byte}
    (hthen : c -> pieces.flatMap CString.bytes = line.text)
    (helse : ¬ c -> others.flatMap CString.bytes = line.text)
    (hrest : text rest = after) :
    text (if c then fprintf pieces >>= fun _ => rest
      else fprintf others >>= fun _ => rest) = line.text ++ after := by
  split
  · rename_i hc
    exact text_line (hthen hc) hrest
  · rename_i hc
    exact text_line (helse hc) hrest

/-!
## Texts of the functions
-/

section

variable (entry : EntryText)

theorem text_forEntry {item : Param -> Emit Unit}
    {element : CString × CString -> List Byte}
    (hitem : forall p, p ∈ entry.params ->
      Completes (item (some p.1, some p.2)) ∧
        text (item (some p.1, some p.2)) = element p) :
    text (forParams (entryParams entry).length item 0 (entryParams entry)) =
      commaSeparated (entry.params.map element) := by
  have hcompletes : forall param, param ∈ entryParams entry ->
      Completes (item param) := by
    intro param hparam
    rcases List.mem_map.mp hparam with ⟨p, hp, rfl⟩
    exact (hitem p hp).left
  rw [text_forParams (Nat.zero_add _) hcompletes, entryParams, List.map_map]
  congr 1
  apply List.map_congr_left
  intro p hp
  exact (hitem p hp).right

theorem text_declarations :
    text (declarations (entryParams entry)) =
      commaSeparated ((entry.params.map parameter).map Declaration.text) := by
  rw [declarations, List.map_map]
  apply text_forEntry
  intro p _
  refine ⟨completes_fprintf _, ?_⟩
  rw [declaration, text_fprintf]
  simp [shown, parameter, typed, Declaration.text, CString.append]

theorem methodHead_pieces :
    [entry.rettype, .lit " rpc_", entry.method,
        .lit "("].flatMap CString.bytes =
      (methodHead entry).declares.text ++ ascii "(" := by
  simp only [List.flatMap_cons, List.flatMap_nil, List.append_nil, methodHead,
    typed, Declaration.text, CString.append, List.append_assoc]
  rfl

theorem stubHead_pieces :
    [entry.rettype, .lit " ", entry.method, .lit "("].flatMap CString.bytes =
      (stubHead entry).declares.text ++ ascii "(" := by
  simp only [List.flatMap_cons, List.flatMap_nil, List.append_nil, stubHead,
    typed, Declaration.text, CString.append, List.append_assoc]
  rfl

theorem text_openHead {head : Head} {pieces : List CString}
    {others : List Byte} {rest : Emit Unit}
    (hname : pieces.flatMap CString.bytes = head.declares.text ++ ascii "(")
    (hparams : head.params = entry.params.map parameter)
    (hrest : text rest = ascii ")" ++ others) :
    text (do
        fprintf pieces
        declarations (entryParams entry)
        rest) = head.text ++ others := by
  rw [text_fprintf_bind, text_bind (completes_declarations _),
    text_declarations, hname, hrest, Head.text, hparams]
  simp only [List.append_assoc]

theorem text_head {head : Head} {pieces : List CString} {close : CString}
    {after others : List Byte} {rest : Emit Unit}
    (hname : pieces.flatMap CString.bytes = head.declares.text ++ ascii "(")
    (hparams : head.params = entry.params.map parameter)
    (hclose : close.bytes = ascii ")" ++ after) (hrest : text rest = others) :
    text (do
        fprintf pieces
        declarations (entryParams entry)
        fprintf [close]
        rest) = head.text ++ (after ++ others) := by
  apply text_openHead entry hname hparams
  rw [text_fprintf_bind, List.flatMap_singleton, hclose, hrest,
    List.append_assoc]

theorem text_methodBody :
    text (methodBody entry.method entry.rettype (entryParams entry)) =
      (methodFunction entry).text := by
  rw [methodFunction, Function.text, methodBody]
  refine text_head entry (methodHead_pieces entry) rfl rfl ?_
  simp only [List.flatMap_cons, List.flatMap_nil, List.append_assoc,
    List.nil_append]
  refine text_choice ?_ ?_ ?_
  · intro htype
    rw [if_pos htype]
    rfl
  · intro htype
    rw [if_neg htype]
    simp only [List.flatMap_cons, List.flatMap_nil, List.append_nil, typed,
      Statement.text, Declaration.text, CString.append, List.append_assoc]
    rfl
  · refine text_line rfl ?_
    exact text_line rfl rfl

theorem text_handlerLookups (params : List (CString × CString)) :
    text (handlerLookups (params.map fun p => (some p.1, some p.2))) =
      (params.map lookupStatement).flatMap Statement.text := by
  induction params with
  | nil => rfl
  | cons p rest ih =>
      rw [List.map_cons, handlerLookups, List.map_cons, List.flatMap_cons]
      refine text_line ?_ ih
      simp only [shown, Option.getD_some, List.flatMap_cons, List.flatMap_nil,
        List.append_nil, List.append_assoc, lookupStatement, Statement.text,
        cjsonPointer, cjsonName, Declaration.text, CString.append, Expr.text,
        Operand.text, List.map_cons, List.map_nil, commaSeparated_cons_cons,
        commaSeparated_singleton]
      rfl

theorem completes_handlerArgument (p : CString × CString) :
    Completes (handlerArgument (some p.1, some p.2)) :=
  (completes_handlerArgument_iff _).mpr (Option.some_ne_none p.2)

theorem text_handlerArguments :
    text (forParams (entryParams entry).length handlerArgument 0
        (entryParams entry)) =
      commaSeparated ((entry.params.map itemOperand).map Operand.text) := by
  rw [List.map_map]
  apply text_forEntry
  intro p _
  refine ⟨completes_handlerArgument p, ?_⟩
  have hmember (field : CString) (arrow : String)
      (harrow : (CString.lit arrow).bytes = ascii "->" ++ field.bytes) :
      text (fprintf [.lit "cjson_", p.1, .lit arrow]) =
        (Operand.member (cjsonName p.1) field).text := by
    rw [text_fprintf]
    simp only [List.flatMap_cons, List.flatMap_nil, List.append_nil, harrow,
      Operand.text, cjsonName, CString.append, List.append_assoc]
  rw [handlerArgument, Traced.require_some_bind, Function.comp_apply,
    itemOperand]
  by_cases htype : isCharPointer p.2 = true
  · rw [if_pos htype, if_pos htype]
    exact hmember _ _ rfl
  · rw [if_neg htype, if_neg htype]
    exact hmember _ _ rfl

theorem completes_handlerArguments :
    Completes (forParams (entryParams entry).length handlerArgument 0
      (entryParams entry)) := by
  apply (completes_forParams_iff _ _ _ _).mpr
  intro param hparam
  rcases List.mem_map.mp hparam with ⟨p, _, rfl⟩
  exact completes_handlerArgument p

theorem text_handlerHead {rest : Emit Unit} {others : List Byte}
    (hrest : text rest = others) :
    text (do
        fprintf [.lit "char* rpc_response_json_encode_", entry.method,
          .lit "("]
        fprintf [.lit "cJSON *params, rpc_task_t *task)\n\x7b\n"]
        rest) =
      (handlerHead entry).text ++ (ascii "\n\x7b\n" ++ others) := by
  rw [text_fprintf_bind, text_fprintf_bind, hrest]
  simp only [List.flatMap_cons, List.flatMap_nil, List.append_nil, handlerHead,
    Head.text, Declaration.text, CString.append, List.append_assoc]
  rfl

theorem text_handlerCall {rest : Emit Unit} {others : List Byte}
    (hrest : text rest = others) :
    text (do
        fprintf [.lit "\t", entry.rettype, .lit " ret = rpc_", entry.method,
          .lit "("]
        forParams (entryParams entry).length handlerArgument 0
          (entryParams entry)
        fprintf [.lit ");\n"]
        rest) =
      (Statement.declare (typed entry.rettype (.lit "ret"))
        (.call ((CString.lit "rpc_").append entry.method)
          (entry.params.map itemOperand))).text ++ others := by
  rw [text_fprintf_bind, text_bind (completes_handlerArguments entry),
    text_handlerArguments, text_fprintf_bind, hrest]
  simp only [List.flatMap_cons, List.flatMap_nil, List.append_nil, typed,
    Statement.text, Declaration.text, Expr.text, CString.append,
    List.append_assoc]
  rfl

theorem text_methodHandler :
    text (methodHandler entry.method entry.rettype (entryParams entry)) =
      (handlerFunction entry).text := by
  have hlookups : text (handlerLookups (entryParams entry)) =
      (entry.params.map lookupStatement).flatMap Statement.text :=
    text_handlerLookups entry.params
  rw [methodHandler, handlerFunction, Function.text]
  refine text_handlerHead entry ?_
  rw [text_bind (completes_handlerLookups _), hlookups, List.flatMap_append,
    List.append_assoc]
  congr 1
  simp only [List.flatMap_cons, List.flatMap_nil, List.append_assoc,
    List.nil_append]
  refine text_handlerCall entry ?_
  refine text_line rfl ?_
  refine text_line rfl ?_
  refine text_choice ?_ ?_ ?_
  · intro htype
    rw [if_pos htype]
    rfl
  · intro htype
    rw [if_neg htype]
    rfl
  · iterate 4 refine text_line rfl ?_
    rfl

/-- What the stub passes to `rpc_request_json_encode`, as its text has it. -/
def sentOperands : List Operand :=
  .literal (CString.ofBytes (decimal entry.params.length)) ::
    if entry.params = [] then [.literal (.lit "")]
    else entry.params.map fun p => .name p.1

theorem text_sent :
    text (forParams (entryParams entry).length stubArgument 0
        (entryParams entry)) =
      commaSeparated (entry.params.map fun p => p.1.bytes) := by
  apply text_forEntry
  intro p _
  rw [stubArgument, Traced.require_some_bind, text_fprintf,
    List.flatMap_singleton]
  exact ⟨completes_fprintf _, rfl⟩

theorem text_conversion {rest : Emit Unit} {others : List Byte}
    (hrest : text rest = others) :
    text (stubConversion entry.rettype >>= fun _ => rest) =
      (conversionStatement entry.rettype).text ++ others := by
  rw [text_bind (completes_stubConversion _), hrest]
  congr 1
  unfold stubConversion conversionStatement
  split_ifs
  case neg =>
    rw [text_fprintf]
    simp only [List.flatMap_cons, List.flatMap_nil, List.append_nil, typed,
      Statement.text, Declaration.text, CString.append, List.append_assoc]
    rfl
  all_goals rfl

theorem text_stubRequest {rest : Emit Unit} {others : List Byte}
    (hrest : text rest = others) :
    text (do
        fprintf [.lit "\tchar *request = rpc_request_json_encode(",
          CString.ofBytes (decimal (entryParams entry).length), .lit ", "]
        forParams (entryParams entry).length stubArgument 0
          (entryParams entry)
        fprintf [.lit ");\n"]
        rest) =
      (Statement.declare (charPointer (.lit "request"))
        (.call (.lit "rpc_request_json_encode") (sentOperands entry))).text ++
          others := by
  have hcompletes : Completes (forParams (entryParams entry).length
      stubArgument 0 (entryParams entry)) := by
    apply (completes_forParams_iff _ _ _ _).mpr
    intro param hparam
    rcases List.mem_map.mp hparam with ⟨p, _, rfl⟩
    exact completes_fprintf [p.1]
  have hsent : commaSeparated ((sentOperands entry).map Operand.text) =
      (CString.ofBytes (decimal entry.params.length)).bytes ++ (ascii ", " ++
        commaSeparated (entry.params.map fun p => p.1.bytes)) := by
    unfold sentOperands
    cases hparams : entry.params with
    | nil => rfl
    | cons p rest =>
        rw [if_neg (List.cons_ne_nil p rest), List.map_cons, List.map_map,
          List.map_cons, commaSeparated_cons_cons]
        rfl
  rw [text_fprintf_bind, text_bind hcompletes, text_sent, text_fprintf_bind,
    hrest]
  simp only [List.flatMap_cons, List.flatMap_nil, List.append_nil,
    Statement.text, charPointer, Declaration.text, Expr.text, hsent,
    List.append_assoc, entryParams, List.length_map]
  rfl

theorem text_methodStub :
    text (methodStub entry.method entry.rettype (entryParams entry)) =
      (stubFunction entry (sentOperands entry)).text := by
  rw [methodStub, stubFunction, Function.text]
  refine text_head entry (stubHead_pieces entry) rfl rfl ?_
  simp only [List.flatMap_cons, List.flatMap_nil, List.append_assoc,
    List.nil_append]
  refine text_stubRequest entry ?_
  iterate 2 refine text_line rfl ?_
  refine text_conversion entry ?_
  iterate 4 refine text_line rfl ?_
  rfl

/-!
## The two files
-/

def functions (sent : List Operand) : List Function :=
  [methodFunction entry, handlerFunction entry, stubFunction entry sent]

def heads : List Head :=
  [stubHead entry, handlerHead entry, methodHead entry]

theorem text_source :
    text (writer .source entry) =
      (functions entry (sentOperands entry)).flatMap Function.text := by
  have hhandler : Completes (methodHandler entry.method entry.rettype
      (entryParams entry)) := by
    apply (completes_methodHandler_iff _ _ _).mpr
    intro param hparam
    rcases List.mem_map.mp hparam with ⟨p, _, rfl⟩
    exact Option.some_ne_none p.2
  rw [writer, rpcGenerateCMethod, text_bind (completes_methodBody _ _ _),
    text_bind hhandler, text_methodBody, text_methodHandler, text_methodStub]
  simp [functions]

theorem text_header :
    text (writer .header entry) = (heads entry).flatMap Head.prototype := by
  have hhandler : [.lit "char* rpc_response_json_encode_", entry.method,
      .lit "(cJSON *params, rpc_task_t *task);\n"].flatMap CString.bytes =
        (handlerHead entry).prototype := by
    simp only [List.flatMap_cons, List.flatMap_nil, List.append_nil,
      handlerHead, Head.prototype, Head.text, Declaration.text, CString.append,
      List.append_assoc]
    rfl
  rw [writer, rpcGenerateHMethod]
  simp only [heads, List.flatMap_cons, List.flatMap_nil, Head.prototype,
    List.append_assoc, List.append_nil]
  refine text_head entry (stubHead_pieces entry) rfl rfl ?_
  rw [text_fprintf_bind, hhandler, Head.prototype, List.append_assoc]
  congr 2
  exact text_openHead entry (methodHead_pieces entry) rfl rfl

/-- The text that the body of the loop over `config` prints for an element. -/
def written (s : Setting) (i : Nat) (item : CJson) (target : Target) :
    List Byte :=
  (printed target (generateEntry s i (some item))).flatMap CString.bytes

theorem written_of_lists {s : Setting} {i : Nat} {item : CJson}
    (hwritten : WrittenEntry s i (some item)) (hlists : Lists item entry) :
    written s i item .source =
        (functions entry (sentOperands entry)).flatMap Function.text ∧
      written s i item .header = (heads entry).flatMap Head.prototype := by
  have hcode (target : Target) : printed target
      (generateEntry s i (some item)) = codeOf target entry := by
    rw [printed_generateEntry hwritten, codeOfItem, shownEntry_of_lists hlists]
    simp
  rw [written, written, hcode, hcode]
  exact ⟨text_source entry, text_header entry⟩

end

end Generator
end Z2wRpc
