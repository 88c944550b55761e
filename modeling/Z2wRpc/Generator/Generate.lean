import Z2wRpc.CJson.Parse
import Z2wRpc.Generator.Emit

/-!
# The code generator

`rpc_generate_method_code` reads a register file and writes `rpc_method.c` and
`rpc_method.h`.  A run records the calls it makes; what the calls answer is the
setting of the run.  Streams are buffered: `fprintf` appends to the buffer of a
stream, and the library decides how much of it goes to the file.
-/

namespace Z2wRpc

open Foundation

namespace Generator

open CJson

inductive Target where
  -- `rpc_method.c`
  | source
  -- `rpc_method.h`
  | header
deriving DecidableEq

inductive Block where
  | jsonBuf
  -- of the entry with this index
  | paramStrArr (i : Nat)
  | typeStrArr (i : Nat)
deriving DecidableEq

/-- The locals that `goto out` can leave unassigned. -/
inductive Local where
  | methodCFp
  | methodHFp
  | root
deriving DecidableEq

inductive Call where
  | open
  | seekEnd
  | seekStart
  | malloc (block : Block) (size : Int)
  | read (count : Int)
  | fopen (target : Target)
  | parse (text : CString)
  -- `width` bytes go to the block at this offset
  | store (block : Block) (offset width : Nat)
  | fprintf (target : Target) (text : CString)
  | printf (text : CString)
  | perror (text : CString)
  | close
  | free (block : Block)
  | delete
deriving DecidableEq

structure Setting where
  -- the contents of the register file, when it can be opened
  register : Option (List Byte)
  mallocs : Block -> Bool
  -- what the buffer and the memory behind it held before
  memory : List Byte
  -- how many bytes `read` has; without a number it fails
  delivers : Option Nat
  opens : Target -> Bool
  -- `cJSON_Parse` gets the memory that it asks for
  parses : Bool
  -- how much of a stream's buffer `fprintf` hands to the file
  flushes : Target -> List Byte -> Nat
  -- an unassigned local happens to hold `NULL`
  holdsNull : Local -> Bool

abbrev Gen := Traced Call Fault

def call (c : Call) : Gen Unit :=
  Traced.emit c

def refuse {α : Type} (text : String) : Gen (Option α) := do
  call (.printf (.lit text))
  return none

def emitTo (target : Target) (e : Emit Unit) : Gen Unit where
  events := e.events.map (.fprintf target)
  result := e.result

/-!
## The loop over the entries
-/

section

variable (s : Setting)

def free (block : Block) : Gen Unit :=
  if s.mallocs block then call (.free block) else return ()

/-- The two arrays of the entry with index `i`. -/
def freeArrays (i : Nat) : Gen Unit := do
  free s (.paramStrArr i)
  free s (.typeStrArr i)

/-- The bytes behind a pointer that `malloc (n)` of glibc returns: a chunk is a
multiple of 16 bytes long, 32 at least, and 8 of them are its own. -/
def usable (n : Nat) : Nat :=
  max 24 ((n + 23) / 16 * 16 - 8)

/--
The arrays are freed again with `n` pointers in each.  A store past its chunk
has overwritten the length of what lies behind it, which `free` checks.
-/
def freeFilled (i n : Nat) : Gen Unit :=
  if 8 * n <= usable n then freeArrays s i else Traced.fault .heapCorrupted

/--
The loop over the parameters, from index `j`.  A store past the end of its
array is recorded like any other; the writers still read its value.
-/
def collectParams (i : Nat) (params types : Option CJson) :
    Nat -> Nat -> Gen (Option (List Param))
  | 0, _ => return some []
  | n + 1, j =>
      match getArrayItem params j, getArrayItem types j with
      | some param, some type => do
          call (.store (.paramStrArr i) (8 * j) 8)
          call (.store (.typeStrArr i) (8 * j) 8)
          let rest ← collectParams i params types n (j + 1)
          return rest.map ((param.valuestring, type.valuestring) :: ·)
      | _, _ => do
          call (.printf (.lit "get param or type failed\n"))
          freeArrays s i
          return none

def generateMethod (i : Nat) (method rettype params types : CJson) :
    Gen (Option Unit) := do
  let size := getArraySize (some params)
  call (.malloc (.paramStrArr i) size)
  call (.malloc (.typeStrArr i) size)
  if s.mallocs (.paramStrArr i) && s.mallocs (.typeStrArr i) then
    let collected ← collectParams s i (some params) (some types) size 0
    match collected with
    | none => return none
    | some ps => do
        emitTo .header
          (rpcGenerateHMethod method.valuestring rettype.valuestring ps)
        emitTo .source
          (rpcGenerateCMethod method.valuestring rettype.valuestring ps)
        freeFilled s i size
        return some ()
  else do
    call (.printf (.lit "malloc param_str_arr or type_str_arr failed\n"))
    freeArrays s i
    return none

/-- The body of the loop over `config`; `none` is `goto out`. -/
def generateEntry (i : Nat) (config : Option CJson) : Gen (Option Unit) :=
  match config with
  | none => refuse "get config item failed\n"
  | some config =>
    match getObjectItem (some config) (.lit "method") with
    | none => refuse "get method name failed\n"
    | some method =>
      match getObjectItem (some config) (.lit "rettype") with
      | none => refuse "get rettype failed\n"
      | some rettype =>
        match getObjectItem (some config) (.lit "params"),
          getObjectItem (some config) (.lit "types") with
        | some params, some types =>
            if getArraySize (some params) ≠ getArraySize (some types) then
              refuse "params and types size not equal\n"
            else generateMethod s i method rettype params types
        | _, _ => refuse "get params or types failed\n"

/-- The loop over `config`, from index `i`. -/
def generateEntries (config : Option CJson) :
    Nat -> Nat -> Gen (Option Unit)
  | 0, _ => return some ()
  | n + 1, i => do
      let done ← generateEntry s i (getArrayItem config i)
      match done with
      | none => return none
      | some () => generateEntries config n (i + 1)

/-!
## The whole function
-/

def headerPreamble : Emit Unit := do
  fprintf [.lit "#ifndef __RPC_METHOD_H__\n"]
  fprintf [.lit "#define __RPC_METHOD_H__\n\n"]
  fprintf [.lit "#ifdef __cplusplus\n"]
  fprintf [.lit "extern \"C\" \x7b\n"]
  fprintf [.lit "#endif\n\n"]
  fprintf [.lit "#include \"cJSON.h\"\n"]
  fprintf [.lit "#include \"rpc.h\"\n"]
  fprintf [.lit "#include \"rpc_client.h\"\n\n"]

def sourcePreamble : Emit Unit := do
  fprintf [.lit "#include \"rpc_method.h\"\n\n"]
  fprintf [.lit "#include <stdio.h>\n"]
  fprintf [.lit "#include <stdlib.h>\n"]
  fprintf [.lit "#include <string.h>\n\n"]

def headerEnd : Emit Unit := do
  fprintf [.lit "#ifdef __cplusplus\n"]
  fprintf [.lit "\x7d\n"]
  fprintf [.lit "#endif\n\n"]
  fprintf [.lit "#endif\n"]

inductive Pointer where
  | unassigned
  | null
  | valid
deriving DecidableEq

/-- The locals that the clean-up behind `out` reads. -/
structure Locals where
  methodCFp : Pointer
  methodHFp : Pointer
  jsonBuf : Pointer
  root : Pointer

/-- The value of `lseek` that `file_size` keeps. -/
def fileSize (content : List Byte) : Int :=
  (Int32.ofNat content.length).toInt

/-- What `read` returns when it is asked for `count` bytes. -/
def readCount (content : List Byte) (count : Int) : Int :=
  match s.delivers with
  | none => -1
  | some n =>
      if count < 0 then min n content.length
      else min n (min content.length count.toNat)

/-- The text in `json_buf`, which nothing terminates. -/
def jsonText (content : List Byte) : CString :=
  let size := (fileSize content).toNat
  CString.ofBytes (content.take size ++ s.memory.drop size)

def pointer (valid : Bool) : Pointer :=
  if valid then .valid else .null

def generateDocument (root : CJson) : Gen Unit :=
  match getObjectItem (some root) (.lit "config") with
  | none => call (.printf (.lit "get config items failed\n"))
  | some config => do
      let done ← generateEntries s (some config) (getArraySize (some config)) 0
      match done with
      | none => return ()
      | some () => do
          emitTo .header headerEnd
          call (.printf (.lit "Generate rpc_method.h success\n"))
          call (.printf (.lit "Generate rpc_method.c success\n"))

def generateFiles (content : List Byte) : Gen Pointer := do
  emitTo .header headerPreamble
  emitTo .source sourcePreamble
  call (.parse (jsonText s content))
  match if s.parses then parse (jsonText s content) else none with
  | none => do
      call (.printf (.lit "parse register json file failed\n"))
      return .null
  | some root => do
      generateDocument s root
      return .valid

/-- From the open register file to the label `out`. -/
def generateFrom (content : List Byte) : Gen Locals := do
  call .seekEnd
  call .seekStart
  call (.malloc .jsonBuf (fileSize content + 1))
  if ¬ s.mallocs .jsonBuf then
    call (.perror (.lit "malloc json_buf failed"))
    return ⟨.unassigned, .unassigned, .null, .unassigned⟩
  else
    call (.read (fileSize content))
    if readCount s content (fileSize content) ≠ fileSize content then
      call (.perror (.lit "read register json file failed"))
      return ⟨.unassigned, .unassigned, .valid, .unassigned⟩
    else
      call (.fopen .source)
      call (.fopen .header)
      if s.opens .source && s.opens .header then
        let root ← generateFiles s content
        return ⟨.valid, .valid, .valid, root⟩
      else
        call (.perror (.lit "open rpc_method.c or rpc_method.h failed"))
        return ⟨pointer (s.opens .source), pointer (s.opens .header),
          .valid, .unassigned⟩

/-- The comparison of a local with `NULL`. -/
def isNull (var : Local) : Pointer -> Bool
  | .unassigned => s.holdsNull var
  | .null => true
  | .valid => false

/-- `if (fp == NULL) fclose(fp)`, as it stands. -/
def closeFile (var : Local) (fp : Pointer) : Gen Unit :=
  if isNull s var fp then Traced.fault .nullFile else return ()

def deleteRoot (root : Pointer) : Gen Unit :=
  if isNull s .root root then return ()
  else if root = .valid then call .delete
  else Traced.fault .wildPointer

def cleanUp (locals : Locals) : Gen Unit := do
  call .close
  closeFile s .methodCFp locals.methodCFp
  closeFile s .methodHFp locals.methodHFp
  if locals.jsonBuf = .valid then
    call (.free .jsonBuf)
  deleteRoot s locals.root

/-- `rpc_generate_method_code`; `ret` is never assigned again. -/
def rpcGenerateMethodCode : Gen Int := do
  call .open
  match s.register with
  | none => do
      call (.perror (.lit "open register json file failed"))
      return -1
  | some content => do
      let locals ← generateFrom s content
      cleanUp s locals
      return -1

/-!
## The files
-/

structure Files where
  contents : Target -> List Byte
  stream : Target -> Option (List Byte)

def Files.after (files : Files) : Call -> Files
  | .fopen target =>
      if s.opens target then {
        contents := Function.update files.contents target []
        stream := Function.update files.stream target (some []) }
      else files
  | .fprintf target text =>
      match files.stream target with
      | none => files
      | some buffer =>
          let unwritten := buffer ++ text.bytes
          let n := s.flushes target unwritten
          {
            contents := Function.update files.contents target
              (files.contents target ++ unwritten.take n)
            stream := Function.update files.stream target
              (some (unwritten.drop n)) }
  | _ => files

def Files.closed (contents : Target -> List Byte) : Files where
  contents := contents
  stream _ := none

def filesAfter (prior : Target -> List Byte) : Files :=
  (rpcGenerateMethodCode s).events.foldl (Files.after s) (Files.closed prior)

end

end Generator
end Z2wRpc
