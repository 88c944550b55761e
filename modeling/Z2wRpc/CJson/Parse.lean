import Z2wRpc.CJson.Tree
import Z2wRpc.CJson.Number

/-!
# Parsing

`cJSON_Parse` over the unread part of its buffer.  The buffer ends with the
terminator of the string, which counts as white space but is never stepped
over.  Recursion is bounded by fuel; the nesting depth is the code's own limit.
-/

namespace Z2wRpc

open Foundation

namespace CJson

def nestingLimit : Nat := 1000

/--
`buffer_skip_whitespace`.  When everything up to the end of the buffer is white
space, the offset is moved back onto the last byte.
-/
def skipWhitespace (bs : List Byte) : List Byte :=
  match bs.dropWhile (·.toNat <= 32) with
  | [] => bs.getLast?.toList
  | rest => rest

def skipUtf8Bom (bs : List Byte) : List Byte :=
  if 4 < bs.length ∧ [0xEF#8, 0xBB#8, 0xBF#8].isPrefixOf bs then bs.drop 3
  else bs

/-- A hexadecimal digit of `parse_hex4`. -/
def hexValue (b : Byte) : Option Nat :=
  let n := b.toNat
  if 48 <= n ∧ n <= 57 then some (n - 48)
  else if 65 <= n ∧ n <= 70 then some (n - 55)
  else if 97 <= n ∧ n <= 102 then some (n - 87)
  else none

/-- `parse_hex4`: an invalid digit makes the whole code zero. -/
def parseHex4 (a b c d : Byte) : Nat :=
  match hexValue a, hexValue b, hexValue c, hexValue d with
  | some a, some b, some c, some d => ((a * 16 + b) * 16 + c) * 16 + d
  | _, _, _, _ => 0

def utf8Bytes (codepoint : Nat) : List Byte :=
  let tail (k : Nat) : Byte := BitVec.ofNat 8 (0x80 + codepoint / 64 ^ k % 64)
  if codepoint < 0x80 then [BitVec.ofNat 8 codepoint]
  else if codepoint < 0x800 then
    [BitVec.ofNat 8 (0xC0 + codepoint / 64), tail 0]
  else if codepoint < 0x10000 then
    [BitVec.ofNat 8 (0xE0 + codepoint / 64 ^ 2), tail 1, tail 0]
  else [BitVec.ofNat 8 (0xF0 + codepoint / 64 ^ 3), tail 2, tail 1, tail 0]

/--
The first loop of `parse_string`: the characters up to the closing quote and
what follows the quote.  A backslash takes the next character with it.
-/
def scanLiteral : List Byte -> Option (List Byte × List Byte)
  | [] => none
  | b :: rest =>
      if b = 0x22#8 then some ([], rest)
      else if b = 0x5c#8 then
        match rest with
        | [] => none
        | c :: rest => (scanLiteral rest).map fun r => (b :: c :: r.1, r.2)
      else (scanLiteral rest).map fun r => (b :: r.1, r.2)

/-- The one-character escapes of `parse_string`. -/
def simpleEscape (c : Byte) : Option Byte :=
  if c = 0x62#8 then some 0x08#8
  else if c = 0x66#8 then some 0x0c#8
  else if c = 0x6e#8 then some 0x0a#8
  else if c = 0x72#8 then some 0x0d#8
  else if c = 0x74#8 then some 0x09#8
  else if c = 0x22#8 ∨ c = 0x5c#8 ∨ c = 0x2f#8 then some c
  else none

/-- `utf16_literal_to_utf8`: the encoded character and what follows it. -/
def utf16Literal : List Byte -> Option (List Byte × List Byte)
  | a :: b :: c :: d :: rest =>
      let first := parseHex4 a b c d
      if 0xDC00 <= first ∧ first <= 0xDFFF then none
      else if 0xD800 <= first ∧ first <= 0xDBFF then
        match rest with
        | s :: u :: a' :: b' :: c' :: d' :: rest =>
            let second := parseHex4 a' b' c' d'
            if s ≠ 0x5c#8 ∨ u ≠ 0x75#8 then none
            else if second < 0xDC00 ∨ 0xDFFF < second then none
            else
              some (utf8Bytes
                (0x10000 + (first % 0x400) * 0x400 + second % 0x400), rest)
        | _ => none
      else some (utf8Bytes first, rest)
  | _ => none

/-- The second loop of `parse_string`, over the characters of the literal. -/
def unescape : Nat -> List Byte -> Option (List Byte)
  | 0, _ => none
  | _, [] => some []
  | fuel + 1, b :: rest =>
      if b ≠ 0x5c#8 then (unescape fuel rest).map (b :: ·)
      else
        match rest with
        -- the character after a last backslash is the closing quote
        | [] => some [0x22#8]
        | c :: rest =>
            if c = 0x75#8 then
              (utf16Literal rest).bind fun r =>
                (unescape fuel r.2).map (r.1 ++ ·)
            else
              (simpleEscape c).bind fun e => (unescape fuel rest).map (e :: ·)

/--
`parse_string`.  The item keeps a C string, which ends at the first NUL that an
escape may have produced.
-/
def parseString : List Byte -> Option (CString × List Byte)
  | [] => none
  | b :: rest =>
      if b = 0x22#8 then
        (scanLiteral rest).bind fun r =>
          (unescape (r.1.length + 1) r.1).map fun s => (CString.ofBytes s, r.2)
      else none

mutual

/-- `parse_value`, with `parse_array` and `parse_object`. -/
def parseValue (fuel depth : Nat) (bs : List Byte) :
    Option (CJson × List Byte) :=
  match fuel with
  | 0 => none
  | fuel + 1 =>
      if (ascii "null").isPrefixOf bs then some (.null, bs.drop 4)
      else if (ascii "false").isPrefixOf bs then some (.bool false, bs.drop 5)
      else if (ascii "true").isPrefixOf bs then some (.bool true, bs.drop 4)
      else
        match bs with
        | [] => none
        | b :: rest =>
            if b = 0x22#8 then
              (parseString bs).map fun r => (.string r.1, r.2)
            else if b = 0x2d#8 ∨ isDigit b then parseNumber bs
            else if b = 0x5b#8 then
              if nestingLimit <= depth then none
              else
                match skipWhitespace rest with
                | [] => none
                | c :: rest =>
                    if c = 0x5d#8 then some (.array [], rest)
                    else
                      (parseItems fuel (depth + 1) (c :: rest)).map fun r =>
                        (.array r.1, r.2)
            else if b = 0x7b#8 then
              if nestingLimit <= depth then none
              else
                match skipWhitespace rest with
                | [] => none
                | c :: rest =>
                    if c = 0x7d#8 then some (.object [], rest)
                    else
                      (parseMembers fuel (depth + 1) (c :: rest)).map fun r =>
                        (.object r.1, r.2)
            else none

/-- The element loop of `parse_array`, from the start of an element. -/
def parseItems (fuel depth : Nat) (bs : List Byte) :
    Option (List CJson × List Byte) :=
  match fuel with
  | 0 => none
  | fuel + 1 =>
      (parseValue fuel depth (skipWhitespace bs)).bind fun (item, rest) =>
        match skipWhitespace rest with
        | [] => none
        | c :: rest =>
            if c = 0x2c#8 then
              (parseItems fuel depth rest).map fun r => (item :: r.1, r.2)
            else if c = 0x5d#8 then some ([item], rest)
            else none

/-- The member loop of `parse_object`, from the start of a member. -/
def parseMembers (fuel depth : Nat) (bs : List Byte) :
    Option (List (CString × CJson) × List Byte) :=
  match fuel with
  | 0 => none
  | fuel + 1 =>
      (parseString (skipWhitespace bs)).bind fun (name, rest) =>
        match skipWhitespace rest with
        | [] => none
        | colon :: rest =>
            if colon = 0x3a#8 then
              (parseValue fuel depth (skipWhitespace rest)).bind
                fun (item, rest) =>
                  match skipWhitespace rest with
                  | [] => none
                  | c :: rest =>
                      if c = 0x2c#8 then
                        (parseMembers fuel depth rest).map fun r =>
                          ((name, item) :: r.1, r.2)
                      else if c = 0x7d#8 then some ([(name, item)], rest)
                      else none
            else none

end

/--
`cJSON_Parse`.  Every call of the recursion reads at least one byte, so the
fuel covers any buffer; text after the value is ignored.
-/
def parse (value : CString) : Option CJson :=
  let buffer := value.stored
  (parseValue (2 * buffer.length + 2) 0
    (skipWhitespace (skipUtf8Bom buffer))).map Prod.fst

end CJson
end Z2wRpc
