import Z2wRpc.Wire.Crc32

/-!
# The frame header

Six bytes in front of every payload: the checksum and a 16-bit length, both in
the byte order of the machine.  The encoder takes the checksum over the whole
text and stores the length in an `unsigned short`; the receivers read the two
fields back from the buffer they filled.
-/

namespace Z2wRpc
namespace Wire

open Foundation

def rpcHeaderLength : Nat := 6

/-- The header of a text, as `rpc_header_encode` fills it. -/
def header (request : CString) : List Byte :=
  leBytes 4 (calcCrc32 request.bytes).toNat ++ leBytes 2 request.strlen

/-- `rpc_header_encode`: a `NULL` request has no header. -/
def rpcHeaderEncode : Option CString -> Option (List Byte)
  | none => none
  | some request => some (header request)

def frame (request : CString) : List Byte :=
  header request ++ request.bytes

def headerCrc (h : List Byte) : BitVec 32 :=
  BitVec.ofNat 32 (leValue (h.take 4))

def headerLength (h : List Byte) : Nat :=
  leValue ((h.drop 4).take 2)

@[simp] theorem header_length (s : CString) :
    (header s).length = rpcHeaderLength := by
  simp [header, rpcHeaderLength]

theorem headerCrc_header (s : CString) :
    headerCrc (header s) = calcCrc32 s.bytes := by
  rw [headerCrc, header, List.take_left' (leBytes_length 4 _),
    leValue_leBytes, show 256 ^ 4 = 2 ^ 32 from rfl,
    Nat.mod_eq_of_lt (calcCrc32 s.bytes).isLt,
    BitVec.ofNat_toNat, BitVec.setWidth_eq]

theorem headerLength_header (s : CString) :
    headerLength (header s) = s.strlen % 65536 := by
  rw [headerLength, header, List.drop_left' (leBytes_length 4 _),
    List.take_of_length_le (by simp), leValue_leBytes,
    show 256 ^ 2 = 65536 from rfl]

theorem header_of_fields {h : List Byte} (hlength : h.length = rpcHeaderLength) :
    leBytes 4 (headerCrc h).toNat ++ leBytes 2 (headerLength h) = h := by
  have htake : (h.take 4).length = 4 := by
    rw [List.length_take, hlength, rpcHeaderLength]
    rfl
  have hdrop : (h.drop 4).length = 2 := by
    rw [List.length_drop, hlength, rpcHeaderLength]
  have hcrc := leBytes_leValue (h.take 4)
  have hfield := leBytes_leValue (h.drop 4)
  have hlt := leValue_lt (h.take 4)
  rw [htake] at hcrc hlt
  rw [hdrop] at hfield
  have hmod : leValue (h.take 4) % 2 ^ 32 = leValue (h.take 4) :=
    Nat.mod_eq_of_lt hlt
  rw [headerCrc, BitVec.toNat_ofNat, hmod, hcrc, headerLength,
    List.take_of_length_le (Nat.le_of_eq hdrop), hfield,
    List.take_append_drop]

theorem headerLength_lt (h : List Byte) : headerLength h < 65536 := by
  have hlt := leValue_lt ((h.drop 4).take 2)
  have hlength : ((h.drop 4).take 2).length <= 2 := List.length_take_le _ _
  exact Nat.lt_of_lt_of_le hlt (Nat.pow_le_pow_right (by decide) hlength)

theorem headerLength_header_eq_iff (s : CString) :
    headerLength (header s) = s.strlen <-> s.strlen <= 65535 := by
  rw [headerLength_header]
  omega

end Wire
end Z2wRpc
