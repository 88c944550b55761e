import Z2wRpc.Foundation.Bytes

/-!
# The checksum

`crc32.c`: the table filled before `main` and the byte-wise checksum over it.
-/

namespace Z2wRpc
namespace Wire

open Foundation

/-- The body of the inner loop of `init_crc32_table`. -/
def crcShift (crc : BitVec 32) : BitVec 32 :=
  if crc &&& 1#32 ≠ 0#32 then (crc >>> 1) ^^^ 0xEDB88320#32 else crc >>> 1

/-- `crc32_table`, as `init_crc32_table` fills it. -/
def crc32Table (i : Byte) : BitVec 32 :=
  Nat.repeat crcShift 8 (i.setWidth 32)

/-- `crc32_table` as an array: the outer loop of `init_crc32_table` stores the
entries one by one. -/
def initCrc32Table : List (BitVec 32) :=
  (List.range 256).foldl
    (fun table i => table.set i (Nat.repeat crcShift 8 (BitVec.ofNat 32 i)))
    (List.replicate 256 0#32)

/-- The body of the loop of `calc_crc32`. -/
def crcUpdate (crc : BitVec 32) (b : Byte) : BitVec 32 :=
  (crc >>> 8) ^^^ crc32Table ((crc ^^^ b.setWidth 32).setWidth 8)

def calcCrc32 (data : List Byte) : BitVec 32 :=
  ~~~(data.foldl crcUpdate 0xFFFFFFFF#32)

/-- `rpc_check_packet`: the length is an `int` that `calc_crc32` takes as a
`size_t`; a read behind the payload has no value. -/
def rpcCheckPacket (payload : List Byte) (length crc32 : BitVec 32) :
    Option Int :=
  let size := (length.signExtend 64).toNat
  if size <= payload.length then
    if calcCrc32 (payload.take size) ≠ crc32 then some (-1) else some 0
  else none

/-!
## Reading the array
-/

/-- The body of the loop with the read of `crc32_table` written out; a read
outside the array has no value. -/
def crcLookup (table : List (BitVec 32)) (crc : BitVec 32) (b : Byte) :
    Option (BitVec 32) := do
  let entry ← table[((crc ^^^ b.setWidth 32) &&& 0xFF#32).toNat]?
  return (crc >>> 8) ^^^ entry

def calcCrc32From (table : List (BitVec 32)) (data : List Byte) :
    Option (BitVec 32) := do
  let crc ← data.foldlM (crcLookup table) 0xFFFFFFFF#32
  return ~~~crc

theorem foldl_set_getElem {α : Type} (f : Nat -> α) (table : List α)
    (n k : Nat) (h : n <= table.length) (hk : k < n) :
    ((List.range n).foldl (fun filled i => filled.set i (f i)) table)[k]? =
      some (f k) := by
  induction n with
  | zero => omega
  | succ n ih =>
      have hlength (m : Nat) :
          ((List.range m).foldl
            (fun filled i => filled.set i (f i)) table).length =
              table.length := by
        induction m with
        | zero => rfl
        | succ m ihm => simpa [List.range_succ] using ihm
      rw [List.range_succ, List.foldl_append, List.foldl_cons, List.foldl_nil]
      rcases Nat.lt_or_eq_of_le (Nat.le_of_lt_succ hk) with hlt | heq
      · rw [List.getElem?_set_ne (by omega)]
        exact ih (by omega) hlt
      · subst heq
        rw [List.getElem?_set_self (by rw [hlength]; omega)]

theorem initCrc32Table_lookup (crc : BitVec 32) (b : Byte) :
    initCrc32Table[((crc ^^^ b.setWidth 32) &&& 0xFF#32).toNat]? =
      some (crc32Table ((crc ^^^ b.setWidth 32).setWidth 8)) := by
  generalize crc ^^^ b.setWidth 32 = mixed
  have hindex : (mixed &&& 0xFF#32).toNat = (mixed.setWidth 8).toNat := by
    rw [BitVec.toNat_and, BitVec.toNat_setWidth]
    exact Nat.and_two_pow_sub_one_eq_mod mixed.toNat 8
  have hentry : BitVec.ofNat 32 (mixed.setWidth 8).toNat =
      (mixed.setWidth 8).setWidth 32 := by
    apply BitVec.eq_of_toNat_eq
    simp
  rw [initCrc32Table, hindex,
    foldl_set_getElem _ _ _ _ List.length_replicate.ge
      (mixed.setWidth 8).isLt,
    hentry, crc32Table]

theorem crcLookup_initCrc32Table (crc : BitVec 32) (b : Byte) :
    crcLookup initCrc32Table crc b = some (crcUpdate crc b) := by
  rw [crcLookup, initCrc32Table_lookup]
  rfl

theorem calcCrc32From_initCrc32Table (data : List Byte) :
    calcCrc32From initCrc32Table data = some (calcCrc32 data) := by
  have hfold (crc : BitVec 32) :
      data.foldlM (crcLookup initCrc32Table) crc =
        some (data.foldl crcUpdate crc) := by
    induction data generalizing crc with
    | nil => rfl
    | cons b rest ih =>
        rw [List.foldlM_cons, crcLookup_initCrc32Table, List.foldl_cons]
        exact ih (crcUpdate crc b)
  rw [calcCrc32From, hfold]
  rfl

theorem calcCrc32_nil : calcCrc32 [] = 0#32 := by
  decide

end Wire
end Z2wRpc
