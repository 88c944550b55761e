import Z2wRpc.Wire.ErrorDetection

/-!
# The checksum is affine

The table is linear in its index, so the register respects xor, and only its
first value and the complement at the end keep the checksum from being linear.
Both cancel in a difference of two checksums and not in a sum of three.
-/

namespace Z2wRpc

open Foundation

namespace Wire

open BitPolynomial Polynomial

/-!
## The register
-/

theorem crc32Table_xor (i j : Byte) :
    crc32Table (i ^^^ j) = crc32Table i ^^^ crc32Table j := by
  apply register_injective
  rw [register_xor, register_crc32Table, register_crc32Table,
    register_crc32Table, polynomial_leastFirst_xor, add_mul, mul_add,
    add_modByMonic]

theorem crcUpdate_respectsXor : RespectsXor crcUpdate := by
  intro s t a b
  have hindex : ((s ^^^ t) ^^^ (a ^^^ b).setWidth 32).setWidth 8 =
      (s ^^^ a.setWidth 32).setWidth 8 ^^^
        (t ^^^ b.setWidth 32).setWidth 8 := by
    simp only [BitVec.setWidth_xor]
    ac_rfl
  rw [crcUpdate, crcUpdate, crcUpdate, hindex, crc32Table_xor,
    BitVec.ushiftRight_xor_distrib]
  ac_rfl

/-!
## Checksums
-/

theorem not_xor_not (x y : BitVec 32) : ~~~x ^^^ ~~~y = x ^^^ y := by
  rw [<- BitVec.not_xor_left, <- BitVec.not_xor_right, BitVec.not_not]

/-- The register over the bytes by which two messages differ, from zero. -/
def crcDifference (difference : List Byte) : BitVec 32 :=
  difference.foldl crcUpdate 0#32

theorem calcCrc32_xor {a b : List Byte} (h : b.length = a.length) :
    calcCrc32 a ^^^ calcCrc32 b = crcDifference (xorWords a b) := by
  rw [calcCrc32, calcCrc32, not_xor_not]
  exact crcUpdate_respectsXor.foldl_difference h 0xFFFFFFFF#32

/--
The checksum is affine: over messages of one length it commutes with the xor of
three, and two checksums differ by what the bytes give by which the messages
differ.
-/
theorem calcCrc32_affine {a b c : List Byte} (hb : b.length = a.length)
    (hc : c.length = a.length) :
    calcCrc32 (xorWords (xorWords a b) c) =
        calcCrc32 a ^^^ calcCrc32 b ^^^ calcCrc32 c ∧
      calcCrc32 a ^^^ calcCrc32 b = crcDifference (xorWords a b) := by
  have hthree := crcUpdate_respectsXor.foldl_three hb hc 0xFFFFFFFF#32
  constructor
  · rw [calcCrc32, hthree, BitVec.not_xor_right, calcCrc32, calcCrc32,
      calcCrc32, not_xor_not]
  · exact calcCrc32_xor hb

theorem affine_over_names :
    calcCrc32 (xorWords (xorWords (ascii "add") (ascii "sub")) (ascii "mul")) =
        calcCrc32 (ascii "add") ^^^ calcCrc32 (ascii "sub") ^^^
          calcCrc32 (ascii "mul") ∧
      calcCrc32 (ascii "add") ^^^ calcCrc32 (ascii "sub") =
        crcDifference (xorWords (ascii "add") (ascii "sub")) :=
  calcCrc32_affine rfl rfl

/-- A damage goes unnoticed exactly when it leaves the register at zero, in
whatever message it happens. -/
theorem calcCrc32_corrupt_iff_difference {data pattern : List Byte}
    (h : pattern.length = data.length) :
    calcCrc32 (corrupt data pattern) = calcCrc32 data <->
      crcDifference pattern = 0#32 := by
  have hlength := corrupt_length h
  have hcancel : xorWords data (corrupt data pattern) = pattern :=
    xorWords_cancel h
  have hdifference := calcCrc32_xor hlength
  rw [hcancel] at hdifference
  rw [<- hdifference, BitVec.xor_eq_zero_iff]
  exact eq_comm

end Wire
end Z2wRpc
