import Z2wRpc.Foundation.BitPolynomial
import Z2wRpc.Wire.Crc32
import Mathlib.Tactic.LinearCombination

/-!
# The checksum is CRC-32

The CRC-32 of IEEE 802.3 is a polynomial remainder over GF(2).  The register of
`calc_crc32` holds that remainder in reflected order: one step of
`init_crc32_table` multiplies by `x` modulo the generator, and one round of
`calc_crc32` takes in the next eight bits of the message.
-/

namespace Z2wRpc
namespace Wire

open Foundation
open Foundation.BitPolynomial
open Polynomial

/-!
## The definition of IEEE 802.3
-/

noncomputable def generator : (ZMod 2)[X] :=
  X ^ 32 + X ^ 26 + X ^ 23 + X ^ 22 + X ^ 16 + X ^ 12 + X ^ 11 + X ^ 10 +
    X ^ 8 + X ^ 7 + X ^ 5 + X ^ 4 + X ^ 2 + X + 1

def messageBits (data : List Byte) : List Bool :=
  data.flatMap leastFirst

def complementFirst (n : Nat) (bits : List Bool) : List Bool :=
  (bits.take n).map not ++ bits.drop n

/--
The message times `x ^ 32` with its first 32 bits complemented.  Multiplying by
`x ^ 32` puts 32 zeros behind the message; where the message is shorter than 32
bits, the complement reaches into them.
-/
noncomputable def dividend (bits : List Bool) : (ZMod 2)[X] :=
  polynomial (complementFirst 32 (bits ++ List.replicate 32 false))

noncomputable def remainder (bits : List Bool) : (ZMod 2)[X] :=
  dividend bits %ₘ generator

noncomputable def ieeeCrc32 (data : List Byte) : BitVec 32 :=
  (~~~(word 32 (remainder (messageBits data)))).reverse

/-!
## The register
-/

noncomputable def register (crc : BitVec 32) : (ZMod 2)[X] :=
  polynomial (leastFirst crc)

theorem degree_register_lt (crc : BitVec 32) : (register crc).degree < 32 := by
  have h := degree_polynomial_lt (leastFirst crc)
  rwa [leastFirst_length] at h

theorem register_injective {a b : BitVec 32} (h : register a = register b) :
    a = b := by
  have hbits : leastFirst a = leastFirst b :=
    polynomial_injective (by simp) h
  apply BitVec.eq_of_getLsbD_eq
  intro k hk
  have hbit := congrArg (·[k]?) hbits
  simpa [leastFirst, hk] using hbit

theorem generator_eq : generator = X ^ 32 + register 0xEDB88320#32 := by
  have hbits : leastFirst 0xEDB88320#32 =
      [false, false, false, false, false, true, false, false,
        true, true, false, false, false, false, false, true,
        false, false, false, true, true, true, false, true,
        true, false, true, true, false, true, true, true] := by
    decide
  rw [register, hbits, generator]
  simp [polynomial, bit]
  ring

theorem generator_monic : generator.Monic := by
  rw [generator_eq]
  exact monic_X_pow_add (degree_register_lt _)

theorem degree_generator : generator.degree = 32 := by
  rw [generator_eq, degree_add_eq_left_of_degree_lt]
  · exact degree_X_pow 32
  · rw [degree_X_pow]
    exact degree_register_lt _

theorem register_modByMonic (crc : BitVec 32) :
    register crc %ₘ generator = register crc := by
  rw [modByMonic_eq_self_iff generator_monic, degree_generator]
  exact degree_register_lt crc

theorem register_xor (a b : BitVec 32) :
    register (a ^^^ b) = register a + register b :=
  polynomial_leastFirst_xor a b

theorem register_shiftRight (crc : BitVec 32) (k : Nat) (h : k <= 32) :
    register (crc >>> k) = polynomial ((leastFirst crc).drop k) * X ^ k := by
  rw [register, leastFirst_shiftRight crc k h, polynomial_append_zeros]

theorem register_split (crc : BitVec 32) (k : Nat) :
    register crc =
      polynomial ((leastFirst crc).take k) * X ^ (32 - k) +
        polynomial ((leastFirst crc).drop k) := by
  have hlength : ((leastFirst crc).drop k).length = 32 - k := by simp
  rw [register, <- hlength, <- polynomial_append, List.take_append_drop]

/-!
## The table
-/

theorem register_crcShift (crc : BitVec 32) :
    register (crcShift crc) = (X * register crc) %ₘ generator := by
  have hlow : (leastFirst crc).take 1 = [crc.getLsbD 0] := by
    simp [leastFirst, List.range_succ_eq_map]
  have hsplit := register_split crc 1
  have hshift := register_shiftRight crc 1 (by omega)
  rw [hlow] at hsplit
  rw [<- register_modByMonic (crcShift crc), crcShift,
    BitVec.and_one_eq_setWidth_ofBool_getLsbD]
  symm
  cases hbit : crc.getLsbD 0 with
  | false =>
      rw [hbit] at hsplit
      have hproduct : X * register crc = register (crc >>> 1) := by
        rw [hsplit, hshift]
        simp [polynomial, bit, mul_comm]
      rw [hproduct, if_neg (by decide)]
  | true =>
      rw [hbit] at hsplit
      -- the bit that leaves the register takes a multiple of the generator away
      have hproduct : X * register crc =
          register ((crc >>> 1) ^^^ 0xEDB88320#32) + 1 * generator := by
        have hcancel := CharTwo.add_self_eq_zero (register 0xEDB88320#32)
        rw [hsplit, register_xor, hshift, generator_eq]
        simp only [polynomial, bit, List.length_nil, pow_zero, mul_one,
          if_true, C_1, add_zero, one_mul]
        linear_combination -hcancel
      rw [modByMonic_eq_of_eq_add_mul generator_monic hproduct,
        if_pos (by decide)]

theorem register_repeat_crcShift (crc : BitVec 32) (n : Nat) :
    register (Nat.repeat crcShift n crc) =
      (X ^ n * register crc) %ₘ generator := by
  induction n with
  | zero => simp [Nat.repeat, register_modByMonic]
  | succ n ih =>
      rw [Nat.repeat, register_crcShift, ih, mul_modByMonic_right, pow_succ',
        mul_assoc]

theorem register_crc32Table (i : Byte) :
    register (crc32Table i) =
      (X ^ 8 * (polynomial (leastFirst i) * X ^ 24)) %ₘ generator := by
  rw [crc32Table, register_repeat_crcShift, register,
    leastFirst_setWidth (by omega), polynomial_append_zeros]

/-!
## The loop over the message
-/

theorem register_crcUpdate (crc : BitVec 32) (b : Byte) :
    register (crcUpdate crc b) =
      (X ^ 8 * register crc + polynomial (leastFirst b) * X ^ 32) %ₘ
        generator := by
  let mixed := crc ^^^ b.setWidth 32
  have hmixed : register mixed =
      register crc + polynomial (leastFirst b) * X ^ 24 := by
    rw [register_xor, register, register, leastFirst_setWidth (by omega),
      polynomial_append_zeros]
  have hhigh : crc >>> 8 = mixed >>> 8 := by
    apply BitVec.eq_of_getLsbD_eq
    intro i _
    simp [mixed]
  have hlow : leastFirst (mixed.setWidth 8) = (leastFirst mixed).take 8 :=
    leastFirst_truncate (by omega) mixed
  have hsplit := register_split mixed 8
  have hshift := register_shiftRight mixed 8 (by omega)
  have hproduct : register (mixed >>> 8) +
      X ^ 8 * (polynomial (leastFirst (mixed.setWidth 8)) * X ^ 24) =
        X ^ 8 * register mixed := by
    rw [hshift, hlow, hsplit]
    ring
  calc
    register (crcUpdate crc b)
        = register (mixed >>> 8) +
            register (crc32Table (mixed.setWidth 8)) := by
          rw [crcUpdate, register_xor, hhigh]
    _ = (register (mixed >>> 8) +
          register (crc32Table (mixed.setWidth 8))) %ₘ generator := by
          rw [<- register_xor, register_modByMonic]
    _ = (X ^ 8 * register mixed) %ₘ generator := by
          rw [register_crc32Table, add_modByMonic_right, hproduct]
    _ = (X ^ 8 * register crc + polynomial (leastFirst b) * X ^ 32) %ₘ
          generator := by
          rw [hmixed, mul_add, mul_left_comm, <- pow_add]

theorem polynomial_complementFirst (n : Nat) (bits : List Bool)
    (h : n <= bits.length) :
    polynomial (complementFirst n bits) =
      polynomial bits +
        polynomial (List.replicate n true) * X ^ (bits.length - n) := by
  let mask :=
    List.replicate n true ++ List.replicate (bits.length - n) false
  have hmask : complementFirst n bits = List.zipWith xor bits mask := by
    apply List.ext_getElem
    · simp [complementFirst, mask]
      omega
    · intro i hi hi'
      have hmin := Nat.min_eq_left h
      by_cases hn : i < n
      · have hbits : i < bits.length := by omega
        simp [complementFirst, mask, hn, hbits]
      · have hindex : n + (i - n) = i := by omega
        simp [complementFirst, mask, List.getElem_append, hn, hmin, hindex]
  rw [hmask, polynomial_zipWith_xor, polynomial_append_zeros]
  simp [mask]
  omega

theorem dividend_eq (bits : List Bool) :
    dividend bits =
      polynomial bits * X ^ 32 +
        polynomial (List.replicate 32 true) * X ^ bits.length := by
  rw [dividend, polynomial_complementFirst _ _ (by simp),
    polynomial_append_zeros]
  simp

theorem dividend_append (bits more : List Bool) :
    dividend (bits ++ more) =
      X ^ more.length * dividend bits + polynomial more * X ^ 32 := by
  rw [dividend_eq, dividend_eq, polynomial_append, List.length_append, pow_add]
  ring

theorem messageBits_append (a b : List Byte) :
    messageBits (a ++ b) = messageBits a ++ messageBits b := by
  simp [messageBits]

theorem messageBits_singleton (b : Byte) : messageBits [b] = leastFirst b := by
  simp [messageBits]

theorem register_foldl_crcUpdate (data : List Byte) :
    register (data.foldl crcUpdate 0xFFFFFFFF#32) =
      remainder (messageBits data) := by
  induction data using List.reverseRecOn with
  | nil =>
      have hones : leastFirst 0xFFFFFFFF#32 = List.replicate 32 true := by
        decide
      rw [List.foldl_nil, <- register_modByMonic, register, hones]
      rfl
  | append_singleton data b ih =>
      rw [List.foldl_append, List.foldl_cons, List.foldl_nil,
        register_crcUpdate, ih, messageBits_append, messageBits_singleton,
        remainder, remainder, dividend_append, leastFirst_length,
        add_modByMonic, mul_modByMonic_right, <- add_modByMonic]

theorem calcCrc32_eq_ieeeCrc32 (data : List Byte) :
    calcCrc32 data = ieeeCrc32 data := by
  rw [ieeeCrc32, <- register_foldl_crcUpdate, register, word_leastFirst,
    reverse_not, BitVec.reverse_reverse_eq, calcCrc32]

/-- The checksum computed from the filled table is the CRC-32 of IEEE 802.3. -/
theorem tableCrc32_eq_ieeeCrc32 (data : List Byte) :
    calcCrc32From initCrc32Table data = some (ieeeCrc32 data) := by
  rw [calcCrc32From_initCrc32Table, calcCrc32_eq_ieeeCrc32]

end Wire
end Z2wRpc
