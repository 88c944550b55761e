import Mathlib.Data.Nat.Bitwise
import Z2wRpc.Wire.GeneratorOrder
import Z2wRpc.Wire.Header
import Z2wRpc.Foundation.XorFold

/-!
# Errors that the checksum detects

Two messages of one length have the same checksum exactly when the generator
divides the polynomial of their difference.  The generator has a constant term,
so it divides no burst of up to 32 bits; the order of `x` modulo the generator
is `2 ^ 32 - 1`, so it divides no pair of bits in a payload.
-/

namespace Z2wRpc
namespace Wire

open Foundation
open Foundation.BitPolynomial
open Polynomial

/-!
## Bits of a message
-/

@[simp]
theorem messageBits_length (data : List Byte) :
    (messageBits data).length = 8 * data.length := by
  induction data with
  | nil => rfl
  | cons b rest ih =>
      rw [messageBits] at ih ⊢
      rw [List.flatMap_cons, List.length_append, leastFirst_length, ih,
        List.length_cons]
      omega

theorem messageBits_getElem? (data : List Byte) (i k : Nat) (hk : k < 8) :
    (messageBits data)[8 * i + k]? = data[i]?.map (·.getLsbD k) := by
  induction data generalizing i with
  | nil => simp [messageBits]
  | cons b rest ih =>
      rw [messageBits, List.flatMap_cons]
      cases i with
      | zero =>
          rw [List.getElem?_append_left (by simpa using hk)]
          simp [hk]
      | succ i =>
          have hindex : 8 * (i + 1) + k - 8 = 8 * i + k := by omega
          rw [List.getElem?_append_right (by simp; omega), leastFirst_length,
            hindex, List.getElem?_cons_succ]
          exact ih i

theorem messageBits_getElem?_div (data : List Byte) (n : Nat) :
    (messageBits data)[n]? = data[n / 8]?.map (·.getLsbD (n % 8)) := by
  have h := messageBits_getElem? data (n / 8) (n % 8)
    (Nat.mod_lt n (by decide))
  rwa [Nat.div_add_mod] at h

theorem messageBits_zipWith_xor (a b : List Byte) :
    messageBits (List.zipWith (· ^^^ ·) a b) =
      List.zipWith xor (messageBits a) (messageBits b) := by
  apply List.ext_getElem?
  intro n
  rw [messageBits_getElem?_div, List.getElem?_zipWith, List.getElem?_zipWith,
    messageBits_getElem?_div, messageBits_getElem?_div]
  cases a[n / 8]? with
  | none => rfl
  | some x =>
      cases b[n / 8]? with
      | none => rfl
      | some y => simp

def flipBit (data : List Byte) (n : Nat) : List Byte :=
  data.modify (n / 8) (· ^^^ BitVec.twoPow 8 (n % 8))

@[simp]
theorem flipBit_length (data : List Byte) (n : Nat) :
    (flipBit data n).length = data.length := by
  simp [flipBit]

theorem messageBits_flipBit (data : List Byte) (n : Nat) :
    messageBits (flipBit data n) = (messageBits data).modify n not := by
  apply List.ext_getElem?
  intro m
  rw [messageBits_getElem?_div, flipBit, List.getElem?_modify,
    List.getElem?_modify, messageBits_getElem?_div]
  cases data[m / 8]? with
  | none => rfl
  | some b =>
      have hlt : m % 8 < 8 := Nat.mod_lt m (by decide)
      by_cases hbyte : n / 8 = m / 8
      · by_cases hbit : n % 8 = m % 8
        · have heq : n = m := by omega
          simp [heq, hlt]
        · have hne : n ≠ m := fun h => hbit (by rw [h])
          have hbit' : ¬ (m % 8 = n % 8) := fun h => hbit h.symm
          simp [hbyte, hne, hlt, hbit']
      · have hne : n ≠ m := fun h => hbyte (by rw [h])
        simp [hbyte, hne]

theorem flipBit_append_left {a : List Byte} {n : Nat} (h : n < 8 * a.length)
    (b : List Byte) : flipBit (a ++ b) n = flipBit a n ++ b := by
  apply List.ext_getElem?
  intro i
  have hn : n / 8 < a.length := by omega
  rw [flipBit, flipBit, List.getElem?_modify, List.getElem?_append,
    List.getElem?_append, List.length_modify, List.getElem?_modify]
  by_cases hi : i < a.length
  · rw [if_pos hi, if_pos hi]
  · have hne : n / 8 ≠ i := by omega
    rw [if_neg hi, if_neg hi]
    simp [hne]

theorem flipBit_append_right {a : List Byte} {n : Nat}
    (h : 8 * a.length <= n) (b : List Byte) :
    flipBit (a ++ b) n = a ++ flipBit b (n - 8 * a.length) := by
  apply List.ext_getElem?
  intro i
  have hbit : (n - 8 * a.length) % 8 = n % 8 := by omega
  rw [flipBit, flipBit, hbit, List.getElem?_modify, List.getElem?_append,
    List.getElem?_append, List.getElem?_modify]
  by_cases hi : i < a.length
  · have hne : n / 8 ≠ i := by omega
    rw [if_pos hi, if_pos hi]
    simp [hne]
  · have hbyte : n / 8 = i <-> (n - 8 * a.length) / 8 = i - a.length := by
      omega
    rw [if_neg hi, if_neg hi]
    simp only [hbyte]

/-!
## Fields
-/

theorem testBit_leValue (bs : List Byte) (n : Nat) :
    (leValue bs).testBit n = ((messageBits bs)[n]?).getD false := by
  induction bs generalizing n with
  | nil => simp [leValue, messageBits]
  | cons b rest ih =>
      have hfield : leValue (b :: rest) = 2 ^ 8 * leValue rest + b.toNat := by
        rw [leValue]
        omega
      rw [hfield, Nat.testBit_two_pow_mul_add _ b.isLt, ih, messageBits,
        messageBits, List.flatMap_cons, List.getElem?_append,
        leastFirst_length]
      by_cases hn : n < 8
      · rw [if_pos hn, if_pos hn, BitVec.testBit_toNat]
        simp [leastFirst, hn]
      · rw [if_neg hn, if_neg hn]

theorem leValue_flipBit (bs : List Byte) (n : Nat) (h : n < 8 * bs.length) :
    leValue (flipBit bs n) = leValue bs ^^^ 2 ^ n := by
  apply Nat.eq_of_testBit_eq
  intro m
  have hn : n < (messageBits bs).length := by simpa using h
  rw [testBit_leValue, messageBits_flipBit, List.getElem?_modify,
    Nat.testBit_xor, testBit_leValue, Nat.testBit_two_pow]
  by_cases hnm : n = m
  · rw [<- hnm, List.getElem?_eq_getElem hn]
    simp
  · simp [hnm]

theorem xor_two_pow_of_testBit_false {x n : Nat} (h : x.testBit n = false) :
    x ^^^ 2 ^ n = x + 2 ^ n := by
  induction n generalizing x with
  | zero =>
      rw [Nat.testBit_zero, decide_eq_false_iff_not] at h
      have hhalf : (x ^^^ 1) / 2 = x / 2 := by
        rw [Nat.xor_div_two]
        simp
      have hlow : (x ^^^ 1) % 2 = 1 := by
        rw [Nat.xor_mod_two_eq]
        omega
      rw [pow_zero]
      omega
  | succ n ih =>
      rw [Nat.testBit_succ] at h
      have hhalf : (x ^^^ 2 ^ (n + 1)) / 2 = x / 2 + 2 ^ n := by
        rw [Nat.xor_div_two, pow_succ, Nat.mul_div_cancel _ (by decide), ih h]
      have hlow : (x ^^^ 2 ^ (n + 1)) % 2 = x % 2 := by
        rw [Nat.xor_mod_two_eq, pow_succ]
        omega
      rw [pow_succ] at *
      omega

theorem xor_two_pow_of_testBit_true {x n : Nat} (h : x.testBit n = true) :
    (x ^^^ 2 ^ n) + 2 ^ n = x := by
  have hclear : (x ^^^ 2 ^ n).testBit n = false := by
    simp [Nat.testBit_xor, h]
  rw [<- xor_two_pow_of_testBit_false hclear, Nat.xor_assoc, Nat.xor_self,
    Nat.xor_zero]

theorem header_split (s : CString) :
    header s = leBytes 4 (calcCrc32 s.bytes).toNat ++ leBytes 2 s.strlen := rfl

theorem headerCrc_append {a : List Byte} (h : a.length = 4) (b : List Byte) :
    headerCrc (a ++ b) = BitVec.ofNat 32 (leValue a) := by
  rw [headerCrc, List.take_left' h]

theorem headerLength_append {a b : List Byte} (ha : a.length = 4)
    (hb : b.length = 2) : headerLength (a ++ b) = leValue b := by
  rw [headerLength, List.drop_left' ha, List.take_of_length_le (by omega)]

theorem leValue_leBytes_crc (crc : BitVec 32) :
    leValue (leBytes 4 crc.toNat) = crc.toNat := by
  rw [leValue_leBytes]
  exact Nat.mod_eq_of_lt crc.isLt

theorem headerCrc_flipBit {s : CString} {n : Nat} (h : n < 32) :
    headerCrc (flipBit (header s) n) ≠ calcCrc32 s.bytes ∧
      headerLength (flipBit (header s) n) = headerLength (header s) := by
  have hcrc : (leBytes 4 (calcCrc32 s.bytes).toNat).length = 4 :=
    leBytes_length 4 _
  have hlength : (leBytes 2 s.strlen).length = 2 := leBytes_length 2 _
  have hflip : (flipBit (leBytes 4 (calcCrc32 s.bytes).toNat) n).length = 4 :=
    (flipBit_length _ n).trans hcrc
  rw [header_split, flipBit_append_left (by omega), headerCrc_append hflip,
    headerLength_append hflip hlength, headerLength_append hcrc hlength,
    leValue_flipBit _ n (by omega), leValue_leBytes_crc]
  refine ⟨?_, rfl⟩
  intro heq
  have hbit := congrArg (·.getLsbD n) heq
  have hn : (2 ^ n : Nat).testBit n = true := Nat.testBit_two_pow_self
  simp only [BitVec.getLsbD_ofNat, h, decide_true, Nat.testBit_xor, hn,
    BitVec.testBit_toNat, Bool.true_and, Bool.xor_true] at hbit
  exact Bool.not_ne_self _ hbit

theorem headerLength_flipBit {s : CString} {j : Nat} (h : j < 16)
    (hlength : s.strlen <= 65535) :
    headerCrc (flipBit (header s) (32 + j)) = calcCrc32 s.bytes ∧
      headerLength (flipBit (header s) (32 + j)) = s.strlen ^^^ 2 ^ j := by
  have hcrc : (leBytes 4 (calcCrc32 s.bytes).toNat).length = 4 :=
    leBytes_length 4 _
  have hfield : (leBytes 2 s.strlen).length = 2 := leBytes_length 2 _
  have hflip : (flipBit (leBytes 2 s.strlen) j).length = 2 :=
    (flipBit_length _ j).trans hfield
  have hindex : 32 + j - 8 * 4 = j := by omega
  rw [header_split, flipBit_append_right (by omega), hcrc, hindex,
    headerCrc_append hcrc, headerLength_append hcrc hflip,
    leValue_flipBit _ j (by omega), leValue_leBytes_crc, leValue_leBytes,
    BitVec.ofNat_toNat, BitVec.setWidth_eq]
  refine ⟨rfl, ?_⟩
  rw [Nat.mod_eq_of_lt (by omega)]

/-!
## Equal checksums
-/

theorem isCoprime_generator_X : IsCoprime generator X := by
  exists 1, -(X ^ 31 + X ^ 25 + X ^ 22 + X ^ 21 + X ^ 15 + X ^ 11 + X ^ 10 +
    X ^ 9 + X ^ 7 + X ^ 6 + X ^ 4 + X ^ 3 + X + 1)
  rw [generator]
  ring

theorem calcCrc32_eq_iff (a b : List Byte) (hlength : a.length = b.length) :
    calcCrc32 a = calcCrc32 b <->
      generator ∣ polynomial (messageBits a) - polynomial (messageBits b) := by
  have hregister : calcCrc32 a = calcCrc32 b <->
      remainder (messageBits a) = remainder (messageBits b) := by
    rw [calcCrc32, calcCrc32, BitVec.not_inj, <- register_foldl_crcUpdate,
      <- register_foldl_crcUpdate]
    exact ⟨congrArg register, register_injective⟩
  have hdifference :
      dividend (messageBits a) - dividend (messageBits b) =
        (polynomial (messageBits a) - polynomial (messageBits b)) * X ^ 32 := by
    rw [dividend_eq, dividend_eq, messageBits_length, messageBits_length,
      hlength]
    ring
  rw [hregister, remainder, remainder, modByMonic_eq_iff generator_monic,
    hdifference,
    dvd_mul_X_pow_iff isCoprime_generator_X]

/-!
## Bursts
-/

def corrupt (data pattern : List Byte) : List Byte :=
  List.zipWith (· ^^^ ·) data pattern

theorem corrupt_length {data pattern : List Byte}
    (h : pattern.length = data.length) :
    (corrupt data pattern).length = data.length :=
  xorWords_length h

theorem calcCrc32_corrupt_eq_iff (data pattern : List Byte)
    (h : pattern.length = data.length) :
    calcCrc32 (corrupt data pattern) = calcCrc32 data <->
      generator ∣ polynomial (messageBits pattern) := by
  have hbits : (messageBits data).length = (messageBits pattern).length := by
    rw [messageBits_length, messageBits_length, h]
  rw [calcCrc32_eq_iff _ _ (corrupt_length h), corrupt,
    messageBits_zipWith_xor, polynomial_zipWith_xor _ _ hbits,
    add_sub_cancel_left]

/--
The set bits of the pattern lie within `width` consecutive positions, where bit
`k` of byte `i` has position `8 * i + k`.
-/
def Burst (width : Nat) (pattern : List Byte) : Prop :=
  exists start, forall i k b, pattern[i]? = some b -> k < 8 ->
    b.getLsbD k = true -> start <= 8 * i + k ∧ 8 * i + k < start + width

theorem setWithin_of_burst {width : Nat} {pattern : List Byte}
    (h : Burst width pattern) :
    exists start, SetWithin start width (messageBits pattern) := by
  rcases h with ⟨start, hrange⟩
  exists start
  intro n hn
  rw [messageBits_getElem?_div, Option.map_eq_some_iff] at hn
  rcases hn with ⟨b, hb, hbit⟩
  have hposition := hrange (n / 8) (n % 8) b hb (Nat.mod_lt n (by decide)) hbit
  rwa [Nat.div_add_mod] at hposition

theorem true_mem_messageBits {pattern : List Byte}
    (h : exists b, b ∈ pattern ∧ b ≠ 0#8) : true ∈ messageBits pattern := by
  rcases h with ⟨b, hb, hnonzero⟩
  rw [messageBits, List.mem_flatMap]
  refine ⟨b, hb, ?_⟩
  -- otherwise every bit of the byte is clear
  by_contra hclear
  apply hnonzero
  apply BitVec.eq_of_getLsbD_eq
  intro k hk
  rw [BitVec.getLsbD_zero]
  cases hbit : b.getLsbD k with
  | false => rfl
  | true =>
      apply absurd _ hclear
      rw [leastFirst, List.mem_map]
      exact ⟨k, List.mem_range.mpr hk, hbit⟩

theorem calcCrc32_corrupt_ne {data pattern : List Byte}
    (hlength : pattern.length = data.length)
    (hnonzero : exists b, b ∈ pattern ∧ b ≠ 0#8)
    (hburst : Burst 32 pattern) :
    calcCrc32 (corrupt data pattern) ≠ calcCrc32 data := by
  rcases setWithin_of_burst hburst with ⟨start, hwithin⟩
  rw [ne_eq, calcCrc32_corrupt_eq_iff data pattern hlength]
  exact not_dvd_of_setWithin isCoprime_generator_X degree_generator hwithin
    (true_mem_messageBits hnonzero)

theorem rpcCheckPacket_of_ne {payload : List Byte} {length crc : BitVec 32}
    (hlength : length.toInt = payload.length) (h : calcCrc32 payload ≠ crc) :
    rpcCheckPacket payload length crc = some (-1) := by
  have hmsb : length.msb = false := by
    rw [BitVec.msb_eq_toInt, hlength]
    exact decide_eq_false (by omega)
  have hsize : (length.signExtend 64).toNat = payload.length := by
    rw [BitVec.toInt_eq_toNat_of_msb hmsb, Int.natCast_inj] at hlength
    rw [BitVec.toNat_signExtend, hmsb,
      BitVec.toNat_setWidth_of_le (by decide), hlength]
    rfl
  rw [rpcCheckPacket, hsize]
  simp only [Nat.le_refl, if_true, List.take_length, if_pos h]

/-!
## Flipped bits
-/

theorem polynomial_flipBit (data : List Byte) (n : Nat)
    (h : n < 8 * data.length) :
    polynomial (messageBits (flipBit data n)) =
      polynomial (messageBits data) + X ^ (8 * data.length - 1 - n) := by
  rw [messageBits_flipBit, polynomial_modify_not _ _ (by simpa using h),
    messageBits_length]

theorem calcCrc32_flipBit_ne (data : List Byte) (n : Nat)
    (h : n < 8 * data.length) :
    calcCrc32 (flipBit data n) ≠ calcCrc32 data := by
  have hdegree : 0 < generator.degree := by
    rw [degree_generator]
    decide
  rw [ne_eq, calcCrc32_eq_iff _ _ (flipBit_length data n),
    polynomial_flipBit data n h, add_sub_cancel_left]
  exact not_dvd_X_pow isCoprime_generator_X hdegree _

theorem calcCrc32_flipBit_flipBit_ne (data : List Byte) {i j : Nat}
    (hlength : data.length <= 65535) (hi : i < 8 * data.length)
    (hj : j < 8 * data.length) (hne : i ≠ j) :
    calcCrc32 (flipBit (flipBit data i) j) ≠ calcCrc32 data := by
  have hdifference :
      polynomial (messageBits (flipBit (flipBit data i) j)) -
          polynomial (messageBits data) =
        X ^ (8 * data.length - 1 - i) + X ^ (8 * data.length - 1 - j) := by
    rw [polynomial_flipBit _ _ (by simpa using hj),
      polynomial_flipBit _ _ hi, flipBit_length]
    ring
  have horder := orderOf_rootOf_generator
  rw [ne_eq, calcCrc32_eq_iff _ _ (by simp), hdifference]
  rcases Nat.lt_or_gt_of_ne hne with hlt | hgt
  · rw [add_comm]
    exact not_dvd_X_pow_add_X_pow isCoprime_generator_X (by omega) (by omega)
  · exact not_dvd_X_pow_add_X_pow isCoprime_generator_X (by omega) (by omega)

/-- Two flipped bits of a payload that a header can announce change its
checksum. -/
theorem two_flips_detected (data : List Byte) (i j : Nat)
    (hlength : data.length <= 65535) (hi : i < 8 * data.length)
    (hj : j < 8 * data.length) (hne : i ≠ j) :
    calcCrc32From initCrc32Table (flipBit (flipBit data i) j) ≠
      calcCrc32From initCrc32Table data := by
  rw [calcCrc32From_initCrc32Table, calcCrc32From_initCrc32Table, ne_eq,
    Option.some_inj]
  exact calcCrc32_flipBit_flipBit_ne data hlength hi hj hne

/-- The first and the last bit of the longest payload. -/
theorem two_flips_detected_at_ends :
    calcCrc32From initCrc32Table
        (flipBit (flipBit (List.replicate 65535 0x61#8) 0) 524279) ≠
      calcCrc32From initCrc32Table (List.replicate 65535 0x61#8) := by
  have hlength : (List.replicate 65535 0x61#8).length = 65535 :=
    List.length_replicate
  exact two_flips_detected _ 0 524279 (by omega) (by omega) (by omega)
    (by decide)

end Wire
end Z2wRpc
