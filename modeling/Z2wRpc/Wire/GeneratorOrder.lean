import Mathlib.Tactic.NormNum.Prime
import Z2wRpc.Foundation.ErrorPattern
import Z2wRpc.Wire.Crc32Polynomial

/-!
# The order of x modulo the generator

The powers of `x` modulo the generator come back to one after `2 ^ 32 - 1`
steps and not before.  The step of `init_crc32_table` multiplies a register by
`x`, so products and powers of registers can be computed, and the order is
checked at the prime divisors of `2 ^ 32 - 1`.
-/

namespace Z2wRpc
namespace Wire

open Foundation
open Foundation.BitPolynomial
open Polynomial

/-!
## Products and powers of registers
-/

def mulStep (a acc : BitVec 32) (b : Bool) : BitVec 32 :=
  if b then crcShift acc ^^^ a else crcShift acc

def registerMul (a b : BitVec 32) : BitVec 32 :=
  (leastFirst b).foldl (mulStep a) 0#32

theorem register_mulStep (a acc : BitVec 32) (b : Bool) :
    register (mulStep a acc b) =
      (X * register acc + C (bit b) * register a) %ₘ generator := by
  cases b with
  | false => simp [mulStep, bit, register_crcShift]
  | true =>
      rw [mulStep, if_pos rfl, register_xor, register_crcShift, bit,
        if_pos rfl, C_1, one_mul, add_modByMonic, register_modByMonic]

theorem register_zero : register 0#32 = 0 := by
  have h := register_xor 0#32 0#32
  rw [BitVec.xor_self] at h
  exact left_eq_add.mp h

theorem register_foldl_mulStep (a : BitVec 32) (bits : List Bool) :
    register (bits.foldl (mulStep a) 0#32) =
      (polynomial bits * register a) %ₘ generator := by
  induction bits using List.reverseRecOn with
  | nil =>
      rw [List.foldl_nil, polynomial_nil, zero_mul, zero_modByMonic,
        register_zero]
  | append_singleton bits b ih =>
      have hlast : polynomial [b] = C (bit b) := by
        simp [polynomial]
      rw [List.foldl_append, List.foldl_cons, List.foldl_nil, register_mulStep,
        ih, polynomial_append, hlast, List.length_singleton, pow_one,
        add_modByMonic, mul_modByMonic_right, <- add_modByMonic]
      ring_nf

theorem register_registerMul (a b : BitVec 32) :
    register (registerMul a b) = (register a * register b) %ₘ generator := by
  rw [registerMul, register_foldl_mulStep, mul_comm, register, register]

def registerOne : BitVec 32 := 0x80000000#32

theorem register_registerOne : register registerOne = 1 := by
  have hbits : leastFirst registerOne = List.replicate 31 false ++ [true] := by
    decide
  rw [register, hbits, polynomial_append, polynomial_zeros]
  simp [polynomial, bit]

/-- `x ^ n` by squaring; the fuel is the number of binary digits. -/
def registerPow : Nat -> Nat -> BitVec 32
  | 0, _ => registerOne
  | fuel + 1, n =>
      let half := registerPow fuel (n / 2)
      let square := registerMul half half
      if n % 2 = 1 then crcShift square else square

theorem register_registerPow (fuel n : Nat) (h : n < 2 ^ fuel) :
    register (registerPow fuel n) = X ^ n %ₘ generator := by
  induction fuel generalizing n with
  | zero =>
      have hn : n = 0 := by simpa using h
      rw [hn, pow_zero, registerPow, <- register_registerOne,
        register_modByMonic]
  | succ fuel ih =>
      have hhalf : n / 2 < 2 ^ fuel := by
        rw [pow_succ] at h
        omega
      have hsquare : register (registerMul (registerPow fuel (n / 2))
          (registerPow fuel (n / 2))) = X ^ (n / 2 * 2) %ₘ generator := by
        rw [register_registerMul, ih _ hhalf, mul_modByMonic_right, mul_comm,
          mul_modByMonic_right, pow_mul, sq]
      rw [registerPow]
      by_cases hodd : n % 2 = 1
      · have hn : n = n / 2 * 2 + 1 := by omega
        rw [if_pos hodd, register_crcShift, hsquare, mul_modByMonic_right]
        nth_rewrite 2 [hn]
        rw [pow_succ']
      · have hn : n / 2 * 2 = n := by omega
        rw [if_neg hodd, hsquare, hn]

/-!
## The order
-/

theorem rootOf_pow_eq_one_iff (n : Nat) (h : n < 2 ^ 32) :
    rootOf generator ^ n = 1 <-> registerPow 32 n = registerOne := by
  rw [<- pow_zero (rootOf generator), rootOf_pow_eq_iff,
    <- modByMonic_eq_iff generator_monic, <- register_registerPow 32 n h,
    pow_zero, <- register_registerOne, register_modByMonic]
  exact ⟨register_injective, congrArg register⟩

theorem prime_cases {p : Nat} (hp : p.Prime) (h : p ∣ 2 ^ 32 - 1) :
    p = 3 ∨ p = 5 ∨ p = 17 ∨ p = 257 ∨ p = 65537 := by
  have hfactors : (2 ^ 32 - 1 : Nat) = 3 * 5 * 17 * 257 * 65537 := by
    norm_num
  have hdvd {q : Nat} (hq : q.Prime) : p ∣ q <-> p = q :=
    Nat.prime_dvd_prime_iff_eq hp hq
  rw [hfactors, hp.dvd_mul, hp.dvd_mul, hp.dvd_mul, hp.dvd_mul,
    hdvd (by norm_num), hdvd (by norm_num), hdvd (by norm_num),
    hdvd (by norm_num), hdvd (by norm_num)] at h
  simpa only [or_assoc] using h

theorem orderOf_rootOf_generator :
    orderOf (rootOf generator) = 2 ^ 32 - 1 := by
  apply orderOf_eq_of_pow_and_pow_div_prime (by norm_num)
  · rw [rootOf_pow_eq_one_iff _ (by norm_num)]
    decide +kernel
  · intro p hp hdvd
    have hlt : (2 ^ 32 - 1) / p < 2 ^ 32 :=
      Nat.lt_of_le_of_lt (Nat.div_le_self _ _) (by norm_num)
    rw [ne_eq, rootOf_pow_eq_one_iff _ hlt]
    rcases prime_cases hp hdvd with rfl | rfl | rfl | rfl | rfl
    · decide +kernel
    · decide +kernel
    · decide +kernel
    · decide +kernel
    · decide +kernel

end Wire
end Z2wRpc
