import Z2wRpc.Foundation.BitPolynomial
import Mathlib.FieldTheory.Finite.Basic
import Mathlib.GroupTheory.OrderOfElement
import Mathlib.RingTheory.AdjoinRoot

/-!
# Errors that a generator detects

A cyclic code overlooks an error exactly when its generator divides the
polynomial of the error.  A generator with a constant term does not divide a
burst shorter than its degree, and it does not divide two terms that are closer
than the multiplicative order of `x` modulo the generator.
-/

namespace Z2wRpc
namespace Foundation
namespace BitPolynomial

open Polynomial

/-!
## Patterns
-/

/-- All bits that are set lie within `width` positions from `start` on. -/
def SetWithin (start width : Nat) (bits : List Bool) : Prop :=
  forall n, bits[n]? = some true -> start <= n ∧ n < start + width

theorem coeff_eq_zero_of_getElem? {bits : List Bool} {k : Nat}
    (h : k < bits.length -> bits[bits.length - 1 - k]? ≠ some true) :
    (polynomial bits).coeff k = 0 := by
  rw [coeff_polynomial]
  split
  · rename_i hk
    have hindex : bits.length - 1 - k < bits.length := by omega
    have hclear := h hk
    rw [List.getElem?_eq_getElem hindex] at hclear
    cases hbit : bits[bits.length - 1 - k] with
    | false => rfl
    | true => exact absurd (congrArg some hbit) hclear
  · rfl

theorem polynomial_ne_zero {bits : List Bool} (h : true ∈ bits) :
    polynomial bits ≠ 0 := by
  rcases List.mem_iff_getElem.mp h with ⟨n, hn, hbit⟩
  intro hzero
  have hcoeff := coeff_polynomial bits (bits.length - 1 - n)
  have hindex : bits.length - 1 - (bits.length - 1 - n) = n := by omega
  rw [hzero, coeff_zero, dif_pos (by omega)] at hcoeff
  simp only [hindex, hbit, bit, if_true] at hcoeff
  exact zero_ne_one hcoeff

theorem polynomial_modify_not (bits : List Bool) (n : Nat)
    (h : n < bits.length) :
    polynomial (bits.modify n not) =
      polynomial bits + X ^ (bits.length - 1 - n) := by
  induction bits generalizing n with
  | nil => cases h
  | cons b rest ih =>
      cases n with
      | zero =>
          have hterm : bit (!b) = bit b + 1 := by
            cases b <;> decide
          rw [List.modify_zero_cons, polynomial_cons, polynomial_cons, hterm]
          simp only [C_add, C_1, List.length_cons, Nat.add_sub_cancel,
            Nat.sub_zero]
          ring
      | succ n =>
          have hn : n < rest.length := Nat.lt_of_succ_lt_succ h
          have hindex : (b :: rest).length - 1 - (n + 1) =
              rest.length - 1 - n := by
            simp only [List.length_cons]
            omega
          rw [List.modify_succ_cons, polynomial_cons, polynomial_cons,
            ih n hn, List.length_modify, hindex, add_assoc]

/-!
## Detection
-/

section

variable {g : (ZMod 2)[X]}

theorem isCoprime_X_pow (hg : IsCoprime g X) (n : Nat) :
    IsCoprime g (X ^ n) :=
  IsCoprime.pow_right hg

theorem dvd_mul_X_pow_iff (hg : IsCoprime g X) (p : (ZMod 2)[X]) (n : Nat) :
    g ∣ p * X ^ n <-> g ∣ p := by
  constructor
  · exact (isCoprime_X_pow hg n).dvd_of_dvd_mul_right
  · intro h
    exact h.mul_right _

theorem polynomial_of_setWithin {bits : List Bool} {start width : Nat}
    (h : SetWithin start width bits) :
    exists q : (ZMod 2)[X], q.degree < width ∧
      polynomial bits = q * X ^ (bits.length - start - width) := by
  have hlow : X ^ (bits.length - start - width) ∣ polynomial bits := by
    rw [X_pow_dvd_iff]
    intro k hk
    apply coeff_eq_zero_of_getElem?
    intro hlt hbit
    have hrange := h _ hbit
    omega
  rcases hlow with ⟨q, hq⟩
  exists q
  constructor
  · rw [degree_lt_iff_coeff_zero]
    intro k hk
    have hcoeff : q.coeff k =
        (polynomial bits).coeff (k + (bits.length - start - width)) := by
      rw [hq, mul_comm, coeff_mul_X_pow]
    rw [hcoeff]
    apply coeff_eq_zero_of_getElem?
    intro hlt hbit
    have hrange := h _ hbit
    omega
  · rw [hq, mul_comm]

theorem not_dvd_of_setWithin (hg : IsCoprime g X) {bits : List Bool}
    {start width : Nat} (hdegree : g.degree = width)
    (hwithin : SetWithin start width bits) (hset : true ∈ bits) :
    ¬ g ∣ polynomial bits := by
  rcases polynomial_of_setWithin hwithin with ⟨q, hq, hshift⟩
  rw [hshift, dvd_mul_X_pow_iff hg]
  intro hdvd
  apply polynomial_ne_zero hset
  rw [hshift, eq_zero_of_dvd_of_degree_lt hdvd (hdegree.symm ▸ hq), zero_mul]

theorem not_dvd_X_pow (hg : IsCoprime g X) (hdegree : 0 < g.degree) (n : Nat) :
    ¬ g ∣ X ^ n := by
  rw [<- one_mul (X ^ n), dvd_mul_X_pow_iff hg]
  intro hdvd
  have hone : (1 : (ZMod 2)[X]).degree < g.degree := by
    rw [degree_one]
    exact hdegree
  exact one_ne_zero (eq_zero_of_dvd_of_degree_lt hdvd hone)

noncomputable def rootOf (g : (ZMod 2)[X]) : AdjoinRoot g :=
  AdjoinRoot.mk g X

theorem rootOf_pow_eq_iff (a b : Nat) :
    rootOf g ^ a = rootOf g ^ b <-> g ∣ X ^ a - X ^ b := by
  rw [rootOf, <- map_pow, <- map_pow, AdjoinRoot.mk_eq_mk]

theorem not_dvd_X_pow_add_X_pow (hg : IsCoprime g X) {a b : Nat}
    (hlt : a < b) (horder : b - a < orderOf (rootOf g)) :
    ¬ g ∣ X ^ a + X ^ b := by
  have hshift : (X ^ a + X ^ b : (ZMod 2)[X]) =
      (X ^ (b - a) - X ^ 0) * X ^ a := by
    rw [sub_mul, <- pow_add, Nat.sub_add_cancel (Nat.le_of_lt hlt), pow_zero,
      one_mul, CharTwo.sub_eq_add, add_comm]
  rw [hshift, dvd_mul_X_pow_iff hg, <- rootOf_pow_eq_iff, pow_zero]
  exact pow_ne_one_of_lt_orderOf (by omega) horder

end

end BitPolynomial
end Foundation
end Z2wRpc
