import Mathlib.Algebra.Polynomial.Div
import Mathlib.Algebra.Polynomial.Monic
import Mathlib.Algebra.Field.ZMod

/-!
# Bits as polynomials over GF(2)

A list of bits is the polynomial whose highest coefficient comes first.
Appending lists is shifting and adding, and the exclusive or of two lists is the
sum of their polynomials, so registers and messages become polynomials of small
degree and their arithmetic becomes arithmetic modulo a generator.
-/

namespace Z2wRpc
namespace Foundation
namespace BitPolynomial

open Polynomial

/-!
## Coefficients
-/

def bit (b : Bool) : ZMod 2 :=
  if b then 1 else 0

theorem bit_xor (a b : Bool) : bit (a ^^ b) = bit a + bit b := by
  cases a <;> cases b <;> decide

theorem bit_eq_one (b : Bool) : decide (bit b = 1) = b := by
  cases b <;> decide

/-!
## Lists of bits
-/

noncomputable def polynomial : List Bool -> (ZMod 2)[X]
  | [] => 0
  | b :: rest => C (bit b) * X ^ rest.length + polynomial rest

@[simp]
theorem polynomial_nil : polynomial [] = 0 := rfl

theorem polynomial_cons (b : Bool) (rest : List Bool) :
    polynomial (b :: rest) =
      C (bit b) * X ^ rest.length + polynomial rest := rfl

theorem polynomial_append (a b : List Bool) :
    polynomial (a ++ b) = polynomial a * X ^ b.length + polynomial b := by
  induction a with
  | nil => simp
  | cons bit rest ih =>
      rw [List.cons_append, polynomial_cons, polynomial_cons, ih,
        List.length_append, pow_add]
      ring

@[simp]
theorem polynomial_zeros (n : Nat) :
    polynomial (List.replicate n false) = 0 := by
  induction n with
  | zero => rfl
  | succ n ih => simp [List.replicate_succ, polynomial_cons, ih, bit]

theorem polynomial_append_zeros (a : List Bool) (n : Nat) :
    polynomial (a ++ List.replicate n false) = polynomial a * X ^ n := by
  rw [polynomial_append, polynomial_zeros, List.length_replicate, add_zero]

theorem polynomial_zipWith_xor (a b : List Bool) (h : a.length = b.length) :
    polynomial (List.zipWith xor a b) = polynomial a + polynomial b := by
  induction a generalizing b with
  | nil =>
      have hb : b = [] := List.length_eq_zero_iff.mp h.symm
      simp [hb]
  | cons x rest ih =>
      cases b with
      | nil => cases h
      | cons y others =>
          have hlength : rest.length = others.length := by simpa using h
          rw [List.zipWith_cons_cons, polynomial_cons, polynomial_cons,
            polynomial_cons, ih others hlength, List.length_zipWith, hlength,
            Nat.min_self, bit_xor, C_add]
          ring

theorem coeff_polynomial (a : List Bool) (k : Nat) :
    (polynomial a).coeff k =
      if h : k < a.length then bit a[a.length - 1 - k] else 0 := by
  induction a with
  | nil => simp
  | cons b rest ih =>
      rw [polynomial_cons, coeff_add, coeff_C_mul, coeff_X_pow, ih]
      rcases Nat.lt_trichotomy k rest.length with hlt | heq | hgt
      · have hindex : rest.length - k = rest.length - 1 - k + 1 := by omega
        simp [hlt, Nat.ne_of_lt hlt, Nat.lt_succ_of_lt hlt, hindex]
      · simp [heq]
      · have hnot : ¬ k < rest.length := by omega
        have hnot' : ¬ k < rest.length + 1 := by omega
        simp [hnot, hnot', Nat.ne_of_gt hgt]

theorem degree_polynomial_lt (a : List Bool) :
    (polynomial a).degree < a.length := by
  rw [degree_lt_iff_coeff_zero]
  intro k hk
  rw [coeff_polynomial, dif_neg (Nat.not_lt.mpr hk)]

theorem polynomial_injective {a b : List Bool} (hlength : a.length = b.length)
    (h : polynomial a = polynomial b) : a = b := by
  apply List.ext_getElem hlength
  intro n hn hn'
  have hcoeff := congrArg (coeff · (a.length - 1 - n)) h
  have hindex : a.length - 1 - (a.length - 1 - n) = n := by omega
  have hindex' : b.length - 1 - (a.length - 1 - n) = n := by omega
  simp only [coeff_polynomial] at hcoeff
  rw [dif_pos (by omega), dif_pos (by omega)] at hcoeff
  simp only [hindex, hindex'] at hcoeff
  rw [<- bit_eq_one a[n], <- bit_eq_one b[n], hcoeff]

/-!
## Machine words

The bits of a word from the least significant one up; as a polynomial this is
the word read in reflected order.
-/

def leastFirst {n : Nat} (w : BitVec n) : List Bool :=
  (List.range n).map w.getLsbD

@[simp]
theorem leastFirst_length {n : Nat} (w : BitVec n) :
    (leastFirst w).length = n := by
  simp [leastFirst]

@[simp]
theorem leastFirst_getElem {n : Nat} (w : BitVec n) (i : Nat)
    (h : i < (leastFirst w).length) :
    (leastFirst w)[i] = w.getLsbD i := by
  simp [leastFirst]

theorem leastFirst_xor {n : Nat} (v w : BitVec n) :
    leastFirst (v ^^^ w) = List.zipWith xor (leastFirst v) (leastFirst w) := by
  apply List.ext_getElem
  · simp
  · intro i h h'
    simp

theorem polynomial_leastFirst_xor {n : Nat} (v w : BitVec n) :
    polynomial (leastFirst (v ^^^ w)) =
      polynomial (leastFirst v) + polynomial (leastFirst w) := by
  rw [leastFirst_xor, polynomial_zipWith_xor]
  simp

theorem leastFirst_setWidth {m n : Nat} (h : m <= n) (w : BitVec m) :
    leastFirst (w.setWidth n) =
      leastFirst w ++ List.replicate (n - m) false := by
  apply List.ext_getElem
  · simp
    omega
  · intro i hi hi'
    have hn : i < n := by simpa using hi
    by_cases hm : i < m
    · simp [hm, hn]
    · simp [List.getElem_append, hm, hn, BitVec.getLsbD_of_ge w i (by omega)]

theorem leastFirst_truncate {m n : Nat} (h : m <= n) (w : BitVec n) :
    leastFirst (w.setWidth m) = (leastFirst w).take m := by
  apply List.ext_getElem
  · simp [h]
  · intro i hi hi'
    have hm : i < m := by simpa using hi
    simp [hm]

theorem leastFirst_shiftRight {n : Nat} (w : BitVec n) (k : Nat) (h : k <= n) :
    leastFirst (w >>> k) = (leastFirst w).drop k ++ List.replicate k false := by
  apply List.ext_getElem
  · simp
    omega
  · intro i hi hi'
    by_cases hin : k + i < n
    · have hdrop : i < n - k := by omega
      simp [hdrop]
    · have hdrop : ¬ i < n - k := by omega
      simp [List.getElem_append, hdrop,
        BitVec.getLsbD_of_ge w (k + i) (by omega)]

/-- The word whose bit of weight `2 ^ k` is the coefficient of `x ^ k`. -/
noncomputable def word (n : Nat) (p : (ZMod 2)[X]) : BitVec n :=
  (BitVec.ofBoolListLE
    ((List.range n).map fun k => decide (p.coeff k = 1))).setWidth n

theorem word_getLsbD {n : Nat} (p : (ZMod 2)[X]) (k : Nat) (hk : k < n) :
    (word n p).getLsbD k = decide (p.coeff k = 1) := by
  rw [word, BitVec.getLsbD_setWidth, BitVec.getLsbD_ofBoolListLE,
    decide_eq_true hk]
  simp [hk]

theorem word_leastFirst {n : Nat} (w : BitVec n) :
    word n (polynomial (leastFirst w)) = w.reverse := by
  apply BitVec.eq_of_getLsbD_eq
  intro k hk
  rw [word_getLsbD _ k hk, coeff_polynomial, dif_pos (by simpa using hk),
    bit_eq_one, BitVec.getLsbD_reverse, leastFirst_getElem,
    BitVec.getMsbD_eq_getLsbD]
  simp [hk]

theorem reverse_not {n : Nat} (w : BitVec n) :
    (~~~w).reverse = ~~~w.reverse := by
  apply BitVec.eq_of_getLsbD_eq
  intro k hk
  have hback : n - 1 - k < n := by omega
  rw [BitVec.getLsbD_reverse, BitVec.getMsbD_eq_getLsbD, BitVec.getLsbD_not,
    BitVec.getLsbD_not, BitVec.getLsbD_reverse, BitVec.getMsbD_eq_getLsbD]
  simp [hk, hback]

/-!
## Remainders
-/

theorem modByMonic_eq_of_eq_add_mul {p q g k : (ZMod 2)[X]} (hg : g.Monic)
    (hp : p = q + k * g) : p %ₘ g = q %ₘ g := by
  apply modByMonic_eq_of_dvd_sub hg
  exists k
  rw [hp]
  ring

theorem modByMonic_eq_iff {g : (ZMod 2)[X]} (hg : g.Monic)
    (p q : (ZMod 2)[X]) : p %ₘ g = q %ₘ g <-> g ∣ p - q := by
  constructor
  · intro h
    rw [<- modByMonic_eq_zero_iff_dvd hg, sub_modByMonic, h, sub_self]
  · exact modByMonic_eq_of_dvd_sub hg

theorem modByMonic_modByMonic (p g : (ZMod 2)[X]) :
    (p %ₘ g) %ₘ g = p %ₘ g := by
  by_cases hg : g.Monic
  · exact (modByMonic_eq_self_iff hg).mpr (degree_modByMonic_lt p hg)
  · simp only [modByMonic_eq_of_not_monic _ hg]

theorem add_modByMonic_right (p q g : (ZMod 2)[X]) :
    (p + q %ₘ g) %ₘ g = (p + q) %ₘ g := by
  rw [add_modByMonic, modByMonic_modByMonic, <- add_modByMonic]

theorem mul_modByMonic_right (p q g : (ZMod 2)[X]) :
    (p * (q %ₘ g)) %ₘ g = (p * q) %ₘ g := by
  rw [mul_modByMonic p (q %ₘ g), modByMonic_modByMonic, <- mul_modByMonic]

end BitPolynomial
end Foundation
end Z2wRpc
