import Mathlib.Data.List.Basic

/-!
# Registers that respect xor

A register takes in one word after the other.  When its step respects xor, in
the register and in the word, a whole run over a list of words does, and what
two runs from one register differ by depends on the xor of their words alone.
-/

namespace Z2wRpc
namespace Foundation

variable {m n : Nat}

def xorWords (as bs : List (BitVec n)) : List (BitVec n) :=
  List.zipWith (· ^^^ ·) as bs

theorem xorWords_length {as bs : List (BitVec n)}
    (h : bs.length = as.length) : (xorWords as bs).length = as.length := by
  rw [xorWords, List.length_zipWith, h, Nat.min_self]

theorem xorWords_cancel {as bs : List (BitVec n)}
    (h : bs.length = as.length) : xorWords as (xorWords as bs) = bs := by
  induction as generalizing bs with
  | nil =>
      rw [List.eq_nil_of_length_eq_zero h]
      rfl
  | cons a as ih =>
      cases bs with
      | nil => cases h
      | cons b bs =>
          have hrest := ih (Nat.succ.inj h)
          rw [xorWords] at hrest
          rw [xorWords, xorWords, List.zipWith_cons_cons,
            List.zipWith_cons_cons, <- BitVec.xor_assoc, BitVec.xor_self,
            BitVec.zero_xor]
          exact congrArg (b :: ·) hrest

def RespectsXor (step : BitVec m -> BitVec n -> BitVec m) : Prop :=
  forall s t a b, step (s ^^^ t) (a ^^^ b) = step s a ^^^ step t b

section

variable {step : BitVec m -> BitVec n -> BitVec m}

theorem RespectsXor.foldl (h : RespectsXor step) {as bs : List (BitVec n)}
    (hlength : bs.length = as.length) (s t : BitVec m) :
    (xorWords as bs).foldl step (s ^^^ t) =
      as.foldl step s ^^^ bs.foldl step t := by
  induction as generalizing bs s t with
  | nil =>
      rw [List.eq_nil_of_length_eq_zero hlength]
      rfl
  | cons a as ih =>
      cases bs with
      | nil => cases hlength
      | cons b bs =>
          rw [xorWords, List.zipWith_cons_cons, List.foldl_cons, h,
            List.foldl_cons, List.foldl_cons]
          exact ih (Nat.succ.inj hlength) (step s a) (step t b)

theorem RespectsXor.foldl_three (h : RespectsXor step)
    {as bs cs : List (BitVec n)} (hbs : bs.length = as.length)
    (hcs : cs.length = as.length) (s : BitVec m) :
    (xorWords (xorWords as bs) cs).foldl step s =
      as.foldl step s ^^^ bs.foldl step s ^^^ cs.foldl step s := by
  have hstart : s = s ^^^ s ^^^ s := by
    rw [BitVec.xor_self, BitVec.zero_xor]
  have hlength : cs.length = (xorWords as bs).length := by
    rw [xorWords_length hbs, hcs]
  calc
    (xorWords (xorWords as bs) cs).foldl step s
        = (xorWords (xorWords as bs) cs).foldl step (s ^^^ s ^^^ s) := by
          rw [<- hstart]
    _ = (xorWords as bs).foldl step (s ^^^ s) ^^^ cs.foldl step s :=
          h.foldl hlength (s ^^^ s) s
    _ = as.foldl step s ^^^ bs.foldl step s ^^^ cs.foldl step s := by
          rw [h.foldl hbs]

theorem RespectsXor.foldl_difference (h : RespectsXor step)
    {as bs : List (BitVec n)} (hlength : bs.length = as.length)
    (s : BitVec m) :
    as.foldl step s ^^^ bs.foldl step s = (xorWords as bs).foldl step 0#m := by
  rw [<- h.foldl hlength, BitVec.xor_self]

end

end Foundation
end Z2wRpc
