import Mathlib.Data.List.Basic
import Mathlib.Logic.Function.Basic

/-!
# Edits of the first elements

An edit that keeps the length of every list can be applied to the first `n`
elements alone, and the others stay where they are.  When it undoes itself, the
edit of the first elements does so too.
-/

namespace Z2wRpc
namespace Foundation

variable {α : Type} {edit : List α -> List α}

structure UndoesItself (edit : List α -> List α) : Prop where
  length : forall xs, (edit xs).length = xs.length
  twice : Function.Involutive edit

theorem undoesItself_reverse :
    UndoesItself (List.reverse : List α -> List α) where
  length _ := List.length_reverse
  twice := List.reverse_reverse

theorem undoesItself_map {f : α -> α} (h : Function.Involutive f) :
    UndoesItself (List.map f) where
  length _ := List.length_map f
  twice xs := by
    rw [List.map_map, h.comp_self, List.map_id]

def editFirst (edit : List α -> List α) (n : Nat) (xs : List α) : List α :=
  edit (xs.take n) ++ xs.drop n

theorem forall_mem_editFirst {P : α -> Prop}
    (h : forall xs, (forall x, x ∈ xs -> P x) -> forall x, x ∈ edit xs -> P x)
    {n : Nat} {xs : List α} (hxs : forall x, x ∈ xs -> P x) :
    forall x, x ∈ editFirst edit n xs -> P x := by
  intro x hx
  rcases List.mem_append.mp hx with hfirst | hrest
  · exact h (xs.take n) (fun y hy => hxs y (List.mem_of_mem_take hy)) x hfirst
  · exact hxs x (List.mem_of_mem_drop hrest)

section

variable (hedit : UndoesItself edit) (n : Nat) (xs : List α)

include hedit

theorem editFirst_length : (editFirst edit n xs).length = xs.length := by
  rw [editFirst, List.length_append, hedit.length, <- List.length_append,
    List.take_append_drop]

theorem editFirst_twice : editFirst edit n (editFirst edit n xs) = xs := by
  by_cases hn : n <= xs.length
  · have htake : (edit (xs.take n)).length = n := by
      rw [hedit.length, List.length_take_of_le hn]
    rw [editFirst, editFirst, List.take_left' htake, List.drop_left' htake,
      hedit.twice, List.take_append_drop]
  · have hall := Nat.le_of_not_le hn
    have hedited : (edit xs).length <= n := by
      rw [hedit.length]
      exact hall
    rw [editFirst, editFirst, List.take_of_length_le hall,
      List.drop_of_length_le hall, List.append_nil,
      List.take_of_length_le hedited, List.drop_of_length_le hedited,
      List.append_nil, hedit.twice]

end

theorem UndoesItself.editFirst (hedit : UndoesItself edit) (n : Nat) :
    UndoesItself (Foundation.editFirst edit n) where
  length := editFirst_length hedit n
  twice := editFirst_twice hedit n

end Foundation
end Z2wRpc
