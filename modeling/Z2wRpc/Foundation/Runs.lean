import Mathlib.Tactic.Common

/-!
# Runs of a labelled step relation

A run is recorded as the events that happened and the state behind each.  What
every harmless event preserves holds behind every event of a run without others.
-/

namespace Z2wRpc
namespace Foundation

variable {σ ε : Type}

inductive Run (Step : σ -> ε -> σ -> Prop) : σ -> List (ε × σ) -> Prop where
  | nil (s : σ) : Run Step s []
  | cons {s s' : σ} {e : ε} {rest : List (ε × σ)} (step : Step s e s')
      (tail : Run Step s' rest) : Run Step s ((e, s') :: rest)

variable {Step : σ -> ε -> σ -> Prop} {Inv Goal : σ -> Prop}
  {Harmless : ε -> Prop} {s : σ} {record : List (ε × σ)}

theorem Run.invariant (hrun : Run Step s record)
    (hstep : forall s e s', Step s e s' -> Harmless e -> Inv s -> Inv s')
    (hstart : Inv s) (hharmless : forall m, m ∈ record -> Harmless m.1) :
    forall m, m ∈ record -> Inv m.2 := by
  induction hrun with
  | nil s =>
      intro m hm
      cases hm
  | cons step tail ih =>
      rw [List.forall_mem_cons] at hharmless ⊢
      have hnext := hstep _ _ _ step hharmless.left hstart
      exact ⟨hnext, ih hnext hharmless.right⟩

/-- When every other event spoils the goal at once, the goal holds all along
exactly in the runs of harmless events. -/
theorem Run.goal_iff (hrun : Run Step s record)
    (hstep : forall s e s', Step s e s' -> Harmless e -> Inv s -> Inv s')
    (hgoal : forall s, Inv s -> Goal s)
    (hspoils : forall s e s', Step s e s' -> ¬ Harmless e -> ¬ Goal s')
    (hstart : Inv s) :
    (forall m, m ∈ record -> Goal m.2) <->
      forall m, m ∈ record -> Harmless m.1 := by
  constructor
  · intro hall
    induction hrun with
    | nil s =>
        intro m hm
        cases hm
    | @cons s s' e rest step tail ih =>
        rw [List.forall_mem_cons] at hall ⊢
        have hharmless : Harmless e := by
          by_contra hnot
          exact hspoils _ _ _ step hnot hall.left
        exact ⟨hharmless,
          ih (hstep _ _ _ step hharmless hstart) hall.right⟩
  · intro hharmless m hm
    exact hgoal _ (hrun.invariant hstep hstart hharmless m hm)

end Foundation
end Z2wRpc
