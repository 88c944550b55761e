import Mathlib.Data.List.Basic

/-!
# Writers that do not look at what was taken

A writer offers pieces to a channel, one after the other.  The channel takes a
piece, the front of it, or nothing, as its script says, and the writer goes on
with the next piece whatever happened.  What arrives is the front of what was
offered as long as nothing is taken behind a piece that was not taken whole.
-/

namespace Z2wRpc
namespace Foundation
namespace ShortWrites

variable {α : Type}

def took : List (Option Nat) -> List α -> List α
  | [], p => p
  | none :: _, _ => []
  | some k :: _, p => p.take k

def taken : List (Option Nat) -> List (List α) -> List α
  | _, [] => []
  | outcomes, p :: ps => took outcomes p ++ taken outcomes.tail ps

/-- Nothing is taken behind the first piece that is not taken whole. -/
def StopsShort : List (Option Nat) -> List (List α) -> Prop
  | _, [] => True
  | outcomes, p :: ps =>
      took outcomes p = p ∧ StopsShort outcomes.tail ps ∨
        taken outcomes.tail ps = []

theorem took_isPrefix (outcomes : List (Option Nat)) (p : List α) :
    took outcomes p <+: p := by
  match outcomes with
  | [] => exact List.prefix_refl p
  | none :: _ => exact List.nil_prefix
  | some k :: _ => exact List.take_prefix k p

variable {outcomes : List (Option Nat)} {p written offered : List α}
  {ps : List (List α)}

theorem taken_cons_eq_nil_iff :
    taken outcomes (p :: ps) = [] <->
      took outcomes p = [] ∧ taken outcomes.tail ps = [] :=
  List.append_eq_nil_iff

/--
A writer that has offered some bytes, of which some have arrived: they are all
of them and nothing goes wrong from here on, or nothing more is taken.
-/
structure OnCourse (written offered : List α) (outcomes : List (Option Nat))
    (ps : List (List α)) : Prop where
  arrived : written <+: offered
  rest : written = offered ∧ StopsShort outcomes ps ∨ taken outcomes ps = []

theorem onCourse_start (h : StopsShort outcomes ps) :
    OnCourse written written outcomes ps where
  arrived := List.prefix_refl written
  rest := Or.inl ⟨rfl, h⟩

theorem OnCourse.step (h : OnCourse written offered outcomes (p :: ps)) :
    OnCourse (written ++ took outcomes p) (offered ++ p) outcomes.tail ps := by
  rcases h.rest with ⟨rfl, hstops⟩ | hnothing
  · constructor
    · exact (List.prefix_append_right_inj written).mpr
        (took_isPrefix outcomes p)
    · rcases hstops with ⟨hwhole, hrest⟩ | hlast
      · exact Or.inl ⟨by rw [hwhole], hrest⟩
      · exact Or.inr hlast
  · rcases taken_cons_eq_nil_iff.mp hnothing with ⟨hpiece, hrest⟩
    constructor
    · rw [hpiece, List.append_nil]
      exact h.arrived.trans (List.prefix_append offered p)
    · exact Or.inr hrest

theorem OnCourse.whole_or_last
    (h : OnCourse written offered outcomes (p :: ps)) :
    took outcomes p = p ∨ taken outcomes.tail ps = [] := by
  rcases h.rest with ⟨_, ⟨hwhole, _⟩ | hlast⟩ | hnothing
  · exact Or.inl hwhole
  · exact Or.inr hlast
  · exact Or.inr (taken_cons_eq_nil_iff.mp hnothing).right

theorem StopsShort.cons (hpiece : took outcomes p = p ∨
      taken outcomes.tail ps = [])
    (hrest : StopsShort outcomes.tail ps) : StopsShort outcomes (p :: ps) := by
  rcases hpiece with hwhole | hlast
  · exact Or.inl ⟨hwhole, hrest⟩
  · exact Or.inr hlast

end ShortWrites
end Foundation
end Z2wRpc
