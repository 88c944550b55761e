import Mathlib.Data.List.Basic
import Z2wRpc.Foundation.Traced

/-!
# Ledgers of resources

A ledger follows which resources a run holds.  It has no next page when
something is released that is not held, so a run with a ledger releases no
resource twice and none that it never had, and what the last page holds has
leaked.
-/

namespace Z2wRpc
namespace Foundation

inductive Transfer (ρ : Type) where
  | acquire (r : ρ)
  | release (r : ρ)
deriving DecidableEq

section

variable {ρ : Type} [DecidableEq ρ]

def Transfer.apply (held : List ρ) : Transfer ρ -> Option (List ρ)
  | .acquire r => some (r :: held)
  | .release r => if r ∈ held then some (held.erase r) else none

def ledger (held : List ρ) (transfers : List (Transfer ρ)) :
    Option (List ρ) :=
  transfers.foldlM Transfer.apply held

variable {held after : List ρ} {r : ρ} {rest : List (Transfer ρ)}

@[simp] theorem ledger_nil : ledger held [] = some held := rfl

@[simp] theorem ledger_acquire :
    ledger held (.acquire r :: rest) = ledger (r :: held) rest := rfl

theorem ledger_release (h : r ∈ held) :
    ledger held (.release r :: rest) = ledger (held.erase r) rest := by
  rw [ledger, List.foldlM_cons, Transfer.apply, if_pos h]
  rfl

theorem ledger_append (transfers : List (Transfer ρ)) :
    ledger held (transfers ++ rest) =
      (ledger held transfers).bind fun middle => ledger middle rest := by
  rw [ledger, List.foldlM_append]
  rfl

theorem ledger_acquires (rs : List ρ) (held : List ρ) :
    ledger held (rs.map .acquire) = some (rs.reverse ++ held) := by
  induction rs generalizing held with
  | nil => rfl
  | cons r rs ih =>
      rw [List.map_cons, ledger_acquire, ih, List.reverse_cons,
        List.append_assoc, List.singleton_append]

theorem ledger_releases {rs : List ρ} (hheld : held.Nodup) (hrs : rs.Nodup)
    (hsubset : rs ⊆ held) :
    exists after, ledger held (rs.map .release) = some after ∧
      after.Nodup ∧ forall q, q ∈ after <-> q ∈ held ∧ q ∉ rs := by
  induction rs generalizing held with
  | nil => exact ⟨held, rfl, hheld, fun q => by simp⟩
  | cons r rs ih =>
      rw [List.nodup_cons] at hrs
      rw [List.cons_subset] at hsubset
      rcases hrs with ⟨hr, hrs⟩
      have hrest : rs ⊆ held.erase r := by
        intro q hq
        have hne : q ≠ r := fun heq => hr (heq ▸ hq)
        exact (List.mem_erase_of_ne hne).mpr (hsubset.right hq)
      rcases ih (hheld.erase r) hrs hrest with ⟨after, hledger, hnodup, hmem⟩
      refine ⟨after, ?_, hnodup, fun q => ?_⟩
      · rw [List.map_cons, ledger_release hsubset.left, hledger]
      · rw [hmem, hheld.mem_erase_iff, List.mem_cons, not_or]
        constructor
        · intro h
          exact ⟨h.left.right, h.left.left, h.right⟩
        · intro h
          exact ⟨⟨h.right.left, h.left⟩, h.right.right⟩

end

/-!
## Runs with a ledger
-/

namespace Traced

variable {ε φ ρ α β : Type} [DecidableEq ρ]

def transfers (of : ε -> List (Transfer ρ)) (x : Traced ε φ α) :
    List (Transfer ρ) :=
  x.events.flatMap of

/--
From `held` on the run has a ledger.  With a result `a` it ends holding
`post a`, and its faults are among those of `Q`.
-/
structure Balances (of : ε -> List (Transfer ρ)) (Q : φ -> Prop)
    (held : List ρ) (x : Traced ε φ α) (post : α -> List ρ) : Prop where
  sound : ledger held (x.transfers of) ≠ none
  ends : forall a, x.result = .ok a ->
    ledger held (x.transfers of) = some (post a)
  faults : forall f, x.result = .error f -> Q f

variable {of : ε -> List (Transfer ρ)} {Q : φ -> Prop} {held : List ρ}
  {x : Traced ε φ α} {post : α -> List ρ}

theorem balances_of_ok {a : α} (hresult : x.result = .ok a)
    (h : ledger held (x.transfers of) = some (post a)) :
    Balances of Q held x post := by
  refine ⟨by rw [h]; exact Option.some_ne_none _, fun b hb => ?_,
    fun f hf => ?_⟩
  · rw [hresult] at hb
    obtain rfl : a = b := Except.ok.inj hb
    exact h
  · rw [hresult] at hf
    cases hf

theorem balances_pure {a : α} (h : post a = held) :
    Balances of Q held (pure a : Traced ε φ α) post :=
  balances_of_ok rfl (by rw [h]; rfl)

theorem balances_fault {f : φ} (h : Q f) :
    Balances of Q held (fault f : Traced ε φ α) post where
  sound := Option.some_ne_none _
  ends b hb := by cases hb
  faults g hg := by
    obtain rfl : f = g := Except.error.inj hg
    exact h

theorem balances_emit {e : ε} {after : List ρ}
    (h : ledger held (of e) = some after) :
    Balances of Q held (emit e : Traced ε φ Unit) fun _ => after := by
  apply balances_of_ok rfl
  rw [transfers, emit_events, List.flatMap_singleton, h]

theorem balances_of_silent (h : forall e, e ∈ x.events -> of e = [])
    (hfaults : forall f, x.result = .error f -> Q f) :
    Balances of Q held x fun _ => held := by
  have hnone : x.transfers of = [] := List.flatMap_eq_nil_iff.mpr h
  exact ⟨by simp [hnone], fun _ _ => by simp [hnone], hfaults⟩

theorem balances_bind {f : α -> Traced ε φ β} {m : α -> List ρ}
    {post : β -> List ρ} (hx : Balances of Q held x m)
    (hf : forall a, x.result = .ok a -> Balances of Q (m a) (f a) post) :
    Balances of Q held (x >>= f) post := by
  cases hresult : x.result with
  | ok a =>
      have hrest := hf a hresult
      have hledger : ledger held ((x >>= f).transfers of) =
          ledger (m a) ((f a).transfers of) := by
        have hfirst := hx.ends a hresult
        rw [transfers] at hfirst
        rw [bind_of_ok hresult, transfers, List.flatMap_append, ledger_append,
          hfirst]
        rfl
      refine ⟨by rw [hledger]; exact hrest.sound, fun b hb => ?_,
        fun g hg => ?_⟩
      · rw [bind_of_ok hresult] at hb
        rw [hledger]
        exact hrest.ends b hb
      · rw [bind_of_ok hresult] at hg
        exact hrest.faults g hg
  | error e =>
      rw [bind_of_error hresult]
      refine ⟨hx.sound, fun b hb => (by cases hb), fun g hg => ?_⟩
      obtain rfl : e = g := Except.error.inj hg
      exact hx.faults e hresult

end Traced

end Foundation
end Z2wRpc
