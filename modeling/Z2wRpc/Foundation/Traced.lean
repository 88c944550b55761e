import Mathlib.Tactic.Common

/-!
# Computations that record what they touch

A `Traced` computation yields a value or a fault, together with the events it
recorded on the way.  Events in front of a fault stay recorded, so a property
of all events is a property of the whole run, finished or not.
-/

namespace Z2wRpc
namespace Foundation

structure Traced (ε φ α : Type) where
  events : List ε
  result : Except φ α

namespace Traced

variable {ε φ α β : Type}

def done (a : α) : Traced ε φ α where
  events := []
  result := .ok a

def emit (e : ε) : Traced ε φ Unit where
  events := [e]
  result := .ok ()

def fault (f : φ) : Traced ε φ α where
  events := []
  result := .error f

def record (es : List ε) : Traced ε φ Unit where
  events := es
  result := .ok ()

def silent (r : Except φ α) : Traced ε φ α where
  events := []
  result := r

def bind (x : Traced ε φ α) (f : α -> Traced ε φ β) : Traced ε φ β :=
  match x.result with
  | .ok a => ⟨x.events ++ (f a).events, (f a).result⟩
  | .error e => ⟨x.events, .error e⟩

instance : Monad (Traced ε φ) where
  pure := done
  bind := bind

def require (f : φ) : Option α -> Traced ε φ α
  | some a => done a
  | none => fault f

@[simp] theorem pure_events (a : α) :
    (pure a : Traced ε φ α).events = [] := rfl

@[simp] theorem pure_result (a : α) :
    (pure a : Traced ε φ α).result = .ok a := rfl

@[simp] theorem fault_events (f : φ) :
    (fault f : Traced ε φ α).events = [] := rfl

@[simp] theorem fault_result (f : φ) :
    (fault f : Traced ε φ α).result = .error f := rfl

@[simp] theorem emit_events (e : ε) :
    (emit e : Traced ε φ Unit).events = [e] := rfl

@[simp] theorem emit_result (e : ε) :
    (emit e : Traced ε φ Unit).result = .ok () := rfl

theorem bind_def (x : Traced ε φ α) (f : α -> Traced ε φ β) :
    x >>= f = x.bind f := rfl

theorem bind_of_ok {x : Traced ε φ α} {a : α} (h : x.result = .ok a)
    (f : α -> Traced ε φ β) :
    x >>= f = ⟨x.events ++ (f a).events, (f a).result⟩ := by
  rw [bind_def, bind, h]

theorem bind_of_error {x : Traced ε φ α} {e : φ} (h : x.result = .error e)
    (f : α -> Traced ε φ β) : x >>= f = ⟨x.events, .error e⟩ := by
  rw [bind_def, bind, h]

@[simp] theorem pure_bind (a : α) (f : α -> Traced ε φ β) :
    (pure a : Traced ε φ α) >>= f = f a := rfl

@[simp] theorem require_some_bind (e : φ) (a : α) (f : α -> Traced ε φ β) :
    (require e (some a) : Traced ε φ α) >>= f = f a := rfl

theorem record_bind (es : List ε) (f : Unit -> Traced ε φ α) :
    record es >>= f = ⟨es ++ (f ()).events, (f ()).result⟩ := rfl

theorem bind_result (x : Traced ε φ α) (f : α -> Traced ε φ β) :
    (x >>= f).result = x.result >>= fun a => (f a).result := by
  cases h : x.result with
  | ok a =>
      rw [bind_of_ok h]
      rfl
  | error e =>
      rw [bind_of_error h]
      rfl

theorem bind_result_ok_iff {x : Traced ε φ α} {f : α -> Traced ε φ β} {b : β} :
    (x >>= f).result = .ok b <->
      exists a, x.result = .ok a ∧ (f a).result = .ok b := by
  cases h : x.result with
  | ok a => simp [bind_of_ok h]
  | error e => simp [bind_of_error h]

theorem bind_result_error_iff {x : Traced ε φ α} {f : α -> Traced ε φ β}
    {e : φ} : (x >>= f).result = .error e <->
      x.result = .error e ∨
        exists a, x.result = .ok a ∧ (f a).result = .error e := by
  cases h : x.result with
  | ok a => simp [bind_of_ok h]
  | error e => simp [bind_of_error h]

theorem mem_events_bind_iff {x : Traced ε φ α} {f : α -> Traced ε φ β} {e : ε} :
    e ∈ (x >>= f).events <->
      e ∈ x.events ∨ exists a, x.result = .ok a ∧ e ∈ (f a).events := by
  cases h : x.result with
  | ok a => simp [bind_of_ok h]
  | error e => simp [bind_of_error h]

/-!
## Runs of which every event and every fault is accepted
-/

/-- Every event satisfies `P` and the run ends without a fault outside `Q`. -/
structure Obeys (P : ε -> Prop) (Q : φ -> Prop) (x : Traced ε φ α) : Prop where
  events : forall e, e ∈ x.events -> P e
  faults : forall f, x.result = .error f -> Q f

variable {P : ε -> Prop} {Q : φ -> Prop}

theorem obeys_pure (a : α) : Obeys P Q (pure a : Traced ε φ α) where
  events e he := by simp at he
  faults f hf := by simp at hf

theorem obeys_emit_iff {e : ε} : Obeys P Q (emit e : Traced ε φ Unit) <-> P e := by
  constructor
  · intro h
    exact h.events e (by simp)
  · intro h
    exact ⟨by simpa using h, by simp⟩

theorem obeys_fault_iff {f : φ} : Obeys P Q (fault f : Traced ε φ α) <-> Q f := by
  constructor
  · intro h
    exact h.faults f rfl
  · intro h
    exact ⟨by simp, by simpa using h⟩

theorem obeys_require_iff {f : φ} {a : Option α} :
    Obeys P Q (require f a : Traced ε φ α) <-> (a = none -> Q f) := by
  cases a with
  | none =>
      show Obeys P Q (fault f) <-> _
      simp [obeys_fault_iff]
  | some a =>
      have h : Obeys P Q (require f (some a)) := obeys_pure a
      simp [h]

theorem obeys_bind_iff {x : Traced ε φ α} {f : α -> Traced ε φ β} :
    Obeys P Q (x >>= f) <->
      Obeys P Q x ∧ forall a, x.result = .ok a -> Obeys P Q (f a) := by
  cases h : x.result with
  | ok a =>
      rw [bind_of_ok h]
      constructor
      · intro hobeys
        refine ⟨⟨fun e he => ?_, fun g hg => ?_⟩, ?_⟩
        · exact hobeys.events e (List.mem_append_left _ he)
        · rw [h] at hg
          cases hg
        · intro b hb
          obtain rfl : a = b := by simpa using hb
          exact ⟨fun e he => hobeys.events e (List.mem_append_right _ he),
            hobeys.faults⟩
      · intro h
        rcases h with ⟨hx, hf⟩
        refine ⟨fun e he => ?_, (hf a rfl).faults⟩
        rcases List.mem_append.mp he with hmem | hmem
        · exact hx.events e hmem
        · exact (hf a rfl).events e hmem
  | error e =>
      rw [bind_of_error h]
      constructor
      · intro hobeys
        refine ⟨⟨hobeys.events, fun g hg => ?_⟩, fun b hb => by cases hb⟩
        obtain rfl : e = g := Except.error.inj (h.symm.trans hg)
        exact hobeys.faults e rfl
      · intro h
        rcases h with ⟨hx, _⟩
        refine ⟨hx.events, fun g hg => ?_⟩
        obtain rfl : e = g := Except.error.inj hg
        exact hx.faults e h

end Traced

end Foundation
end Z2wRpc
