import Mathlib.Tactic.Common

/-!
# Programs that ask their environment

A `Program` is straight-line code whose system calls are questions put to
an environment: it finishes with a value, aborts with a fault, or asks one
question and continues with the answer.  The environment is supplied only when
the program is executed, so the same code can be run against a scripted peer,
against another program, or cut into the steps between two questions.

Unbounded loops are unrolled by fuel.  The rules below reduce a loop to its
body: what one round does, what every round preserves, and a variant that shows
the fuel is enough.
-/

namespace Z2wRpc
namespace Foundation

inductive Program (op : Type) (answer : op -> Type) (fault α : Type) where
  | done (a : α)
  | abort (e : fault)
  | ask (o : op) (next : answer o -> Program op answer fault α)

namespace Program

variable {op : Type} {answer : op -> Type} {fault α β σ : Type}

def bind : Program op answer fault α ->
    (α -> Program op answer fault β) -> Program op answer fault β
  | done a, f => f a
  | abort e, _ => abort e
  | ask o next, f => ask o fun r => (next r).bind f

instance : Monad (Program op answer fault) where
  pure := done
  bind := bind

def call (o : op) : Program op answer fault (answer o) :=
  ask o done

def lift : Except fault α -> Program op answer fault α
  | .ok a => done a
  | .error e => abort e

abbrev Environment (op : Type) (answer : op -> Type) (σ : Type) :=
  (o : op) -> σ -> answer o × σ

def exec (env : Environment op answer σ) :
    Program op answer fault α -> σ -> Except fault α × σ
  | done a, s => (.ok a, s)
  | abort e, s => (.error e, s)
  | ask o next, s => exec env (next (env o s).1) (env o s).2

theorem bind_assoc {γ : Type} (p : Program op answer fault α)
    (f : α -> Program op answer fault β)
    (g : β -> Program op answer fault γ) :
    p >>= f >>= g = p >>= fun a => f a >>= g := by
  show (p.bind f).bind g = p.bind fun a => (f a).bind g
  induction p with
  | done a => rfl
  | abort e => rfl
  | ask o next ih => exact congrArg (ask o) (funext ih)

variable (env : Environment op answer σ)

@[simp] theorem exec_pure (a : α) (s : σ) :
    exec env (pure a : Program op answer fault α) s = (.ok a, s) := rfl

@[simp] theorem exec_abort (e : fault) (s : σ) :
    exec env (abort e : Program op answer fault α) s = (.error e, s) := rfl

@[simp] theorem exec_call (o : op) (s : σ) :
    exec env (call o : Program op answer fault (answer o)) s =
      (.ok (env o s).1, (env o s).2) := rfl

theorem exec_lift (r : Except fault α) (s : σ) :
    exec env (lift r : Program op answer fault α) s = (r, s) := by
  cases r <;> rfl

theorem exec_bind (p : Program op answer fault α)
    (f : α -> Program op answer fault β) (s : σ) :
    exec env (p >>= f) s =
      match exec env p s with
      | (.ok a, s') => exec env (f a) s'
      | (.error e, s') => (.error e, s') := by
  show exec env (p.bind f) s = _
  induction p generalizing s with
  | done a => rfl
  | abort e => rfl
  | ask o next ih => exact ih (env o s).1 (env o s).2

theorem exec_call_bind (o : op) (f : answer o -> Program op answer fault β)
    (s : σ) :
    exec env (call o >>= f) s = exec env (f (env o s).1) (env o s).2 := rfl

theorem exec_rel {R : σ -> σ -> Prop} (hrefl : forall s, R s s)
    (htrans : forall a b c, R a b -> R b c -> R a c)
    (henv : forall o s, R s (env o s).2) (p : Program op answer fault α)
    (s : σ) : R s (exec env p s).2 := by
  induction p generalizing s with
  | done a => exact hrefl s
  | abort e => exact hrefl s
  | ask o next ih => exact htrans _ _ _ (henv o s) (ih _ (env o s).2)

/-!
## Moments of a run
-/

def moments : Program op answer fault α -> σ -> List (op × σ)
  | done _, _ => []
  | abort _, _ => []
  | ask o next, s => (o, s) :: moments (next (env o s).1) (env o s).2

def Always (P : op -> σ -> Prop) (p : Program op answer fault α) (s : σ) :
    Prop :=
  forall m, m ∈ moments env p s -> P m.1 m.2

section

variable {env} {P : op -> σ -> Prop} {s : σ}

theorem always_pure (a : α) :
    Always env P (pure a : Program op answer fault α) s := by
  intro m hm
  cases hm

theorem always_abort (e : fault) :
    Always env P (abort e : Program op answer fault α) s := by
  intro m hm
  cases hm

theorem always_call_bind_iff {o : op}
    {f : answer o -> Program op answer fault β} :
    Always env P (call o >>= f) s <->
      P o s ∧ Always env P (f (env o s).1) (env o s).2 :=
  List.forall_mem_cons

theorem always_call_iff {o : op} :
    Always env P (call o : Program op answer fault (answer o)) s <-> P o s := by
  constructor
  · intro h
    exact h (o, s) List.mem_cons_self
  · intro h m hm
    rw [List.mem_singleton.mp hm]
    exact h

theorem always_bind_iff {p : Program op answer fault α}
    {f : α -> Program op answer fault β} :
    Always env P (p >>= f) s <-> Always env P p s ∧
      forall a s', exec env p s = (.ok a, s') -> Always env P (f a) s' := by
  show Always env P (p.bind f) s <-> _
  induction p generalizing s with
  | done a =>
      constructor
      · intro h
        refine ⟨always_pure a, fun b s' hexec => ?_⟩
        rcases Prod.mk.inj hexec with ⟨hvalue, rfl⟩
        obtain rfl : a = b := Except.ok.inj hvalue
        exact h
      · intro h
        exact h.right a s rfl
  | abort e =>
      constructor
      · intro _
        exact ⟨always_abort e, fun a s' hexec => by cases hexec⟩
      · intro _
        exact always_abort e
  | ask o next ih =>
      have hnext := ih (env o s).1 (s := (env o s).2)
      constructor
      · intro h
        rcases List.forall_mem_cons.mp h with ⟨hfirst, hrest⟩
        rcases hnext.mp hrest with ⟨hp, hf⟩
        exact ⟨List.forall_mem_cons.mpr ⟨hfirst, hp⟩, hf⟩
      · intro h
        rcases List.forall_mem_cons.mp h.left with ⟨hfirst, hrest⟩
        exact List.forall_mem_cons.mpr
          ⟨hfirst, hnext.mpr ⟨hrest, h.right⟩⟩

end

/-!
## Loops
-/

/--
Repeat a body while it returns `true`.  The result is `true` only
when the fuel ran out before the body asked to stop.
-/
def repeatWhile (body : Program op answer fault Bool) :
    Nat -> Program op answer fault Bool
  | 0 => pure true
  | fuel + 1 => do
      let again ← body
      if again then repeatWhile body fuel else pure false

variable {body : Program op answer fault Bool}

theorem exec_repeatWhile_again {s s' : σ} (fuel : Nat)
    (h : exec env body s = (.ok true, s')) :
    exec env (repeatWhile body (fuel + 1)) s =
      exec env (repeatWhile body fuel) s' := by
  rw [repeatWhile, exec_bind, h]
  rfl

theorem exec_repeatWhile_stop {s s' : σ} (fuel : Nat)
    (h : exec env body s = (.ok false, s')) :
    exec env (repeatWhile body (fuel + 1)) s = (.ok false, s') := by
  rw [repeatWhile, exec_bind, h]
  rfl

theorem exec_repeatWhile_error {s s' : σ} {e : fault} (fuel : Nat)
    (h : exec env body s = (.error e, s')) :
    exec env (repeatWhile body (fuel + 1)) s = (.error e, s') := by
  rw [repeatWhile, exec_bind, h]

/--
A measure that drops in every round that asks to go on bounds the number of
rounds, and beyond that bound the fuel does not matter.
-/
theorem exec_repeatWhile_fuel (m : σ -> Nat)
    (hdrop : forall s s', exec env body s = (.ok true, s') -> m s' < m s)
    {fuel fuel' : Nat} {s : σ} (h : m s < fuel) (h' : m s < fuel') :
    exec env (repeatWhile body fuel) s =
      exec env (repeatWhile body fuel') s := by
  induction fuel generalizing fuel' s with
  | zero => omega
  | succ fuel ih =>
      obtain ⟨fuel', rfl⟩ : exists k, fuel' = k + 1 :=
        ⟨fuel' - 1, by omega⟩
      rcases hexec : exec env body s with ⟨r, s'⟩
      match r with
      | .ok true =>
          have hlt := hdrop s s' hexec
          rw [exec_repeatWhile_again env fuel hexec,
            exec_repeatWhile_again env fuel' hexec]
          exact ih (by omega) (by omega)
      | .ok false =>
          rw [exec_repeatWhile_stop env fuel hexec,
            exec_repeatWhile_stop env fuel' hexec]
      | .error e =>
          rw [exec_repeatWhile_error env fuel hexec,
            exec_repeatWhile_error env fuel' hexec]

theorem exec_repeatWhile_ne_true (m : σ -> Nat)
    (hdrop : forall s s', exec env body s = (.ok true, s') -> m s' < m s)
    {fuel : Nat} {s : σ} (h : m s < fuel) :
    (exec env (repeatWhile body fuel) s).1 ≠ .ok true := by
  induction fuel generalizing s with
  | zero => omega
  | succ fuel ih =>
      rcases hexec : exec env body s with ⟨r, s'⟩
      match r with
      | .ok true =>
          have hlt := hdrop s s' hexec
          rw [exec_repeatWhile_again env fuel hexec]
          exact ih (by omega)
      | .ok false =>
          rw [exec_repeatWhile_stop env fuel hexec]
          simp
      | .error e =>
          rw [exec_repeatWhile_error env fuel hexec]
          simp

/-!
## Questions of a program
-/

inductive Asks (P : op -> Prop) : Program op answer fault α -> Prop where
  | done (a : α) : Asks P (done a)
  | abort (e : fault) : Asks P (abort e)
  | ask {o : op} {next : answer o -> Program op answer fault α} (h : P o)
      (rest : forall r, Asks P (next r)) : Asks P (ask o next)

section

variable {P : op -> Prop}

theorem asks_call {o : op} (h : P o) :
    Asks P (call o : Program op answer fault (answer o)) :=
  Asks.ask h Asks.done

theorem Asks.bind {p : Program op answer fault α}
    {f : α -> Program op answer fault β} (h : Asks P p)
    (hf : forall a, Asks P (f a)) : Asks P (p >>= f) := by
  induction h with
  | done a => exact hf a
  | abort e => exact Asks.abort e
  | ask h rest ih => exact Asks.ask h ih

theorem Asks.always {p : Program op answer fault α} (h : Asks P p)
    (env : Environment op answer σ) (s : σ) :
    Always env (fun o _ => P o) p s := by
  induction h generalizing s with
  | done a => exact always_pure a
  | abort e => exact always_abort e
  | ask h _ ih => exact List.forall_mem_cons.mpr ⟨h, ih _ _⟩

theorem asks_lift (r : Except fault α) :
    Asks P (lift r : Program op answer fault α) := by
  cases r with
  | ok a => exact Asks.done a
  | error e => exact Asks.abort e

theorem asks_repeatWhile {body : Program op answer fault Bool}
    (h : Asks P body) (fuel : Nat) : Asks P (repeatWhile body fuel) := by
  induction fuel with
  | zero => exact Asks.done true
  | succ fuel ih =>
      refine h.bind fun again => ?_
      cases again with
      | true => exact ih
      | false => exact Asks.done false

end

end Program

end Foundation
end Z2wRpc
