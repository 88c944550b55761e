import Z2wRpc.Foundation.Program
import Mathlib.Logic.Function.Iterate

/-!
# Coroutines that share a state

Several programs run in turns on one thread.  Some of their calls are switch
points: in its turn a program makes the call it stopped at and goes on until it
reaches the next one.  Each program keeps a state of its own, and all of them
see the shared state.  A program that aborts stops the whole system.

When the answers that a program gets do not depend on the shared state beyond an
invariant that every call keeps, it runs as it would alone, whatever the
schedule.
-/

namespace Z2wRpc
namespace Foundation

structure Coroutine (op : Type) (answer : op -> Type) (fault σ : Type) where
  program : Program op answer fault Unit
  state : σ

namespace Coroutine

variable {op : Type} {answer : op -> Type} {fault σ : Type}

def resume (switches : op -> Bool) (env : Program.Environment op answer σ) :
    Program op answer fault Unit -> σ -> Coroutine op answer fault σ
  | .ask o next, s =>
      if switches o then ⟨.ask o next, s⟩
      else resume switches env (next (env o s).1) (env o s).2
  | p, s => ⟨p, s⟩

def turn (switches : op -> Bool) (env : Program.Environment op answer σ)
    (c : Coroutine op answer fault σ) : Coroutine op answer fault σ :=
  match c.program with
  | .ask o next =>
      resume switches env (next (env o c.state).1) (env o c.state).2
  | _ => c

def aborted (c : Coroutine op answer fault σ) : Bool :=
  match c.program with
  | .abort _ => true
  | _ => false

def complete (env : Program.Environment op answer σ)
    (c : Coroutine op answer fault σ) : Except fault Unit × σ :=
  Program.exec env c.program c.state

def ended (r : Except fault Unit × σ) : Coroutine op answer fault σ where
  program := Program.lift r.1
  state := r.2

variable (switches : op -> Bool) (env : Program.Environment op answer σ)

theorem complete_resume (p : Program op answer fault Unit) (s : σ) :
    complete env (resume switches env p s) = Program.exec env p s := by
  induction p generalizing s with
  | done a => rfl
  | abort e => rfl
  | ask o next ih =>
      rw [resume]
      split
      · rfl
      · exact ih (env o s).1 (env o s).2

theorem complete_turn (c : Coroutine op answer fault σ) :
    complete env (turn switches env c) = complete env c := by
  rcases c with ⟨p, s⟩
  cases p with
  | ask o next => exact complete_resume switches env _ _
  | _ => rfl

theorem complete_iterate_turn (c : Coroutine op answer fault σ) (n : Nat) :
    complete env ((turn switches env)^[n] c) = complete env c := by
  induction n generalizing c with
  | zero => rfl
  | succ n ih => rw [Function.iterate_succ_apply, ih, complete_turn]

theorem turn_ended (r : Except fault Unit × σ) :
    turn switches env (ended r) = ended r := by
  rcases r with ⟨r, s⟩
  cases r with
  | ok a => rfl
  | error e => rfl

theorem iterate_turn_ended (r : Except fault Unit × σ) (n : Nat) :
    (turn switches env)^[n] (ended r) = ended r :=
  Function.iterate_fixed (turn_ended switches env r) n

theorem resume_eq_or (p : Program op answer fault Unit) (s : σ) :
    resume switches env p s = ⟨p, s⟩ ∨
      resume switches env p s = turn switches env ⟨p, s⟩ := by
  cases p with
  | ask o next =>
      rw [resume]
      split
      · exact Or.inl rfl
      · exact Or.inr rfl
  | _ => exact Or.inl rfl

theorem exists_iterate_turn_ended (p : Program op answer fault Unit) (s : σ) :
    exists n, (turn switches env)^[n] ⟨p, s⟩ =
      ended (Program.exec env p s) := by
  induction p generalizing s with
  | done a => exact ⟨0, rfl⟩
  | abort e => exact ⟨0, rfl⟩
  | ask o next ih =>
      rcases ih (env o s).1 (env o s).2 with ⟨n, hn⟩
      exists n + 1
      rw [Function.iterate_succ_apply]
      show (turn switches env)^[n]
        (resume switches env (next (env o s).1) (env o s).2) = _
      rcases resume_eq_or switches env (next (env o s).1) (env o s).2 with
        hresume | hresume
      · rw [hresume, hn]
        rfl
      · rw [hresume, <- Function.iterate_succ_apply,
          Function.iterate_succ_apply', hn, turn_ended]
        rfl

theorem iterate_turn_of_le {c : Coroutine op answer fault σ}
    {r : Except fault Unit × σ} {n m : Nat}
    (h : (turn switches env)^[n] c = ended r) (hle : n <= m) :
    (turn switches env)^[m] c = ended r := by
  rcases Nat.exists_eq_add_of_le' hle with ⟨k, rfl⟩
  rw [Function.iterate_add_apply, h, iterate_turn_ended]

theorem always_resume {P : op -> σ -> Prop} {p : Program op answer fault Unit}
    {s : σ} (h : Program.Always env P p s) :
    Program.Always env P (resume switches env p s).program
      (resume switches env p s).state := by
  induction p generalizing s with
  | done a => exact h
  | abort e => exact h
  | ask o next ih =>
      rw [resume]
      split
      · exact h
      · exact ih _ (List.forall_mem_cons.mp h).right

theorem always_turn {P : op -> σ -> Prop} {c : Coroutine op answer fault σ}
    (h : Program.Always env P c.program c.state) :
    Program.Always env P (turn switches env c).program
      (turn switches env c).state := by
  rcases c with ⟨p, s⟩
  cases p with
  | ask o next =>
      exact always_resume switches env (List.forall_mem_cons.mp h).right
  | _ => exact h

theorem always_iterate_turn {P : op -> σ -> Prop}
    {c : Coroutine op answer fault σ}
    (h : Program.Always env P c.program c.state) (n : Nat) :
    Program.Always env P ((turn switches env)^[n] c).program
      ((turn switches env)^[n] c).state := by
  induction n generalizing c with
  | zero => exact h
  | succ n ih =>
      rw [Function.iterate_succ_apply]
      exact ih (always_turn switches env h)

theorem not_aborted_of_complete {c : Coroutine op answer fault σ} {s : σ}
    (h : complete env c = (.ok (), s)) : aborted c = false := by
  rcases c with ⟨p, s'⟩
  cases p with
  | abort e => cases h
  | _ => rfl

theorem turn_of_aborted {c : Coroutine op answer fault σ}
    (h : aborted c = true) : turn switches env c = c := by
  rcases c with ⟨p, s⟩
  cases p with
  | ask o next => cases h
  | _ => rfl

end Coroutine

/-!
## The system
-/

structure System (ι : Type) (op : Type) (answer : op -> Type)
    (fault τ σ : Type) where
  shared : τ
  coroutines : ι -> Coroutine op answer fault σ
  stopped : Bool

namespace System

variable {ι op : Type} {answer : op -> Type} {fault τ σ : Type}
  [DecidableEq ι]

def turn (switches : op -> Bool)
    (env : Program.Environment op answer (τ × σ))
    (system : System ι op answer fault τ σ) (i : ι) :
    System ι op answer fault τ σ :=
  if system.stopped then system
  else
    let before := system.coroutines i
    let after := Coroutine.turn switches env
      ⟨before.program, (system.shared, before.state)⟩
    {
      shared := after.state.1
      coroutines := Function.update system.coroutines i
        ⟨after.program, after.state.2⟩
      stopped := after.aborted }

def run (switches : op -> Bool)
    (env : Program.Environment op answer (τ × σ))
    (system : System ι op answer fault τ σ) (schedule : List ι) :
    System ι op answer fault τ σ :=
  schedule.foldl (turn switches env) system

/--
The answers to settled calls are those of an environment without the shared
state, as long as the shared state keeps the invariant, and these calls keep it.
-/
def Separate (env : Program.Environment op answer (τ × σ))
    (alone : Program.Environment op answer σ) (keeps : τ -> Prop)
    (settled : op -> Prop) : Prop :=
  forall o t s, keeps t -> settled o -> exists t', keeps t' ∧
    env o (t, s) = ((alone o s).1, (t', (alone o s).2))

def Settles (alone : Program.Environment op answer σ) (settled : op -> Prop)
    (c : Coroutine op answer fault σ) : Prop :=
  Program.Always alone (fun o _ => settled o) c.program c.state

variable (switches : op -> Bool)
  {env : Program.Environment op answer (τ × σ)}
  {alone : Program.Environment op answer σ} {keeps : τ -> Prop}
  {settled : op -> Prop}

def beside (t : τ) (c : Coroutine op answer fault σ) :
    Coroutine op answer fault (τ × σ) :=
  ⟨c.program, (t, c.state)⟩

theorem resume_separate (h : Separate env alone keeps settled)
    (p : Program op answer fault Unit) {t : τ} (s : σ) (ht : keeps t)
    (hsettles : Settles alone settled ⟨p, s⟩) :
    exists t', keeps t' ∧ Coroutine.resume switches env p (t, s) =
      beside t' (Coroutine.resume switches alone p s) := by
  induction p generalizing t s with
  | done a => exact ⟨t, ht, rfl⟩
  | abort e => exact ⟨t, ht, rfl⟩
  | ask o next ih =>
      rcases List.forall_mem_cons.mp hsettles with ⟨hfirst, hrest⟩
      rw [Coroutine.resume, Coroutine.resume]
      split
      · exact ⟨t, ht, rfl⟩
      · rcases h o t s ht hfirst with ⟨t', ht', henv⟩
        rw [henv]
        exact ih _ _ ht' hrest

theorem turn_separate (h : Separate env alone keeps settled)
    {c : Coroutine op answer fault σ} (hsettles : Settles alone settled c)
    {t : τ} (ht : keeps t) :
    exists t', keeps t' ∧ Coroutine.turn switches env (beside t c) =
      beside t' (Coroutine.turn switches alone c) := by
  rcases c with ⟨p, s⟩
  cases p with
  | ask o next =>
      rcases List.forall_mem_cons.mp hsettles with ⟨hfirst, hrest⟩
      rcases h o t s ht hfirst with ⟨t', ht', henv⟩
      rcases resume_separate switches h (next (alone o s).1)
        (alone o s).2 ht' hrest with ⟨t'', ht'', hresume⟩
      have hstep : Coroutine.turn switches env (beside t ⟨.ask o next, s⟩) =
          Coroutine.resume switches env (next (env o (t, s)).1)
            (env o (t, s)).2 := rfl
      refine ⟨t'', ht'', ?_⟩
      rw [hstep, henv]
      exact hresume
  | _ => exact ⟨t, ht, rfl⟩

theorem turn_of_separate (h : Separate env alone keeps settled)
    (system : System ι op answer fault τ σ) (i : ι)
    (hsettles : Settles alone settled (system.coroutines i))
    (hkeeps : keeps system.shared) (hgoes : system.stopped = false) :
    let after := Coroutine.turn switches alone (system.coroutines i)
    keeps (system.turn switches env i).shared ∧
      (system.turn switches env i).coroutines =
        Function.update system.coroutines i after ∧
      (system.turn switches env i).stopped = after.aborted := by
  rcases turn_separate switches h hsettles hkeeps with ⟨t', ht', hturn⟩
  have hafter : Coroutine.turn switches env
      ⟨(system.coroutines i).program,
        (system.shared, (system.coroutines i).state)⟩ =
      beside t' (Coroutine.turn switches alone (system.coroutines i)) := hturn
  rw [turn, if_neg (by simp [hgoes])]
  simp only [hafter]
  exact ⟨ht', rfl, rfl⟩

def Safe (alone : Program.Environment op answer σ) (settled : op -> Prop)
    (system : System ι op answer fault τ σ) (schedule : List ι) : Prop :=
  forall i, i ∈ schedule ->
    Settles alone settled (system.coroutines i) ∧
      exists s, (system.coroutines i).complete alone = (.ok (), s)

/--
Each coroutine is where it would be alone after as many turns, under any
schedule, and the invariant holds.
-/
theorem run_separate (h : Separate env alone keeps settled)
    {system : System ι op answer fault τ σ} (hkeeps : keeps system.shared)
    (hgoes : system.stopped = false) {schedule : List ι}
    (hsafe : Safe alone settled system schedule) :
    keeps (system.run switches env schedule).shared ∧
      (system.run switches env schedule).stopped = false ∧
      forall i, (system.run switches env schedule).coroutines i =
        (Coroutine.turn switches alone)^[schedule.count i]
          (system.coroutines i) := by
  induction schedule generalizing system with
  | nil => exact ⟨hkeeps, hgoes, fun i => rfl⟩
  | cons j rest ih =>
      rcases hsafe j List.mem_cons_self with ⟨hsettles, s, hs⟩
      have hturn := turn_of_separate switches h system j hsettles
        hkeeps hgoes
      rcases hturn with ⟨hshared, hcoroutines, hstopped⟩
      have hgoes' : (system.turn switches env j).stopped = false := by
        rw [hstopped]
        apply Coroutine.not_aborted_of_complete alone
        rw [Coroutine.complete_turn]
        exact hs
      have hsafe' : Safe alone settled (system.turn switches env j) rest := by
        intro i hi
        have hi' := hsafe i (List.mem_cons_of_mem j hi)
        rw [hcoroutines]
        by_cases hij : i = j
        · subst hij
          rw [Function.update_self, Coroutine.complete_turn]
          exact ⟨Coroutine.always_turn switches alone hi'.left, hi'.right⟩
        · rw [Function.update_of_ne hij]
          exact hi'
      rcases ih hshared hgoes' hsafe' with ⟨hshared', hstopped', hrest⟩
      refine ⟨hshared', hstopped', ?_⟩
      intro i
      show ((system.turn switches env j).run switches env rest).coroutines
        i = _
      rw [hrest, hcoroutines]
      by_cases hij : i = j
      · subst hij
        rw [Function.update_self, List.count_cons_self,
          Function.iterate_succ_apply]
      · rw [Function.update_of_ne hij, List.count_cons_of_ne (Ne.symm hij)]

theorem run_append (system : System ι op answer fault τ σ)
    (earlier later : List ι) :
    system.run switches env (earlier ++ later) =
      (system.run switches env earlier).run switches env later :=
  List.foldl_append

/-!
## Systems that stop
-/

theorem run_of_stopped {system : System ι op answer fault τ σ}
    (h : system.stopped = true) (schedule : List ι) :
    system.run switches env schedule = system := by
  induction schedule with
  | nil => rfl
  | cons i rest ih =>
      have hturn : system.turn switches env i = system := by
        rw [turn, if_pos h]
      show (system.turn switches env i).run switches env rest = system
      rw [hturn, ih]

theorem run_of_not_mem {i : ι} {schedule : List ι} (h : i ∉ schedule)
    (system : System ι op answer fault τ σ) :
    (system.run switches env schedule).coroutines i = system.coroutines i := by
  induction schedule generalizing system with
  | nil => rfl
  | cons j rest ih =>
      rw [List.mem_cons, not_or] at h
      have hturn : (system.turn switches env j).coroutines i =
          system.coroutines i := by
        unfold turn
        split
        · rfl
        · exact Function.update_of_ne h.left _ _
      show ((system.turn switches env j).run switches env rest).coroutines
        i = _
      rw [ih h.right, hturn]

/--
A coroutine that takes turns by itself: until the system stops, it is where it
would be alone.
-/
theorem run_replicate (h : Separate env alone keeps settled) (i : ι) (n : Nat)
    {system : System ι op answer fault τ σ} (hkeeps : keeps system.shared)
    (hsettles : Settles alone settled (system.coroutines i))
    (hstart : system.stopped = (system.coroutines i).aborted) :
    let now := system.run switches env (List.replicate n i)
    now.stopped = (now.coroutines i).aborted ∧
      now.coroutines i =
        (Coroutine.turn switches alone)^[n] (system.coroutines i) := by
  induction n generalizing system with
  | zero => exact ⟨hstart, rfl⟩
  | succ n ih =>
      cases hstopped : system.stopped with
      | true =>
          have hfixed : Coroutine.turn switches alone (system.coroutines i) =
              system.coroutines i :=
            Coroutine.turn_of_aborted switches alone
              (hstart.symm.trans hstopped)
          rw [run_of_stopped switches hstopped]
          exact ⟨hstart, (Function.iterate_fixed hfixed _).symm⟩
      | false =>
          rcases turn_of_separate switches h system i hsettles hkeeps hstopped
            with ⟨hshared, hcoroutines, hnext⟩
          have hself : (system.turn switches env i).coroutines i =
              Coroutine.turn switches alone (system.coroutines i) := by
            rw [hcoroutines, Function.update_self]
          have hsettles' : Settles alone settled
              ((system.turn switches env i).coroutines i) := by
            rw [hself]
            exact Coroutine.always_turn switches alone hsettles
          have hrest := ih hshared hsettles' (by rw [hnext, hself])
          rw [hself] at hrest
          exact hrest

end System

end Foundation
end Z2wRpc
