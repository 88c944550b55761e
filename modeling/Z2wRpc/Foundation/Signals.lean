import Z2wRpc.Foundation.Program

/-!
# Calls that may end in a signal

A script says at which of the exposed calls of a program a signal comes.  Up to
the first one a run is the run without signals, and if every signal ends the
program, the run is over then.
-/

namespace Z2wRpc
namespace Foundation
namespace Program

variable {op : Type} {answer : op -> Type} {fault α β σ : Type}

def signalled (signal : (o : op) -> Option (answer o))
    (env : Environment op answer σ) :
    Environment op answer (List Bool × σ) :=
  fun o s =>
    match signal o, s.1 with
    | some r, true :: rest => (r, (rest, s.2))
    | some _, script => ((env o s.2).1, (script.tail, (env o s.2).2))
    | none, script => ((env o s.2).1, (script, (env o s.2).2))

def exposed (signal : (o : op) -> Option (answer o))
    (env : Environment op answer σ) : Program op answer fault α -> σ -> Nat
  | done _, _ => 0
  | abort _, _ => 0
  | ask o next, s =>
      exposed signal env (next (env o s).1) (env o s).2 +
        if (signal o).isSome then 1 else 0

inductive KilledBy (signal : (o : op) -> Option (answer o)) (e : fault) :
    Program op answer fault α -> Prop where
  | done (a : α) : KilledBy signal e (done a)
  | abort (e' : fault) : KilledBy signal e (abort e')
  | ask {o : op} {next : answer o -> Program op answer fault α}
      (kill : forall r, signal o = some r -> next r = abort e)
      (rest : forall r, KilledBy signal e (next r)) :
      KilledBy signal e (ask o next)

section

variable {signal : (o : op) -> Option (answer o)}
  {env : Environment op answer σ} {e : fault}

/-!
## Exposed calls
-/

theorem exposed_bind (p : Program op answer fault α)
    (f : α -> Program op answer fault β) (s : σ) :
    exposed signal env (p >>= f) s = exposed signal env p s +
      match exec env p s with
      | (.ok a, s') => exposed signal env (f a) s'
      | (.error _, _) => 0 := by
  show exposed signal env (p.bind f) s = _
  induction p generalizing s with
  | done a => exact (Nat.zero_add _).symm
  | abort e => rfl
  | ask o next ih =>
      have hnext := ih (env o s).1 (env o s).2
      simp only [bind, exposed, exec, hnext]
      omega

theorem exposed_of_asks {p : Program op answer fault α}
    (h : Asks (fun o => signal o = none) p) (s : σ) :
    exposed signal env p s = 0 := by
  induction h generalizing s with
  | done a => rfl
  | abort e => rfl
  | ask hnone _ ih => simp [exposed, hnone, ih]

/-!
## Programs that signals end
-/

theorem KilledBy.bind {p : Program op answer fault α}
    {f : α -> Program op answer fault β} (h : KilledBy signal e p)
    (hf : forall a, KilledBy signal e (f a)) : KilledBy signal e (p >>= f) := by
  induction h with
  | done a => exact hf a
  | abort e' => exact .abort e'
  | ask kill _ ih =>
      refine .ask (fun r hr => ?_) ih
      rw [kill r hr]
      rfl

theorem killedBy_of_asks {p : Program op answer fault α}
    (h : Asks (fun o => signal o = none) p) : KilledBy signal e p := by
  induction h with
  | done a => exact .done a
  | abort e' => exact .abort e'
  | ask hnone _ ih =>
      refine .ask (fun r hr => ?_) ih
      rw [hnone] at hr
      cases hr

theorem killedBy_repeatWhile {body : Program op answer fault Bool}
    (h : KilledBy signal e body) (fuel : Nat) :
    KilledBy signal e (repeatWhile body fuel) := by
  induction fuel with
  | zero => exact .done true
  | succ fuel ih =>
      apply h.bind
      intro again
      cases again with
      | true => exact ih
      | false => exact .done false

/-!
## Runs with signals
-/

theorem exec_signalled_of_clear {p : Program op answer fault α}
    {script : List Bool} {s : σ}
    (h : true ∉ script.take (exposed signal env p s)) :
    exec (signalled signal env) p (script, s) =
      ((exec env p s).1,
        (script.drop (exposed signal env p s), (exec env p s).2)) := by
  induction p generalizing script s with
  | done a => rfl
  | abort e => rfl
  | ask o next ih =>
      cases hsignal : signal o with
      | none =>
          simp only [exposed, hsignal, Option.isSome_none, Bool.false_eq_true,
            if_false, Nat.add_zero] at h ⊢
          simp only [exec, signalled, hsignal]
          exact ih _ h
      | some r =>
          simp only [exposed, hsignal, Option.isSome_some, if_true] at h ⊢
          match script with
          | [] =>
              have hrest := @ih (env o s).1 [] (env o s).2 (by simp)
              simp only [exec, signalled, hsignal, List.tail_nil]
              rw [hrest, List.drop_nil, List.drop_nil]
          | false :: rest =>
              rw [List.take_succ_cons, List.mem_cons, not_or] at h
              have hrest := @ih (env o s).1 rest (env o s).2 h.right
              simp only [exec, signalled, hsignal, List.tail_cons]
              rw [hrest, List.drop_succ_cons]
          | true :: rest => simp at h

theorem exec_signalled_of_signal {p : Program op answer fault α}
    (hkilled : KilledBy signal e p) {script : List Bool} {s : σ}
    (h : true ∈ script.take (exposed signal env p s)) :
    (exec (signalled signal env) p (script, s)).1 = .error e := by
  induction hkilled generalizing script s with
  | done a => simp [exposed] at h
  | abort e' => simp [exposed] at h
  | @ask o next kill _ ih =>
      cases hsignal : signal o with
      | none =>
          simp only [exposed, hsignal, Option.isSome_none, Bool.false_eq_true,
            if_false, Nat.add_zero] at h
          simp only [exec, signalled, hsignal]
          exact ih _ h
      | some r =>
          simp only [exposed, hsignal, Option.isSome_some, if_true] at h
          match script with
          | [] => simp at h
          | true :: rest => simp only [exec, signalled, hsignal, kill r hsignal]
          | false :: rest =>
              rw [List.take_succ_cons, List.mem_cons] at h
              have hrest : true ∈ rest.take
                  (exposed signal env (next (env o s).1) (env o s).2) := by
                simpa using h
              simp only [exec, signalled, hsignal, List.tail_cons]
              exact ih _ hrest

theorem exec_signalled_eq_ok {p : Program op answer fault α}
    (hkilled : KilledBy signal e p) {script script' : List Bool} {s s' : σ}
    {a : α} (h : exec (signalled signal env) p (script, s) =
      (.ok a, (script', s'))) :
    exec env p s = (.ok a, s') ∧
      true ∉ script.take (exposed signal env p s) ∧
      script' = script.drop (exposed signal env p s) := by
  by_cases hclear : true ∉ script.take (exposed signal env p s)
  · rw [exec_signalled_of_clear hclear] at h
    rcases Prod.mk.inj h with ⟨hresult, hrest⟩
    rcases Prod.mk.inj hrest with ⟨hscript, hstate⟩
    exact ⟨Prod.ext hresult hstate, hclear, hscript.symm⟩
  · have hkill := exec_signalled_of_signal hkilled (not_not.mp hclear)
    rw [h] at hkill
    cases hkill

theorem always_signalled {P : op -> Prop} {p : Program op answer fault α}
    (hkilled : KilledBy signal e p) {s : σ}
    (h : Always env (fun o _ => P o) p s) (script : List Bool) :
    Always (signalled signal env) (fun o _ => P o) p (script, s) := by
  induction hkilled generalizing script s with
  | done a => exact always_pure a
  | abort e' => exact always_abort e'
  | @ask o next kill _ ih =>
      rcases List.forall_mem_cons.mp h with ⟨hfirst, hrest⟩
      refine List.forall_mem_cons.mpr ⟨hfirst, ?_⟩
      cases hsignal : signal o with
      | none =>
          simp only [signalled, hsignal]
          exact ih _ hrest script
      | some r =>
          match script with
          | [] =>
              simp only [signalled, hsignal]
              exact ih _ hrest _
          | false :: rest =>
              simp only [signalled, hsignal]
              exact ih _ hrest _
          | true :: rest =>
              simp only [signalled, hsignal, kill r hsignal]
              intro m hm
              cases hm

theorem exec_signalled_error {p : Program op answer fault α}
    (hkilled : KilledBy signal e p) {s s' : σ} {e' : fault}
    (h : exec env p s = (.error e', s')) (script : List Bool) :
    exists e'' t, exec (signalled signal env) p (script, s) =
      (.error e'', t) := by
  by_cases hclear : true ∉ script.take (exposed signal env p s)
  · rw [exec_signalled_of_clear hclear, h]
    exact ⟨_, _, rfl⟩
  · exact ⟨e, _, Prod.ext
      (exec_signalled_of_signal hkilled (not_not.mp hclear)) rfl⟩

end

end Program

end Foundation
end Z2wRpc
