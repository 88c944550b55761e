import Z2wRpc.NtyCo.Run

/-!
# Kernels with a ghost state

A kernel that answers as another one does, whatever else it keeps in its state,
gives the same runs.
-/

namespace Z2wRpc
namespace NtyCo

open Foundation

variable {τ op : Type} {answer : op -> Type} {fault σ σ' : Type}

structure Observes (ghost : Kernel op answer σ') (kernel : Kernel op answer σ)
    (erase : σ' -> σ) : Prop where
  call : forall o w, kernel.call o (erase w) =
    ((ghost.call o w).1, erase (ghost.call o w).2)
  allocates : forall w, kernel.allocates (erase w) =
    ((ghost.allocates w).1, erase (ghost.allocates w).2)
  usecNow : forall w, kernel.usecNow (erase w) =
    ((ghost.usecNow w).1, erase (ghost.usecNow w).2)
  registers : forall fd w, kernel.registers fd (erase w) = ghost.registers fd w
  stackFits : forall w, kernel.stackFits (erase w) = ghost.stackFits w
  reallocates : forall w, kernel.reallocates (erase w) =
    ((ghost.reallocates w).1, erase (ghost.reallocates w).2)
  eventfd : kernel.eventfd = ghost.eventfd
  epollWait : forall fds milliseconds w,
    kernel.epollWait fds milliseconds (erase w) =
      ((ghost.epollWait fds milliseconds w).1,
        erase (ghost.epollWait fds milliseconds w).2)

def Machine.erased (erase : σ' -> σ) (m : Machine τ op answer fault σ') :
    Machine τ op answer fault σ where
  sched := m.sched
  kernel := erase m.kernel
  phase := m.phase

section

variable {ghost : Kernel op answer σ'} {kernel : Kernel op answer σ}
  {erase : σ' -> σ} (h : Observes ghost kernel erase)
  (code : τ -> CoCode τ op answer fault)

include h

theorem saveStack_erased (w : σ') : kernel.saveStack (erase w) =
    ((ghost.saveStack w).1, erase (ghost.saveStack w).2) := by
  unfold Kernel.saveStack
  rw [h.stackFits, h.reallocates]
  split_ifs
  · rfl
  · rfl

theorem runCoroutine_erased (co : Ptr) (p : CoCode τ op answer fault)
    (s : Scheduler τ op answer fault) (w : σ') :
    runCoroutine kernel co p s (erase w) =
      (runCoroutine ghost co p s w).map (Prod.map id erase) := by
  induction p generalizing s w with
  | done a =>
      rw [runCoroutine, runCoroutine]
      cases (s.deref co : Except (Crash fault) _) with
      | error e => rfl
      | ok c =>
          simp only [ok_bind]
          cases (s.setStatus co _ : Except (Crash fault) _) with
          | error e => rfl
          | ok s => rfl
  | abort e => rfl
  | ask call next ih =>
      cases call with
      | poll fd direction =>
          rw [runCoroutine, runCoroutine, h.registers, saveStack_erased h]
          cases (s.pollBegin co fd direction.events (ghost.registers fd w) 1 0 :
              Except (Crash fault) _) with
          | error e => rfl
          | ok s =>
              rcases ghost.saveStack w with ⟨_ | which, w'⟩
              · simp only [ok_bind]
                cases (s.deref co : Except (Crash fault) _) with
                | error e => rfl
                | ok c => rfl
              · rfl
      | create task =>
          rw [runCoroutine, runCoroutine, h.allocates]
          exact ih _ _ _
      | other o =>
          rw [runCoroutine, runCoroutine, h.call]
          exact ih _ _ _

omit h in
theorem afterSwitch_erased (co : Ptr) (s : Scheduler τ op answer fault)
    (w : σ') :
    afterSwitch co s (erase w) =
      (afterSwitch co s w).map (Prod.map id erase) := by
  unfold afterSwitch
  cases (s.deref co : Except (Crash fault) _) with
  | error e => rfl
  | ok c =>
      simp only [ok_bind]
      split_ifs
      · cases (s.free co : Except (Crash fault) _) with
        | error e => rfl
        | ok s => rfl
      · rfl

theorem coroutineResume_erased (co : Ptr) (s : Scheduler τ op answer fault)
    (w : σ') :
    coroutineResume kernel code co s (erase w) =
      (coroutineResume ghost code co s w).map (Prod.map id erase) := by
  -- what is run has given way
  have hswitch (p : CoCode τ op answer fault)
      (s : Scheduler τ op answer fault) :
      (runCoroutine kernel co p s (erase w) >>= fun r =>
          afterSwitch co r.1 r.2) =
        (runCoroutine ghost co p s w >>= fun r =>
          afterSwitch co r.1 r.2).map (Prod.map id erase) := by
    rw [runCoroutine_erased h]
    cases runCoroutine ghost co p s w with
    | error e => rfl
    | ok r => exact afterSwitch_erased co r.1 r.2
  unfold coroutineResume
  cases (s.deref co : Except (Crash fault) _) with
  | error e => rfl
  | ok c =>
      simp only [ok_bind]
      split_ifs
      · exact hswitch _ _
      · cases c.saved with
        | none => rfl
        | some polling =>
            simp only
            cases (s.pollEnd polling.fd : Except (Crash fault) _) with
            | error e => rfl
            | ok s => exact hswitch _ _

theorem scheduleEpoll_erased (s : Scheduler τ op answer fault) (w : σ') :
    scheduleEpoll kernel s (erase w) =
      (scheduleEpoll ghost s w).map (Prod.map id erase) := by
  by_cases hidle : s.minTimeout (ghost.usecNow w).1 ≠ 0 ∧ s.ready = []
  · simp only [scheduleEpoll, h.usecNow, if_pos hidle, h.epollWait]
    rcases ghost.epollWait s.registered _ (ghost.usecNow w).2 with
      ⟨_ | events, w'⟩
    · rfl
    · rfl
  · simp only [scheduleEpoll, h.usecNow, if_neg hidle]
    rfl

theorem step_erased (m : Machine τ op answer fault σ') :
    (m.erased erase).step kernel code =
      (m.step ghost code).map (Machine.erased erase) := by
  rcases m with ⟨s, w, phase⟩
  cases phase with
  | test => rfl
  | expired =>
      simp only [Machine.step, Machine.erased, h.usecNow]
      cases (s.takeExpired (ghost.usecNow w).1 : Except (Crash fault) _) with
      | error e => rfl
      | ok taken =>
          rcases taken with ⟨_ | co, s⟩
          · rfl
          · simp only [ok_bind, coroutineResume_erased h]
            cases coroutineResume ghost code co s (ghost.usecNow w).2 with
            | error e => rfl
            | ok r => rfl
  | ready last =>
      simp only [Machine.step, Machine.erased]
      cases s.ready with
      | nil => rfl
      | cons co rest =>
          simp only
          cases (NtySchedule.deref { s with ready := rest } co :
              Except (Crash fault) _) with
          | error e => rfl
          | ok c =>
              simp only [ok_bind, coroutineResume_erased h]
              split_ifs
              · cases (NtySchedule.free { s with ready := rest } co :
                    Except (Crash fault) _) with
                | error e => rfl
                | ok s => rfl
              · cases coroutineResume ghost code co { s with ready := rest } w with
                | error e => rfl
                | ok r => rfl
              · cases coroutineResume ghost code co { s with ready := rest } w with
                | error e => rfl
                | ok r => rfl
  | epoll =>
      simp only [Machine.step, Machine.erased, scheduleEpoll_erased h]
      cases (scheduleEpoll ghost s w :
          Except (Crash fault) (List EpollEvent × σ')) with
      | error e => rfl
      | ok r => rfl
  | events pending =>
      cases pending with
      | nil => rfl
      | cons ev pending =>
          simp only [Machine.step, Machine.erased, coroutineResume_erased h]
          cases (s.searchWait ev.fd : Except (Crash fault) _) with
          | error e => rfl
          | ok found =>
              have hresumed (s : Scheduler τ op answer fault) :
                  ((coroutineResume ghost code found.1 s w).map
                      (Prod.map id erase) >>= fun r =>
                        return Machine.mk r.1 r.2 (.events pending)) =
                    (coroutineResume ghost code found.1 s w >>= fun r =>
                      return Machine.mk r.1 r.2 (.events pending)).map
                        (Machine.erased erase) := by
                cases coroutineResume ghost code found.1 s w with
                | error e => rfl
                | ok r => rfl
              simp only [ok_bind]
              split_ifs
              · cases (found.2.deref found.1 : Except (Crash fault) _) with
                | error e => rfl
                | ok c =>
                    simp only [ok_bind]
                    cases (found.2.setStatus found.1 _ :
                        Except (Crash fault) _) with
                    | error e => rfl
                    | ok s => exact hresumed s
              · exact hresumed found.2
  | returned => rfl

theorem run_erased (m : Machine τ op answer fault σ') (n : Nat) :
    (m.erased erase).run kernel code n =
      (m.run ghost code n).map (Machine.erased erase) := by
  induction n generalizing m with
  | zero => rfl
  | succ n ih =>
      rw [Machine.run, Machine.run, step_erased h]
      cases m.step ghost code with
      | error e => rfl
      | ok m' => exact ih m'

end

end NtyCo
end Z2wRpc
