import Mathlib.Data.List.Nodup
import Z2wRpc.NtyCo.Turns

/-!
# Runs of the scheduler

What holds at every moment of `nty_schedule_run`, and in which order it resumes
the coroutines.
-/

namespace Z2wRpc
namespace NtyCo

open Foundation RedBlack

variable {τ op : Type} {answer : op -> Type} {fault σ : Type}
  {s s' : Scheduler τ op answer fault} {co : Ptr}

structure Awaited (s : Scheduler τ op answer fault)
    (pending : List EpollEvent) : Prop where
  waiters : forall ev, ev ∈ pending -> exists co,
    (ev.fd, co) ∈ s.waiting.toList
  once : (pending.map EpollEvent.fd).Nodup

theorem awaited_nil (s : Scheduler τ op answer fault) : Awaited s [] where
  waiters _ hev := by cases hev
  once := List.nodup_nil

/-- What the loops of `nty_schedule_run` rely on. -/
def PhaseHolds (s : Scheduler τ op answer fault) : Phase -> Prop
  | .test => True
  | .expired => True
  | .ready last => (last = none ∧ s.ready = []) ∨
      exists older co created, last = some co ∧
        s.ready = older ++ co :: created
  | .epoll => True
  | .events pending => Awaited s pending
  | .returned => s.places [] = []

section

variable (kernel : Kernel op answer σ) (code : τ -> CoCode τ op answer fault)

structure Orderly (m : Machine τ op answer fault σ) : Prop where
  placed : Placed m.sched []
  phase : PhaseHolds m.sched m.phase
  eventfd : m.sched.eventfd = kernel.eventfd
  timeout : m.sched.defaultTimeout = 3000000

inductive Machine.Fails (m : Machine τ op answer fault σ) :
    Crash fault -> Prop where
  | turn {co : Ptr} {crash : Crash fault} (resumed : m.resumed kernel = some co)
      (fails : m.sched.TurnFails kernel code co m.kernel crash) :
      Fails m crash
  | epoll (phase : m.phase = .epoll)
      (failed : (kernel.epollWait m.sched.registered 3000
        (kernel.usecNow m.kernel).2).1 = none) :
      Fails m (.assertion .epoll)

def StaysOrderly (m : Machine τ op answer fault σ) :
    Except (Crash fault) (Machine τ op answer fault σ) -> Prop
  | .error crash => m.Fails kernel code crash
  | .ok m' => Orderly kernel m'

end

/-!
## One round of a loop
-/

theorem Placed.takeExpired (h : Placed s []) (now : Nat) :
    s.takeExpired now = (.ok (none, s) : Except (Crash fault) _) := by
  rw [NtySchedule.takeExpired, h.awake]
  rfl

theorem isdone_iff (h : Placed s []) :
    s.isdone = true <-> s.places [] = [] := by
  rw [NtySchedule.isdone, h.awake, NtySchedule.places, NtySchedule.waiters]
  simp [and_comm]

theorem Placed.set_waiting (h : Placed s []) {fd : Int}
    {c : NtyCoroutine τ (Polling τ op answer fault)}
    (hc : s.coroutines co = some c) (hwaits : (fd, co) ∈ s.waiting.toList)
    (status : Status) : Placed (s.set co { c with status := status }) [] := by
  have hmem : co ∈ s.waiters := mem_waiters_iff.mpr ⟨fd, hwaits⟩
  have honce : (s.ready ++ s.waiters).Nodup := h.allocated.once
  constructor
  · exact h.allocated.set (List.mem_append_right _
      (List.mem_append_right _ hmem))
  · exact h.tree
  · exact h.awake
  · intro other hready
    have hne : other ≠ co := by
      rintro rfl
      exact (List.nodup_append.mp honce).right.right _ hready _ hmem rfl
    rw [NtySchedule.set_coroutines_of_ne _ _ _ hne]
    exact h.new other hready
  · intro fd' other hwaits'
    rcases h.waits fd' other hwaits' with ⟨c', polling, hc', hrest⟩
    by_cases heq : other = co
    · subst heq
      rw [hc] at hc'
      cases hc'
      exact ⟨_, polling, NtySchedule.set_coroutines_self _ _ _, hrest⟩
    · rw [NtySchedule.set_coroutines_of_ne _ _ _ heq]
      exact ⟨c', polling, hc', hrest⟩
  · exact h.registered
  · exact h.registeredOnce

variable (kernel : Kernel op answer σ) (code : τ -> CoCode τ op answer fault)

theorem step_ready_eq (h : Placed s []) {rest : List Ptr}
    (hready : s.ready = co :: rest) (last : Option Ptr) (w : σ) :
    Machine.step kernel code ⟨s, w, .ready last⟩ =
      (coroutineResume kernel code co { s with ready := rest } w).map
        fun out =>
          ⟨out.1, out.2, if some co = last then .epoll else .ready last⟩ := by
  rcases h.new co (hready ▸ List.mem_cons_self) with ⟨c, hc, hnew, _⟩
  have hfdeof : ¬ c.status.has .fdeof = true := by
    rw [hnew]
    decide
  have hc' : { s with ready := rest }.coroutines co = some c := hc
  simp only [Machine.step, hready]
  rw [NtySchedule.deref_of_some hc', ok_bind, if_neg hfdeof]
  cases coroutineResume kernel code co { s with ready := rest } w with
  | error crash => rfl
  | ok out => rfl

theorem resumed_ready (h : Placed s []) {rest : List Ptr}
    (hready : s.ready = co :: rest) (last : Option Ptr) (w : σ) :
    (⟨s, w, .ready last⟩ : Machine τ op answer fault σ).resumed kernel =
      some co := by
  rcases h.new co (hready ▸ List.mem_cons_self) with ⟨c, hc, hnew, _⟩
  have hfdeof : c.status.has .fdeof = false := by
    rw [hnew]
    decide
  simp [Machine.resumed, hready, hc, hfdeof]

theorem step_ready (h : Placed s []) {rest : List Ptr}
    (hready : s.ready = co :: rest) (last : Option Ptr) (w : σ) :
    exists r, Returns co { s with ready := rest } (s.TurnFails kernel code co w)
        r ∧
      Machine.step kernel code ⟨s, w, .ready last⟩ =
        r.map fun out =>
          ⟨out.1, out.2, if some co = last then .epoll else .ready last⟩ := by
  rcases h.new co (hready ▸ List.mem_cons_self) with ⟨c, hc, hnew, hsaved⟩
  exact ⟨_, coroutineResume_ready kernel code w (h.pop hready) hc hnew hsaved,
    step_ready_eq kernel code h hready last w⟩

def EpollEvent.status (ev : EpollEvent) : Status :=
  if ev.hup then 0 ||| bit .fdeof else 0

theorem EpollEvent.status_not_new (ev : EpollEvent) :
    ev.status.has .new = false := by
  rw [EpollEvent.status]
  split_ifs
  · decide
  · decide

theorem step_event_eq (h : Placed s []) {ev : EpollEvent}
    {c : NtyCoroutine τ (Polling τ op answer fault)}
    (hwaits : (ev.fd, co) ∈ s.waiting.toList) (hc : s.coroutines co = some c)
    (pending : List EpollEvent) (w : σ) :
    Machine.step kernel code ⟨s, w, .events (ev :: pending)⟩ =
      (coroutineResume kernel code co
        (s.set co { c with status := ev.status }) w).map
          fun out => ⟨out.1, out.2, .events pending⟩ := by
  have hfind : rbFind ev.fd s.waiting = some (ev.fd, co) :=
    (rbFind_eq_some_iff h.tree.ordered).mpr ⟨hwaits, rfl⟩
  have hsearch : s.searchWait ev.fd =
      (.ok (co, s.set co { c with status := 0 }) : Except (Crash fault) _) := by
    simp only [NtySchedule.searchWait, hfind, NtySchedule.setStatus]
    rw [NtySchedule.deref_of_some hc]
    rfl
  have hstep : Machine.step kernel code ⟨s, w, .events (ev :: pending)⟩ =
      (coroutineResume kernel code co
        (s.set co { c with status := ev.status }) w >>= fun out =>
          Except.ok ⟨out.1, out.2, .events pending⟩) := by
    simp only [Machine.step, hsearch, ok_bind]
    cases hhup : ev.hup with
    | true =>
        rw [if_pos rfl, NtySchedule.deref_of_some
          (NtySchedule.set_coroutines_self _ _ _), ok_bind,
          NtySchedule.setStatus, NtySchedule.deref_of_some
          (NtySchedule.set_coroutines_self _ _ _), ok_bind]
        simp only [EpollEvent.status, hhup, NtySchedule.set_set]
        rfl
    | false =>
        simp only [EpollEvent.status, hhup]
        rfl
  rw [hstep]
  cases coroutineResume kernel code co
    (s.set co { c with status := ev.status }) w with
  | error crash => rfl
  | ok out => rfl

theorem resumed_event (h : Placed s []) {ev : EpollEvent}
    (hwaits : (ev.fd, co) ∈ s.waiting.toList) (pending : List EpollEvent)
    (w : σ) :
    (⟨s, w, .events (ev :: pending)⟩ : Machine τ op answer fault σ).resumed
      kernel = some co := by
  have hfind : rbFind ev.fd s.waiting = some (ev.fd, co) :=
    (rbFind_eq_some_iff h.tree.ordered).mpr ⟨hwaits, rfl⟩
  rw [Machine.resumed]
  simp only [hfind]
  rfl

theorem step_event (h : Placed s []) {ev : EpollEvent}
    (hwaits : (ev.fd, co) ∈ s.waiting.toList) (pending : List EpollEvent)
    (w : σ) :
    exists r, Returns co s (s.TurnFails kernel code co w) r ∧
      Machine.step kernel code ⟨s, w, .events (ev :: pending)⟩ =
        r.map fun out => ⟨out.1, out.2, .events pending⟩ := by
  rcases h.waits ev.fd co hwaits with ⟨c, _, hc, _, _, _⟩
  have hturn := coroutineResume_waiting kernel code w
    (h.set_waiting hc hwaits ev.status) hwaits
    (NtySchedule.set_coroutines_self _ _ _) ev.status_not_new
  -- what is left of its code does not depend on its status
  have hfails (crash : Crash fault)
      (h : NtySchedule.TurnFails kernel code
        (s.set co { c with status := ev.status }) co w crash) :
      s.TurnFails kernel code co w crash := by
    rw [turnFails_iff (NtySchedule.set_coroutines_self _ _ _)] at h
    exact (turnFails_iff hc).mpr h
  exact ⟨_, (hturn.of_untouched (untouched_set co s _)).imp hfails,
    step_event_eq kernel code h hwaits hc pending w⟩

theorem scheduleEpoll_eq (h : Placed s [])
    (htimeout : s.defaultTimeout = 3000000) (w : σ) :
    scheduleEpoll kernel s w =
      if s.ready = [] then
        match kernel.epollWait s.registered 3000 (kernel.usecNow w).2 with
        | (none, _) => .error (.assertion .epoll)
        | (some events, w') => .ok (events.reverse, w')
      else (.ok ([], (kernel.usecNow w).2) : Except (Crash fault) _) := by
  have husecs : s.minTimeout (kernel.usecNow w).1 = 3000000 := by
    rw [NtySchedule.minTimeout, h.awake, <- htimeout]
    rfl
  have hmilliseconds : epollMilliseconds 3000000 = 3000 := rfl
  rcases hwait : kernel.epollWait s.registered 3000 (kernel.usecNow w).2 with
    ⟨_ | events, w'⟩
  · simp [scheduleEpoll, husecs, hmilliseconds, hwait]
  · simp [scheduleEpoll, husecs, hmilliseconds, hwait]

theorem awaited_reported (h : Placed s []) (heventfd : s.eventfd = kernel.eventfd)
    {milliseconds : Nat} {w : σ} {events : List EpollEvent}
    (hreported : (kernel.epollWait s.registered milliseconds w).1 =
      some events) : Awaited s events.reverse := by
  constructor
  · intro ev hev
    rcases kernel.reported _ _ _ _ hreported ev (List.mem_reverse.mp hev) with
      ⟨hregistered, hne⟩
    exact (h.registered ev.fd hregistered).resolve_left (heventfd ▸ hne)
  · rw [List.map_reverse, List.nodup_reverse]
    exact kernel.reportedOnce _ _ _ _ hreported

/-!
## Every moment of a run
-/

theorem Placed.waits_once {running : List Ptr} (h : Placed s running)
    {fd fd' : Int} (hwaits : (fd, co) ∈ s.waiting.toList)
    (hwaits' : (fd', co) ∈ s.waiting.toList) : fd = fd' := by
  rcases h.waits _ _ hwaits with ⟨c, _, hc, hfd, _⟩
  rcases h.waits _ _ hwaits' with ⟨c', _, hc', hfd', _⟩
  rw [hc] at hc'
  cases hc'
  exact hfd.symm.trans hfd'

theorem Awaited.turn {ev : EpollEvent} {pending : List EpollEvent}
    (h : Awaited s (ev :: pending)) (hplaced : Placed s [])
    (hwaits : (ev.fd, co) ∈ s.waiting.toList) (hsame : Untouched co s s') :
    Awaited s' pending := by
  have honce := h.once
  rw [List.map_cons, List.nodup_cons] at honce
  constructor
  · intro ev' hev'
    rcases h.waiters ev' (List.mem_cons_of_mem _ hev') with ⟨other, hother⟩
    refine ⟨other, hsame.kept _ hother ?_⟩
    rintro rfl
    apply honce.left
    rw [hplaced.waits_once hwaits hother]
    exact List.mem_map_of_mem hev'
  · exact honce.right

theorem PhaseHolds.next {last : Option Ptr} {rest : List Ptr}
    (h : PhaseHolds s (.ready last)) (hready : s.ready = co :: rest)
    (hlast : some co ≠ last) (hrest : rest <+: s'.ready) :
    PhaseHolds s' (.ready last) := by
  rcases h with ⟨_, hnil⟩ | ⟨older, l, created, rfl, hsplit⟩
  · rw [hready] at hnil
    cases hnil
  · rw [hready] at hsplit
    cases older with
    | nil =>
        cases hsplit
        exact absurd rfl hlast
    | cons first older =>
        rw [List.cons_append] at hsplit
        rcases List.cons.inj hsplit with ⟨rfl, rfl⟩
        rcases hrest with ⟨more, hmore⟩
        refine Or.inr ⟨older, l, created ++ more, rfl, ?_⟩
        rw [<- hmore, List.append_assoc]
        rfl

theorem Orderly.step {m : Machine τ op answer fault σ} (h : Orderly kernel m) :
    StaysOrderly kernel code m (m.step kernel code) := by
  rcases m with ⟨s, w, phase⟩
  rcases h with ⟨hplaced, hphase, heventfd, htimeout⟩
  cases phase with
  | test =>
      refine ⟨hplaced, ?_, heventfd, htimeout⟩
      cases hdone : s.isdone with
      | true => exact (isdone_iff hplaced).mp hdone
      | false => exact trivial
  | expired =>
      simp only [Machine.step, hplaced.takeExpired, ok_bind]
      refine ⟨hplaced, ?_, heventfd, htimeout⟩
      rcases s.ready.eq_nil_or_concat with hnil | ⟨older, co, hlast⟩
      · left
        simp [hnil]
      · right
        exact ⟨older, co, [], by simp [hlast], by simp [hlast]⟩
  | ready last =>
      cases hready : s.ready with
      | nil =>
          simp only [Machine.step, hready]
          exact ⟨hplaced, trivial, heventfd, htimeout⟩
      | cons co rest =>
          rcases step_ready kernel code hplaced hready last w with
            ⟨r, hreturns, hstep⟩
          rw [hstep]
          cases r with
          | error crash =>
              exact .turn (resumed_ready kernel hplaced hready last w) hreturns
          | ok out =>
              rcases hreturns with ⟨hsame, hplaced'⟩
              refine ⟨hplaced', ?_, hsame.eventfd.trans heventfd,
                hsame.timeout.trans htimeout⟩
              dsimp only
              split_ifs with hlast
              · exact trivial
              · exact hphase.next hready hlast hsame.ready
  | epoll =>
      rw [Machine.step, scheduleEpoll_eq kernel hplaced htimeout]
      dsimp only
      split_ifs
      · rcases hwait : kernel.epollWait s.registered 3000
          (kernel.usecNow w).2 with ⟨_ | events, w'⟩
        · exact .epoll rfl (congrArg Prod.fst hwait)
        · exact ⟨hplaced, awaited_reported kernel hplaced heventfd
            (congrArg Prod.fst hwait), heventfd, htimeout⟩
      · exact ⟨hplaced, awaited_nil s, heventfd, htimeout⟩
  | events pending =>
      cases pending with
      | nil => exact ⟨hplaced, trivial, heventfd, htimeout⟩
      | cons ev pending =>
          rcases hphase.waiters ev List.mem_cons_self with ⟨co, hwaits⟩
          rcases step_event kernel code hplaced hwaits pending w with
            ⟨r, hreturns, hstep⟩
          rw [hstep]
          cases r with
          | error crash =>
              exact .turn (resumed_event kernel hplaced hwaits pending w)
                hreturns
          | ok out =>
              rcases hreturns with ⟨hsame, hplaced'⟩
              exact ⟨hplaced', hphase.turn hplaced hwaits hsame,
                hsame.eventfd.trans heventfd, hsame.timeout.trans htimeout⟩
  | returned => exact ⟨hplaced, hphase, heventfd, htimeout⟩

theorem Orderly.run {m : Machine τ op answer fault σ} (h : Orderly kernel m)
    (n : Nat) :
    (exists m', m.run kernel code n = .ok m' ∧ Orderly kernel m') ∨
    exists k m' crash, k < n ∧ m.run kernel code k = .ok m' ∧
      Orderly kernel m' ∧ m'.step kernel code = .error crash ∧
      m'.Fails kernel code crash ∧ m.run kernel code n = .error crash := by
  induction n generalizing m with
  | zero => exact Or.inl ⟨m, rfl, h⟩
  | succ n ih =>
      have hstays := h.step kernel code
      cases hstep : m.step kernel code with
      | error crash =>
          rw [hstep] at hstays
          refine Or.inr ⟨0, m, crash, Nat.succ_pos n, rfl, h, hstep, hstays, ?_⟩
          rw [Machine.run, hstep]
          rfl
      | ok m' =>
          rw [hstep] at hstays
          have hrun (k : Nat) : m.run kernel code (k + 1) =
              m'.run kernel code k := by
            rw [Machine.run, hstep]
            rfl
          rw [hrun]
          rcases ih hstays with hgoes | ⟨k, m'', crash, hk, hbefore, hrest⟩
          · exact Or.inl hgoes
          · exact Or.inr ⟨k + 1, m'', crash, Nat.succ_lt_succ hk,
              (hrun k).trans hbefore, hrest⟩

theorem Orderly.run_ok {m m' : Machine τ op answer fault σ}
    (h : Orderly kernel m) {n : Nat} (hrun : m.run kernel code n = .ok m') :
    Orderly kernel m' := by
  rcases h.run kernel code n with
    ⟨m'', hrun', horderly⟩ | ⟨_, _, _, _, _, _, _, _, hrun'⟩
  · rw [hrun] at hrun'
    cases hrun'
    exact horderly
  · rw [hrun] at hrun'
    cases hrun'

theorem placed_initial (birth : Nat) (eventfd : Int) :
    Placed (.initial birth eventfd : Scheduler τ op answer fault) [] where
  allocated := {
    once := List.nodup_nil
    live := fun co => by simp [NtySchedule.initial, NtySchedule.places,
      NtySchedule.waiters]
    unused := fun _ _ => rfl
    counted := rfl }
  tree := searchTree_nil
  awake := rfl
  new _ hco := by cases hco
  waits _ _ hwaits := by cases hwaits
  registered _ hfd := Or.inl (List.mem_singleton.mp hfd)
  registeredOnce := List.nodup_singleton eventfd

theorem orderly_start (birth : Nat) (tasks : List τ) (w : σ) :
    Orderly kernel (Machine.start kernel birth tasks w :
      Machine τ op answer fault σ) := by
  have hcreates (s : Scheduler τ op answer fault)
      (h : Orderly kernel ⟨s, w, .test⟩) :
      Orderly kernel ⟨tasks.foldl (fun s task => (s.create task true).2) s, w,
        .test⟩ := by
    induction tasks generalizing s with
    | nil => exact h
    | cons task rest ih =>
        exact ih _ ⟨h.placed.create task true, trivial, h.eventfd, h.timeout⟩
  exact hcreates _ ⟨placed_initial birth kernel.eventfd, trivial, rfl, rfl⟩

/--
At every moment of every run each coroutine that has not ended is in one place:
in the ready queue before its first turn, or in the tree under the descriptor
that it polls; when the run has returned there is none left.  A run ends
otherwise only in a turn that ends the process, or when `epoll_wait` fails.
-/
theorem scheduler_keeps_places (birth : Nat) (tasks : List τ) (w : σ)
    (n : Nat) :
    (exists m, (Machine.start kernel birth tasks w).run kernel code n = .ok m ∧
      Placed m.sched [] ∧ (m.phase = .returned -> m.sched.places [] = [])) ∨
    exists k m crash, k < n ∧
      (Machine.start kernel birth tasks w).run kernel code k = .ok m ∧
      Placed m.sched [] ∧ m.step kernel code = .error crash ∧
      m.Fails kernel code crash ∧
      (Machine.start kernel birth tasks w).run kernel code n =
        .error crash := by
  rcases (orderly_start kernel birth tasks w).run kernel code n with
    ⟨m, hrun, horderly⟩ |
    ⟨k, m, crash, hk, hbefore, horderly, hstep, hfails, hrun⟩
  · refine Or.inl ⟨m, hrun, horderly.placed, fun hreturned => ?_⟩
    have hphase := horderly.phase
    rw [hreturned] at hphase
    exact hphase
  · exact Or.inr
      ⟨k, m, crash, hk, hbefore, horderly.placed, hstep, hfails, hrun⟩

end NtyCo
end Z2wRpc
