import Mathlib.Data.List.Dedup
import Z2wRpc.NtyCo.SchedulerRuns

/-!
# The order of the turns

In one round of `nty_schedule_run` every coroutine of the ready queue has its
turn, in the order of the queue, and then every coroutine whose descriptor
`epoll_wait` has reported.  What is created meanwhile has its turn in the next
round.
-/

namespace Z2wRpc
namespace NtyCo

open Foundation RedBlack

variable {τ op : Type} {answer : op -> Type} {fault σ : Type}
  {s s' : Scheduler τ op answer fault} {co : Ptr} {w : σ}
  {kernel : Kernel op answer σ} {code : τ -> CoCode τ op answer fault}

def Resumes (order : List Ptr)
    (after : Machine τ op answer fault σ -> Prop) :
    List Ptr × Except (Crash fault) (Machine τ op answer fault σ) -> Prop
  | (resumed, .error _) => exists earlier last later,
      order = earlier ++ last :: later ∧ resumed = earlier ++ [last]
  | (resumed, .ok m) => resumed = order ∧ after m

/-!
## Rounds of a loop
-/

theorem trace_idle {m m' : Machine τ op answer fault σ}
    (hstep : m.step kernel code = .ok m') (hidle : m.resumed kernel = none)
    (n : Nat) : m.trace kernel code (n + 1) = m'.trace kernel code n := by
  simp only [Machine.trace, hstep, hidle]
  rfl

theorem resumes_turn {m m' : Machine τ op answer fault σ} {order : List Ptr}
    {after : Machine τ op answer fault σ -> Prop} {n : Nat}
    (hstep : m.step kernel code = .ok m') (hco : m.resumed kernel = some co)
    (h : Resumes order after (m'.trace kernel code n)) :
    Resumes (co :: order) after (m.trace kernel code (n + 1)) := by
  simp only [Machine.trace, hstep, hco]
  generalize m'.trace kernel code n = later at h ⊢
  rcases later with ⟨resumed, _ | last⟩
  · rcases h with ⟨earlier, last, later, horder, hresumed⟩
    exact ⟨co :: earlier, last, later, congrArg (List.cons co) horder,
      congrArg (List.cons co) hresumed⟩
  · exact ⟨congrArg (List.cons co) h.left, h.right⟩

theorem resumes_failed {m : Machine τ op answer fault σ} {order : List Ptr}
    {after : Machine τ op answer fault σ -> Prop} {n : Nat}
    {crash : Crash fault} (hstep : m.step kernel code = .error crash)
    (hco : m.resumed kernel = some co) :
    Resumes (co :: order) after (m.trace kernel code (n + 1)) := by
  simp only [Machine.trace, hstep, hco]
  exact ⟨[], co, order, rfl, rfl⟩

variable (kernel code)

theorem ready_in_order {older created : List Ptr} {l : Ptr}
    (h : Orderly kernel
      (⟨s, w, .ready (some l)⟩ : Machine τ op answer fault σ))
    (hready : s.ready = older ++ l :: created) :
    Resumes (older ++ [l]) (fun m => m.phase = .epoll ∧ Orderly kernel m)
      (Machine.trace kernel code ⟨s, w, .ready (some l)⟩
        (older.length + 1)) := by
  have horderly := h.step kernel code
  induction older generalizing s w created with
  | nil =>
      rcases step_ready kernel code h.placed hready (some l) w with
        ⟨r, hreturns, hstep⟩
      have hresumed := resumed_ready kernel h.placed hready (some l) w
      rw [hstep] at horderly
      cases r with
      | error crash => exact resumes_failed hstep hresumed
      | ok out =>
          rw [Except.map, if_pos rfl] at hstep horderly
          exact resumes_turn (n := 0) hstep hresumed ⟨rfl, rfl, horderly⟩
  | cons first older ih =>
      have hne : some first ≠ some l := by
        intro heq
        cases heq
        have honce : (s.ready ++ s.waiters).Nodup := h.placed.allocated.once
        rw [hready] at honce
        simp at honce
      rcases step_ready kernel code h.placed hready (some l) w with
        ⟨r, hreturns, hstep⟩
      have hresumed := resumed_ready kernel h.placed hready (some l) w
      rw [hstep] at horderly
      cases r with
      | error crash => exact resumes_failed hstep hresumed
      | ok out =>
          rw [Except.map, if_neg hne] at hstep horderly
          rcases hreturns.left.ready with ⟨more, hmore⟩
          have hready' : out.1.ready = older ++ l :: (created ++ more) := by
            rw [<- hmore]
            simp
          have hnext : Orderly kernel
              (⟨out.1, out.2, .ready (some l)⟩ :
                Machine τ op answer fault σ) := horderly
          exact resumes_turn hstep hresumed
            (ih hnext hready' (hnext.step kernel code))

abbrev WaitFor (s : Scheduler τ op answer fault) (pending : List EpollEvent)
    (woken : List Ptr) : Prop :=
  List.Forall₂ (fun ev co => (ev.fd, co) ∈ s.waiting.toList) pending woken

theorem events_in_order {pending : List EpollEvent} {woken : List Ptr}
    (h : Orderly kernel
      (⟨s, w, .events pending⟩ : Machine τ op answer fault σ))
    (hwoken : WaitFor s pending woken) :
    Resumes woken (fun m => m.phase = .test ∧ Orderly kernel m)
      (Machine.trace kernel code ⟨s, w, .events pending⟩
        (pending.length + 1)) := by
  have horderly := h.step kernel code
  induction pending generalizing s w woken with
  | nil =>
      cases hwoken
      exact ⟨rfl, rfl, horderly⟩
  | cons ev pending ih =>
      have hplaced : Placed s [] := h.placed
      have honce := h.phase.once
      rcases List.forall₂_cons_left_iff.mp hwoken with
        ⟨co, woken, hwaits, hrest, rfl⟩
      rcases step_event kernel code hplaced hwaits pending w with
        ⟨r, hreturns, hstep⟩
      have hresumed := resumed_event kernel hplaced hwaits pending w
      rw [hstep] at horderly
      cases r with
      | error crash => exact resumes_failed hstep hresumed
      | ok out =>
          rw [List.map_cons, List.nodup_cons] at honce
          have hother : forall ev', ev' ∈ pending -> ev'.fd ≠ ev.fd :=
            fun ev' hev' heq =>
              honce.left (heq ▸ List.mem_map_of_mem hev')
          have hrest' : WaitFor out.1 pending woken := by
            apply ((List.forall₂_and_left _ _).mpr ⟨hother, hrest⟩).imp
            rintro ev' other ⟨hne, hwaits'⟩
            apply hreturns.left.kept _ hwaits'
            rintro rfl
            exact hne (hplaced.waits_once hwaits' hwaits)
          have hnext : Orderly kernel
              (⟨out.1, out.2, .events pending⟩ :
                Machine τ op answer fault σ) := horderly
          exact resumes_turn hstep hresumed
            (ih hnext hrest' (hnext.step kernel code))

theorem Awaited.exists_waitFor {pending : List EpollEvent}
    (h : Awaited s pending) : exists woken, WaitFor s pending woken := by
  have hwaiters := h.waiters
  clear h
  induction pending with
  | nil => exact ⟨[], .nil⟩
  | cons ev pending ih =>
      rcases hwaiters ev List.mem_cons_self with ⟨co, hco⟩
      rcases ih (fun ev' hev' =>
        hwaiters ev' (List.mem_cons_of_mem ev hev')) with ⟨woken, hwoken⟩
      exact ⟨co :: woken, .cons hco hwoken⟩

theorem waitFor_nodup {pending : List EpollEvent} {woken : List Ptr}
    (h : Placed s []) (honce : (pending.map EpollEvent.fd).Nodup)
    (hwoken : WaitFor s pending woken) : woken.Nodup := by
  let fdOf (co : Ptr) : Int := ((s.coroutines co).map NtyCoroutine.fd).getD 0
  have heq : pending.map EpollEvent.fd = woken.map fdOf := by
    rw [<- List.forall₂_eq_eq_eq, List.forall₂_map_left_iff,
      List.forall₂_map_right_iff]
    apply hwoken.imp
    intro ev co hwaits
    rcases h.waits _ _ hwaits with ⟨c, _, hc, hfd, _⟩
    simp [fdOf, hc, hfd]
  rw [heq] at honce
  exact honce.of_map

theorem trace_to_ready (h : Orderly kernel
      (⟨s, w, .test⟩ : Machine τ op answer fault σ))
    (hmore : s.isdone = false) (n : Nat) :
    exists w', Orderly kernel
        (⟨s, w', .ready s.ready.getLast?⟩ : Machine τ op answer fault σ) ∧
      Machine.trace kernel code ⟨s, w, .test⟩ (n + 2) =
        Machine.trace kernel code ⟨s, w', .ready s.ready.getLast?⟩ n := by
  have htest : Machine.step kernel code ⟨s, w, .test⟩ =
      .ok ⟨s, w, .expired⟩ := by
    simp [Machine.step, hmore]
  have hexpired : Machine.step kernel code ⟨s, w, .expired⟩ =
      .ok ⟨s, (kernel.usecNow w).2, .ready s.ready.getLast?⟩ := by
    simp only [Machine.step, h.placed.takeExpired, ok_bind]
    rfl
  have hidle : (⟨s, w, .expired⟩ : Machine τ op answer fault σ).resumed
      kernel = none := by
    simp [Machine.resumed, h.placed.takeExpired]
  have hready := h.step kernel code
  rw [htest] at hready
  have hready' := Orderly.step kernel code hready
  rw [hexpired] at hready'
  refine ⟨(kernel.usecNow w).2, hready', ?_⟩
  rw [trace_idle htest rfl, trace_idle hexpired hidle]

theorem ready_queue_in_order (h : Orderly kernel
      (⟨s, w, .ready s.ready.getLast?⟩ : Machine τ op answer fault σ)) :
    Resumes s.ready (fun m => m.phase = .epoll ∧ Orderly kernel m)
      (Machine.trace kernel code ⟨s, w, .ready s.ready.getLast?⟩
        (max 1 s.ready.length)) := by
  rcases s.ready.eq_nil_or_concat with hnil | ⟨older, l, hlast⟩
  · have hstep : Machine.step kernel code ⟨s, w, .ready s.ready.getLast?⟩ =
        .ok ⟨s, w, .epoll⟩ := by
      simp only [Machine.step, hnil]
    have hidle : (⟨s, w, .ready s.ready.getLast?⟩ :
        Machine τ op answer fault σ).resumed kernel = none := by
      simp [Machine.resumed, hnil]
    have hnext := h.step kernel code
    rw [hstep] at hnext
    rw [show max 1 s.ready.length = 0 + 1 by simp [hnil],
      trace_idle hstep hidle]
    exact ⟨hnil.symm, rfl, hnext⟩
  · rw [List.concat_eq_append] at hlast
    have hcount : max 1 s.ready.length = older.length + 1 := by
      simp [hlast]
    have hgetLast : s.ready.getLast? = some l := by
      simp [hlast]
    rw [hgetLast] at h
    rw [hcount, hgetLast]
    have hround := ready_in_order kernel code h hlast
    rw [<- hlast] at hround
    exact hround

/-!
## A round
-/

/-- `epoll_wait` has reported these events, which are taken from the last to the
first.  It is not asked while somebody is ready. -/
def Reports (m : Machine τ op answer fault σ) (pending : List EpollEvent)
    (w : σ) : Prop :=
  if m.sched.ready = [] then
    exists events, pending = events.reverse ∧
      kernel.epollWait m.sched.registered 3000 (kernel.usecNow m.kernel).2 =
        (some events, w)
  else pending = [] ∧ w = (kernel.usecNow m.kernel).2

/-- Those that wait for the reported descriptors are resumed, each once, unless
`epoll_wait` fails. -/
def EventsInOrder (m : Machine τ op answer fault σ) : Prop :=
  (exists crash, m.step kernel code = .error crash ∧
    m.Fails kernel code crash) ∨
  exists pending w woken,
    m.step kernel code = .ok ⟨m.sched, w, .events pending⟩ ∧
      Reports kernel m pending w ∧ WaitFor m.sched pending woken ∧
      woken.Nodup ∧
      Resumes woken (fun m' => m'.phase = .test ∧ Orderly kernel m')
        (Machine.trace kernel code ⟨m.sched, w, .events pending⟩
          (pending.length + 1))

theorem Orderly.eventsInOrder {m : Machine τ op answer fault σ}
    (h : Orderly kernel m) (hepoll : m.phase = .epoll) :
    EventsInOrder kernel code m := by
  rcases m with ⟨s, w, phase⟩
  obtain rfl : phase = .epoll := hepoll
  have horderly := h.step kernel code
  -- all that is to be known of the step are its events
  have htakes {pending : List EpollEvent} {w' : σ}
      (hstep : Machine.step kernel code ⟨s, w, .epoll⟩ =
        .ok ⟨s, w', .events pending⟩)
      (hreports : Reports kernel
        (⟨s, w, .epoll⟩ : Machine τ op answer fault σ) pending w') :
      EventsInOrder kernel code ⟨s, w, .epoll⟩ := by
    rw [hstep] at horderly
    have hevents : Orderly kernel
        (⟨s, w', .events pending⟩ : Machine τ op answer fault σ) := horderly
    have hawaited : Awaited s pending := hevents.phase
    rcases hawaited.exists_waitFor with ⟨woken, hwoken⟩
    exact Or.inr ⟨pending, w', woken, hstep, hreports, hwoken,
      waitFor_nodup h.placed hawaited.once hwoken,
      events_in_order kernel code hevents hwoken⟩
  have hstep : Machine.step kernel code ⟨s, w, .epoll⟩ =
      (scheduleEpoll kernel s w).map fun out =>
        ⟨s, out.2, .events out.1⟩ := by
    rw [Machine.step]
    cases (scheduleEpoll kernel s w :
        Except (Crash fault) (List EpollEvent × σ)) with
    | error crash => rfl
    | ok out => rfl
  have hepoll := scheduleEpoll_eq kernel h.placed h.timeout w
  dsimp only at hepoll
  split_ifs at hepoll with hidle
  · rcases hwait : kernel.epollWait s.registered 3000 (kernel.usecNow w).2 with
      ⟨_ | events, w'⟩
    · simp only [hwait] at hepoll
      rw [hepoll] at hstep
      exact Or.inl ⟨_, hstep, .epoll rfl (congrArg Prod.fst hwait)⟩
    · simp only [hwait] at hepoll
      rw [hepoll] at hstep
      exact htakes hstep ((if_pos hidle).mpr ⟨events, rfl, hwait⟩)
  · rw [hepoll] at hstep
    exact htakes hstep ((if_neg hidle).mpr ⟨rfl, rfl⟩)

/-- The coroutines of the ready queue are resumed in their order, each once, and
then those that wait for the descriptors that `epoll_wait` reports. -/
def RoundInOrder (m : Machine τ op answer fault σ) : Prop :=
  m.sched.ready.Nodup ∧
    Resumes m.sched.ready
      (fun m' => m'.phase = .epoll ∧ EventsInOrder kernel code m')
      (m.trace kernel code (max 1 m.sched.ready.length + 2))

theorem Resumes.imp {order : List Ptr}
    {after after' : Machine τ op answer fault σ -> Prop}
    {r : List Ptr × Except (Crash fault) (Machine τ op answer fault σ)}
    (h : Resumes order after r) (himp : forall m, after m -> after' m) :
    Resumes order after' r := by
  rcases r with ⟨resumed, _ | m⟩
  · exact h
  · exact ⟨h.left, himp m h.right⟩

theorem Orderly.roundInOrder {m : Machine τ op answer fault σ}
    (h : Orderly kernel m) (htest : m.phase = .test)
    (hmore : m.sched.isdone = false) : RoundInOrder kernel code m := by
  rcases m with ⟨s, w, phase⟩
  obtain rfl : phase = .test := htest
  have honce : (s.ready ++ s.waiters).Nodup := h.placed.allocated.once
  rcases trace_to_ready kernel code h hmore (max 1 s.ready.length) with
    ⟨w', hready, htrace⟩
  refine ⟨honce.of_append_left, ?_⟩
  rw [htrace]
  apply (ready_queue_in_order kernel code hready).imp
  rintro m' ⟨hepoll, horderly⟩
  exact ⟨hepoll, horderly.eventsInOrder kernel code hepoll⟩

/-- So it is in every round of every run. -/
theorem rounds_in_order {birth n : Nat} {tasks : List τ} {w : σ}
    {m : Machine τ op answer fault σ}
    (hrun : (Machine.start kernel birth tasks w).run kernel code n = .ok m)
    (htest : m.phase = .test) (hmore : m.sched.isdone = false) :
    RoundInOrder kernel code m :=
  ((orderly_start kernel birth tasks w).run_ok kernel code hrun).roundInOrder
    kernel code htest hmore

def reportAll (eventfd : Int) (fds : List Int) : List EpollEvent :=
  (fds.dedup.filter (· ≠ eventfd)).map fun fd => ⟨fd, false⟩

theorem mem_reportAll {eventfd : Int} {fds : List Int} {ev : EpollEvent}
    (h : ev ∈ reportAll eventfd fds) : ev.fd ∈ fds ∧ ev.fd ≠ eventfd := by
  rcases List.mem_map.mp h with ⟨fd, hfd, rfl⟩
  rcases List.mem_filter.mp hfd with ⟨hmem, hne⟩
  exact ⟨List.mem_dedup.mp hmem, of_decide_eq_true hne⟩

theorem reportAll_once (eventfd : Int) (fds : List Int) :
    ((reportAll eventfd fds).map EpollEvent.fd).Nodup := by
  rw [reportAll, List.map_map]
  exact List.Nodup.map (fun _ _ h => h) ((List.nodup_dedup fds).filter _)

def reportingKernel : Kernel Empty Empty.elim Unit where
  call o := o.elim
  allocates w := (true, w)
  usecNow w := (0, w)
  registers _ _ := true
  stackFits _ := true
  reallocates w := (true, w)
  eventfd := 4
  epollWait fds _ w := (some (reportAll 4 fds), w)
  reported fds _ w events h ev hev := by
    cases h
    exact mem_reportAll hev
  reportedOnce fds _ w events h := by
    cases h
    exact reportAll_once 4 fds

def pollOnce (fd : Int) : CoCode Int Empty Empty.elim Unit :=
  .ask (.poll fd .read) fun _ => .done ()

theorem rounds_in_order_pollOnce :
    let m := Machine.start reportingKernel 0 [5, 6] ()
    RoundInOrder reportingKernel pollOnce m ∧
      (m.trace reportingKernel pollOnce 8).1 = [0, 1, 0, 1] :=
  ⟨rounds_in_order reportingKernel pollOnce (n := 0) rfl rfl rfl, by decide⟩

end NtyCo
end Z2wRpc
