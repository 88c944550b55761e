import Z2wRpc.Foundation.Runs
import Z2wRpc.NtyCo.Fairness

/-!
# The scheduler as a pool of tasks

What the scheduler is for, without its queue and its trees: there are coroutines
with the code that they have left, and any of them may be next to run until it
polls or ends.  The scheduler is such a pool.
-/

namespace Z2wRpc
namespace NtyCo

open Foundation Program RedBlack

variable {τ op : Type} {answer : op -> Type} {fault σ : Type}

structure TaskPool (τ op : Type) (answer : op -> Type) (fault σ : Type) where
  tasks : Ptr -> Option (τ × CoCode τ op answer fault)
  waits : Ptr -> Option Int
  unused : Ptr
  kernel : σ

namespace TaskPool

def create (code : τ -> CoCode τ op answer fault) (task : τ)
    (pool : TaskPool τ op answer fault σ) : TaskPool τ op answer fault σ :=
  { pool with
    tasks := Function.update pool.tasks pool.unused (some (task, code task))
    waits := Function.update pool.waits pool.unused none
    unused := pool.unused + 1 }

def createAll (code : τ -> CoCode τ op answer fault) (tasks : List τ)
    (pool : TaskPool τ op answer fault σ) : TaskPool τ op answer fault σ :=
  tasks.foldl (fun pool task => pool.create code task) pool

def left (task : τ) :
    Stop τ op answer fault -> Option (τ × CoCode τ op answer fault)
  | .polls _ _ rest _ => some (task, rest)
  | .ended => none
  | .fault _ => none

def waitsFor : Stop τ op answer fault -> Option Int
  | .polls fd _ _ _ => some fd
  | .ended => none
  | .fault _ => none

def turn (code : τ -> CoCode τ op answer fault) (co : Ptr) (task : τ)
    (b : Burst τ op answer fault σ) (pool : TaskPool τ op answer fault σ) :
    TaskPool τ op answer fault σ :=
  let pool := pool.createAll code b.created
  { pool with
    tasks := Function.update pool.tasks co (left task b.stop)
    waits := Function.update pool.waits co (waitsFor b.stop)
    kernel := b.kernel }

theorem turn_kernel (code : τ -> CoCode τ op answer fault) (co : Ptr)
    (task : τ) (b : Burst τ op answer fault σ)
    (pool : TaskPool τ op answer fault σ) (w : σ) :
    turn code co task b { pool with kernel := w } =
      turn code co task b pool := by
  rcases b with ⟨calls, created, stop, w'⟩
  induction created generalizing pool with
  | nil => rfl
  | cons t rest ih => exact ih (pool.create code t)

theorem turn_eq_createAll (code : τ -> CoCode τ op answer fault) {co : Ptr}
    (task : τ) (b : Burst τ op answer fault σ)
    {pool : TaskPool τ op answer fault σ} (h : co < pool.unused) :
    turn code co task b pool = createAll code b.created
      { pool with
        tasks := Function.update pool.tasks co (left task b.stop)
        waits := Function.update pool.waits co (waitsFor b.stop)
        kernel := b.kernel } := by
  rcases b with ⟨calls, created, stop, w'⟩
  induction created generalizing pool with
  | nil => rfl
  | cons t rest ih =>
      have htasks : Function.update
          (Function.update pool.tasks pool.unused (some (t, code t))) co
          (left task stop) =
          Function.update (Function.update pool.tasks co (left task stop))
            pool.unused (some (t, code t)) :=
        Function.update_comm h.ne' _ _ _
      have hwaits : Function.update
          (Function.update pool.waits pool.unused none) co (waitsFor stop) =
          Function.update (Function.update pool.waits co (waitsFor stop))
            pool.unused none :=
        Function.update_comm h.ne' _ _ _
      have hrest := @ih (pool.create code t) (Nat.lt_succ_of_lt h)
      rw [create, htasks, hwaits] at hrest
      exact hrest

def start (code : τ -> CoCode τ op answer fault) (tasks : List τ) (w : σ) :
    TaskPool τ op answer fault σ :=
  createAll code tasks
    { tasks := fun _ => none, waits := fun _ => none, unused := 0, kernel := w }

def WaitsBeside (pool : TaskPool τ op answer fault σ) (co : Ptr) (fd : Int) :
    Prop :=
  exists other, other ≠ co ∧ pool.waits other = some fd

end TaskPool

inductive Kernel.Passes (kernel : Kernel op answer σ) : σ -> σ -> Prop where
  | refl (w : σ) : Passes kernel w w
  | usecNow {w w' : σ} (h : Passes kernel w w') :
      Passes kernel w (kernel.usecNow w').2
  | epollWait {w w' : σ} (h : Passes kernel w w') (fds : List Int)
      (milliseconds : Nat) :
      Passes kernel w (kernel.epollWait fds milliseconds w').2

section

variable (kernel : Kernel op answer σ) (code : τ -> CoCode τ op answer fault)

inductive PoolStep : TaskPool τ op answer fault σ -> Option Ptr ->
    TaskPool τ op answer fault σ -> Prop where
  | idle {pool : TaskPool τ op answer fault σ} {w : σ}
      (passes : kernel.Passes pool.kernel w) :
      PoolStep pool none { pool with kernel := w }
  | turn {pool : TaskPool τ op answer fault σ} {co : Ptr} {task : τ}
      {p : CoCode τ op answer fault}
      (mem : pool.tasks co = some (task, p))
      (goes : forall crash, ¬ (burst kernel p pool.kernel).stop.Fails
        (pool.WaitsBeside co) crash) :
      PoolStep pool (some co)
        (pool.turn code co task (burst kernel p pool.kernel))

/-- The turn of a coroutine ends the process, or `epoll_wait` fails. -/
inductive PoolFails (pool : TaskPool τ op answer fault σ) :
    Option Ptr -> Crash fault -> Prop where
  | turn {co : Ptr} {task : τ} {p : CoCode τ op answer fault}
      {crash : Crash fault} (mem : pool.tasks co = some (task, p))
      (fails : (burst kernel p pool.kernel).stop.Fails (pool.WaitsBeside co)
        crash) :
      PoolFails pool (some co) crash
  | epoll {w : σ} (passes : kernel.Passes pool.kernel w) {fds : List Int}
      {milliseconds : Nat}
      (failed : (kernel.epollWait fds milliseconds w).1 = none) :
      PoolFails pool none (.assertion .epoll)

end

/-!
## The pool of a scheduler
-/

def NtySchedule.pool (code : τ -> CoCode τ op answer fault)
    (s : Scheduler τ op answer fault) (w : σ) :
    TaskPool τ op answer fault σ where
  tasks co := (s.coroutines co).map (NtyCoroutine.left code)
  waits co := (s.coroutines co).bind fun c => c.saved.map Polling.fd
  unused := s.unused
  kernel := w

def Machine.pool (code : τ -> CoCode τ op answer fault)
    (m : Machine τ op answer fault σ) : TaskPool τ op answer fault σ :=
  m.sched.pool code m.kernel

section

variable {s s' s'' : Scheduler τ op answer fault} {co : Ptr} {w w' w'' : σ}
  {c c' : NtyCoroutine τ (Polling τ op answer fault)}
  (kernel : Kernel op answer σ) (code : τ -> CoCode τ op answer fault)

theorem pool_tasks_update {coroutines : Ptr -> Option
      (NtyCoroutine τ (Polling τ op answer fault))}
    (c' : Option (NtyCoroutine τ (Polling τ op answer fault))) :
    (fun other => (Function.update coroutines co c' other).map
        (NtyCoroutine.left code)) =
      Function.update (fun other => (coroutines other).map
        (NtyCoroutine.left code)) co (c'.map (NtyCoroutine.left code)) := by
  funext other
  by_cases heq : other = co
  · subst heq
    simp
  · simp [heq]

theorem pool_waits_update {coroutines : Ptr -> Option
      (NtyCoroutine τ (Polling τ op answer fault))}
    (c' : Option (NtyCoroutine τ (Polling τ op answer fault))) :
    (fun other => (Function.update coroutines co c' other).bind
        fun c => c.saved.map Polling.fd) =
      Function.update (fun other => (coroutines other).bind
        fun c => c.saved.map Polling.fd) co
        (c'.bind fun c => c.saved.map Polling.fd) := by
  funext other
  by_cases heq : other = co
  · subst heq
    simp
  · simp [heq]

theorem pool_set (hc : s.coroutines co = some c) (htask : c'.task = c.task)
    (hsaved : c'.saved = c.saved) :
    (s.set co c').pool code w = s.pool code w := by
  rw [NtySchedule.pool, NtySchedule.pool, NtySchedule.set]
  simp only [pool_tasks_update, pool_waits_update, TaskPool.mk.injEq, and_true]
  constructor
  · rw [Function.update_eq_self_iff, hc, Option.map_some, Option.map_some,
      NtyCoroutine.left, htask, hsaved]
    rfl
  · rw [Function.update_eq_self_iff, hc, Option.bind_some, Option.bind_some,
      hsaved]

theorem pool_create (task : τ) :
    (s.create task true).2.pool code w = (s.pool code w).create code task := by
  rw [NtySchedule.create, if_pos rfl]
  simp only [NtySchedule.pool, NtySchedule.set, TaskPool.create,
    pool_tasks_update, pool_waits_update]
  rfl

theorem waitsBeside_pool (w : σ) (h : Placed s []) :
    (s.pool code w).WaitsBeside co = s.WaitsBeside co := by
  funext fd
  apply propext
  apply exists_congr
  intro other
  apply and_congr_right
  intro _
  constructor
  · intro hwaits
    rcases Option.bind_eq_some_iff.mp hwaits with ⟨c, hc, hsaved⟩
    rcases Option.map_eq_some_iff.mp hsaved with ⟨polling, hpolling, rfl⟩
    have hplace : other ∈ s.ready ++ s.waiters :=
      (h.allocated.live other).mp (by rw [hc]; rfl)
    rcases List.mem_append.mp hplace with hready | hwaiter
    · rcases h.new other hready with ⟨c', hc', _, hnone⟩
      rw [hc] at hc'
      cases hc'
      rw [hpolling] at hnone
      cases hnone
    · rcases mem_waiters_iff.mp hwaiter with ⟨fd, hmem⟩
      rcases h.waits fd other hmem with ⟨c', polling', hc', _, hsaved', rfl⟩
      rw [hc] at hc'
      cases hc'
      rw [hpolling] at hsaved'
      cases hsaved'
      exact hmem
  · intro hmem
    rcases h.waits fd other hmem with ⟨c, polling, hc, _, hsaved, rfl⟩
    simp [NtySchedule.pool, hc, hsaved]

theorem runCoroutine_done_pool (a : Unit) (hc : s.coroutines co = some c)
    (hrun : runCoroutine kernel co (.done a) s w = .ok (s', w'))
    (hback : afterSwitch co s' w' =
      (.ok (s'', w'') : Except (Crash fault) _)) :
    s''.pool code w'' =
      (s.pool code w).turn code co c.task (burst kernel (.done a) w) := by
  rw [runCoroutine, NtySchedule.deref_of_some hc, ok_bind,
    NtySchedule.setStatus, NtySchedule.deref_of_some hc] at hrun
  cases hrun
  rw [afterSwitch, NtySchedule.deref_of_some
    (NtySchedule.set_coroutines_self _ _ _), ok_bind,
    if_pos (exitStatus_has c.status), NtySchedule.free,
    NtySchedule.deref_of_some (NtySchedule.set_coroutines_self _ _ _)] at hback
  cases hback
  simp only [NtySchedule.pool, NtySchedule.set, pool_tasks_update,
    pool_waits_update, Function.update_idem]
  rfl

theorem runCoroutine_poll_pool {fd : Int} {d : Direction}
    {next : Unit -> CoCode τ op answer fault} (h : Placed s [co])
    (hc : s.coroutines co = some c) (hstatus : Runnable c.status)
    (hrun : runCoroutine kernel co (.ask (.poll fd d) next) s w =
      .ok (s', w'))
    (hback : afterSwitch co s' w' =
      (.ok (s'', w'') : Except (Crash fault) _)) :
    s''.pool code w'' = (s.pool code w).turn code co c.task
        (burst kernel (.ask (.poll fd d) next) w) ∧
      forall crash, ¬ (burst kernel (.ask (.poll fd d) next) w).stop.Fails
        (s.WaitsBeside co) crash := by
  cases hfind : rbFind fd s.waiting with
  | some x =>
      rw [runCoroutine_poll_taken kernel d next w hc hstatus h.tree hfind]
        at hrun
      cases hrun
  | none =>
      rcases runCoroutine_poll_free kernel d next w hc hstatus h.tree hfind with
        ⟨t, hpoll, _, _⟩
      rw [hpoll] at hrun
      rw [burst]
      rcases hsave : kernel.saveStack w with ⟨_ | which, w₁⟩
      · rw [hsave] at hrun
        cases hrun
        rw [afterSwitch, NtySchedule.deref_of_some
          (suspended_coroutines_self ..), ok_bind,
          if_neg (by simp [hstatus.not_exited d])] at hback
        cases hback
        constructor
        · simp only [NtySchedule.pool, NtySchedule.suspended, NtySchedule.set,
            pool_tasks_update, pool_waits_update]
          rfl
        · rintro crash ⟨⟩
          rename_i hwaits
          rw [h.waitsBeside_iff, hfind] at hwaits
          cases hwaits
      · rw [hsave] at hrun
        cases hrun

theorem runCoroutine_pool (p : CoCode τ op answer fault) (h : Placed s [co])
    (hc : s.coroutines co = some c) (hstatus : Runnable c.status)
    (hrun : runCoroutine kernel co p s w = .ok (s', w'))
    (hback : afterSwitch co s' w' =
      (.ok (s'', w'') : Except (Crash fault) _)) :
    s''.pool code w'' =
        (s.pool code w).turn code co c.task (burst kernel p w) ∧
      forall crash,
        ¬ (burst kernel p w).stop.Fails (s.WaitsBeside co) crash := by
  induction p generalizing s w with
  | done a =>
      refine ⟨runCoroutine_done_pool kernel code a hc hrun hback, ?_⟩
      rintro crash ⟨⟩
  | abort e => cases hrun
  | ask o next ih =>
      cases o with
      | poll fd d =>
          exact runCoroutine_poll_pool kernel code h hc hstatus hrun hback
      | create task =>
          rw [runCoroutine] at hrun
          rw [burst]
          rcases hallocates : kernel.allocates w with ⟨allocated, w₁⟩
          rw [hallocates] at hrun
          cases allocated with
          | false =>
              rcases ih _ h hc hrun with ⟨hpool, hgoes⟩
              rw [hpool]
              exact ⟨TaskPool.turn_kernel _ _ _ _ (s.pool code w) w₁, hgoes⟩
          | true =>
              have hc' : (s.create task true).2.coroutines co = some c := by
                rw [h.allocated.create_of_mem List.mem_cons_self, hc]
              rcases ih _ (h.create task true) hc' hrun with ⟨hpool, hgoes⟩
              rw [hpool, pool_create]
              exact ⟨TaskPool.turn_kernel _ _ _ _
                ((s.pool code w).create code task) w₁, hgoes⟩
      | other o =>
          rcases ih _ h hc hrun with ⟨hpool, hgoes⟩
          rw [hpool]
          exact ⟨TaskPool.turn_kernel _ _ _ _ (s.pool code w) _, hgoes⟩

theorem coroutineResume_new_pool (h : Placed s [co])
    (hc : s.coroutines co = some c) (hnew : c.status = bit .new)
    (hsaved : c.saved = none)
    (hresume : coroutineResume kernel code co s w = .ok (s', w')) :
    s'.pool code w' = (s.pool code w).turn code co c.task
        (burst kernel (c.left code).2 w) ∧
      forall crash, ¬ s.TurnFails kernel code co w crash := by
  have hbit : c.status.has .new = true := by
    rw [hnew]
    decide
  have hleft : (c.left code).2 = code c.task := by
    simp [NtyCoroutine.left, hsaved]
  rw [coroutineResume, NtySchedule.deref_of_some hc, ok_bind, if_pos hbit]
    at hresume
  cases hrun : runCoroutine kernel co (code c.task)
    (s.set co { c with status := bit .ready }) w with
  | error crash =>
      rw [hrun] at hresume
      cases hresume
  | ok out =>
      rw [hrun] at hresume
      rcases runCoroutine_pool kernel code (code c.task) (h.set_running _)
        (NtySchedule.set_coroutines_self s co _) (Or.inr rfl) hrun hresume with
        ⟨hpool, hgoes⟩
      have hset : (s.set co { c with status := bit .ready }).pool code w =
          s.pool code w :=
        pool_set code hc rfl rfl
      rw [hpool, hleft, hset]
      refine ⟨rfl, fun crash => ?_⟩
      rw [turnFails_iff hc, hleft]
      exact hgoes crash

theorem coroutineResume_waiting_pool (h : Placed s [])
    (hc : s.coroutines co = some c) (hnew : c.status.has .new = false)
    {fd : Int} (hwaits : (fd, co) ∈ s.waiting.toList)
    (hresume : coroutineResume kernel code co s w = .ok (s', w')) :
    s'.pool code w' = (s.pool code w).turn code co c.task
        (burst kernel (c.left code).2 w) ∧
      forall crash, ¬ s.TurnFails kernel code co w crash := by
  rcases h.waits fd co hwaits with ⟨c', polling, hc', _, hsaved, rfl⟩
  rw [hc] at hc'
  cases hc'
  have hleft : (c.left code).2 = polling.rest := by
    simp [NtyCoroutine.left, hsaved]
  rcases pollEnd_eq hc h.tree hwaits with ⟨t, hend, htree, hperm⟩
  rw [coroutineResume, NtySchedule.deref_of_some hc, ok_bind,
    if_neg (by simp [hnew])] at hresume
  simp only [hsaved, hend, ok_bind] at hresume
  cases hrun : runCoroutine kernel co polling.rest
    (s.awoken co c polling.fd t) w with
  | error crash =>
      rw [hrun] at hresume
      cases hresume
  | ok out =>
      rw [hrun] at hresume
      rcases runCoroutine_pool kernel code polling.rest
        (h.awoken c hwaits htree hperm)
        (NtySchedule.set_coroutines_self s co _) (Or.inl rfl) hrun hresume with
        ⟨hpool, hgoes⟩
      have htask : ({ c with status := 0 } :
          NtyCoroutine τ (Polling τ op answer fault)).task = c.task := rfl
      have hset : (s.awoken co c polling.fd t).pool code w = s.pool code w :=
        pool_set code hc htask rfl
      rw [hpool, hleft, hset]
      refine ⟨rfl, fun crash => ?_⟩
      rw [turnFails_iff hc, hleft, <- waitsBeside_awoken hperm]
      exact hgoes crash

theorem poolStep_of_resumed (h : Placed s [])
    (hc : s.coroutines co = some c)
    (hpool : s'.pool code w' =
      (s.pool code w).turn code co c.task (burst kernel (c.left code).2 w))
    (hgoes : forall crash, ¬ s.TurnFails kernel code co w crash) :
    PoolStep kernel code (s.pool code w) (some co) (s'.pool code w') := by
  have hmem : (s.pool code w).tasks co = some (c.left code) := by
    simp [NtySchedule.pool, hc]
  rw [hpool]
  refine .turn hmem fun crash hfails => hgoes crash ?_
  rw [turnFails_iff hc, <- waitsBeside_pool code w h]
  exact hfails

theorem step_ready_pool {m' : Machine τ op answer fault σ} (h : Placed s [])
    {rest : List Ptr} (hready : s.ready = co :: rest) {last : Option Ptr}
    (hstep : Machine.step kernel code ⟨s, w, .ready last⟩ = .ok m') :
    PoolStep kernel code (s.pool code w) (some co) (m'.pool code) := by
  rcases h.new co (hready ▸ List.mem_cons_self) with ⟨c, hc, hnew, hsaved⟩
  rw [step_ready_eq kernel code h hready] at hstep
  cases hresume : coroutineResume kernel code co { s with ready := rest } w with
  | error crash =>
      rw [hresume] at hstep
      cases hstep
  | ok out =>
      rcases coroutineResume_new_pool kernel code (h.pop hready) hc hnew hsaved
        hresume with ⟨hpool, hgoes⟩
      rw [hresume, Except.map] at hstep
      cases hstep
      exact poolStep_of_resumed kernel code h hc hpool hgoes

theorem step_event_pool {m' : Machine τ op answer fault σ} (h : Placed s [])
    {ev : EpollEvent} {pending : List EpollEvent}
    (hwaits : (ev.fd, co) ∈ s.waiting.toList)
    (hstep : Machine.step kernel code ⟨s, w, .events (ev :: pending)⟩ =
      .ok m') :
    PoolStep kernel code (s.pool code w) (some co) (m'.pool code) := by
  rcases h.waits _ _ hwaits with ⟨c, _, hc, _, _, _⟩
  rw [step_event_eq kernel code h hwaits hc] at hstep
  cases hresume : coroutineResume kernel code co
    (s.set co { c with status := ev.status }) w with
  | error crash =>
      rw [hresume] at hstep
      cases hstep
  | ok out =>
      rcases coroutineResume_waiting_pool kernel code
        (h.set_waiting hc hwaits ev.status)
        (NtySchedule.set_coroutines_self s co _) ev.status_not_new hwaits
        hresume with ⟨hpool, hgoes⟩
      have hset : (s.set co { c with status := ev.status }).pool code w =
          s.pool code w :=
        pool_set code hc rfl rfl
      rw [hset] at hpool
      rw [hresume, Except.map] at hstep
      cases hstep
      refine poolStep_of_resumed kernel code h hc hpool fun crash hfails => ?_
      exact hgoes crash
        ((turnFails_iff (NtySchedule.set_coroutines_self _ _ _)).mpr
          ((turnFails_iff hc).mp hfails))

theorem step_epoll_pool {m' : Machine τ op answer fault σ}
    (h : Orderly kernel (⟨s, w, .epoll⟩ : Machine τ op answer fault σ))
    (hstep : Machine.step kernel code ⟨s, w, .epoll⟩ = .ok m') :
    PoolStep kernel code (s.pool code w) none (m'.pool code) := by
  have hepoll := scheduleEpoll_eq kernel h.placed h.timeout w
  rw [Machine.step] at hstep
  dsimp only at hepoll hstep
  rw [hepoll] at hstep
  split_ifs at hstep
  · rcases hwait : kernel.epollWait s.registered 3000
      (kernel.usecNow w).2 with ⟨_ | events, w'⟩
    · rw [hwait] at hstep
      cases hstep
    · rw [hwait] at hstep
      cases hstep
      have hpasses := @Kernel.Passes.epollWait _ _ _ kernel w _
        (.usecNow (.refl w)) s.registered 3000
      rw [hwait] at hpasses
      exact .idle hpasses
  · cases hstep
    exact .idle (.usecNow (.refl w))

theorem step_pool {m m' : Machine τ op answer fault σ} (h : Orderly kernel m)
    (hstep : m.step kernel code = .ok m') :
    PoolStep kernel code (m.pool code) (m.resumed kernel) (m'.pool code) := by
  rcases m with ⟨s, w, phase⟩
  have hplaced : Placed s [] := h.placed
  cases phase with
  | test =>
      cases hstep
      exact .idle (.refl w)
  | expired =>
      simp only [Machine.step, hplaced.takeExpired, ok_bind] at hstep
      cases hstep
      have hidle : Machine.resumed kernel
          (⟨s, w, .expired⟩ : Machine τ op answer fault σ) = none := by
        simp only [Machine.resumed, hplaced.takeExpired]
      rw [hidle]
      exact .idle (.usecNow (.refl w))
  | ready last =>
      cases hready : s.ready with
      | nil =>
          simp only [Machine.step, hready] at hstep
          cases hstep
          have hidle : Machine.resumed kernel
              (⟨s, w, .ready last⟩ : Machine τ op answer fault σ) = none := by
            simp [Machine.resumed, hready]
          rw [hidle]
          exact .idle (.refl w)
      | cons co rest =>
          rw [resumed_ready kernel hplaced hready]
          exact step_ready_pool kernel code hplaced hready hstep
  | epoll => exact step_epoll_pool kernel code h hstep
  | events pending =>
      cases pending with
      | nil =>
          cases hstep
          exact .idle (.refl w)
      | cons ev pending =>
          rcases h.phase.waiters ev List.mem_cons_self with ⟨co, hwaits⟩
          rw [resumed_event kernel hplaced hwaits]
          exact step_event_pool kernel code hplaced hwaits hstep
  | returned =>
      cases hstep
      exact .idle (.refl w)

/-!
## Runs
-/

/-- The same coroutines take their turns in a run of the pool, in the same order
and with the same result; the turn that ends the process ends it in the pool. -/
def RunsAsPool (pool : TaskPool τ op answer fault σ) :
    List Ptr × Except (Crash fault) (Machine τ op answer fault σ) -> Prop
  | (resumed, .error crash) => exists record e,
      Run (PoolStep kernel code) pool record ∧
        record.filterMap Prod.fst ++ e.toList = resumed ∧
        PoolFails kernel ((record.map Prod.snd).getLastD pool) e crash
  | (resumed, .ok m) => exists record,
      Run (PoolStep kernel code) pool record ∧
        record.filterMap Prod.fst = resumed ∧
        (record.map Prod.snd).getLastD pool = m.pool code

theorem RunsAsPool.cons {pool pool' : TaskPool τ op answer fault σ}
    {e : Option Ptr} (hstep : PoolStep kernel code pool e pool')
    {later : List Ptr × Except (Crash fault) (Machine τ op answer fault σ)}
    (h : RunsAsPool kernel code pool' later) :
    RunsAsPool kernel code pool (e.toList ++ later.1, later.2) := by
  have hresumed (record : List (Option Ptr × TaskPool τ op answer fault σ)) :
      ((e, pool') :: record).filterMap Prod.fst =
        e.toList ++ record.filterMap Prod.fst := by
    rw [List.filterMap_cons]
    cases e with
    | none => rfl
    | some co => rfl
  rcases later with ⟨resumed, crash | m⟩
  · rcases h with ⟨record, last, hrun, rfl, hfails⟩
    refine ⟨(e, pool') :: record, last, .cons hstep hrun, ?_, ?_⟩
    · rw [hresumed, List.append_assoc]
    · rw [List.map_cons, List.getLastD_cons]
      exact hfails
  · rcases h with ⟨record, hrun, rfl, hlast⟩
    refine ⟨(e, pool') :: record, .cons hstep hrun, hresumed record, ?_⟩
    rw [List.map_cons, List.getLastD_cons]
    exact hlast

theorem fails_pool {m : Machine τ op answer fault σ} (h : Orderly kernel m)
    {crash : Crash fault} (hfails : m.Fails kernel code crash) :
    PoolFails kernel (m.pool code) (m.resumed kernel) crash := by
  rcases m with ⟨s, w, phase⟩
  cases hfails with
  | turn hresumed hturn =>
      rcases hturn with ⟨c, hc, hturn⟩
      have hmem : (s.pool code w).tasks _ = some (c.left code) :=
        congrArg (Option.map (NtyCoroutine.left code)) hc
      rw [hresumed]
      refine .turn hmem ?_
      rw [Machine.pool, waitsBeside_pool code w h.placed]
      exact hturn
  | epoll hphase hfailed =>
      obtain rfl : phase = .epoll := hphase
      exact .epoll (.usecNow (.refl w)) hfailed

theorem Orderly.runsAsPool {m : Machine τ op answer fault σ}
    (h : Orderly kernel m) (n : Nat) :
    RunsAsPool kernel code (m.pool code) (m.trace kernel code n) := by
  induction n generalizing m with
  | zero => exact ⟨[], .nil _, rfl, rfl⟩
  | succ n ih =>
      have horderly := h.step kernel code
      rw [Machine.trace.eq_def]
      cases hstep : m.step kernel code with
      | error crash =>
          rw [hstep] at horderly
          exact ⟨[], m.resumed kernel, .nil _, rfl,
            fails_pool kernel code h horderly⟩
      | ok m' =>
          rw [hstep] at horderly
          exact (ih horderly).cons kernel code (step_pool kernel code h hstep)

theorem start_pool (birth : Nat) (tasks : List τ) (w : σ) :
    (Machine.start kernel birth tasks w :
      Machine τ op answer fault σ).pool code =
      TaskPool.start code tasks w := by
  have hcreates (s : Scheduler τ op answer fault)
      (pool : TaskPool τ op answer fault σ) (h : s.pool code w = pool) :
      (tasks.foldl (fun s task => (s.create task true).2) s).pool code w =
        pool.createAll code tasks := by
    induction tasks generalizing s pool with
    | nil => exact h
    | cons task rest ih =>
        exact ih _ _ (by rw [pool_create, h])
  exact hcreates (.initial birth kernel.eventfd) _ rfl

/--
The scheduler is a pool of tasks: in each of its runs the coroutines create,
poll, end and fail as they do in the pool when they take their turns in this
order.
-/
theorem scheduler_refines_pool (birth : Nat) (tasks : List τ) (w : σ)
    (n : Nat) :
    RunsAsPool kernel code (TaskPool.start code tasks w)
      ((Machine.start kernel birth tasks w).trace kernel code n) := by
  rw [<- start_pool kernel code birth tasks w]
  exact (orderly_start kernel birth tasks w).runsAsPool kernel code n

theorem run_eq_trace (m : Machine τ op answer fault σ) (n : Nat) :
    m.run kernel code n = (m.trace kernel code n).2 := by
  induction n generalizing m with
  | zero => rfl
  | succ n ih =>
      rw [Machine.run, Machine.trace.eq_def]
      cases m.step kernel code with
      | error crash => rfl
      | ok m' => exact ih m'

theorem invariant_of_pool {Inv : TaskPool τ op answer fault σ -> Prop}
    (hstep : forall pool e pool', PoolStep kernel code pool e pool' ->
      Inv pool -> Inv pool') {birth : Nat} {tasks : List τ}
    (hstart : Inv (TaskPool.start code tasks w)) {n : Nat}
    {m : Machine τ op answer fault σ}
    (hrun : (Machine.start kernel birth tasks w).run kernel code n = .ok m) :
    Inv (m.pool code) := by
  have hruns := (orderly_start kernel birth tasks w).runsAsPool kernel code n
  rw [start_pool] at hruns
  rw [run_eq_trace] at hrun
  rcases htrace : (Machine.start kernel birth tasks w).trace kernel code n with
    ⟨resumed, crash | m'⟩
  · rw [htrace] at hrun
    cases hrun
  · rw [htrace] at hrun hruns
    cases hrun
    rcases hruns with ⟨record, hrun, _, hlast⟩
    have hall := hrun.invariant
      (fun pool e pool' h (_ : True) => hstep pool e pool' h) hstart
      (fun _ _ => trivial)
    rw [<- hlast]
    cases hrecord : record.getLast? with
    | none =>
        rw [List.getLast?_eq_none_iff.mp hrecord]
        exact hstart
    | some last =>
        have hmem := List.mem_of_getLast? hrecord
        rw [List.getLastD_eq_getLast?, List.getLast?_map, hrecord]
        exact hall last hmem

end

end NtyCo
end Z2wRpc
