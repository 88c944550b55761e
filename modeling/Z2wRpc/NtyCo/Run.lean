import Z2wRpc.Foundation.Program
import Z2wRpc.NtyCo.Schedule

/-!
# The loop of the scheduler

`nty_schedule_run` with the coroutines that it resumes.  A coroutine runs until
the poll of a hooked call, which all hooks make for one descriptor and with the
timeout 1, or until its function returns.  The kernel answers all other calls,
so a run is determined by the kernel and its state.
-/

namespace Z2wRpc
namespace NtyCo

open Foundation RedBlack

inductive Direction where
  | read
  | write

def Direction.events : Direction -> PollEvents
  | .read => POLLIN ||| POLLERR ||| POLLHUP
  | .write => POLLOUT ||| POLLERR ||| POLLHUP

inductive CoCall (τ op : Type) where
  -- `nty_poll_inner`
  | poll (fd : Int) (direction : Direction)
  -- `nty_coroutine_create`
  | create (task : τ)
  -- any other call, which does not concern the scheduler
  | other (o : op)

abbrev CoAnswer {τ op : Type} (answer : op -> Type) : CoCall τ op -> Type
  | .poll .. => Unit
  | .create _ => Int
  | .other o => answer o

abbrev CoCode (τ op : Type) (answer : op -> Type) (fault : Type) :=
  Program (CoCall τ op) (CoAnswer answer) fault Unit

/-- A member of `eventlist`: the descriptor, and whether `EPOLLHUP` is set. -/
structure EpollEvent where
  fd : Int
  hup : Bool

structure Kernel (op : Type) (answer : op -> Type) (σ : Type) where
  call : Program.Environment op answer σ
  -- `calloc` of a coroutine
  allocates : σ -> Bool × σ
  usecNow : σ -> Nat × σ
  -- whether `EPOLL_CTL_ADD` succeeds
  registers : Int -> σ -> Bool
  -- whether the stack of a coroutine is not too deep, and `realloc` of its copy
  stackFits : σ -> Bool
  reallocates : σ -> Bool × σ
  -- what `eventfd` has returned; nobody writes to it
  eventfd : Int
  -- what `epoll_wait` reports of the registered descriptors when it is no longer
  -- interrupted, or that it fails
  epollWait : List Int -> Nat -> σ -> Option (List EpollEvent) × σ
  reported : forall fds milliseconds w events,
    (epollWait fds milliseconds w).1 = some events ->
      forall ev, ev ∈ events -> ev.fd ∈ fds ∧ ev.fd ≠ eventfd
  reportedOnce : forall fds milliseconds w events,
    (epollWait fds milliseconds w).1 = some events ->
      (events.map EpollEvent.fd).Nodup

section

variable {τ op : Type} {answer : op -> Type} {fault σ : Type}

/-- A coroutine that has given way in `nty_poll_inner`. -/
structure Polling (τ op : Type) (answer : op -> Type) (fault : Type) where
  fd : Int
  rest : CoCode τ op answer fault

abbrev Scheduler (τ op : Type) (answer : op -> Type) (fault : Type) :=
  NtySchedule τ (Polling τ op answer fault)

/-- `_save_stack`: the assertion that fails, if one does. -/
def Kernel.saveStack (kernel : Kernel op answer σ) (w : σ) :
    Option Assertion × σ :=
  if kernel.stackFits w then
    let (copied, w) := kernel.reallocates w
    (if copied then none else some .stackCopy, w)
  else (some .stackSize, w)

/-- A coroutine from where it is to its next `nty_coroutine_yield`. -/
def runCoroutine (kernel : Kernel op answer σ) (co : Ptr) :
    CoCode τ op answer fault -> Scheduler τ op answer fault -> σ ->
      Except (Crash fault) (Scheduler τ op answer fault × σ)
  | .done _, s, w => do
      -- the end of `_exec`
      let c <- s.deref co
      let s <- s.setStatus co
        (c.status ||| (bit .exited ||| bit .fdeof ||| bit .detach))
      return (s, w)
  | .abort e, _, _ => throw (.fault e)
  | .ask (.poll fd direction) next, s, w => do
      let s <- s.pollBegin co fd direction.events (kernel.registers fd w) 1 0
      match kernel.saveStack w with
      | (some which, _) => throw (.assertion which)
      | (none, w) => do
          let c <- s.deref co
          return (s.set co { c with saved := some ⟨fd, next ()⟩ }, w)
  | .ask (.create task) next, s, w =>
      let (allocated, w) := kernel.allocates w
      let (ret, s) := s.create task allocated
      runCoroutine kernel co (next ret) s w
  | .ask (.other o) next, s, w =>
      let (a, w) := kernel.call o w
      runCoroutine kernel co (next a) s w

/-- `nty_coroutine_resume` after the coroutine has given way. -/
def afterSwitch (co : Ptr) (s : Scheduler τ op answer fault) (w : σ) :
    Except (Crash fault) (Scheduler τ op answer fault × σ) := do
  let c <- s.deref co
  if c.status.has .exited ∧ c.status.has .detach then
    let s <- s.free co
    return (s, w)
  else return (s, w)

/-- `nty_coroutine_resume`; `code` is what a task runs. -/
def coroutineResume (kernel : Kernel op answer σ)
    (code : τ -> CoCode τ op answer fault) (co : Ptr)
    (s : Scheduler τ op answer fault) (w : σ) :
    Except (Crash fault) (Scheduler τ op answer fault × σ) := do
  let c <- s.deref co
  let (s, w) <-
    if c.status.has .new then
      runCoroutine kernel co (code c.task)
        (s.set co { c with status := bit .ready }) w
    else
      match c.saved with
      | none => throw .pointer
      | some polling => do
          let s <- s.pollEnd polling.fd
          runCoroutine kernel co polling.rest s w
  afterSwitch co s w

/-- `struct timespec` for `epoll_wait`, as `nty_schedule_epoll` fills it, in the
milliseconds that `nty_epoller_wait` makes of it. -/
def epollMilliseconds (usecs : Nat) : Nat :=
  let seconds := usecs / 1000000
  let nanoseconds :=
    if seconds ≠ 0 then usecs % 1000 * 1000 else usecs * 1000
  seconds * 1000 + nanoseconds / 1000000

/-- `nty_schedule_epoll`: the events in the order in which they are taken. -/
def scheduleEpoll (kernel : Kernel op answer σ)
    (s : Scheduler τ op answer fault) (w : σ) :
    Except (Crash fault) (List EpollEvent × σ) :=
  let (now, w) := kernel.usecNow w
  let usecs := s.minTimeout now
  if usecs ≠ 0 ∧ s.ready = [] then
    match kernel.epollWait s.registered (epollMilliseconds usecs) w with
    | (none, _) => .error (.assertion .epoll)
    | (some events, w) => .ok (events.reverse, w)
  else .ok ([], w)

inductive Phase where
  -- at the condition of its loop
  | test
  -- in the loop over the coroutines that have slept long enough
  | expired
  -- in the loop over the ready queue, up to this coroutine
  | ready (last : Option Ptr)
  -- at `nty_schedule_epoll`
  | epoll
  -- in the loop over the events
  | events (pending : List EpollEvent)
  | returned

structure Machine (τ op : Type) (answer : op -> Type) (fault σ : Type) where
  sched : Scheduler τ op answer fault
  kernel : σ
  phase : Phase

variable (kernel : Kernel op answer σ) (code : τ -> CoCode τ op answer fault)

/-- One round of the innermost loop in which `nty_schedule_run` is. -/
def Machine.step (m : Machine τ op answer fault σ) :
    Except (Crash fault) (Machine τ op answer fault σ) :=
  match m.phase with
  | .test =>
      .ok { m with phase := if m.sched.isdone then .returned else .expired }
  | .expired => do
      let (now, w) := kernel.usecNow m.kernel
      match <- m.sched.takeExpired now with
      | (none, s) =>
          return { sched := s, kernel := w, phase := .ready s.ready.getLast? }
      | (some co, s) => do
          let (s, w) <- coroutineResume kernel code co s w
          return { sched := s, kernel := w, phase := .expired }
  | .ready last =>
      match m.sched.ready with
      | [] => .ok { m with phase := .epoll }
      | co :: rest => do
          let s := { m.sched with ready := rest }
          let c <- s.deref co
          if c.status.has .fdeof then do
            let s <- s.free co
            return { sched := s, kernel := m.kernel, phase := .epoll }
          else do
            let (s, w) <- coroutineResume kernel code co s m.kernel
            return {
              sched := s
              kernel := w
              phase := if some co = last then .epoll else .ready last }
  | .epoll => do
      let (pending, w) <- scheduleEpoll kernel m.sched m.kernel
      return { sched := m.sched, kernel := w, phase := .events pending }
  | .events [] => .ok { m with phase := .test }
  | .events (ev :: pending) => do
      let (co, s) <- m.sched.searchWait ev.fd
      let s <- if ev.hup then do
          let c <- s.deref co
          s.setStatus co (c.status ||| bit .fdeof)
        else pure s
      let (s, w) <- coroutineResume kernel code co s m.kernel
      return { sched := s, kernel := w, phase := .events pending }
  | .returned => .ok m

def Machine.resumed (m : Machine τ op answer fault σ) : Option Ptr :=
  match m.phase with
  | .expired =>
      match m.sched.takeExpired (kernel.usecNow m.kernel).1 with
      | .ok (some co, _) => some co
      | .ok (none, _) => none
      | .error (_ : Crash fault) => none
  | .ready _ =>
      m.sched.ready.head?.filter fun co =>
        match m.sched.coroutines co with
        | some c => !c.status.has .fdeof
        | none => false
  | .events (ev :: _) => (rbFind ev.fd m.sched.waiting).map Prod.snd
  | _ => none

/-- The coroutines that are resumed in a number of rounds, in their order, and
the machine after them or how the process ends. -/
def Machine.trace (m : Machine τ op answer fault σ) :
    Nat -> List Ptr × Except (Crash fault) (Machine τ op answer fault σ)
  | 0 => ([], .ok m)
  | n + 1 =>
      match m.step kernel code with
      | .error crash => ((m.resumed kernel).toList, .error crash)
      | .ok m' =>
          ((m.resumed kernel).toList ++ (m'.trace n).1, (m'.trace n).2)

def Machine.run (m : Machine τ op answer fault σ) :
    Nat -> Except (Crash fault) (Machine τ op answer fault σ)
  | 0 => .ok m
  | n + 1 => do (<- m.step kernel code).run n

end

/-- `nty_schedule_create` with `nty_epoller_ev_register_trigger`. -/
def NtySchedule.initial {τ γ : Type} (birth : Nat) (eventfd : Int) :
    NtySchedule τ γ where
  coroutines := fun _ => none
  unused := 0
  birth := birth
  spawnedCoroutines := 0
  defaultTimeout := 3000000
  ready := []
  sleeping := .nil
  waiting := .nil
  eventfd := eventfd
  registered := [eventfd]

/-- `main` up to `nty_schedule_run`: coroutines have been created for these
tasks. -/
def Machine.start {τ op : Type} {answer : op -> Type} {fault σ : Type}
    (kernel : Kernel op answer σ) (birth : Nat) (tasks : List τ) (w : σ) :
    Machine τ op answer fault σ where
  sched := tasks.foldl (fun s task => (s.create task true).2)
    (.initial birth kernel.eventfd)
  kernel := w
  phase := .test

end NtyCo
end Z2wRpc
