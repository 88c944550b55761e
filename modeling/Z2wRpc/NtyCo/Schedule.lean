import Mathlib.Algebra.Group.Int.Defs
import Z2wRpc.NtyCo.SearchTree

/-!
# The scheduler's state

`nty_schedule` with its coroutines, and the functions of `nty_schedule.c` and
`nty_coroutine.c` that move a coroutine between the ready queue, the tree of
those that wait for a descriptor and the tree of those that sleep.  The function
and the argument of a coroutine and its saved context are parameters.
-/

namespace Z2wRpc
namespace NtyCo

open Foundation RedBlack

/-- `nty_coroutine_status`, up to the last value that the scheduler uses. -/
inductive CoroutineStatus where
  | waitRead
  | waitWrite
  | new
  | ready
  | exited
  | busy
  | sleeping
  | expired
  | fdeof
  | detach

def CoroutineStatus.number : CoroutineStatus -> Nat
  | .waitRead => 0
  | .waitWrite => 1
  | .new => 2
  | .ready => 3
  | .exited => 4
  | .busy => 5
  | .sleeping => 6
  | .expired => 7
  | .fdeof => 8
  | .detach => 9

abbrev Status := BitVec 32

def bit (x : CoroutineStatus) : Status :=
  1#32 <<< x.number

def clearbit (x : CoroutineStatus) : Status :=
  ~~~ bit x

def Status.has (status : Status) (x : CoroutineStatus) : Bool :=
  status &&& bit x != 0

abbrev PollEvents := BitVec 16

def POLLIN : PollEvents := 0x001
def POLLOUT : PollEvents := 0x004
def POLLERR : PollEvents := 0x008
def POLLHUP : PollEvents := 0x010

inductive Assertion where
  -- the coroutine is in a waiting state already
  | waiting
  -- neither `POLLIN` nor `POLLOUT`
  | events
  -- another coroutine waits for the descriptor
  | descriptor
  -- the stack is deeper than `NTY_CO_MAX_STACKSIZE`
  | stackSize
  -- no memory for the copy of the stack
  | stackCopy
  -- `epoll_wait` has failed
  | epoll
deriving DecidableEq

inductive Crash (fault : Type) where
  -- a pointer that is `NULL`, or to memory that has been freed
  | pointer
  | assertion (which : Assertion)
  -- in the code of a coroutine
  | fault (e : fault)

@[simp] theorem ok_bind {ε α β : Type} (a : α) (f : α -> Except ε β) :
    (Except.ok a >>= f) = f a := rfl

@[simp] theorem error_bind {ε α β : Type} (e : ε) (f : α -> Except ε β) :
    (Except.error e >>= f) = .error e := rfl

abbrev Ptr := Nat

structure NtyCoroutine (τ γ : Type) where
  -- `func` and `arg`
  task : τ
  -- the context and the stack that the last `nty_coroutine_yield` has saved
  saved : Option γ
  status : Status
  id : Nat
  fd : Int
  events : PollEvents
  sleepUsecs : Nat

/-- `nty_schedule` and the coroutines that have been allocated. -/
structure NtySchedule (τ γ : Type) where
  coroutines : Ptr -> Option (NtyCoroutine τ γ)
  -- all addresses from here on are unused
  unused : Ptr
  birth : Nat
  spawnedCoroutines : Int
  defaultTimeout : Nat
  ready : List Ptr
  sleeping : RbTree (Nat × Ptr)
  waiting : RbTree (Int × Ptr)
  eventfd : Int
  -- the descriptors that are registered with `poller_fd`
  registered : List Int

namespace NtySchedule

variable {τ γ fault : Type}

def deref (s : NtySchedule τ γ) (co : Ptr) :
    Except (Crash fault) (NtyCoroutine τ γ) :=
  match s.coroutines co with
  | none => .error .pointer
  | some c => .ok c

def set (s : NtySchedule τ γ) (co : Ptr) (c : NtyCoroutine τ γ) : NtySchedule τ γ :=
  { s with coroutines := Function.update s.coroutines co (some c) }

def setStatus (s : NtySchedule τ γ) (co : Ptr) (status : Status) :
    Except (Crash fault) (NtySchedule τ γ) := do
  let c <- s.deref co
  return s.set co { c with status := status }

section

variable (s : NtySchedule τ γ) (co : Ptr) (c : NtyCoroutine τ γ)

@[simp] theorem set_ready : (s.set co c).ready = s.ready := rfl

@[simp] theorem set_waiting : (s.set co c).waiting = s.waiting := rfl

@[simp] theorem set_sleeping : (s.set co c).sleeping = s.sleeping := rfl

@[simp] theorem set_registered : (s.set co c).registered = s.registered := rfl

@[simp] theorem set_unused : (s.set co c).unused = s.unused := rfl

@[simp] theorem set_eventfd : (s.set co c).eventfd = s.eventfd := rfl

@[simp] theorem set_defaultTimeout :
    (s.set co c).defaultTimeout = s.defaultTimeout := rfl

@[simp] theorem set_spawnedCoroutines :
    (s.set co c).spawnedCoroutines = s.spawnedCoroutines := rfl

@[simp] theorem set_coroutines_self :
    (s.set co c).coroutines co = some c :=
  Function.update_self _ _ _

theorem set_coroutines_of_ne {other : Ptr} (h : other ≠ co) :
    (s.set co c).coroutines other = s.coroutines other :=
  Function.update_of_ne h _ _

@[simp] theorem set_set (c' : NtyCoroutine τ γ) :
    (s.set co c).set co c' = s.set co c' := by
  simp [set]

end

theorem deref_of_some {s : NtySchedule τ γ} {co : Ptr} {c : NtyCoroutine τ γ}
    (h : s.coroutines co = some c) :
    s.deref co = (.ok c : Except (Crash fault) _) := by
  rw [deref, h]

def ofTree {α : Type} : Option α -> Except (Crash fault) α
  | none => .error .pointer
  | some a => .ok a

/-!
## Time
-/

/-- `nty_coroutine_diff_usecs`, on `uint64_t`. -/
def diffUsecs (t1 t2 : Nat) : Nat :=
  (t2 + 2 ^ 64 - t1) % 2 ^ 64

/-- The loop of `nty_schedule_sched_sleepdown`: the coroutine sleeps a
microsecond longer as long as another one has its deadline. -/
def insertSleeping :
    Nat -> NtySchedule τ γ -> Ptr -> NtyCoroutine τ γ ->
    Except (Crash fault) (NtySchedule τ γ)
  | 0, s, _, _ => .ok s
  | fuel + 1, s, co, c => do
      let (other, sleeping) <- ofTree (rbInsert (c.sleepUsecs, co) s.sleeping)
      match other with
      | some _ =>
          insertSleeping fuel s co
            { c with sleepUsecs := (c.sleepUsecs + 1) % 2 ^ 64 }
      | none =>
          return { s with sleeping := sleeping }.set co
            { c with status := c.status ||| bit .sleeping }

def schedSleepdown (s : NtySchedule τ γ) (co : Ptr) (msecs now : Nat) :
    Except (Crash fault) (NtySchedule τ γ) := do
  let c <- s.deref co
  let sleeping <- match rbFind c.sleepUsecs s.sleeping with
    | none => Except.ok s.sleeping
    | some x => ofTree (rbRemove x.1 s.sleeping)
  let s := { s with sleeping := sleeping }
  let usecs := msecs * 1000 % 2 ^ 64
  let c := { c with
    sleepUsecs := (diffUsecs s.birth now + usecs) % 2 ^ 64 }
  if msecs = 0 then return s.set co c
  else insertSleeping (sleeping.toList.length + 1) (s.set co c) co c

def deschedSleepdown (s : NtySchedule τ γ) (co : Ptr) :
    Except (Crash fault) (NtySchedule τ γ) := do
  let c <- s.deref co
  if c.status.has .sleeping then
    let sleeping <- ofTree (rbRemove c.sleepUsecs s.sleeping)
    return { s with sleeping := sleeping }.set co
      { c with
        status := (c.status &&& clearbit .sleeping ||| bit .ready) &&&
          clearbit .expired }
  else return s

/-- `nty_schedule_expired`: the coroutine whose deadline has passed first. -/
def takeExpired (s : NtySchedule τ γ) (now : Nat) :
    Except (Crash fault) (Option Ptr × NtySchedule τ γ) :=
  match rbMin s.sleeping with
  | none => .ok (none, s)
  | some (deadline, co) =>
      if deadline <= diffUsecs s.birth now then do
        let sleeping <- ofTree (rbRemove deadline s.sleeping)
        return (some co, { s with sleeping := sleeping })
      else .ok (none, s)

def minTimeout (s : NtySchedule τ γ) (now : Nat) : Nat :=
  match rbMin s.sleeping with
  | none => s.defaultTimeout
  | some (deadline, _) =>
      if diffUsecs s.birth now < deadline then deadline - diffUsecs s.birth now
      else 0

/-!
## Waiting
-/

def schedWait (s : NtySchedule τ γ) (co : Ptr) (fd : Int) (events : PollEvents)
    (timeout now : Nat) : Except (Crash fault) (NtySchedule τ γ) := do
  let c <- s.deref co
  if c.status.has .waitRead ∨ c.status.has .waitWrite then
    throw (.assertion .waiting)
  -- the source sets the value of the enumerator and not its bit
  let status <-
    if events &&& POLLIN ≠ 0 then
      Except.ok (c.status ||| BitVec.ofNat 32 CoroutineStatus.waitRead.number)
    else if events &&& POLLOUT ≠ 0 then
      Except.ok (c.status ||| BitVec.ofNat 32 CoroutineStatus.waitWrite.number)
    else throw (.assertion .events)
  let s := s.set co { c with status := status, fd := fd, events := events }
  match <- ofTree (rbInsert (fd, co) s.waiting) with
  | (some _, _) => throw (.assertion .descriptor)
  | (none, waiting) =>
      let s := { s with waiting := waiting }
      if timeout = 1 then return s else s.schedSleepdown co timeout now

def searchWait (s : NtySchedule τ γ) (fd : Int) :
    Except (Crash fault) (Ptr × NtySchedule τ γ) :=
  match rbFind fd s.waiting with
  | none => .error .pointer
  | some (_, co) => do
      let s <- s.setStatus co 0
      return (co, s)

def deschedWait (s : NtySchedule τ γ) (fd : Int) :
    Except (Crash fault) (NtySchedule τ γ) :=
  match rbFind fd s.waiting with
  | none => .error .pointer
  | some (_, co) => do
      let waiting <- ofTree (rbRemove fd s.waiting)
      let s <- { s with waiting := waiting }.setStatus co 0
      s.deschedSleepdown co

def isdone (s : NtySchedule τ γ) : Bool :=
  s.waiting.toList.isEmpty && s.sleeping.toList.isEmpty && s.ready.isEmpty

/-!
## Coroutines
-/

/-- `nty_coroutine_create`; the allocation of the coroutine may fail. -/
def create (s : NtySchedule τ γ) (task : τ) (allocated : Bool) :
    Int × NtySchedule τ γ :=
  if allocated then
    let co : NtyCoroutine τ γ := {
      task := task
      saved := none
      status := bit .new
      id := (s.spawnedCoroutines % 2 ^ 64).toNat
      fd := -1
      events := 0
      sleepUsecs := 0 }
    (0, { s.set s.unused co with
      unused := s.unused + 1
      spawnedCoroutines := s.spawnedCoroutines + 1
      ready := s.ready ++ [s.unused] })
  else (-2, s)

def free (s : NtySchedule τ γ) (co : Ptr) :
    Except (Crash fault) (NtySchedule τ γ) := do
  let _ <- s.deref co
  return { s with
    coroutines := Function.update s.coroutines co none
    spawnedCoroutines := s.spawnedCoroutines - 1 }

/-- `EPOLL_CTL_ADD`, which fails for what is registered already.  Nobody looks
at its result. -/
def register (s : NtySchedule τ γ) (fd : Int) (registers : Bool) :
    NtySchedule τ γ :=
  if registers ∧ fd ∉ s.registered then
    { s with registered := fd :: s.registered }
  else s

/-- `nty_poll_inner` up to its `nty_coroutine_yield`, for one descriptor. -/
def pollBegin (s : NtySchedule τ γ) (co : Ptr) (fd : Int) (events : PollEvents)
    (registers : Bool) (timeout now : Nat) :
    Except (Crash fault) (NtySchedule τ γ) := do
  let s := s.register fd registers
  let c <- s.deref co
  (s.set co { c with events := events }).schedWait co fd events timeout now

def pollEnd (s : NtySchedule τ γ) (fd : Int) :
    Except (Crash fault) (NtySchedule τ γ) :=
  { s with registered := s.registered.erase fd }.deschedWait fd

end NtySchedule

end NtyCo
end Z2wRpc
