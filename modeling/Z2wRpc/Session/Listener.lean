import Z2wRpc.Foundation.Runs
import Z2wRpc.Session.Server

/-!
# The listener and its coroutines

`rpc_listen` starts a coroutine for whatever `accept` returns.  The coroutines
take turns in any order, and each closes its descriptor at the end.  Each of
them holds a live connection of its own exactly as long as `accept` does not
fail.
-/

namespace Z2wRpc

open Foundation

namespace Session

open Dispatch Wire Program

inductive AcceptOutcome where
  -- `EAGAIN`, and the hook waits again
  | again
  | failed
  -- a descriptor, which may turn out not to be put into non-blocking mode
  | taken (fd : Int) (nonblocking : Bool)

/-- A coroutine that runs `rpc_handle`: its descriptor and what it has left. -/
structure Worker where
  fd : Int
  code : Code Unit

/-- The descriptors that `accept` has returned and nobody has closed, and the
coroutines that have not finished. -/
structure Listening where
  connections : List Int
  workers : List Worker

/-- `accept` (hook): the descriptor, -1, or nothing yet. -/
def acceptHook : AcceptOutcome -> List Int -> Option Int × List Int
  | .again, fds => (none, fds)
  | .failed, fds => (some (-1), fds)
  | .taken fd true, fds => (some fd, fd :: fds)
  | .taken fd false, fds => (some (-1), (fd :: fds).erase fd)

def Worker.start (fd : Int) (fuel : Nat) : Worker where
  fd := fd
  code := rpcHandle fd fuel

/-- One round of the loop of `rpc_listen`; `nty_coroutine_create` may fail. -/
def rpcListenRound (outcome : AcceptOutcome) (created : Bool) (fuel : Nat)
    (s : Listening) : Listening :=
  match acceptHook outcome s.connections with
  | (none, fds) => { s with connections := fds }
  | (some cliFd, fds) =>
      { connections := fds
        workers :=
          if created then s.workers ++ [Worker.start cliFd fuel]
          else s.workers }

def closedBy : SysCall -> List Int -> List Int
  | .close fd, fds => fds.erase fd
  | _, fds => fds

def resumed (fd : Int) : Code Unit -> List Worker
  | .done _ => []
  | code => [⟨fd, code⟩]

def Alive (s : Listening) : Prop :=
  forall w, w ∈ s.workers -> forall e, w.code ≠ .abort e

inductive ListenEvent where
  | accept (outcome : AcceptOutcome) (created : Bool)
  | turn (fd : Int)

/-- The listener accepts, or a coroutine makes a call and gets any answer. -/
inductive ListenStep : Listening -> ListenEvent -> Listening -> Prop where
  | accept {s : Listening} {outcome : AcceptOutcome} {created : Bool}
      {fuel : Nat} (alive : Alive s)
      (fresh : forall fd nonblocking, outcome = .taken fd nonblocking ->
        0 <= fd ∧ fd ∉ s.connections) :
      ListenStep s (.accept outcome created)
        (rpcListenRound outcome created fuel s)
  | turn {s : Listening} {before after : List Worker} {fd : Int}
      {call : SysCall} {next : Reply call -> Code Unit} (alive : Alive s)
      (workers : s.workers = before ++ ⟨fd, .ask call next⟩ :: after)
      (answer : Reply call) :
      ListenStep s (.turn fd)
        { connections := closedBy call s.connections
          workers := before ++ (resumed fd (next answer) ++ after) }

structure OwnConnections (s : Listening) : Prop where
  live : forall w, w ∈ s.workers -> 0 <= w.fd ∧ w.fd ∈ s.connections
  distinct : (s.workers.map Worker.fd).Nodup

/-- The listener does not start a coroutine for a failed `accept`. -/
def ListenEvent.Served : ListenEvent -> Prop
  | .accept .failed created => created = false
  | .accept (.taken _ false) created => created = false
  | _ => True

/-!
## The calls of a coroutine
-/

def NoClose : SysCall -> Prop
  | .close _ => False
  | _ => True

theorem rpcHandleRound_noClose (fd : Int) :
    Asks NoClose (rpcHandleRound fd) :=
  asks_rpcHandleRound (fun _ => trivial) (fun _ => trivial)
    (fun _ => trivial) fun _ => trivial

def Worker.ClosesLast (w : Worker) : Prop :=
  exists p : Code Bool, Asks NoClose p ∧
    w.code = p >>= fun _ => Code.close w.fd

theorem start_closesLast (fd : Int) (fuel : Nat) :
    (Worker.start fd fuel).ClosesLast :=
  ⟨_, asks_repeatWhile (rpcHandleRound_noClose fd) fuel, rfl⟩

theorem resumed_bind (fd : Int) (p : Code Bool) :
    resumed fd (p >>= fun _ => Code.close fd) =
      [⟨fd, p >>= fun _ => Code.close fd⟩] := by
  cases p with
  | _ => rfl

theorem closedBy_of_noClose {call : SysCall} (h : NoClose call)
    (fds : List Int) : closedBy call fds = fds := by
  cases call with
  | close fd => cases h
  | _ => rfl

theorem closesLast_cases {fd : Int} {call : SysCall}
    {next : Reply call -> Code Unit}
    (h : Worker.ClosesLast ⟨fd, .ask call next⟩) (answer : Reply call) :
    (exists w : Worker, w.ClosesLast ∧ w.fd = fd ∧
        resumed fd (next answer) = [w] ∧
        forall fds, closedBy call fds = fds) ∨
      resumed fd (next answer) = [] ∧
        forall fds, closedBy call fds = fds.erase fd := by
  rcases h with ⟨p, hasks, hcode⟩
  cases hasks with
  | done a =>
      change Program.ask call next = Program.ask (SysCall.close fd)
        Program.done at hcode
      cases hcode
      exact Or.inr ⟨rfl, fun _ => rfl⟩
  | abort e => cases hcode
  | @ask o rest hcall hrest =>
      change Program.ask call next =
        Program.ask o fun r => rest r >>= fun _ => Code.close fd at hcode
      cases hcode
      exact Or.inl ⟨⟨fd, rest answer >>= fun _ => Code.close fd⟩,
        ⟨rest answer, hrest answer, rfl⟩, rfl, resumed_bind fd _,
        closedBy_of_noClose hcall⟩

/-!
## The invariant
-/

/-- While `accept` succeeds: the coroutines hold connections, each its own, and
will close it last. -/
structure Serving (s : Listening) : Prop where
  valid : forall fd, fd ∈ s.connections -> 0 <= fd
  held : forall w, w ∈ s.workers -> w.fd ∈ s.connections ∧ w.ClosesLast
  distinct : (s.workers.map Worker.fd).Nodup

theorem Serving.own {s : Listening} (h : Serving s) : OwnConnections s where
  live w hw := ⟨h.valid _ (h.held w hw).left, (h.held w hw).left⟩
  distinct := h.distinct

theorem Serving.started {s : Listening} (h : Serving s) {fd : Int}
    (hvalid : 0 <= fd) (hfresh : fd ∉ s.connections) (fuel : Nat) :
    Serving
      { connections := fd :: s.connections
        workers := s.workers ++ [Worker.start fd fuel] } where
  valid fd' hfd' := by
    rcases List.mem_cons.mp hfd' with rfl | hold
    · exact hvalid
    · exact h.valid fd' hold
  held w hw := by
    rcases List.mem_append.mp hw with hold | hnew
    · exact ⟨List.mem_cons_of_mem fd (h.held w hold).left,
        (h.held w hold).right⟩
    · rw [List.mem_singleton.mp hnew]
      exact ⟨List.mem_cons_self, start_closesLast fd fuel⟩
  distinct := by
    rw [List.map_append, List.map_singleton]
    refine List.Nodup.append h.distinct (List.nodup_singleton _) ?_
    rw [List.disjoint_singleton]
    intro hmem
    rcases List.mem_map.mp hmem with ⟨w, hw, rfl⟩
    exact hfresh (h.held w hw).left

theorem Serving.opened {s : Listening} (h : Serving s) {fd : Int}
    (hvalid : 0 <= fd) :
    Serving { connections := fd :: s.connections, workers := s.workers } where
  valid fd' hfd' := by
    rcases List.mem_cons.mp hfd' with rfl | hold
    · exact hvalid
    · exact h.valid fd' hold
  held w hw :=
    ⟨List.mem_cons_of_mem fd (h.held w hw).left, (h.held w hw).right⟩
  distinct := h.distinct

theorem Serving.accepts {s : Listening} (h : Serving s)
    {outcome : AcceptOutcome} {created : Bool} (fuel : Nat)
    (hfresh : forall fd nonblocking, outcome = .taken fd nonblocking ->
      0 <= fd ∧ fd ∉ s.connections)
    (hserved : (ListenEvent.accept outcome created).Served) :
    Serving (rpcListenRound outcome created fuel s) := by
  match outcome with
  | .again => exact h
  | .failed =>
      obtain rfl : created = false := hserved
      exact h
  | .taken fd false =>
      obtain rfl : created = false := hserved
      have herase : (fd :: s.connections).erase fd = s.connections :=
        List.erase_cons_head fd s.connections
      rw [rpcListenRound, acceptHook, herase]
      exact h
  | .taken fd true =>
      rcases hfresh fd true rfl with ⟨hvalid, hnew⟩
      cases created with
      | true => exact h.started hvalid hnew fuel
      | false => exact h.opened hvalid

theorem Serving.turns {s : Listening} (h : Serving s)
    {before after : List Worker} {fd : Int} {call : SysCall}
    {next : Reply call -> Code Unit}
    (hworkers : s.workers = before ++ ⟨fd, .ask call next⟩ :: after)
    (answer : Reply call) :
    Serving
      { connections := closedBy call s.connections
        workers := before ++ (resumed fd (next answer) ++ after) } := by
  have hmem (w : Worker) (hw : w ∈ before ∨ w ∈ after) : w ∈ s.workers := by
    rw [hworkers, List.mem_append, List.mem_cons]
    exact hw.imp_right Or.inr
  have hown := h.held ⟨fd, .ask call next⟩ (by rw [hworkers]; simp)
  have hdistinct := h.distinct
  rw [hworkers, List.map_append, List.map_cons] at hdistinct
  rcases closesLast_cases hown.right answer with
    ⟨w, hw, hfd, hresumed, hclosed⟩ | ⟨hresumed, hclosed⟩
  · rw [hresumed, hclosed, List.singleton_append]
    refine ⟨h.valid, fun w' hw' => ?_, ?_⟩
    · rcases List.mem_append.mp hw' with hbefore | hrest
      · exact h.held w' (hmem w' (Or.inl hbefore))
      · rcases List.mem_cons.mp hrest with rfl | hafter
        · exact ⟨hfd ▸ hown.left, hw⟩
        · exact h.held w' (hmem w' (Or.inr hafter))
    · rw [List.map_append, List.map_cons, hfd]
      exact hdistinct
  · -- the descriptor is closed, and the others are different
    have hothers : fd ∉ (before ++ after).map Worker.fd := by
      rw [List.map_append]
      exact (List.nodup_middle.mp hdistinct).notMem
    rw [hresumed, hclosed, List.nil_append]
    refine ⟨fun fd' hfd' => h.valid fd' (List.mem_of_mem_erase hfd'),
      fun w hw => ?_, ?_⟩
    · have hne : w.fd ≠ fd := fun heq =>
        hothers (List.mem_map.mpr ⟨w, hw, heq⟩)
      have hheld := h.held w (hmem w (List.mem_append.mp hw))
      exact ⟨(List.mem_erase_of_ne hne).mpr hheld.left, hheld.right⟩
    · rw [List.map_append]
      exact (List.nodup_middle.mp hdistinct).of_cons

/-!
## Runs
-/

def Listening.start : Listening where
  connections := []
  workers := []

theorem Serving.step {s s' : Listening} {e : ListenEvent}
    (hstep : ListenStep s e s') (hserved : e.Served) (h : Serving s) :
    Serving s' := by
  cases hstep with
  | accept alive fresh => exact h.accepts _ fresh hserved
  | turn alive workers answer => exact h.turns workers answer

theorem not_own_of_failed {s s' : Listening} {e : ListenEvent}
    (hstep : ListenStep s e s') (hserved : ¬ e.Served) :
    ¬ OwnConnections s' := by
  cases hstep with
  | turn alive workers answer => exact absurd trivial hserved
  | @accept outcome created fuel alive fresh =>
      have hfailed : exists fds, acceptHook outcome s.connections =
          (some (-1), fds) ∧ created = true := by
        match outcome with
        | .again => exact absurd trivial hserved
        | .failed => exact ⟨_, rfl, by simpa [ListenEvent.Served] using hserved⟩
        | .taken fd true => exact absurd trivial hserved
        | .taken fd false =>
            exact ⟨_, rfl, by simpa [ListenEvent.Served] using hserved⟩
      rcases hfailed with ⟨fds, hhook, rfl⟩
      intro hown
      have hlive : (0 : Int) <= -1 := (hown.live (Worker.start (-1) fuel) (by
        rw [rpcListenRound, hhook]
        simp)).left
      exact absurd hlive (by decide)

/--
At every moment of a run each coroutine holds a live connection of its own,
exactly in the runs in which none is started for a failed `accept`.
-/
theorem ownConnections_iff {record : List (ListenEvent × Listening)}
    (hrun : Run ListenStep Listening.start record) :
    (forall m, m ∈ record -> OwnConnections m.2) <->
      forall m, m ∈ record -> m.1.Served := by
  have hstart : Serving Listening.start := by
    refine ⟨fun fd h => ?_, fun w h => ?_, List.nodup_nil⟩
    · cases h
    · cases h
  exact hrun.goal_iff (fun _ _ _ hstep hserved h => h.step hstep hserved)
    (fun _ h => h.own) (fun _ _ _ => not_own_of_failed) hstart

/-- A client connects and leaves, and the next one gets the same descriptor. -/
def reusedDescriptor : List (ListenEvent × Listening) :=
  [(.accept (.taken 5 true) true,
      { connections := [5], workers := [Worker.start 5 1] }),
    (.turn 5, { connections := [5], workers := [⟨5, Code.close 5⟩] }),
    (.turn 5, { connections := [], workers := [] }),
    (.accept (.taken 5 true) true,
      { connections := [5], workers := [Worker.start 5 1] })]

theorem alive_nil {fds : List Int} :
    Alive { connections := fds, workers := [] } :=
  fun _ hw => absurd hw List.not_mem_nil

theorem alive_singleton {fds : List Int} {w : Worker}
    (h : forall e, w.code ≠ .abort e) :
    Alive { connections := fds, workers := [w] } := by
  intro w' hw'
  rw [List.mem_singleton.mp hw']
  exact h

theorem run_reusedDescriptor :
    Run ListenStep Listening.start reusedDescriptor := by
  have hfresh : forall fd nonblocking,
      AcceptOutcome.taken 5 true = .taken fd nonblocking ->
        0 <= fd ∧ fd ∉ ([] : List Int) := by
    intro fd nonblocking h
    cases h
    decide
  have haccepted : ListenStep Listening.start (.accept (.taken 5 true) true)
      { connections := [5], workers := [Worker.start 5 1] } :=
    @ListenStep.accept _ _ _ 1 alive_nil hfresh
  have hreceived : ListenStep
      { connections := [5], workers := [Worker.start 5 1] } (.turn 5)
      { connections := [5], workers := [⟨5, Code.close 5⟩] } :=
    @ListenStep.turn _ [] [] 5 (.recv 5 rpcHeaderLength) _
      (alive_singleton fun e h => by cases h) rfl (some [])
  have hclosed : ListenStep
      { connections := [5], workers := [⟨5, Code.close 5⟩] } (.turn 5)
      Listening.start :=
    @ListenStep.turn _ [] [] 5 (.close 5) Program.done
      (alive_singleton fun e h => by cases h) rfl ()
  exact .cons haccepted (.cons hreceived (.cons hclosed
    (.cons haccepted (.nil _))))

theorem own_reusedDescriptor :
    Run ListenStep Listening.start reusedDescriptor ∧
      forall m, m ∈ reusedDescriptor -> OwnConnections m.2 := by
  refine ⟨run_reusedDescriptor, ?_⟩
  apply (ownConnections_iff run_reusedDescriptor).mpr
  simp [reusedDescriptor, ListenEvent.Served]

/-- Two failed `accept`s, and two coroutines hold the descriptor -1. -/
def failedTwice : List (ListenEvent × Listening) :=
  [(.accept .failed true,
      { connections := [], workers := [Worker.start (-1) 1] }),
    (.accept .failed true,
      { connections := []
        workers := [Worker.start (-1) 1, Worker.start (-1) 1] })]

theorem failedTwice_not_own :
    Run ListenStep Listening.start failedTwice ∧
      ¬ forall m, m ∈ failedTwice -> OwnConnections m.2 := by
  have hfresh : forall fd nonblocking,
      AcceptOutcome.failed = .taken fd nonblocking ->
        0 <= fd ∧ fd ∉ ([] : List Int) := by
    intro fd nonblocking h
    cases h
  constructor
  · have hfirst : ListenStep Listening.start (.accept .failed true)
        { connections := [], workers := [Worker.start (-1) 1] } :=
      @ListenStep.accept _ _ _ 1 alive_nil hfresh
    have hsecond : ListenStep
        { connections := [], workers := [Worker.start (-1) 1] }
        (.accept .failed true)
        { connections := []
          workers := [Worker.start (-1) 1, Worker.start (-1) 1] } :=
      @ListenStep.accept _ _ _ 1 (alive_singleton fun e h => by cases h) hfresh
    exact .cons hfirst (.cons hsecond (.nil _))
  · intro hown
    have hlast := hown _ (List.mem_cons_of_mem _ List.mem_cons_self)
    exact absurd hlast.distinct (by decide)

end Session
end Z2wRpc
