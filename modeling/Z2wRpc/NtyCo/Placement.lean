import Z2wRpc.NtyCo.Run
import Z2wRpc.NtyCo.TreeRuns

/-!
# Where the coroutines are

Every coroutine is in one place: it runs, it is in the ready queue, or it waits
in the tree under the descriptor that it polls.  Every operation of the
scheduler keeps this.
-/

namespace Z2wRpc
namespace NtyCo

open Foundation RedBlack

section

variable {τ γ fault : Type}

def NtySchedule.waiters (s : NtySchedule τ γ) : List Ptr :=
  s.waiting.toList.map Prod.snd

def NtySchedule.places (s : NtySchedule τ γ) (running : List Ptr) : List Ptr :=
  running ++ (s.ready ++ s.waiters)

@[simp] theorem waiters_set (s : NtySchedule τ γ) (co : Ptr)
    (c : NtyCoroutine τ γ) : (s.set co c).waiters = s.waiters := rfl

@[simp] theorem places_set (s : NtySchedule τ γ) (co : Ptr)
    (c : NtyCoroutine τ γ) (running : List Ptr) :
    (s.set co c).places running = s.places running := rfl

structure Allocated (s : NtySchedule τ γ) (places : List Ptr) : Prop where
  once : places.Nodup
  live : forall co, (s.coroutines co).isSome <-> co ∈ places
  unused : forall co, s.unused <= co -> s.coroutines co = none
  counted : s.spawnedCoroutines = places.length

namespace Allocated

variable {s : NtySchedule τ γ} {places places' : List Ptr} {co : Ptr}
  {c : NtyCoroutine τ γ}

theorem perm (h : Allocated s places) (hperm : places'.Perm places) :
    Allocated s places' where
  once := hperm.nodup_iff.mpr h.once
  live other := (h.live other).trans hperm.mem_iff.symm
  unused := h.unused
  counted := by rw [h.counted, hperm.length_eq]

theorem exists_some (h : Allocated s places) (hco : co ∈ places) :
    exists c, s.coroutines co = some c :=
  Option.isSome_iff_exists.mp ((h.live co).mpr hco)

theorem set (h : Allocated s places) (hco : co ∈ places) :
    Allocated (s.set co c) places where
  once := h.once
  live other := by
    by_cases heq : other = co
    · subst heq
      simp [hco]
    · rw [NtySchedule.set_coroutines_of_ne _ _ _ heq]
      exact h.live other
  unused other hle := by
    have hne : other ≠ co := by
      rintro rfl
      have hsome := (h.live other).mpr hco
      rw [h.unused other hle] at hsome
      cases hsome
    rw [NtySchedule.set_coroutines_of_ne _ _ _ hne]
    exact h.unused other hle
  counted := h.counted

theorem lt_unused (h : Allocated s places) (hco : co ∈ places) :
    co < s.unused := by
  by_contra hle
  have hsome := (h.live co).mpr hco
  rw [h.unused co (not_lt.mp hle)] at hsome
  cases hsome

theorem create_of_mem (h : Allocated s places) (hco : co ∈ places) (task : τ)
    (allocated : Bool) :
    (s.create task allocated).2.coroutines co = s.coroutines co := by
  cases allocated with
  | false => rfl
  | true =>
      exact NtySchedule.set_coroutines_of_ne s _ _ (h.lt_unused hco).ne

theorem create (h : Allocated s places) (task : τ) :
    Allocated (s.create task true).2 (s.unused :: places) where
  once := List.nodup_cons.mpr
    ⟨fun hmem => lt_irrefl _ (h.lt_unused hmem), h.once⟩
  live other := by
    by_cases heq : other = s.unused
    · subst heq
      simp [NtySchedule.create]
    · rw [List.mem_cons, <- h.live other]
      simp [NtySchedule.create, NtySchedule.set, Function.update_of_ne, heq]
  unused other hle := by
    have hlt : s.unused < other := hle
    have hne : other ≠ s.unused := hlt.ne'
    rw [<- h.unused other hlt.le]
    simp [NtySchedule.create, NtySchedule.set, Function.update_of_ne, hne]
  counted := by
    simp [NtySchedule.create, h.counted]

end Allocated

/-- The coroutines that have not been started yet are in the ready queue, and
the others wait under the descriptor that they poll. -/
structure Placed {op : Type} {answer : op -> Type}
    (s : Scheduler τ op answer fault) (running : List Ptr) : Prop where
  allocated : Allocated s (s.places running)
  tree : SearchTree s.waiting
  awake : s.sleeping = .nil
  new : forall co, co ∈ s.ready -> exists c, s.coroutines co = some c ∧
    c.status = bit .new ∧ c.saved = none
  waits : forall fd co, (fd, co) ∈ s.waiting.toList ->
    exists c polling, s.coroutines co = some c ∧ c.fd = fd ∧
      c.saved = some polling ∧ polling.fd = fd
  registered : forall fd, fd ∈ s.registered ->
    fd = s.eventfd ∨ exists co, (fd, co) ∈ s.waiting.toList
  registeredOnce : s.registered.Nodup

/-!
## The operations
-/

def Runnable (status : Status) : Prop :=
  status = 0 ∨ status = bit .ready

/-- What `nty_schedule_sched_wait` makes of it. -/
def Direction.waitStatus (d : Direction) (status : Status) : Status :=
  match d with
  | .read => status ||| BitVec.ofNat 32 CoroutineStatus.waitRead.number
  | .write => status ||| BitVec.ofNat 32 CoroutineStatus.waitWrite.number

theorem Runnable.not_waiting {status : Status} (h : Runnable status) :
    ¬ (status.has .waitRead ∨ status.has .waitWrite) := by
  rcases h with rfl | rfl
  · decide
  · decide

theorem Runnable.not_exited {status : Status} (h : Runnable status)
    (d : Direction) : (d.waitStatus status).has .exited = false := by
  rcases h with rfl | rfl
  · cases d with
    | read => decide
    | write => decide
  · cases d with
    | read => decide
    | write => decide

variable {s : NtySchedule τ γ} {co : Ptr} {c : NtyCoroutine τ γ} {fd : Int}

theorem schedWait_eq (d : Direction) (hco : s.coroutines co = some c)
    (hrunnable : Runnable c.status) (now : Nat) :
    s.schedWait co fd d.events 1 now =
      (do
        match <- NtySchedule.ofTree (rbInsert (fd, co) s.waiting) with
        | (some _, _) => throw (.assertion .descriptor)
        | (none, waiting) =>
            return { s.set co { c with
              status := d.waitStatus c.status
              fd := fd
              events := d.events } with waiting := waiting } :
        Except (Crash fault) _) := by
  rw [NtySchedule.schedWait, NtySchedule.deref_of_some hco, ok_bind,
    if_neg hrunnable.not_waiting]
  cases d with
  | read =>
      have hin : Direction.read.events &&& POLLIN ≠ 0 := by decide
      rw [if_pos hin]
      rfl
  | write =>
      have hin : ¬ Direction.write.events &&& POLLIN ≠ 0 := by decide
      have hout : Direction.write.events &&& POLLOUT ≠ 0 := by decide
      rw [if_neg hin, if_pos hout]
      rfl

end

section

variable {τ op : Type} {answer : op -> Type} {fault σ : Type}
  {s : Scheduler τ op answer fault} {co : Ptr}
  {c : NtyCoroutine τ (Polling τ op answer fault)} {fd : Int}

theorem Placed.not_mem_of_running (h : Placed s [co]) :
    co ∉ s.ready ∧ co ∉ s.waiters := by
  have honce := h.allocated.once
  rw [NtySchedule.places, List.singleton_append, List.nodup_cons,
    List.mem_append, not_or] at honce
  exact honce.left

theorem mem_waiters_iff :
    co ∈ s.waiters <-> exists fd, (fd, co) ∈ s.waiting.toList := by
  rw [NtySchedule.waiters, List.mem_map]
  constructor
  · rintro ⟨⟨fd, co'⟩, hmem, rfl⟩
    exact ⟨fd, hmem⟩
  · rintro ⟨fd, hmem⟩
    exact ⟨(fd, co), hmem, rfl⟩

/-- A coroutine that has given way in `nty_poll_inner`. -/
def NtySchedule.suspended (s : Scheduler τ op answer fault) (co : Ptr)
    (c : NtyCoroutine τ (Polling τ op answer fault)) (fd : Int)
    (d : Direction) (registers : Bool) (rest : CoCode τ op answer fault)
    (waiting : RbTree (Int × Ptr)) : Scheduler τ op answer fault :=
  { s.set co { c with
      status := d.waitStatus c.status
      fd := fd
      events := d.events
      saved := some ⟨fd, rest⟩ } with
    registered := (s.register fd registers).registered
    waiting := waiting }

theorem suspended_coroutines_self (s : Scheduler τ op answer fault)
    (co : Ptr) (c : NtyCoroutine τ (Polling τ op answer fault)) (fd : Int)
    (d : Direction) (registers : Bool) (rest : CoCode τ op answer fault)
    (waiting : RbTree (Int × Ptr)) :
    (s.suspended co c fd d registers rest waiting).coroutines co = some { c with
      status := d.waitStatus c.status
      fd := fd
      events := d.events
      saved := some ⟨fd, rest⟩ } :=
  NtySchedule.set_coroutines_self s co _

theorem mem_register {registers : Bool} {fd' : Int}
    (h : fd' ∈ (s.register fd registers).registered) :
    fd' ∈ s.registered ∨ fd' = fd := by
  unfold NtySchedule.register at h
  split_ifs at h
  · exact (List.mem_cons.mp h).symm
  · exact Or.inl h

theorem register_nodup (h : s.registered.Nodup) (fd : Int) (registers : Bool) :
    (s.register fd registers).registered.Nodup := by
  unfold NtySchedule.register
  split_ifs with hadds
  · exact List.nodup_cons.mpr ⟨hadds.right, h⟩
  · exact h

theorem pollBegin_eq (d : Direction) (registers : Bool)
    (hco : s.coroutines co = some c) (hrunnable : Runnable c.status) :
    s.pollBegin co fd d.events registers 1 0 =
      (do
        match <- NtySchedule.ofTree (rbInsert (fd, co) s.waiting) with
        | (some _, _) => throw (.assertion .descriptor)
        | (none, waiting) =>
            return { s.set co { c with
              status := d.waitStatus c.status
              fd := fd
              events := d.events } with
              registered := (s.register fd registers).registered
              waiting := waiting } :
        Except (Crash fault) _) := by
  have hregister : s.register fd registers =
      { s with registered := (s.register fd registers).registered } := by
    unfold NtySchedule.register
    split_ifs
    · rfl
    · rfl
  have hco' : (s.register fd registers).coroutines co = some c := by
    rw [hregister]
    exact hco
  rw [NtySchedule.pollBegin]
  dsimp only
  rw [NtySchedule.deref_of_some hco', ok_bind,
    schedWait_eq (c := { c with events := d.events }) d
      (NtySchedule.set_coroutines_self _ _ _) hrunnable, hregister]
  simp [NtySchedule.set]

theorem runCoroutine_poll_free (kernel : Kernel op answer σ) (d : Direction)
    (next : Unit -> CoCode τ op answer fault) (w : σ)
    (hco : s.coroutines co = some c) (hrunnable : Runnable c.status)
    (htree : SearchTree s.waiting) (hfree : rbFind fd s.waiting = none) :
    exists t, runCoroutine kernel co (.ask (.poll fd d) next) s w =
        (match kernel.saveStack w with
        | (some which, _) => .error (.assertion which)
        | (none, w') => .ok (s.suspended co c fd d (kernel.registers fd w)
            (next ()) t, w')) ∧
      SearchTree t ∧ t.toList.Perm ((fd, co) :: s.waiting.toList) := by
  rcases rbInsert_new htree (fd, co) hfree with
    ⟨t, hinsert, hshape, hperm⟩
  refine ⟨t, ?_, hshape, hperm⟩
  rw [runCoroutine, pollBegin_eq d _ hco hrunnable, hinsert]
  simp only [NtySchedule.ofTree, ok_bind]
  rcases kernel.saveStack w with ⟨_ | which, w'⟩
  · simp [NtySchedule.deref, NtySchedule.suspended, NtySchedule.set]
  · rfl

theorem runCoroutine_poll_taken (kernel : Kernel op answer σ) (d : Direction)
    (next : Unit -> CoCode τ op answer fault) (w : σ) {x : Int × Ptr}
    (hco : s.coroutines co = some c) (hrunnable : Runnable c.status)
    (htree : SearchTree s.waiting) (htaken : rbFind fd s.waiting = some x) :
    runCoroutine kernel co (.ask (.poll fd d) next) s w =
      .error (.assertion .descriptor) := by
  rw [runCoroutine, pollBegin_eq d _ hco hrunnable,
    rbInsert_old htree (fd, co) htaken]
  rfl

theorem Placed.suspended (h : Placed s [co])
    (c : NtyCoroutine τ (Polling τ op answer fault)) (d : Direction)
    (registers : Bool) (rest : CoCode τ op answer fault)
    {t : RbTree (Int × Ptr)} (hfree : rbFind fd s.waiting = none)
    (htree : SearchTree t)
    (hperm : t.toList.Perm ((fd, co) :: s.waiting.toList)) :
    Placed (s.suspended co c fd d registers rest t) [] := by
  have hnot := h.not_mem_of_running
  have hfree' := (rbFind_eq_none_iff h.tree.ordered).mp hfree
  have hother (other : Ptr) (hne : other ≠ co) :
      (s.suspended co c fd d registers rest t).coroutines other =
        s.coroutines other :=
    NtySchedule.set_coroutines_of_ne s co _ hne
  have hmem : co ∈ s.places [co] := List.mem_cons_self
  constructor
  · have hplaces : (s.ready ++ t.toList.map Prod.snd).Perm (s.places [co]) := by
      have hwaiters := (hperm.map Prod.snd).append_left s.ready
      exact hwaiters.trans List.perm_middle
    have hset := (h.allocated.set hmem (c := { c with
      status := d.waitStatus c.status
      fd := fd
      events := d.events
      saved := some ⟨fd, rest⟩ })).perm hplaces
    exact ⟨hset.once, hset.live, hset.unused, hset.counted⟩
  · exact htree
  · exact h.awake
  · intro other hready
    rw [hother other (fun heq => hnot.left (heq ▸ hready))]
    exact h.new other hready
  · intro fd' other hwait
    rcases List.mem_cons.mp (hperm.mem_iff.mp hwait) with heq | hold
    · cases heq
      exact ⟨_, _, NtySchedule.set_coroutines_self s co _, rfl, rfl, rfl⟩
    · rw [hother other (fun heq => hnot.right
        (mem_waiters_iff.mpr ⟨fd', heq ▸ hold⟩))]
      exact h.waits fd' other hold
  · intro fd' hfd'
    rcases mem_register hfd' with hold | rfl
    · rcases h.registered fd' hold with heventfd | ⟨other, hother⟩
      · exact Or.inl heventfd
      · exact Or.inr
          ⟨other, hperm.mem_iff.mpr (List.mem_cons_of_mem _ hother)⟩
    · exact Or.inr ⟨co, hperm.mem_iff.mpr List.mem_cons_self⟩
  · exact register_nodup h.registeredOnce fd registers

def NtySchedule.awoken (s : Scheduler τ op answer fault) (co : Ptr)
    (c : NtyCoroutine τ (Polling τ op answer fault)) (fd : Int)
    (waiting : RbTree (Int × Ptr)) : Scheduler τ op answer fault :=
  { s.set co { c with status := 0 } with
    registered := s.registered.erase fd
    waiting := waiting }

theorem pollEnd_eq (hco : s.coroutines co = some c)
    (htree : SearchTree s.waiting) (hwaits : (fd, co) ∈ s.waiting.toList) :
    exists t, s.pollEnd fd = (.ok (s.awoken co c fd t) :
        Except (Crash fault) _) ∧
      SearchTree t ∧ s.waiting.toList.Perm ((fd, co) :: t.toList) := by
  have hfind : rbFind fd s.waiting = some (fd, co) :=
    (rbFind_eq_some_iff htree.ordered).mpr ⟨hwaits, rfl⟩
  rcases rbRemove_found htree hfind with ⟨t, hremove, hshape, hperm⟩
  refine ⟨t, ?_, hshape, hperm⟩
  simp only [NtySchedule.pollEnd, NtySchedule.deschedWait, hfind, hremove,
    NtySchedule.ofTree, ok_bind, NtySchedule.setStatus, NtySchedule.deref, hco,
    pure_bind, NtySchedule.deschedSleepdown]
  simp [NtySchedule.set, NtySchedule.awoken]
  rfl

theorem Placed.awoken (h : Placed s [])
    (c : NtyCoroutine τ (Polling τ op answer fault))
    (hwaits : (fd, co) ∈ s.waiting.toList) {t : RbTree (Int × Ptr)}
    (htree : SearchTree t)
    (hperm : s.waiting.toList.Perm ((fd, co) :: t.toList)) :
    Placed (s.awoken co c fd t) [co] := by
  have hrest (x : Int × Ptr) :
      x ∈ t.toList <-> x ∈ s.waiting.toList ∧ x.1 ≠ fd :=
    h.tree.ordered.mem_rest hperm x
  have hplaces : ([co] ++ (s.ready ++ t.toList.map Prod.snd)).Perm
      (s.places []) := by
    have hwaiters := ((hperm.map Prod.snd).append_left s.ready).symm
    have hmiddle : (s.ready ++ co :: t.toList.map Prod.snd).Perm
        (co :: (s.ready ++ t.toList.map Prod.snd)) :=
      List.perm_middle
    exact hmiddle.symm.trans hwaiters
  have hmem : co ∈ s.places [] :=
    hplaces.mem_iff.mp List.mem_cons_self
  have hset := (h.allocated.set hmem (c := { c with status := 0 })).perm hplaces
  have hnodup := hset.once
  rw [List.singleton_append, List.nodup_cons, List.mem_append,
    not_or] at hnodup
  have hother (other : Ptr) (hne : other ≠ co) :
      (s.awoken co c fd t).coroutines other = s.coroutines other :=
    NtySchedule.set_coroutines_of_ne s co _ hne
  constructor
  · exact ⟨hset.once, hset.live, hset.unused, hset.counted⟩
  · exact htree
  · exact h.awake
  · intro other hready
    rw [hother other (fun heq => hnodup.left.left (heq ▸ hready))]
    exact h.new other hready
  · intro fd' other hwait
    have hne : other ≠ co := by
      rintro rfl
      exact hnodup.left.right (List.mem_map.mpr ⟨_, hwait, rfl⟩)
    rw [hother other hne]
    exact h.waits fd' other ((hrest _).mp hwait).left
  · intro fd' hfd'
    rw [NtySchedule.awoken, h.registeredOnce.mem_erase_iff] at hfd'
    rcases h.registered fd' hfd'.right with heventfd | ⟨other, hold⟩
    · exact Or.inl heventfd
    · exact Or.inr ⟨other, (hrest _).mpr ⟨hold, hfd'.left⟩⟩
  · exact h.registeredOnce.erase fd

theorem Placed.create {running : List Ptr} (h : Placed s running) (task : τ)
    (allocated : Bool) : Placed (s.create task allocated).2 running := by
  cases allocated with
  | false => exact h
  | true =>
      have hplaces : (running ++ ((s.ready ++ [s.unused]) ++ s.waiters)).Perm
          (s.unused :: s.places running) := by
        rw [NtySchedule.places, List.append_assoc, <- List.append_assoc running,
          <- List.append_assoc running]
        exact List.perm_middle
      have hallocated := (h.allocated.create task).perm hplaces
      have hold (other : Ptr) (hmem : other ∈ s.places running) :
          (s.create task true).2.coroutines other = s.coroutines other :=
        h.allocated.create_of_mem hmem task true
      constructor
      · exact ⟨hallocated.once, hallocated.live, hallocated.unused,
          hallocated.counted⟩
      · exact h.tree
      · exact h.awake
      · intro other hready
        rcases List.mem_append.mp hready with hready | hnew
        · rw [hold other (List.mem_append_right _
            (List.mem_append_left _ hready))]
          exact h.new other hready
        · rw [List.mem_singleton.mp hnew]
          exact ⟨_, NtySchedule.set_coroutines_self s _ _, rfl, rfl⟩
      · intro fd other hwait
        rw [hold other (List.mem_append_right _
          (List.mem_append_right _ (mem_waiters_iff.mpr ⟨fd, hwait⟩)))]
        exact h.waits fd other hwait
      · exact h.registered
      · exact h.registeredOnce

theorem Placed.pop {rest : List Ptr} (h : Placed s [])
    (hready : s.ready = co :: rest) :
    Placed { s with ready := rest } [co] := by
  have hplaces : s.places [] = [co] ++ (rest ++ s.waiters) := by
    rw [NtySchedule.places, hready]
    rfl
  have hallocated := h.allocated
  rw [hplaces] at hallocated
  constructor
  · exact ⟨hallocated.once, hallocated.live, hallocated.unused,
      hallocated.counted⟩
  · exact h.tree
  · exact h.awake
  · intro other hmem
    exact h.new other (hready ▸ List.mem_cons_of_mem co hmem)
  · exact h.waits
  · exact h.registered
  · exact h.registeredOnce

theorem Placed.set_running (h : Placed s [co])
    (c : NtyCoroutine τ (Polling τ op answer fault)) :
    Placed (s.set co c) [co] := by
  have hnot := h.not_mem_of_running
  have hmem : co ∈ s.places [co] := List.mem_cons_self
  constructor
  · exact h.allocated.set hmem
  · exact h.tree
  · exact h.awake
  · intro other hready
    have hne : other ≠ co := fun heq => hnot.left (heq ▸ hready)
    rw [NtySchedule.set_coroutines_of_ne _ _ _ hne]
    exact h.new other hready
  · intro fd other hwait
    have hne : other ≠ co :=
      fun heq => hnot.right (mem_waiters_iff.mpr ⟨fd, heq ▸ hwait⟩)
    rw [NtySchedule.set_coroutines_of_ne _ _ _ hne]
    exact h.waits fd other hwait
  · exact h.registered
  · exact h.registeredOnce

theorem Placed.free (h : Placed s [co]) :
    exists s', s.free co = (.ok s' : Except (Crash fault) _) ∧
      s'.ready = s.ready ∧ s'.waiting = s.waiting ∧
      s'.registered = s.registered ∧ s'.eventfd = s.eventfd ∧
      s'.defaultTimeout = s.defaultTimeout ∧ Placed s' [] ∧
      forall other, other ≠ co -> s'.coroutines other = s.coroutines other := by
  have hnot := h.not_mem_of_running
  have hplaces : s.places [co] = co :: s.places [] := rfl
  have honce := h.allocated.once
  rw [hplaces, List.nodup_cons] at honce
  rcases h.allocated.exists_some (List.mem_cons_self : co ∈ s.places [co]) with
    ⟨c, hc⟩
  have hother (other : Ptr) (hne : other ≠ co) :
      Function.update s.coroutines co none other = s.coroutines other :=
    Function.update_of_ne hne _ _
  refine ⟨{ s with
    coroutines := Function.update s.coroutines co none
    spawnedCoroutines := s.spawnedCoroutines - 1 }, ?_, rfl, rfl, rfl, rfl, rfl,
    ?_, hother⟩
  · rw [NtySchedule.free, NtySchedule.deref_of_some hc, ok_bind]
    rfl
  · constructor
    · constructor
      · exact honce.right
      · intro other
        by_cases heq : other = co
        · subst heq
          simp only [Function.update_self, Option.isSome_none]
          constructor
          · intro hfalse
            cases hfalse
          · intro hmem
            exact absurd hmem honce.left
        · simp only [hother other heq]
          rw [h.allocated.live, hplaces, List.mem_cons]
          exact or_iff_right heq
      · intro other hle
        by_cases heq : other = co
        · subst heq
          exact Function.update_self _ _ _
        · simp only [hother other heq]
          exact h.allocated.unused other hle
      · have hcounted := h.allocated.counted
        rw [hplaces, List.length_cons, Int.natCast_succ] at hcounted
        exact Int.sub_eq_iff_eq_add.mpr hcounted
    · exact h.tree
    · exact h.awake
    · intro other hready
      simp only [hother other (fun heq => hnot.left (heq ▸ hready))]
      exact h.new other hready
    · intro fd other hwait
      simp only [hother other (fun heq => hnot.right
        (mem_waiters_iff.mpr ⟨fd, heq ▸ hwait⟩))]
      exact h.waits fd other hwait
    · exact h.registered
    · exact h.registeredOnce

end

end NtyCo
end Z2wRpc
