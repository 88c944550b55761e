import Z2wRpc.NtyCo.Bursts
import Z2wRpc.NtyCo.Placement

/-!
# What a turn of a coroutine does

A coroutine that is resumed ends up waiting or is freed.  It may have created
others, which are at the end of the ready queue, and it touches none of the
coroutines that were there before.  The process ends only as the code of the
coroutine says.
-/

namespace Z2wRpc
namespace NtyCo

open Foundation RedBlack

variable {τ op : Type} {answer : op -> Type} {fault σ : Type}
  {s s' s'' : Scheduler τ op answer fault} {co : Ptr} {running : List Ptr}

structure Untouched (co : Ptr) (s s' : Scheduler τ op answer fault) : Prop where
  ready : s.ready <+: s'.ready
  kept : forall x, x ∈ s.waiting.toList -> x.2 ≠ co -> x ∈ s'.waiting.toList
  added : forall x, x ∈ s'.waiting.toList -> x ∈ s.waiting.toList ∨ x.2 = co
  others : forall other, other ≠ co -> (s.coroutines other).isSome ->
    s'.coroutines other = s.coroutines other
  -- it registers nothing for which another coroutine waits
  registered : forall fd, fd ∈ s'.registered -> fd ∈ s.registered ∨
    forall other, (fd, other) ∈ s.waiting.toList -> other = co
  eventfd : s'.eventfd = s.eventfd
  timeout : s'.defaultTimeout = s.defaultTimeout

theorem untouched_refl (co : Ptr) (s : Scheduler τ op answer fault) :
    Untouched co s s where
  ready := List.prefix_rfl
  kept _ hx _ := hx
  added _ hx := Or.inl hx
  others _ _ _ := rfl
  registered _ hfd := Or.inl hfd
  eventfd := rfl
  timeout := rfl

theorem Untouched.trans (h : Untouched co s s') (h' : Untouched co s' s'') :
    Untouched co s s'' where
  ready := h.ready.trans h'.ready
  kept x hx hne := h'.kept x (h.kept x hx hne) hne
  added x hx := by
    rcases h'.added x hx with hold | hown
    · exact h.added x hold
    · exact Or.inr hown
  others other hne hsome := by
    have hsame := h.others other hne hsome
    rw [h'.others other hne (hsame ▸ hsome), hsame]
  registered fd hfd := by
    rcases h'.registered fd hfd with hold | hown
    · exact h.registered fd hold
    · right
      intro other hwaits
      by_contra hne
      exact hne (hown other (h.kept _ hwaits hne))
  eventfd := h'.eventfd.trans h.eventfd
  timeout := h'.timeout.trans h.timeout

theorem untouched_set (co : Ptr) (s : Scheduler τ op answer fault)
    (c : NtyCoroutine τ (Polling τ op answer fault)) :
    Untouched co s (s.set co c) where
  ready := List.prefix_rfl
  kept _ hx _ := hx
  added _ hx := Or.inl hx
  others _ hne _ := NtySchedule.set_coroutines_of_ne _ _ _ hne
  registered _ hfd := Or.inl hfd
  eventfd := rfl
  timeout := rfl

theorem untouched_create (h : Placed s running) (co : Ptr) (task : τ)
    (allocated : Bool) : Untouched co s (s.create task allocated).2 := by
  cases allocated with
  | false => exact untouched_refl co s
  | true =>
      exact {
        ready := List.prefix_append _ _
        kept := fun _ hx _ => hx
        added := fun _ hx => Or.inl hx
        others := fun other _ hsome =>
          h.allocated.create_of_mem ((h.allocated.live other).mp hsome) task
            true
        registered := fun _ hfd => Or.inl hfd
        eventfd := rfl
        timeout := rfl }

theorem untouched_suspended {fd : Int}
    {c : NtyCoroutine τ (Polling τ op answer fault)} {d : Direction}
    {registers : Bool} {rest : CoCode τ op answer fault}
    {t : RbTree (Int × Ptr)} (hfree : rbFind fd s.waiting = none)
    (htree : SearchTree s.waiting)
    (hperm : t.toList.Perm ((fd, co) :: s.waiting.toList)) :
    Untouched co s (s.suspended co c fd d registers rest t) where
  ready := List.prefix_rfl
  kept x hx _ := hperm.mem_iff.mpr (List.mem_cons_of_mem _ hx)
  added x hx := by
    rcases List.mem_cons.mp (hperm.mem_iff.mp hx) with rfl | hold
    · exact Or.inr rfl
    · exact Or.inl hold
  others other hne _ := NtySchedule.set_coroutines_of_ne s co _ hne
  registered fd' hfd' := by
    rcases mem_register hfd' with hold | rfl
    · exact Or.inl hold
    · right
      intro other hwaits
      exact absurd rfl ((rbFind_eq_none_iff htree.ordered).mp hfree _ hwaits)
  eventfd := rfl
  timeout := rfl

def Yields (co : Ptr) (s : Scheduler τ op answer fault)
    (fails : Crash fault -> Prop) :
    Except (Crash fault) (Scheduler τ op answer fault × σ) -> Prop
  | .error crash => fails crash
  | .ok (s', _) => Untouched co s s' ∧
      exists c, s'.coroutines co = some c ∧
        ((Placed s' [] ∧ c.status.has .exited = false) ∨
          (Placed s' [co] ∧ c.status.has .exited ∧ c.status.has .detach))

def Returns (co : Ptr) (s : Scheduler τ op answer fault)
    (fails : Crash fault -> Prop) :
    Except (Crash fault) (Scheduler τ op answer fault × σ) -> Prop
  | .error crash => fails crash
  | .ok (s', _) => Untouched co s s' ∧ Placed s' []

variable {fails : Crash fault -> Prop}

theorem Yields.of_untouched
    {r : Except (Crash fault) (Scheduler τ op answer fault × σ)}
    (h : Yields co s' fails r) (hsame : Untouched co s s') :
    Yields co s fails r := by
  cases r with
  | error crash => exact h
  | ok out => exact ⟨hsame.trans h.left, h.right⟩

theorem Returns.of_untouched
    {r : Except (Crash fault) (Scheduler τ op answer fault × σ)}
    (h : Returns co s' fails r) (hsame : Untouched co s s') :
    Returns co s fails r := by
  cases r with
  | error crash => exact h
  | ok out => exact ⟨hsame.trans h.left, h.right⟩

theorem exitStatus_has (status : Status) :
    (status ||| (bit .exited ||| bit .fdeof ||| bit .detach)).has .exited ∧
      (status ||| (bit .exited ||| bit .fdeof ||| bit .detach)).has
        .detach := by
  constructor
  · rw [Status.has, bne_iff_ne]
    intro hzero
    have hbit := congrArg (fun v => BitVec.getLsbD v 4) hzero
    simp [bit, CoroutineStatus.number] at hbit
  · rw [Status.has, bne_iff_ne]
    intro hzero
    have hbit := congrArg (fun v => BitVec.getLsbD v 9) hzero
    simp [bit, CoroutineStatus.number] at hbit

theorem Placed.waitsBeside_iff (h : Placed s [co]) {fd : Int} :
    s.WaitsBeside co fd <-> (rbFind fd s.waiting).isSome := by
  rw [Option.isSome_iff_exists]
  constructor
  · rintro ⟨other, _, hwaits⟩
    exact ⟨_, (rbFind_eq_some_iff h.tree.ordered).mpr ⟨hwaits, rfl⟩⟩
  · rintro ⟨⟨fd', other⟩, hfind⟩
    rcases (rbFind_eq_some_iff h.tree.ordered).mp hfind with ⟨hwaits, rfl⟩
    refine ⟨other, ?_, hwaits⟩
    rintro rfl
    exact h.not_mem_of_running.right (mem_waiters_iff.mpr ⟨fd', hwaits⟩)

theorem runCoroutine_yields (kernel : Kernel op answer σ)
    (p : CoCode τ op answer fault) (w : σ) (h : Placed s [co])
    {c : NtyCoroutine τ (Polling τ op answer fault)}
    (hc : s.coroutines co = some c) (hstatus : Runnable c.status) :
    Yields co s ((burst kernel p w).stop.Fails (s.WaitsBeside co))
      (runCoroutine kernel co p s w) := by
  induction p generalizing s w with
  | done a =>
      rw [runCoroutine, NtySchedule.deref_of_some hc, ok_bind,
        NtySchedule.setStatus, NtySchedule.deref_of_some hc]
      refine ⟨untouched_set co s _, _, NtySchedule.set_coroutines_self _ _ _,
        Or.inr ⟨h.set_running _, exitStatus_has c.status⟩⟩
  | abort e => exact .fault e
  | ask o next ih =>
      cases o with
      | poll fd d =>
          cases hfind : rbFind fd s.waiting with
          | none =>
              rcases runCoroutine_poll_free kernel d next w hc hstatus h.tree
                hfind with ⟨t, hrun, htree, hperm⟩
              have hfree : ¬ s.WaitsBeside co fd := by
                rw [h.waitsBeside_iff, hfind]
                exact Bool.false_ne_true
              rw [hrun, burst]
              rcases kernel.saveStack w with ⟨_ | which, w'⟩
              · refine ⟨untouched_suspended hfind h.tree hperm, _,
                  NtySchedule.set_coroutines_self s co _, ?_⟩
                exact Or.inl ⟨h.suspended c d _ _ hfind htree hperm,
                  hstatus.not_exited d⟩
              · exact .stack hfree
          | some x =>
              rw [runCoroutine_poll_taken kernel d next w hc hstatus h.tree
                hfind]
              exact .descriptor (h.waitsBeside_iff.mpr (by rw [hfind]; rfl))
      | create task =>
          rw [runCoroutine, burst]
          rcases kernel.allocates w with ⟨allocated, w'⟩
          have hcreated := h.create task allocated
          have hsame := untouched_create h co task allocated
          have hc' : (s.create task allocated).2.coroutines co = some c := by
            rw [h.allocated.create_of_mem List.mem_cons_self, hc]
          cases allocated with
          | true => exact (ih 0 w' hcreated hc').of_untouched hsame
          | false => exact (ih (-2) w' hcreated hc').of_untouched hsame
      | other o => exact ih _ _ h hc

/-!
## Resuming
-/

theorem Returns.imp {fails' : Crash fault -> Prop}
    {r : Except (Crash fault) (Scheduler τ op answer fault × σ)}
    (h : Returns co s fails r) (himp : forall crash, fails crash -> fails' crash) :
    Returns co s fails' r := by
  cases r with
  | error crash => exact himp crash h
  | ok out => exact h

theorem waitsBeside_awoken {c : NtyCoroutine τ (Polling τ op answer fault)}
    {fd : Int} {t : RbTree (Int × Ptr)}
    (hperm : s.waiting.toList.Perm ((fd, co) :: t.toList)) :
    (s.awoken co c fd t).WaitsBeside co = s.WaitsBeside co := by
  funext fd'
  apply propext
  apply exists_congr
  intro other
  apply and_congr_right
  intro hne
  rw [hperm.mem_iff, List.mem_cons, or_iff_right]
  · rfl
  · rintro heq
    cases heq
    exact hne rfl

theorem Yields.returns
    {r : Except (Crash fault) (Scheduler τ op answer fault × σ)}
    (h : Yields co s fails r) :
    Returns co s fails (r >>= fun (out : Scheduler τ op answer fault × σ) =>
      afterSwitch co out.1 out.2) := by
  cases r with
  | error crash => exact h
  | ok out =>
      rcases h with ⟨hsame, c, hc, ⟨hplaced, hexited⟩ | ⟨hplaced, hended⟩⟩
      · rw [ok_bind, afterSwitch, NtySchedule.deref_of_some hc, ok_bind,
          if_neg (by simp [hexited])]
        exact ⟨hsame, hplaced⟩
      · rcases hplaced.free with
          ⟨s', hfree, hready, hwaiting, hregistered, heventfd, htimeout,
            hplaced', hothers⟩
        rw [ok_bind, afterSwitch, NtySchedule.deref_of_some hc, ok_bind,
          if_pos hended, hfree]
        refine ⟨hsame.trans ?_, hplaced'⟩
        exact {
          ready := hready ▸ List.prefix_rfl
          kept := fun x hx _ => hwaiting ▸ hx
          added := fun x hx => Or.inl (hwaiting ▸ hx)
          others := fun other hne _ => hothers other hne
          registered := fun fd hfd => Or.inl (hregistered ▸ hfd)
          eventfd := heventfd
          timeout := htimeout }

theorem coroutineResume_ready (kernel : Kernel op answer σ)
    (code : τ -> CoCode τ op answer fault) (w : σ) (h : Placed s [co])
    {c : NtyCoroutine τ (Polling τ op answer fault)}
    (hc : s.coroutines co = some c) (hnew : c.status = bit .new)
    (hsaved : c.saved = none) :
    Returns co s (s.TurnFails kernel code co w)
      (coroutineResume kernel code co s w) := by
  have hleft : (c.left code).2 = code c.task := by
    rw [NtyCoroutine.left, hsaved]
    rfl
  have hbit : c.status.has .new = true := by
    rw [hnew]
    decide
  have hrun := runCoroutine_yields kernel (code c.task) w
    (h.set_running { c with status := bit .ready })
    (NtySchedule.set_coroutines_self _ _ _) (Or.inr rfl)
  rw [coroutineResume, NtySchedule.deref_of_some hc, ok_bind, if_pos hbit]
  exact (hrun.of_untouched (untouched_set co s _)).returns.imp
    fun crash hfails => ⟨c, hc, hleft ▸ hfails⟩

theorem coroutineResume_waiting (kernel : Kernel op answer σ)
    (code : τ -> CoCode τ op answer fault) (w : σ) (h : Placed s [])
    {fd : Int} {c : NtyCoroutine τ (Polling τ op answer fault)}
    (hwaits : (fd, co) ∈ s.waiting.toList)
    (hc : s.coroutines co = some c) (hnew : c.status.has .new = false) :
    Returns co s (s.TurnFails kernel code co w)
      (coroutineResume kernel code co s w) := by
  rcases h.waits fd co hwaits with ⟨c', polling, hc', _, hsaved, rfl⟩
  rw [hc] at hc'
  cases hc'
  rcases pollEnd_eq hc h.tree hwaits with
    ⟨t, hend, htree, hperm⟩
  have hrun := runCoroutine_yields kernel polling.rest w
    (h.awoken c hwaits htree hperm)
    (NtySchedule.set_coroutines_self s co _) (Or.inl rfl)
  have hsame : Untouched co s (s.awoken co c polling.fd t) := {
    ready := List.prefix_rfl
    kept := fun x hx hne => by
      rcases List.mem_cons.mp (hperm.mem_iff.mp hx) with rfl | hrest
      · exact absurd rfl hne
      · exact hrest
    added := fun x hx =>
      Or.inl (hperm.mem_iff.mpr (List.mem_cons_of_mem _ hx))
    others := fun other hne _ => NtySchedule.set_coroutines_of_ne s co _ hne
    registered := fun _ hfd => Or.inl (List.mem_of_mem_erase hfd)
    eventfd := rfl
    timeout := rfl }
  have hleft : (c.left code).2 = polling.rest := by
    rw [NtyCoroutine.left, hsaved]
    rfl
  rw [coroutineResume, NtySchedule.deref_of_some hc, ok_bind,
    if_neg (by simp [hnew])]
  simp only [hsaved, hend, ok_bind]
  refine (hrun.of_untouched hsame).returns.imp fun crash hfails => ?_
  rw [waitsBeside_awoken hperm, <- hleft] at hfails
  exact ⟨c, hc, hfails⟩

end NtyCo
end Z2wRpc
