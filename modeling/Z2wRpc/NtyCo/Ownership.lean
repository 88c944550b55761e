import Mathlib.Data.Set.Basic
import Z2wRpc.NtyCo.TaskPool

/-!
# Resources that belong to one coroutine

A coroutine that uses only what it has acquired or was created with, and gives
each resource away at most once, shares none of them with another coroutine.
Then what the kernel has exchanged on a resource is what one coroutine has said
on it, in the order of that coroutine, whatever the others do.
-/

namespace Z2wRpc
namespace NtyCo

open Foundation Program

structure Effects (τ op : Type) (answer : op -> Type) (ρ : Type) where
  -- what a coroutine is created with
  given : τ -> Option ρ
  -- what the exchange is recorded for
  touches : op -> Option ρ
  acquires : (o : op) -> answer o -> Option ρ
  releases : op -> Option ρ

variable {τ op ρ : Type} {answer : op -> Type} {fault σ : Type}

section

variable (effects : Effects τ op answer ρ)

/-- What a coroutine holds after a call; what it was created with it does not get
back. -/
def Effects.after (own : Option ρ) (o : op) (a : answer o) (held : Set ρ) :
    Set ρ :=
  {r | (effects.acquires o a = some r ∧ own ≠ some r) ∨
    (r ∈ held ∧ effects.releases o ≠ some r)}

def Effects.handOver (task : τ) (held : Set ρ) : Set ρ :=
  {r | r ∈ held ∧ effects.given task ≠ some r}

inductive Careful (own : Option ρ) :
    Set ρ -> CoCode τ op answer fault -> Prop where
  | done {held : Set ρ} (a : Unit) : Careful own held (.done a)
  | abort {held : Set ρ} (e : fault) : Careful own held (.abort e)
  | poll {held : Set ρ} {fd : Int} {direction : Direction}
      {next : Unit -> CoCode τ op answer fault}
      (rest : Careful own held (next ())) :
      Careful own held (.ask (.poll fd direction) next)
  | create {held : Set ρ} {task : τ} {next : Int -> CoCode τ op answer fault}
      (given : forall r, effects.given task = some r -> r ∈ held ∧ own ≠ some r)
      (rest : forall ret, Careful own (effects.handOver task held) (next ret)) :
      Careful own held (.ask (.create task) next)
  | other {held : Set ρ} {o : op} {next : answer o -> CoCode τ op answer fault}
      (touches : forall r, effects.touches o = some r -> r ∈ held ∧ own = some r)
      (releases : forall r, effects.releases o = some r -> r ∈ held)
      (rest : forall a, Careful own (effects.after own o a held) (next a)) :
      Careful own held (.ask (.other o) next)

abbrev Records (answer : op -> Type) (ρ : Type) : Type :=
  ρ -> List (Exchange answer)

variable [DecidableEq ρ]

def Effects.record (o : op) (a : answer o) (records : Records answer ρ) :
    Records answer ρ :=
  fun r =>
    if effects.acquires o a = some r then []
    else if effects.touches o = some r then records r ++ [⟨o, a⟩]
    else records r

def Effects.concerning (r : ρ) :
    List (CoExchange τ answer) -> List (Exchange answer)
  | [] => []
  | ⟨.other o, a⟩ :: past =>
      if effects.touches o = some r then ⟨o, a⟩ :: Effects.concerning r past
      else Effects.concerning r past
  | ⟨.poll .., _⟩ :: past => Effects.concerning r past
  | ⟨.create _, _⟩ :: past => Effects.concerning r past

theorem concerning_append (r : ρ) (past later : List (CoExchange τ answer)) :
    effects.concerning r (past ++ later) =
      effects.concerning r past ++ effects.concerning r later := by
  induction past with
  | nil => rfl
  | cons x past ih =>
      rcases x with ⟨call, a⟩
      cases call with
      | other o =>
          rw [List.cons_append, Effects.concerning, Effects.concerning, ih]
          split_ifs
          · rfl
          · rfl
      | poll fd d => exact ih
      | create task => exact ih

def Kernel.recording (kernel : Kernel op answer σ) :
    Kernel op answer (σ × Records answer ρ) where
  call o w := ((kernel.call o w.1).1,
    ((kernel.call o w.1).2, effects.record o (kernel.call o w.1).1 w.2))
  allocates w := ((kernel.allocates w.1).1, ((kernel.allocates w.1).2, w.2))
  usecNow w := ((kernel.usecNow w.1).1, ((kernel.usecNow w.1).2, w.2))
  registers fd w := kernel.registers fd w.1
  stackFits w := kernel.stackFits w.1
  reallocates w :=
    ((kernel.reallocates w.1).1, ((kernel.reallocates w.1).2, w.2))
  eventfd := kernel.eventfd
  epollWait fds milliseconds w :=
    ((kernel.epollWait fds milliseconds w.1).1,
      ((kernel.epollWait fds milliseconds w.1).2, w.2))
  reported fds milliseconds w := kernel.reported fds milliseconds w.1
  reportedOnce fds milliseconds w := kernel.reportedOnce fds milliseconds w.1

structure Lawful (kernel : Kernel op answer σ) (good : σ -> Prop)
    (opens : σ -> Set ρ) (Fine : Exchange answer -> Prop) : Prop where
  call : forall o w, good w ->
    good (kernel.call o w).2 ∧ Fine ⟨o, (kernel.call o w).1⟩
  -- what is acquired was not open
  fresh : forall o w r, good w ->
    effects.acquires o (kernel.call o w).1 = some r ->
      r ∉ opens w ∧ r ∈ opens (kernel.call o w).2
  -- and stays open until it is released
  keeps : forall o w r, good w -> r ∈ opens w ->
    effects.releases o ≠ some r -> r ∈ opens (kernel.call o w).2
  allocates : forall w, good w -> good (kernel.allocates w).2 ∧
    opens (kernel.allocates w).2 = opens w
  usecNow : forall w, good w -> good (kernel.usecNow w).2 ∧
    opens (kernel.usecNow w).2 = opens w
  reallocates : forall w, good w -> good (kernel.reallocates w).2 ∧
    opens (kernel.reallocates w).2 = opens w
  epollWait : forall fds milliseconds w, good w ->
    good (kernel.epollWait fds milliseconds w).2 ∧
      opens (kernel.epollWait fds milliseconds w).2 = opens w

def AllFine (Fine : Exchange answer -> Prop)
    (past : List (CoExchange τ answer)) : Prop :=
  forall o a, (⟨.other o, a⟩ : CoExchange τ answer) ∈ past -> Fine ⟨o, a⟩

theorem AllFine.head {Fine : Exchange answer -> Prop} {o : op} {a : answer o}
    {past : List (CoExchange τ answer)}
    (h : AllFine Fine (⟨.other o, a⟩ :: past)) : Fine ⟨o, a⟩ :=
  h o a List.mem_cons_self

theorem AllFine.tail {Fine : Exchange answer -> Prop} {x : CoExchange τ answer}
    {past : List (CoExchange τ answer)} (h : AllFine Fine (x :: past)) :
    AllFine Fine past :=
  fun o a hx => h o a (List.mem_cons_of_mem _ hx)

end

/-!
## A turn
-/

section

variable [DecidableEq ρ] (effects : Effects τ op answer ρ)
  {kernel : Kernel op answer σ} {good : σ -> Prop} {opens : σ -> Set ρ}
  {Fine : Exchange answer -> Prop} {own : Option ρ}
  {held held' held'' : Set ρ} {w w' w'' : σ × Records answer ρ}
  {calls calls' : List (CoExchange τ answer)} {created created' : List τ}

structure Turned (good : σ -> Prop) (opens : σ -> Set ρ)
    (Fine : Exchange answer -> Prop) (own : Option ρ) (held : Set ρ)
    (w : σ × Records answer ρ) (calls : List (CoExchange τ answer))
    (created : List τ) (held' : Set ρ) (w' : σ × Records answer ρ) : Prop where
  isGood : good w'.1
  fine : AllFine Fine calls
  isOpen : forall r, r ∈ held' -> r ∈ opens w'.1
  -- what others hold is not touched
  others : forall r, r ∈ opens w.1 -> r ∉ held ->
    r ∈ opens w'.1 ∧ r ∉ held' ∧ w'.2 r = w.2 r
  kept : forall r, own = some r -> r ∈ held' ->
    r ∈ held ∧ w'.2 r = w.2 r ++ effects.concerning r calls
  past : forall r, w'.2 r = [] ∨
    (w'.2 r = w.2 r ++ effects.concerning r calls ∧
      (effects.concerning r calls ≠ [] -> own = some r ∧ r ∈ held))
  fresh : forall r, r ∈ held' -> own ≠ some r ->
    (r ∈ held -> w.2 r = []) -> w'.2 r = []
  given : forall t, t ∈ created -> forall r, effects.given t = some r ->
    own ≠ some r ∧ r ∈ opens w'.1 ∧ r ∉ held' ∧ (r ∈ opens w.1 -> r ∈ held) ∧
      ((r ∈ held -> w.2 r = []) -> w'.2 r = [])
  distinct : created.Pairwise fun t t' => forall r,
    effects.given t = some r -> effects.given t' ≠ some r

variable {effects}

theorem turned_nil (hgood : good w.1)
    (hopen : forall r, r ∈ held -> r ∈ opens w.1) :
    Turned effects good opens Fine own held w [] [] held w where
  isGood := hgood
  fine _ _ hx := by cases hx
  isOpen := hopen
  others _ hr hnot := ⟨hr, hnot, rfl⟩
  kept _ _ hr := ⟨hr, (List.append_nil _).symm⟩
  past _ := Or.inr ⟨(List.append_nil _).symm, fun h => absurd rfl h⟩
  fresh _ hr _ hempty := hempty hr
  given _ ht := by cases ht
  distinct := .nil

theorem Turned.trans
    (h : Turned effects good opens Fine own held w calls created held' w')
    (h' : Turned effects good opens Fine own held' w' calls' created' held''
      w'') :
    Turned effects good opens Fine own held w (calls ++ calls')
      (created ++ created') held'' w'' := by
  constructor
  · exact h'.isGood
  · intro o a hx
    rcases List.mem_append.mp hx with hx | hx
    · exact h.fine o a hx
    · exact h'.fine o a hx
  · exact h'.isOpen
  · intro r hr hnot
    rcases h.others r hr hnot with ⟨hr', hnot', hsame⟩
    rcases h'.others r hr' hnot' with ⟨hr'', hnot'', hsame'⟩
    exact ⟨hr'', hnot'', hsame'.trans hsame⟩
  · intro r hown hr
    rcases h'.kept r hown hr with ⟨hr', hrecord'⟩
    rcases h.kept r hown hr' with ⟨hr'', hrecord⟩
    rw [concerning_append, <- List.append_assoc, <- hrecord]
    exact ⟨hr'', hrecord'⟩
  · intro r
    rw [concerning_append]
    rcases h'.past r with hnil | ⟨hrecord', hown'⟩
    · exact Or.inl hnil
    · by_cases hnone : effects.concerning r calls' = []
      · rw [hnone, List.append_nil] at hrecord'
        rw [hrecord', hnone, List.append_nil]
        exact h.past r
      · rcases hown' hnone with ⟨hown, hr⟩
        rcases h.kept r hown hr with ⟨hr', hrecord⟩
        right
        rw [hrecord', hrecord, List.append_assoc]
        exact ⟨rfl, fun _ => ⟨hown, hr'⟩⟩
  · intro r hr hne hempty
    exact h'.fresh r hr hne fun hr' => h.fresh r hr' hne hempty
  · intro t ht r hgiven
    rcases List.mem_append.mp ht with ht | ht
    · rcases h.given t ht r hgiven with ⟨hne, hopen, hnot, hheld, hempty⟩
      rcases h'.others r hopen hnot with ⟨hopen', hnot', hsame⟩
      refine ⟨hne, hopen', hnot', hheld, fun hnone => ?_⟩
      rw [hsame]
      exact hempty hnone
    · rcases h'.given t ht r hgiven with ⟨hne, hopen, hnot, hheld, hempty⟩
      refine ⟨hne, hopen, hnot, fun hr => ?_, fun hnone => ?_⟩
      · by_contra hnot'
        rcases h.others r hr hnot' with ⟨hr', hnot'', _⟩
        exact hnot'' (hheld hr')
      · exact hempty fun hr => h.fresh r hr hne hnone
  · rw [List.pairwise_append]
    refine ⟨h.distinct, h'.distinct, fun t ht t' ht' r hgiven hgiven' => ?_⟩
    rcases h.given t ht r hgiven with ⟨_, hopen, hnot, _⟩
    exact hnot ((h'.given t' ht' r hgiven').right.right.right.left hopen)

theorem Lawful.turned_other (laws : Lawful effects kernel good opens Fine)
    {o : op} (hgood : good w.1) (hopen : forall r, r ∈ held -> r ∈ opens w.1)
    (htouches : forall r, effects.touches o = some r -> r ∈ held ∧ own = some r)
    (hreleases : forall r, effects.releases o = some r -> r ∈ held) :
    Turned effects good opens Fine own held w
      [⟨.other o, (kernel.call o w.1).1⟩] []
      (effects.after own o (kernel.call o w.1).1 held)
      ((kernel.recording effects).call o w).2 := by
  have hfresh := fun r => laws.fresh o w.1 r hgood
  have hkeeps := fun r => laws.keeps o w.1 r hgood
  have hconcerning (r : ρ) : effects.concerning r
      [(⟨.other o, (kernel.call o w.1).1⟩ : CoExchange τ answer)] =
      if effects.touches o = some r then [⟨o, (kernel.call o w.1).1⟩]
      else [] := rfl
  -- what a resource has recorded that has not been acquired now
  have hrecord (r : ρ)
      (hnot : effects.acquires o (kernel.call o w.1).1 ≠ some r) :
      ((kernel.recording effects).call o w).2.2 r = w.2 r ++
        effects.concerning r
          [(⟨.other o, (kernel.call o w.1).1⟩ : CoExchange τ answer)] := by
    rw [hconcerning]
    simp only [Kernel.recording, Effects.record, if_neg hnot]
    split_ifs
    · rfl
    · exact (List.append_nil _).symm
  constructor
  · exact (laws.call o w.1 hgood).left
  · intro o' a hx
    cases List.mem_singleton.mp hx
    exact (laws.call o w.1 hgood).right
  · rintro r (⟨hacquires, _⟩ | ⟨hr, hnot⟩)
    · exact (hfresh r hacquires).right
    · exact hkeeps r (hopen r hr) hnot
  · intro r hr hnot
    have hacquires : effects.acquires o (kernel.call o w.1).1 ≠ some r :=
      fun h => (hfresh r h).left hr
    have htouch : effects.touches o ≠ some r :=
      fun h => hnot (htouches r h).left
    refine ⟨hkeeps r hr fun h => hnot (hreleases r h), ?_, ?_⟩
    · rintro (⟨h, _⟩ | ⟨h, _⟩)
      · exact hacquires h
      · exact hnot h
    · rw [hrecord r hacquires, hconcerning, if_neg htouch, List.append_nil]
  · rintro r hown (⟨_, hne⟩ | ⟨hr, _⟩)
    · exact absurd hown hne
    · exact ⟨hr, hrecord r fun h => (hfresh r h).left (hopen r hr)⟩
  · intro r
    by_cases hacquires : effects.acquires o (kernel.call o w.1).1 = some r
    · left
      simp only [Kernel.recording, Effects.record, if_pos hacquires]
    · refine Or.inr ⟨hrecord r hacquires, fun hne => ?_⟩
      rw [hconcerning] at hne
      split_ifs at hne with htouch
      · exact (htouches r htouch).symm
      · exact absurd rfl hne
  · rintro r (⟨hacquires, _⟩ | ⟨hr, _⟩) hne hempty
    · simp only [Kernel.recording, Effects.record, if_pos hacquires]
    · have htouch : effects.touches o ≠ some r :=
        fun h => hne (htouches r h).right
      rw [hrecord r fun h => (hfresh r h).left (hopen r hr), hconcerning,
        if_neg htouch, hempty hr]
      rfl
  · intro t ht
    cases ht
  · exact .nil

theorem Lawful.turned_create (laws : Lawful effects kernel good opens Fine)
    {task : τ} (hgood : good w.1)
    (hopen : forall r, r ∈ held -> r ∈ opens w.1)
    (hgiven : forall r, effects.given task = some r ->
      r ∈ held ∧ own ≠ some r) (ret : Int) {created : List τ}
    (hcreated : created = [task] ∨ created = []) :
    Turned effects good opens Fine own held w [⟨.create task, ret⟩] created
      (effects.handOver task held)
      ((kernel.recording effects).allocates w).2 := by
  rcases laws.allocates w.1 hgood with ⟨hgood', hopens⟩
  have hstill (r : ρ) (hr : r ∈ opens w.1) :
      r ∈ opens ((kernel.recording effects).allocates w).2.1 := by
    rw [Kernel.recording, hopens]
    exact hr
  constructor
  · exact hgood'
  · intro o a hx
    cases List.mem_singleton.mp hx
  · intro r hr
    exact hstill r (hopen r hr.left)
  · intro r hr hnot
    exact ⟨hstill r hr, fun h => hnot h.left, rfl⟩
  · intro r _ hr
    exact ⟨hr.left, (List.append_nil _).symm⟩
  · intro r
    exact Or.inr ⟨(List.append_nil _).symm, fun h => absurd rfl h⟩
  · intro r hr _ hempty
    exact hempty hr.left
  · intro t ht r hr
    rcases hcreated with rfl | rfl
    · obtain rfl := List.mem_singleton.mp ht
      rcases hgiven r hr with ⟨hheld, hne⟩
      exact ⟨hne, hstill r (hopen r hheld), fun h => h.right hr,
        fun _ => hheld, fun hempty => hempty hheld⟩
    · cases ht
  · rcases hcreated with rfl | rfl
    · exact List.pairwise_singleton _ _
    · exact .nil

theorem Lawful.turned_poll (laws : Lawful effects kernel good opens Fine)
    {fd : Int} {d : Direction} (hgood : good w.1)
    (hopen : forall r, r ∈ held -> r ∈ opens w.1) :
    Turned effects good opens Fine own held w
      [(⟨.poll fd d, ()⟩ : CoExchange τ answer)] [] held
      ((kernel.recording effects).saveStack w).2 := by
  have hsaved : good ((kernel.recording effects).saveStack w).2.1 ∧
      opens ((kernel.recording effects).saveStack w).2.1 = opens w.1 ∧
      ((kernel.recording effects).saveStack w).2.2 = w.2 := by
    unfold Kernel.saveStack
    split_ifs
    · exact ⟨(laws.reallocates w.1 hgood).left,
        (laws.reallocates w.1 hgood).right, rfl⟩
    · exact ⟨hgood, rfl, rfl⟩
  rcases hsaved with ⟨hgood', hopens, hsame⟩
  constructor
  · exact hgood'
  · intro o a hx
    cases List.mem_singleton.mp hx
  · intro r hr
    rw [hopens]
    exact hopen r hr
  · intro r hr hnot
    rw [hopens, hsame]
    exact ⟨hr, hnot, rfl⟩
  · intro r _ hr
    rw [hsame]
    exact ⟨hr, (List.append_nil _).symm⟩
  · intro r
    rw [hsame]
    exact Or.inr ⟨(List.append_nil _).symm, fun h => absurd rfl h⟩
  · intro r hr _ hempty
    rw [hsame]
    exact hempty hr
  · intro t ht
    cases ht
  · exact .nil

theorem Careful.burst (laws : Lawful effects kernel good opens Fine)
    {p : CoCode τ op answer fault} (h : Careful effects own held p)
    (hgood : good w.1) (hopen : forall r, r ∈ held -> r ∈ opens w.1) :
    let b := burst (kernel.recording effects) p w
    exists held', Turned effects good opens Fine own held w b.calls b.created
        held' b.kernel ∧
      forall fd direction rest unsaved,
        b.stop = .polls fd direction rest unsaved ->
          Careful effects own held' rest := by
  induction h generalizing w with
  | done a =>
      exact ⟨_, turned_nil hgood hopen, fun _ _ _ _ hstop => by cases hstop⟩
  | abort e =>
      exact ⟨_, turned_nil hgood hopen, fun _ _ _ _ hstop => by cases hstop⟩
  | @poll held fd d next rest ih =>
      refine ⟨held, laws.turned_poll hgood hopen, ?_⟩
      intro fd' d' rest' unsaved hstop
      cases hstop
      exact rest
  | @create held task next hgiven hrest ih =>
      rw [NtyCo.burst]
      split_ifs
      · have hfirst := laws.turned_create hgood hopen hgiven 0
          (Or.inl (rfl : [task] = [task]))
        rcases ih 0 hfirst.isGood hfirst.isOpen with ⟨held', hturned, hstop⟩
        exact ⟨held', hfirst.trans hturned, hstop⟩
      · have hfirst := laws.turned_create hgood hopen hgiven (-2)
          (Or.inr (rfl : [] = []))
        rcases ih (-2) hfirst.isGood hfirst.isOpen with
          ⟨held', hturned, hstop⟩
        exact ⟨held', hfirst.trans hturned, hstop⟩
  | @other held o next htouches hreleases hrest ih =>
      have hfirst := laws.turned_other hgood hopen htouches hreleases
      rcases ih (kernel.call o w.1).1 hfirst.isGood hfirst.isOpen with
        ⟨held', hturned, hstop⟩
      exact ⟨held', hfirst.trans hturned, hstop⟩

end

/-!
## Runs
-/

def AtRest (code : τ -> CoCode τ op answer fault) (task : τ)
    (past : List (CoExchange τ answer)) (p : CoCode τ op answer fault) : Prop :=
  After (code task) past p ∧ (past = [] ∨ p = .done () ∨
    exists earlier fd d, past = earlier ++ [⟨.poll fd d, ()⟩])

section

variable [DecidableEq ρ] (effects : Effects τ op answer ρ)
  {kernel : Kernel op answer σ} {good : σ -> Prop} {opens : σ -> Set ρ}
  {Fine : Exchange answer -> Prop} (code : τ -> CoCode τ op answer fault)

def IsPast (Fine : Exchange answer -> Prop) (r : ρ)
    (record : List (Exchange answer)) : Prop :=
  record = [] ∨ exists task past p, effects.given task = some r ∧
    AtRest code task past p ∧ AllFine Fine past ∧
      record = effects.concerning r past

structure Owned (good : σ -> Prop) (opens : σ -> Set ρ)
    (Fine : Exchange answer -> Prop) (held : Ptr -> Set ρ)
    (pool : TaskPool τ op answer fault (σ × Records answer ρ)) : Prop where
  isGood : good pool.kernel.1
  unused : forall co, pool.unused <= co -> pool.tasks co = none
  live : forall co r, r ∈ held co -> (pool.tasks co).isSome
  isOpen : forall co r, r ∈ held co -> r ∈ opens pool.kernel.1
  apart : forall co co' r, r ∈ held co -> r ∈ held co' -> co = co'
  tasks : forall co task p, pool.tasks co = some (task, p) ->
    Careful effects (effects.given task) (held co) p ∧
      exists past, AtRest code task past p ∧ AllFine Fine past ∧
        forall r, effects.given task = some r -> r ∈ held co ->
          pool.kernel.2 r = effects.concerning r past
  fresh : forall co task p r, pool.tasks co = some (task, p) ->
    r ∈ held co -> effects.given task ≠ some r -> pool.kernel.2 r = []
  pasts : forall r, IsPast effects code Fine r (pool.kernel.2 r)

variable {effects code} {held : Ptr -> Set ρ}
  {pool pool' : TaskPool τ op answer fault (σ × Records answer ρ)}

theorem Owned.lt_unused
    (h : Owned effects code good opens Fine held pool) {co : Ptr}
    {x : τ × CoCode τ op answer fault} (hx : pool.tasks co = some x) :
    co < pool.unused := by
  by_contra hle
  rw [h.unused co (not_lt.mp hle)] at hx
  cases hx

theorem Owned.create (h : Owned effects code good opens Fine held pool)
    {task : τ}
    (hcareful : Careful effects (effects.given task)
      {r | effects.given task = some r} (code task))
    (hfree : forall r, effects.given task = some r ->
      r ∈ opens pool.kernel.1 ∧ pool.kernel.2 r = [] ∧
        forall co, r ∉ held co) :
    exists held', Owned effects code good opens Fine held'
        (pool.create code task) ∧
      forall co r, r ∈ held' co -> r ∈ held co ∨
        effects.given task = some r := by
  let held' := Function.update held pool.unused
    {r | effects.given task = some r}
  have hself : held' pool.unused = {r | effects.given task = some r} :=
    Function.update_self _ _ _
  have hother (co : Ptr) (hne : co ≠ pool.unused) : held' co = held co :=
    Function.update_of_ne hne _ _
  have htask (co : Ptr) (hne : co ≠ pool.unused) :
      (pool.create code task).tasks co = pool.tasks co :=
    Function.update_of_ne hne _ _
  have hnew : (pool.create code task).tasks pool.unused =
      some (task, code task) :=
    Function.update_self _ _ _
  have hmem (co : Ptr) (r : ρ) (hr : r ∈ held' co) :
      (co ≠ pool.unused ∧ r ∈ held co) ∨
        (co = pool.unused ∧ effects.given task = some r) := by
    by_cases heq : co = pool.unused
    · subst heq
      rw [hself] at hr
      exact Or.inr ⟨rfl, hr⟩
    · rw [hother co heq] at hr
      exact Or.inl ⟨heq, hr⟩
  refine ⟨held', ?_, fun co r hr =>
    (hmem co r hr).imp And.right And.right⟩
  constructor
  · exact h.isGood
  · intro co hle
    have hlt : pool.unused < co := hle
    rw [htask co hlt.ne']
    exact h.unused co hlt.le
  · intro co r hr
    rcases hmem co r hr with ⟨hne, hold⟩ | ⟨rfl, _⟩
    · rw [htask co hne]
      exact h.live co r hold
    · rw [hnew]
      rfl
  · intro co r hr
    rcases hmem co r hr with ⟨_, hold⟩ | ⟨_, hgiven⟩
    · exact h.isOpen co r hold
    · exact (hfree r hgiven).left
  · intro co co' r hr hr'
    rcases hmem co r hr with ⟨_, hold⟩ | ⟨rfl, hgiven⟩
    · rcases hmem co' r hr' with ⟨_, hold'⟩ | ⟨_, hgiven'⟩
      · exact h.apart co co' r hold hold'
      · exact absurd hold ((hfree r hgiven').right.right co)
    · rcases hmem co' r hr' with ⟨_, hold'⟩ | ⟨rfl, _⟩
      · exact absurd hold' ((hfree r hgiven).right.right co')
      · rfl
  · intro co t p hp
    by_cases heq : co = pool.unused
    · subst heq
      rw [hnew] at hp
      cases hp
      rw [hself]
      exact ⟨hcareful, [], ⟨.here _, Or.inl rfl⟩, fun _ _ hx => (by cases hx),
        fun r hgiven _ => (hfree r hgiven).right.left⟩
    · rw [htask co heq] at hp
      rw [hother co heq]
      exact h.tasks co t p hp
  · intro co t p r hp hr hne
    by_cases heq : co = pool.unused
    · subst heq
      rw [hnew] at hp
      cases hp
      rw [hself] at hr
      exact absurd hr hne
    · rw [htask co heq] at hp
      rw [hother co heq] at hr
      exact h.fresh co t p r hp hr hne
  · exact h.pasts

theorem Owned.createAll
    (hcode : forall task, Careful effects (effects.given task)
      {r | effects.given task = some r} (code task))
    {created : List τ} (h : Owned effects code good opens Fine held pool)
    (hfree : forall task, task ∈ created -> forall r,
      effects.given task = some r -> r ∈ opens pool.kernel.1 ∧
        pool.kernel.2 r = [] ∧ forall co, r ∉ held co)
    (hdistinct : created.Pairwise fun t t' => forall r,
      effects.given t = some r -> effects.given t' ≠ some r) :
    exists held', Owned effects code good opens Fine held'
      (pool.createAll code created) := by
  induction created generalizing held pool with
  | nil => exact ⟨held, h⟩
  | cons task rest ih =>
      rw [List.forall_mem_cons] at hfree
      rw [List.pairwise_cons] at hdistinct
      rcases h.create (hcode task) hfree.left with ⟨held', hcreated, hheld⟩
      apply ih hcreated ?_ hdistinct.right
      intro t ht r hgiven
      rcases hfree.right t ht r hgiven with ⟨hopen, hnil, hnobody⟩
      refine ⟨hopen, hnil, fun co hr => ?_⟩
      rcases hheld co r hr with hold | hgiven'
      · exact hnobody co hold
      · exact hdistinct.left t ht r hgiven' hgiven

theorem Owned.turned (h : Owned effects code good opens Fine held pool)
    {co : Ptr} {task : τ} {p q : CoCode τ op answer fault}
    (hp : pool.tasks co = some (task, p))
    {calls : List (CoExchange τ answer)} {created : List τ}
    {held' left : Set ρ} {w' : σ × Records answer ρ}
    (hturned : Turned effects good opens Fine (effects.given task) (held co)
      pool.kernel calls created held' w')
    (hafter : After p calls q)
    (hend : q = .done () ∨
      exists earlier fd d, calls = earlier ++ [⟨.poll fd d, ()⟩])
    {new : Option (τ × CoCode τ op answer fault)} (hleft : left ⊆ held')
    (hnew : (new = some (task, q) ∧
        Careful effects (effects.given task) left q) ∨
      (new = none ∧ left = ∅))
    (waits : Ptr -> Option Int) :
    Owned effects code good opens Fine (Function.update held co left)
      { pool with
        tasks := Function.update pool.tasks co new
        waits := waits
        kernel := w' } := by
  have hlt := h.lt_unused hp
  rcases h.tasks co task p hp with ⟨_, past, ⟨hpast, _⟩, hfine, hrecord⟩
  have hrest : AtRest code task (past ++ calls) q := by
    refine ⟨hpast.trans hafter, Or.inr ?_⟩
    rcases hend with hdone | ⟨earlier, fd, d, rfl⟩
    · exact Or.inl hdone
    · exact Or.inr ⟨past ++ earlier, fd, d, (List.append_assoc ..).symm⟩
  have hfine' : AllFine Fine (past ++ calls) := by
    intro o a hx
    rcases List.mem_append.mp hx with hx | hx
    · exact hfine o a hx
    · exact hturned.fine o a hx
  -- what the others hold is as before
  have hothers (co' : Ptr) (r : ρ) (hne : co' ≠ co) (hr : r ∈ held co') :=
    hturned.others r (h.isOpen co' r hr)
      fun hr' => hne (h.apart co' co r hr hr')
  have hmem (co' : Ptr) (r : ρ) (hr : r ∈ Function.update held co left co') :
      (co' = co ∧ r ∈ left) ∨ (co' ≠ co ∧ r ∈ held co') := by
    by_cases heq : co' = co
    · subst heq
      rw [Function.update_self] at hr
      exact Or.inl ⟨rfl, hr⟩
    · rw [Function.update_of_ne heq] at hr
      exact Or.inr ⟨heq, hr⟩
  constructor
  · exact hturned.isGood
  · intro co' hle
    have hne : co' ≠ co := (lt_of_lt_of_le hlt hle).ne'
    simp only [Function.update_of_ne hne]
    exact h.unused co' hle
  · intro co' r hr
    rcases hmem co' r hr with ⟨rfl, hr'⟩ | ⟨hne, hr'⟩
    · rcases hnew with ⟨rfl, _⟩ | ⟨_, rfl⟩
      · simp
      · cases hr'
    · simp only [Function.update_of_ne hne]
      exact h.live co' r hr'
  · intro co' r hr
    rcases hmem co' r hr with ⟨rfl, hr'⟩ | ⟨hne, hr'⟩
    · exact hturned.isOpen r (hleft hr')
    · exact (hothers co' r hne hr').left
  · intro co' co'' r hr hr'
    rcases hmem co' r hr with ⟨rfl, hown⟩ | ⟨hne, hown⟩
    · rcases hmem co'' r hr' with ⟨rfl, _⟩ | ⟨hne', hown'⟩
      · rfl
      · exact absurd (hleft hown) (hothers co'' r hne' hown').right.left
    · rcases hmem co'' r hr' with ⟨rfl, hown'⟩ | ⟨_, hown'⟩
      · exact absurd (hleft hown') (hothers co' r hne hown).right.left
      · exact h.apart co' co'' r hown hown'
  · intro co' t p' hp'
    change Function.update pool.tasks co new co' = some (t, p') at hp'
    by_cases heq : co' = co
    · subst heq
      rw [Function.update_self] at hp'
      rcases hnew with ⟨rfl, hcareful⟩ | ⟨rfl, _⟩
      · cases hp'
        rw [Function.update_self]
        refine ⟨hcareful, past ++ calls, hrest, hfine', fun r hgiven hr => ?_⟩
        rcases hturned.kept r hgiven (hleft hr) with ⟨hheld, hkept⟩
        rw [concerning_append, <- hrecord r hgiven hheld]
        exact hkept
      · cases hp'
    · rw [Function.update_of_ne heq] at hp'
      rw [Function.update_of_ne heq]
      rcases h.tasks co' t p' hp' with ⟨hcareful, past', hrest', hfine'', hown⟩
      refine ⟨hcareful, past', hrest', hfine'', fun r hgiven hr => ?_⟩
      rw [<- hown r hgiven hr]
      exact (hothers co' r heq hr).right.right
  · intro co' t p' r hp' hr hne
    change Function.update pool.tasks co new co' = some (t, p') at hp'
    rcases hmem co' r hr with ⟨rfl, hr'⟩ | ⟨heq, hr'⟩
    · rw [Function.update_self] at hp'
      rcases hnew with ⟨rfl, _⟩ | ⟨rfl, _⟩
      · cases hp'
        exact hturned.fresh r (hleft hr') hne
          fun hheld => h.fresh co' task p r hp hheld hne
      · cases hp'
    · rw [Function.update_of_ne heq] at hp'
      have hold := h.fresh co' t p' r hp' hr' hne
      exact (hothers co' r heq hr').right.right.trans hold
  · intro r
    rcases hturned.past r with hnil | ⟨happend, hown⟩
    · exact Or.inl hnil
    · by_cases hnone : effects.concerning r calls = []
      · rw [hnone, List.append_nil] at happend
        have hold := h.pasts r
        rw [<- happend] at hold
        exact hold
      · rcases hown hnone with ⟨hgiven, hheld⟩
        refine Or.inr ⟨task, past ++ calls, q, hgiven, hrest, hfine', ?_⟩
        rw [concerning_append, <- hrecord r hgiven hheld]
        exact happend

theorem Lawful.passes (laws : Lawful effects kernel good opens Fine)
    {w w' : σ × Records answer ρ}
    (h : (kernel.recording effects).Passes w w') (hgood : good w.1) :
    good w'.1 ∧ opens w'.1 = opens w.1 ∧ w'.2 = w.2 := by
  induction h with
  | refl => exact ⟨hgood, rfl, rfl⟩
  | @usecNow w₁ _ ih =>
      rcases ih with ⟨hgood', hopens, hsame⟩
      rcases laws.usecNow w₁.1 hgood' with ⟨hgood'', hopens'⟩
      exact ⟨hgood'', hopens'.trans hopens, hsame⟩
  | @epollWait w₁ _ fds milliseconds ih =>
      rcases ih with ⟨hgood', hopens, hsame⟩
      rcases laws.epollWait fds milliseconds w₁.1 hgood' with
        ⟨hgood'', hopens'⟩
      exact ⟨hgood'', hopens'.trans hopens, hsame⟩

theorem Owned.passes (laws : Lawful effects kernel good opens Fine)
    (h : Owned effects code good opens Fine held pool)
    {w : σ × Records answer ρ}
    (hpasses : (kernel.recording effects).Passes pool.kernel w) :
    Owned effects code good opens Fine held { pool with kernel := w } := by
  rcases laws.passes hpasses h.isGood with ⟨hgood, hopens, hsame⟩
  constructor
  · exact hgood
  · exact h.unused
  · exact h.live
  · intro co r hr
    rw [hopens]
    exact h.isOpen co r hr
  · exact h.apart
  · simp only [hsame]
    exact h.tasks
  · simp only [hsame]
    exact h.fresh
  · simp only [hsame]
    exact h.pasts

theorem owned_step (laws : Lawful effects kernel good opens Fine)
    (hcode : forall task, Careful effects (effects.given task)
      {r | effects.given task = some r} (code task)) {e : Option Ptr}
    (hstep : PoolStep (kernel.recording effects) code pool e pool')
    (h : exists held, Owned effects code good opens Fine held pool) :
    exists held, Owned effects code good opens Fine held pool' := by
  rcases h with ⟨held, h⟩
  cases hstep with
  | idle hpasses => exact ⟨held, h.passes laws hpasses⟩
  | @turn co task p hmem hgoes =>
      rcases h.tasks co task p hmem with ⟨hcareful, _⟩
      rcases hcareful.burst laws h.isGood (h.isOpen co) with
        ⟨held', hturned, hstop⟩
      rw [TaskPool.turn_eq_createAll code task _ (h.lt_unused hmem)]
      have hfree (held'' : Set ρ) (hsub : held'' ⊆ held') (t : τ)
          (ht : t ∈ (burst (kernel.recording effects) p pool.kernel).created)
          (r : ρ) (hgiven : effects.given t = some r) :
          r ∈ opens (burst (kernel.recording effects) p pool.kernel).kernel.1 ∧
            (burst (kernel.recording effects) p pool.kernel).kernel.2 r = [] ∧
              forall co', r ∉ Function.update held co held'' co' := by
        rcases hturned.given t ht r hgiven with
          ⟨hne, hopen, hnot, hheld, hempty⟩
        refine ⟨hopen, hempty fun hr => h.fresh co task p r hmem hr hne,
          fun co' hr => ?_⟩
        by_cases heq : co' = co
        · subst heq
          rw [Function.update_self] at hr
          exact hnot (hsub hr)
        · rw [Function.update_of_ne heq] at hr
          exact heq (h.apart co' co r hr (hheld (h.isOpen co' r hr)))
      cases hend : (burst (kernel.recording effects) p pool.kernel).stop with
      | fault e => exact absurd (hend ▸ .fault e) (hgoes (.fault e))
      | polls fd d rest unsaved =>
          rcases burst_polls hend with ⟨hafter, earlier, hcalls⟩
          have hturn := h.turned hmem hturned hafter
            (Or.inr ⟨earlier, fd, d, hcalls⟩) subset_rfl
            (Or.inl ⟨rfl, hstop fd d rest unsaved hend⟩)
            (Function.update pool.waits co (some fd))
          exact hturn.createAll hcode (hfree held' subset_rfl) hturned.distinct
      | ended =>
          have hturn := h.turned hmem hturned (burst_ended hend)
            (Or.inl rfl) (Set.empty_subset held') (Or.inr ⟨rfl, rfl⟩)
            (Function.update pool.waits co none)
          exact hturn.createAll hcode (hfree ∅ (Set.empty_subset held'))
            hturned.distinct

theorem owned_start
    (hcode : forall task, Careful effects (effects.given task)
      {r | effects.given task = some r} (code task)) {tasks : List τ}
    (htasks : forall task, task ∈ tasks -> effects.given task = none) {w : σ}
    (hgood : good w) :
    exists held, Owned effects code good opens Fine held
      (TaskPool.start code tasks (w, fun _ => [])) := by
  have hempty : Owned effects code good opens Fine (fun _ => ∅)
      { tasks := fun _ => none
        waits := fun _ => none
        unused := 0
        kernel := (w, fun _ => []) } := {
    isGood := hgood
    unused := fun _ _ => rfl
    live := fun _ _ hr => by cases hr
    isOpen := fun _ _ hr => by cases hr
    apart := fun _ _ _ hr => by cases hr
    tasks := fun _ _ _ hp => by cases hp
    fresh := fun _ _ _ _ hp => by cases hp
    pasts := fun _ => Or.inl rfl }
  apply hempty.createAll hcode
  · intro task htask r hgiven
    rw [htasks task htask] at hgiven
    cases hgiven
  · apply List.Pairwise.imp_of_mem ?_ (List.pairwise_of_forall fun _ _ => trivial)
    intro t t' ht _ _ r hgiven
    rw [htasks t ht] at hgiven
    cases hgiven

/--
In every run of the scheduler with careful code, whatever the kernel reports and
in whatever order the coroutines have their turns, the record of each resource
is what one coroutine has said on it.
-/
theorem records_are_pasts (laws : Lawful effects kernel good opens Fine)
    (hcode : forall task, Careful effects (effects.given task)
      {r | effects.given task = some r} (code task)) {tasks : List τ}
    (htasks : forall task, task ∈ tasks -> effects.given task = none) {w : σ}
    (hgood : good w) {birth n : Nat}
    {m : Machine τ op answer fault (σ × Records answer ρ)}
    (hrun : (Machine.start (kernel.recording effects) birth tasks
      (w, fun _ => [])).run (kernel.recording effects) code n = .ok m) (r : ρ) :
    IsPast effects code Fine r (m.kernel.2 r) := by
  have howned := invariant_of_pool (kernel.recording effects) code
    (fun _ _ _ hstep => owned_step laws hcode hstep)
    (owned_start hcode htasks hgood) hrun
  rcases howned with ⟨held, howned⟩
  exact howned.pasts r

end

end NtyCo
end Z2wRpc
