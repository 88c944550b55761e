import Z2wRpc.Foundation.Linking
import Z2wRpc.NtyCo.Run

/-!
# A turn as a whole

What the code of a coroutine does until it polls or ends, without a scheduler:
its calls, the coroutines that it creates, and how it stops.
-/

namespace Z2wRpc
namespace NtyCo

open Foundation Program

variable {τ op : Type} {answer : op -> Type} {fault σ : Type}

inductive Stop (τ op : Type) (answer : op -> Type) (fault : Type) where
  -- and why the stack cannot be saved, if it cannot
  | polls (fd : Int) (direction : Direction) (rest : CoCode τ op answer fault)
      (unsaved : Option Assertion)
  | ended
  | fault (e : fault)

/-- So a turn ends the process when the other coroutines wait for these
descriptors. -/
inductive Stop.Fails (waited : Int -> Prop) :
    Stop τ op answer fault -> Crash fault -> Prop where
  | fault (e : fault) : Fails waited (.fault e) (.fault e)
  | descriptor {fd : Int} {d : Direction} {rest : CoCode τ op answer fault}
      {unsaved : Option Assertion} (h : waited fd) :
      Fails waited (.polls fd d rest unsaved) (.assertion .descriptor)
  | stack {fd : Int} {d : Direction} {rest : CoCode τ op answer fault}
      {which : Assertion} (h : ¬ waited fd) :
      Fails waited (.polls fd d rest (some which)) (.assertion which)

abbrev CoExchange (τ : Type) {op : Type} (answer : op -> Type) : Type :=
  Exchange (CoAnswer (τ := τ) answer)

/-- What a coroutine does in a turn: its calls, the coroutines that it creates,
how it stops, and the kernel after it. -/
structure Burst (τ op : Type) (answer : op -> Type) (fault σ : Type) where
  calls : List (CoExchange τ answer)
  created : List τ
  stop : Stop τ op answer fault
  kernel : σ

def Burst.after (x : CoExchange τ answer) (b : Burst τ op answer fault σ) :
    Burst τ op answer fault σ :=
  { b with calls := x :: b.calls }

def Burst.creates (task : τ) (b : Burst τ op answer fault σ) :
    Burst τ op answer fault σ :=
  { b with created := task :: b.created }

def burst (kernel : Kernel op answer σ) :
    CoCode τ op answer fault -> σ -> Burst τ op answer fault σ
  | .done _, w => ⟨[], [], .ended, w⟩
  | .abort e, w => ⟨[], [], .fault e, w⟩
  | .ask (.poll fd direction) next, w =>
      let (unsaved, w) := kernel.saveStack w
      ⟨[⟨.poll fd direction, ()⟩], [],
        .polls fd direction (next ()) unsaved, w⟩
  | .ask (.create task) next, w =>
      if (kernel.allocates w).1 then
        ((burst kernel (next 0) (kernel.allocates w).2).creates task).after
          ⟨.create task, (0 : Int)⟩
      else
        (burst kernel (next (-2)) (kernel.allocates w).2).after
          ⟨.create task, (-2 : Int)⟩
  | .ask (.other o) next, w =>
      (burst kernel (next (kernel.call o w).1) (kernel.call o w).2).after
        ⟨.other o, (kernel.call o w).1⟩

theorem burst_polls {kernel : Kernel op answer σ}
    {p rest : CoCode τ op answer fault} {w : σ} {fd : Int} {d : Direction}
    {unsaved : Option Assertion}
    (h : (burst kernel p w).stop = .polls fd d rest unsaved) :
    After p (burst kernel p w).calls rest ∧ exists earlier,
      (burst kernel p w).calls = earlier ++ [⟨.poll fd d, ()⟩] := by
  induction p generalizing w with
  | done a => cases h
  | abort e => cases h
  | ask o next ih =>
      cases o with
      | poll fd' d' =>
          cases h
          exact ⟨.ask (.here _), [], rfl⟩
      | create task =>
          rw [burst] at h ⊢
          split_ifs at h ⊢
          · rcases ih 0 h with ⟨hafter, earlier, hcalls⟩
            exact ⟨.ask hafter, _ :: earlier, congrArg (List.cons _) hcalls⟩
          · rcases ih (-2) h with ⟨hafter, earlier, hcalls⟩
            exact ⟨.ask hafter, _ :: earlier, congrArg (List.cons _) hcalls⟩
      | other o =>
          rcases ih _ h with ⟨hafter, earlier, hcalls⟩
          exact ⟨.ask hafter, _ :: earlier, congrArg (List.cons _) hcalls⟩

theorem burst_ended {kernel : Kernel op answer σ}
    {p : CoCode τ op answer fault} {w : σ}
    (h : (burst kernel p w).stop = .ended) :
    After p (burst kernel p w).calls (.done ()) := by
  induction p generalizing w with
  | done a => exact .here _
  | abort e => cases h
  | ask o next ih =>
      cases o with
      | poll fd d => cases h
      | create task =>
          rw [burst] at h ⊢
          split_ifs at h ⊢
          · exact .ask (ih 0 h)
          · exact .ask (ih (-2) h)
      | other o => exact .ask (ih _ h)

def NtyCoroutine.left (code : τ -> CoCode τ op answer fault)
    (c : NtyCoroutine τ (Polling τ op answer fault)) :
    τ × CoCode τ op answer fault :=
  (c.task, (c.saved.map Polling.rest).getD (code c.task))

def NtySchedule.WaitsBeside (s : Scheduler τ op answer fault) (co : Ptr)
    (fd : Int) : Prop :=
  exists other, other ≠ co ∧ (fd, other) ∈ s.waiting.toList

def NtySchedule.TurnFails (kernel : Kernel op answer σ)
    (code : τ -> CoCode τ op answer fault) (s : Scheduler τ op answer fault)
    (co : Ptr) (w : σ) (crash : Crash fault) : Prop :=
  exists c, s.coroutines co = some c ∧
    (burst kernel (c.left code).2 w).stop.Fails (s.WaitsBeside co) crash

theorem turnFails_iff {kernel : Kernel op answer σ}
    {code : τ -> CoCode τ op answer fault} {s : Scheduler τ op answer fault}
    {co : Ptr} {c : NtyCoroutine τ (Polling τ op answer fault)}
    (hc : s.coroutines co = some c) {w : σ} {crash : Crash fault} :
    s.TurnFails kernel code co w crash <->
      (burst kernel (c.left code).2 w).stop.Fails (s.WaitsBeside co) crash := by
  constructor
  · intro h
    rcases h with ⟨c', hc', hfails⟩
    rw [hc] at hc'
    cases hc'
    exact hfails
  · intro hfails
    exact ⟨c, hc, hfails⟩

end NtyCo
end Z2wRpc
