import Z2wRpc.Foundation.Program

/-!
# Linking

A program is linked with an implementation of its calls when every call is
replaced by the program that implements it.  A history of the linked program is
a history of the program itself in which the calls have been carried out one
after the other, the last of them perhaps in part.
-/

namespace Z2wRpc
namespace Foundation
namespace Program

variable {op op' : Type} {answer : op -> Type} {answer' : op' -> Type}
  {fault α β σ : Type}

@[simp] theorem done_bind (a : α) (f : α -> Program op answer fault β) :
    (done a : Program op answer fault α).bind f = f a := rfl

abbrev Exchange (answer : op -> Type) : Type := Sigma answer

inductive After :
    Program op answer fault α -> List (Exchange answer) ->
      Program op answer fault α -> Prop where
  | here (p : Program op answer fault α) : After p [] p
  | ask {o : op} {next : answer o -> Program op answer fault α} {r : answer o}
      {past : List (Exchange answer)} {q : Program op answer fault α}
      (rest : After (next r) past q) : After (ask o next) (⟨o, r⟩ :: past) q

theorem after_nil_iff {p q : Program op answer fault α} :
    After p [] q <-> q = p := by
  constructor
  · intro h
    cases h
    rfl
  · rintro rfl
    exact .here q

theorem after_done_iff {a : α} {past : List (Exchange answer)}
    {q : Program op answer fault α} :
    After (done a) past q <-> past = [] ∧ q = done a := by
  constructor
  · intro h
    cases h
    exact ⟨rfl, rfl⟩
  · rintro ⟨rfl, rfl⟩
    exact .here _

theorem after_abort_iff {e : fault} {past : List (Exchange answer)}
    {q : Program op answer fault α} :
    After (abort e) past q <-> past = [] ∧ q = abort e := by
  constructor
  · intro h
    cases h
    exact ⟨rfl, rfl⟩
  · rintro ⟨rfl, rfl⟩
    exact .here _

theorem after_ask_iff {o : op}
    {next : answer o -> Program op answer fault α}
    {past : List (Exchange answer)} {q : Program op answer fault α} :
    After (.ask o next) past q <-> (past = [] ∧ q = .ask o next) ∨
      exists r rest, past = ⟨o, r⟩ :: rest ∧ After (next r) rest q := by
  constructor
  · intro h
    cases h with
    | here => exact Or.inl ⟨rfl, rfl⟩
    | ask rest => exact Or.inr ⟨_, _, rfl, rest⟩
  · rintro (⟨rfl, rfl⟩ | ⟨r, rest, rfl, hrest⟩)
    · exact .here _
    · exact .ask hrest

theorem After.trans {p q q' : Program op answer fault α}
    {past past' : List (Exchange answer)} (h : After p past q)
    (h' : After q past' q') : After p (past ++ past') q' := by
  induction h with
  | here p => exact h'
  | ask rest ih => exact .ask (ih h')

theorem After.bind {p q : Program op answer fault α}
    {past : List (Exchange answer)} (h : After p past q)
    (f : α -> Program op answer fault β) :
    After (p.bind f) past (q.bind f) := by
  induction h with
  | here p => exact .here _
  | ask rest ih => exact .ask ih

theorem After.bind_cases {p : Program op answer fault α}
    {f : α -> Program op answer fault β} {past : List (Exchange answer)}
    {q : Program op answer fault β} (h : After (p.bind f) past q) :
    (exists p', After p past p' ∧ (forall a, p' ≠ done a) ∧ q = p'.bind f) ∨
      exists a first second, past = first ++ second ∧
        After p first (done a) ∧ After (f a) second q := by
  induction p generalizing past with
  | done a => exact Or.inr ⟨a, [], past, rfl, .here _, h⟩
  | abort e =>
      rcases after_abort_iff.mp h with ⟨rfl, rfl⟩
      exact Or.inl ⟨abort e, .here _, fun _ heq => (by cases heq), rfl⟩
  | ask o next ih =>
      rcases after_ask_iff.mp h with ⟨rfl, rfl⟩ | ⟨r, rest, rfl, hrest⟩
      · exact Or.inl ⟨.ask o next, .here _, fun _ heq => (by cases heq), rfl⟩
      · rcases ih r hrest with
          ⟨p', hp', hgoes, rfl⟩ | ⟨a, first, second, rfl, hfirst, hsecond⟩
        · exact Or.inl ⟨p', .ask hp', hgoes, rfl⟩
        · exact Or.inr
            ⟨a, ⟨o, r⟩ :: first, second, rfl, .ask hfirst, hsecond⟩

theorem Asks.after {P : op -> Prop} {p q : Program op answer fault α}
    {past : List (Exchange answer)} (h : Asks P p) (hafter : After p past q) :
    (forall x, x ∈ past -> P x.1) ∧ Asks P q := by
  induction hafter with
  | here p => exact ⟨fun x hx => (by cases hx), h⟩
  | ask rest ih =>
      cases h with
      | ask hfirst hrest =>
          rcases ih (hrest _) with ⟨hall, hq⟩
          exact ⟨List.forall_mem_cons.mpr ⟨hfirst, hall⟩, hq⟩

/-!
## Environments
-/

inductive Follows (env : Environment op answer σ) :
    σ -> List (Exchange answer) -> σ -> Prop where
  | nil (s : σ) : Follows env s [] s
  | cons {o : op} {r : answer o} {s s' s'' : σ}
      {past : List (Exchange answer)} (first : env o s = (r, s'))
      (rest : Follows env s' past s'') : Follows env s (⟨o, r⟩ :: past) s''

theorem exec_of_follows {env : Environment op answer σ} {s s' : σ}
    {past : List (Exchange answer)} {p q : Program op answer fault α}
    (h : Follows env s past s') (hafter : After p past q) :
    exec env p s = exec env q s' := by
  induction h generalizing p with
  | nil s =>
      rw [after_nil_iff.mp hafter]
  | cons first rest ih =>
      cases hafter with
      | ask hrest =>
          rw [exec, first]
          exact ih hrest

/-!
## Linked programs
-/

def link (impl : (o : op) -> Program op' answer' fault (answer o)) :
    Program op answer fault α -> Program op' answer' fault α
  | done a => done a
  | abort e => abort e
  | .ask o next => (impl o).bind fun r => link impl (next r)

variable (impl : (o : op) -> Program op' answer' fault (answer o))

theorem link_bind (p : Program op answer fault α)
    (f : α -> Program op answer fault β) :
    link impl (p.bind f) = (link impl p).bind fun a => link impl (f a) := by
  induction p with
  | done a => rfl
  | abort e => rfl
  | ask o next ih =>
      show (impl o).bind (fun r => link impl ((next r).bind f)) =
        ((impl o).bind fun r => link impl (next r)).bind _
      rw [funext ih]
      exact (bind_assoc (impl o) (fun r => link impl (next r)) _).symm

inductive Linked :
    List (Exchange answer) -> List (Exchange answer') -> Prop where
  | nil : Linked [] []
  | cons {o : op} {r : answer o} {past : List (Exchange answer)}
      {call rest : List (Exchange answer')} (first : After (impl o) call (done r))
      (tail : Linked past rest) : Linked (⟨o, r⟩ :: past) (call ++ rest)

inductive Pending : Program op answer fault α -> List (Exchange answer') ->
    Program op' answer' fault α -> Prop where
  | done (a : α) : Pending (done a) [] (Program.done a)
  | abort (e : fault) : Pending (abort e) [] (Program.abort e)
  | call {o : op} {next : answer o -> Program op answer fault α}
      {call : List (Exchange answer')}
      {q : Program op' answer' fault (answer o)} (part : After (impl o) call q)
      (goes : forall a, q ≠ Program.done a) :
      Pending (.ask o next) call (q.bind fun r => link impl (next r))

variable {impl}

theorem after_link {p : Program op answer fault α}
    {calls : List (Exchange answer')} {q : Program op' answer' fault α}
    (h : After (link impl p) calls q) :
    exists past p' whole part, After p past p' ∧ calls = whole ++ part ∧
      Linked impl past whole ∧ Pending impl p' part q := by
  induction p generalizing calls with
  | done a =>
      rcases after_done_iff.mp h with ⟨rfl, rfl⟩
      exact ⟨[], _, [], [], .here _, rfl, .nil, .done a⟩
  | abort e =>
      rcases after_abort_iff.mp h with ⟨rfl, rfl⟩
      exact ⟨[], _, [], [], .here _, rfl, .nil, .abort e⟩
  | ask o next ih =>
      rcases After.bind_cases h with
        ⟨q', hpart, hgoes, rfl⟩ | ⟨r, first, second, rfl, hfirst, hsecond⟩
      · exact ⟨[], _, [], calls, .here _, rfl, .nil, .call hpart hgoes⟩
      · rcases ih r hsecond with
          ⟨past, p', whole, part, hpast, rfl, hlinked, hpending⟩
        exact ⟨⟨o, r⟩ :: past, p', first ++ whole, part, .ask hpast,
          (List.append_assoc ..).symm, .cons hfirst hlinked, hpending⟩

end Program
end Foundation
end Z2wRpc
