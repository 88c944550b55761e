import Z2wRpc.NtyCo.Rebalancing

/-!
# The search trees as maps

Whatever is inserted into a tree and removed from it, the tree stays a balanced
search tree, no missing node is read, and the searches answer as a map would.
-/

namespace Z2wRpc
namespace NtyCo

open Foundation RedBlack

variable {κ β : Type} [LinearOrder κ]

def Ordered (nodes : List (κ × β)) : Prop :=
  nodes.Pairwise fun x y => x.1 < y.1

structure SearchTree (t : RbTree (κ × β)) : Prop where
  ordered : Ordered t.toList
  balanced : exists n, Balanced t .black n

theorem searchTree_nil : SearchTree (.nil : RbTree (κ × β)) where
  ordered := List.Pairwise.nil
  balanced := ⟨0, Balanced.nil⟩

theorem Rebalanced.exists_searchTree {result : Option (RbTree (κ × β))}
    {nodes : List (κ × β)} (h : Rebalanced result nodes)
    (hordered : Ordered nodes) :
    exists t, result = some t ∧ SearchTree t ∧ t.toList = nodes := by
  rcases h with ⟨t, n, hresult, hbalanced, hlist⟩
  exact ⟨t, hresult, ⟨hlist.symm ▸ hordered, n, hbalanced⟩, hlist⟩

variable {k : κ} {t l r : RbTree (κ × β)} {x elm : κ × β}

theorem Ordered.mem_rest {nodes rest : List (κ × β)} (h : Ordered nodes)
    (hperm : nodes.Perm (x :: rest)) (y : κ × β) :
    y ∈ rest <-> y ∈ nodes ∧ y.1 ≠ x.1 := by
  have hkeys : (nodes.map Prod.fst).Nodup := by
    rw [List.Nodup, List.pairwise_map]
    exact h.imp ne_of_lt
  rw [(hperm.map Prod.fst).nodup_iff, List.map_cons, List.nodup_cons] at hkeys
  rw [hperm.mem_iff, List.mem_cons]
  constructor
  · intro hy
    refine ⟨Or.inr hy, fun heq => hkeys.left ?_⟩
    exact heq ▸ List.mem_map_of_mem hy
  · rintro ⟨rfl | hy, hne⟩
    · exact absurd rfl hne
    · exact hy

theorem Ordered.node_cases {c : Color}
    (h : Ordered (RbTree.node c l x r).toList) :
    Ordered l.toList ∧ Ordered r.toList ∧
      (forall y, y ∈ l.toList -> y.1 < x.1) ∧
      forall y, y ∈ r.toList -> x.1 < y.1 := by
  rw [RbTree.toList_node, Ordered, List.pairwise_append,
    List.pairwise_cons] at h
  rcases h with ⟨hl, ⟨hx, hr⟩, hlr⟩
  exact ⟨hl, hr, fun y hy => hlr y hy x List.mem_cons_self, hx⟩

theorem rbFind_eq_some_iff (h : Ordered t.toList) :
    rbFind k t = some x <-> x ∈ t.toList ∧ x.1 = k := by
  induction t with
  | nil => simp [rbFind]
  | node c l y r ihl ihr =>
      rcases h.node_cases with ⟨hl, hr, hbelow, habove⟩
      rw [rbFind, RbTree.toList_node, List.mem_append, List.mem_cons]
      rcases lt_trichotomy k y.1 with hlt | heq | hgt
      · rw [if_pos hlt, ihl hl]
        constructor
        · rintro ⟨hmem, rfl⟩
          exact ⟨Or.inl hmem, rfl⟩
        · rintro ⟨hmem | rfl | hmem, rfl⟩
          · exact ⟨hmem, rfl⟩
          · exact absurd hlt (lt_irrefl _)
          · exact absurd (habove x hmem) (lt_asymm hlt)
      · rw [if_neg heq.not_lt, if_neg heq.not_gt, Option.some.injEq]
        constructor
        · rintro rfl
          exact ⟨Or.inr (Or.inl rfl), heq.symm⟩
        · rintro ⟨hmem | rfl | hmem, rfl⟩
          · exact absurd (hbelow x hmem) heq.not_lt
          · rfl
          · exact absurd (habove x hmem) heq.not_gt
      · rw [if_neg (lt_asymm hgt), if_pos hgt, ihr hr]
        constructor
        · rintro ⟨hmem, rfl⟩
          exact ⟨Or.inr (Or.inr hmem), rfl⟩
        · rintro ⟨hmem | rfl | hmem, rfl⟩
          · exact absurd (hbelow x hmem) (lt_asymm hgt)
          · exact absurd hgt (lt_irrefl _)
          · exact ⟨hmem, rfl⟩

theorem rbFind_eq_none_iff (h : Ordered t.toList) :
    rbFind k t = none <-> forall x, x ∈ t.toList -> x.1 ≠ k := by
  rw [Option.eq_none_iff_forall_ne_some]
  constructor
  · intro hnone x hx heq
    exact hnone x ((rbFind_eq_some_iff h).mpr ⟨hx, heq⟩)
  · intro hne x hx
    rcases (rbFind_eq_some_iff h).mp hx with ⟨hmem, heq⟩
    exact hne x hmem heq

/-!
## Where a search ends
-/

structure Sought (k : κ) (t : RbTree (κ × β)) (place : RbPath (κ × β))
    (rest : RbTree (κ × β)) : Prop where
  whole : plug place rest = t
  fits : exists c n, Fits place c n ∧ Balanced rest c n
  below : rest = .nil -> forall y, y ∈ before place -> y.1 < k
  above : rest = .nil -> forall y, y ∈ after place -> k < y.1
  found : forall c l x r, rest = .node c l x r -> x.1 = k

theorem rbSeek_sought {place : RbPath (κ × β)} {c : Color} {n : Nat}
    (hp : Fits place c n) (ht : Balanced t c n)
    (hordered : Ordered (plug place t).toList)
    (hbefore : forall y, y ∈ before place -> y.1 < k)
    (hafter : forall y, y ∈ after place -> k < y.1) :
    Sought k (plug place t) (rbSeek k t place).1 (rbSeek k t place).2 := by
  induction t generalizing place c n with
  | nil =>
      exact {
        whole := rfl
        fits := ⟨c, n, hp, ht⟩
        below := fun _ => hbefore
        above := fun _ => hafter
        found := fun _ _ _ _ h => by cases h }
  | node c' l x r ihl ihr =>
      have hnode : Ordered (RbTree.node c' l x r).toList := by
        rw [toList_plug, Ordered, List.pairwise_append,
          List.pairwise_append] at hordered
        exact hordered.right.left.left
      rcases hnode.node_cases with ⟨_, _, hbelow, habove⟩
      obtain rfl := ht.color_eq
      rw [rbSeek]
      split_ifs with hlt hgt
      · rcases hp.child (s := .left) ht with ⟨_, _, hfits, hl⟩
        apply ihl hfits hl hordered hbefore
        intro y hy
        rw [after, List.mem_cons, List.mem_append] at hy
        rcases hy with rfl | hy | hy
        · exact hlt
        · exact hlt.trans (habove y hy)
        · exact hafter y hy
      · rcases hp.child (s := .right) ht with ⟨_, _, hfits, hr⟩
        apply ihr hfits hr hordered ?_ hafter
        intro y hy
        rw [before, List.mem_append, List.mem_append,
          List.mem_singleton] at hy
        rcases hy with hy | hy | rfl
        · exact hbefore y hy
        · exact (hbelow y hy).trans hgt
        · exact hgt
      · exact {
          whole := rfl
          fits := ⟨c', n, hp, ht⟩
          below := fun h => by cases h
          above := fun h => by cases h
          found := fun _ _ _ _ h => by
            cases h
            exact le_antisymm (not_lt.mp hlt) (not_lt.mp hgt) }

theorem SearchTree.sought (h : SearchTree t) (k : κ) :
    Sought k t (rbSeek k t []).1 (rbSeek k t []).2 := by
  rcases h.balanced with ⟨n, hn⟩
  exact rbSeek_sought (Fits.root n) hn h.ordered
    (fun y hy => by cases hy) (fun y hy => by cases hy)

theorem SearchTree.seek_cases (h : SearchTree t) (k : κ) :
    (exists place c, rbSeek k t [] = (place, .nil) ∧ rbFind k t = none ∧
      Fits place c 0 ∧ t.toList = before place ++ after place ∧
      (forall y, y ∈ before place -> y.1 < k) ∧
      forall y, y ∈ after place -> k < y.1) ∨
    exists place c n l x r, rbSeek k t [] = (place, .node c l x r) ∧
      rbFind k t = some x ∧ Fits place c n ∧ Balanced (.node c l x r) c n ∧
      plug place (.node c l x r) = t := by
  have hsought := h.sought k
  rcases hseek : rbSeek k t [] with ⟨place, rest⟩
  rw [hseek] at hsought
  rcases hsought with ⟨hwhole, ⟨c, n, hfits, hrest⟩, hbelow, habove, hfound⟩
  dsimp only at hwhole hfits hrest hbelow habove hfound
  cases rest with
  | nil =>
      left
      have hlist : t.toList = before place ++ after place := by
        rw [<- hwhole, toList_plug]
        rfl
      have hnone : rbFind k t = none := by
        rw [Option.eq_none_iff_forall_ne_some]
        intro x hx
        rcases (rbFind_eq_some_iff h.ordered).mp hx with ⟨hmem, heq⟩
        rw [hlist, List.mem_append] at hmem
        rcases hmem with hmem | hmem
        · exact absurd (hbelow rfl x hmem) heq.not_lt
        · exact absurd (habove rfl x hmem) heq.not_gt
      cases hrest with
      | nil =>
          exact ⟨place, _, rfl, hnone, hfits, hlist, hbelow rfl, habove rfl⟩
  | node c' l x r =>
      right
      have hmem : x ∈ t.toList := by
        rw [<- hwhole, toList_plug]
        simp
      have hsome : rbFind k t = some x :=
        (rbFind_eq_some_iff h.ordered).mpr ⟨hmem, hfound c' l x r rfl⟩
      obtain rfl := hrest.color_eq
      exact ⟨place, c', n, l, x, r, rfl, hsome, hfits, hrest, hwhole⟩

/-!
## Insertion
-/

theorem Ordered.insert {earlier later : List (κ × β)}
    (h : Ordered (earlier ++ later))
    (hbefore : forall y, y ∈ earlier -> y.1 < elm.1)
    (hafter : forall y, y ∈ later -> elm.1 < y.1) :
    Ordered (earlier ++ elm :: later) := by
  rw [Ordered, List.pairwise_append] at h ⊢
  rcases h with ⟨hearlier, hlater, hboth⟩
  refine ⟨hearlier, List.pairwise_cons.mpr ⟨hafter, hlater⟩, ?_⟩
  intro y hy z hz
  rcases List.mem_cons.mp hz with rfl | hz
  · exact hbefore y hy
  · exact hboth y hy z hz

theorem rbInsert_new (h : SearchTree t) (elm : κ × β)
    (hnew : rbFind elm.1 t = none) :
    exists t', rbInsert elm t = some (none, t') ∧ SearchTree t' ∧
      t'.toList.Perm (elm :: t.toList) := by
  rcases h.seek_cases elm.1 with
    ⟨place, c, hseek, _, hfits, hlist, hbefore, hafter⟩ |
    ⟨_, _, _, _, x, _, _, hsome, _⟩
  · have hred : Balanced (.node .red .nil elm .nil) .red 0 :=
      Balanced.red Balanced.nil Balanced.nil
    have hrebalanced := rbInsertColor_spec hfits hred
    rw [toList_plug, RbTree.toList_node, RbTree.toList_nil, List.nil_append,
      List.singleton_append] at hrebalanced
    have hordered : Ordered (before place ++ elm :: after place) :=
      (hlist ▸ h.ordered).insert hbefore hafter
    rcases hrebalanced.exists_searchTree hordered with
      ⟨t', hresult, htree, hlist'⟩
    refine ⟨t', ?_, htree, ?_⟩
    · rw [rbInsert, hseek]
      simp only [hresult, Option.map_some]
    · rw [hlist', hlist]
      exact List.perm_middle
  · rw [hnew] at hsome
    cases hsome

theorem rbInsert_old (h : SearchTree t) (elm : κ × β)
    (hold : rbFind elm.1 t = some x) :
    rbInsert elm t = some (some x, t) := by
  rcases h.seek_cases elm.1 with
    ⟨_, _, _, hnone, _⟩ | ⟨_, _, _, _, y, _, hseek, hsome, _⟩
  · rw [hold] at hnone
    cases hnone
  · rw [hold] at hsome
    cases hsome
    rw [rbInsert, hseek]

/-!
## Removal
-/

/-- Where `RB_REMOVE` finds the next node, below a node and its parents. -/
structure Leftmost {α : Type} (c : Color) (l : RbTree α) (x : α) (r : RbTree α)
    (c' : Color) (next : α) (child : RbTree α) (below : RbPath α) : Prop where
  found : forall parents,
    rbLeftmost c l x r parents = (c', next, child, below ++ parents)
  first : (RbTree.node c l x r).toList = next :: (plug below child).toList
  fits : forall parents n, Fits parents c n -> Balanced (.node c l x r) c n ->
    exists m, Fits (below ++ parents) c' m ∧
      Balanced (.node c' .nil next child) c' m

theorem exists_leftmost {α : Type} (c : Color) (l : RbTree α) (x : α)
    (r : RbTree α) :
    exists c' next child below, Leftmost c l x r c' next child below := by
  induction l generalizing c x r with
  | nil =>
      refine ⟨c, x, r, [], ?_, rfl, fun parents n hp h => ⟨n, hp, h⟩⟩
      intro parents
      rfl
  | node c₂ l₂ x₂ r₂ ih _ =>
      rcases ih c₂ x₂ r₂ with ⟨c', next, child, below, hfound, hfirst, hfits⟩
      refine ⟨c', next, child, below ++ [⟨.left, c, x, r⟩], ?_, ?_, ?_⟩
      · intro parents
        rw [rbLeftmost, hfound, List.append_assoc]
        rfl
      · rw [RbTree.toList_node, hfirst, plug_append]
        rfl
      · intro parents n hp h
        rcases hp.child (s := .left) h with ⟨c'', m, hfits', hbalanced⟩
        obtain rfl := hbalanced.color_eq
        rw [List.append_assoc]
        exact hfits _ m hfits' hbalanced

theorem rbUnlink_spec {α : Type} {s : Side} {c : Color} {child other : RbTree α}
    {x : α} {place : RbPath α} {n : Nat} (hp : Fits place c n)
    (h : Balanced (s.node c child x other) c n) :
    Rebalanced (rbUnlink c place child) (plug place child).toList := by
  cases c with
  | red =>
      rcases hp.of_red.plug h.near_of_red with ⟨m, hm⟩
      exact ⟨_, m, rfl, hm, rfl⟩
  | black =>
      rcases h.near_of_black with ⟨c', m, rfl, hchild⟩
      exact rbRemoveColor_spec hp (short_of_balanced hchild)

theorem rbRemove_rebalanced {c : Color} {place : RbPath (κ × β)} {n : Nat}
    (hseek : rbSeek k t [] = (place, .node c l x r)) (hp : Fits place c n)
    (h : Balanced (.node c l x r) c n) :
    Rebalanced (rbRemove k t)
      (before place ++ (l.toList ++ (r.toList ++ after place))) := by
  have hlist (rest : RbTree (κ × β)) (hrest : rest.toList = l.toList ++ r.toList) :
      (plug place rest).toList =
        before place ++ (l.toList ++ (r.toList ++ after place)) := by
    rw [toList_plug, hrest, List.append_assoc]
  rw [rbRemove, hseek]
  cases l with
  | nil =>
      exact (rbUnlink_spec (s := .right) hp h).of_eq (hlist r rfl)
  | node c₁ l₁ x₁ r₁ =>
      cases r with
      | nil =>
          apply (rbUnlink_spec (s := .left) hp h).of_eq
          exact hlist _ (List.append_nil _).symm
      | node c₂ l₂ x₂ r₂ =>
          rcases exists_leftmost c₂ l₂ x₂ r₂ with
            ⟨c', next, child, below, hleftmost⟩
          have hmoved : Balanced (Side.node .right c (.node c₂ l₂ x₂ r₂) next
              (.node c₁ l₁ x₁ r₁)) c n :=
            Balanced.of_node (s := .right) h next
          rcases hp.child hmoved with ⟨c'', m, hfits, hright⟩
          obtain rfl := hright.color_eq
          rcases hleftmost.fits _ m hfits hright with ⟨m', hfits', hchild⟩
          simp only [hleftmost.found, List.append_nil]
          apply (rbUnlink_spec (s := .right) hfits' hchild).of_eq
          rw [plug_append, plug]
          apply hlist
          rw [hleftmost.first]
          rfl

theorem rbRemove_found (h : SearchTree t) (hfound : rbFind k t = some x) :
    exists t', rbRemove k t = some t' ∧ SearchTree t' ∧
      t.toList.Perm (x :: t'.toList) := by
  rcases h.seek_cases k with
    ⟨_, _, _, hnone, _⟩ |
    ⟨place, c, n, l, y, r, hseek, hsome, hfits, hnode, hwhole⟩
  · rw [hfound] at hnone
    cases hnone
  · rw [hfound] at hsome
    cases hsome
    have hlist : t.toList =
        before place ++ (l.toList ++ x :: (r.toList ++ after place)) := by
      rw [<- hwhole, toList_plug, RbTree.toList_node, List.append_assoc]
      rfl
    have hsublist : List.Sublist
        (before place ++ (l.toList ++ (r.toList ++ after place))) t.toList := by
      rw [hlist]
      exact ((List.sublist_cons_self x _).append_left _).append_left _
    have hrebalanced := rbRemove_rebalanced hseek hfits hnode
    rcases hrebalanced.exists_searchTree (h.ordered.sublist hsublist) with
      ⟨t', hresult, htree, hlist'⟩
    refine ⟨t', hresult, htree, ?_⟩
    rw [hlist, hlist', <- List.append_assoc, <- List.append_assoc (before place)]
    exact List.perm_middle

/-!
## Runs
-/

inductive TreeCall (κ β : Type) where
  | insert (elm : κ × β)
  | find (k : κ)
  -- `RB_FIND`, and `RB_REMOVE` of what was found
  | discard (k : κ)

def rbDiscard (k : κ) (t : RbTree (κ × β)) :
    Option (Option (κ × β) × RbTree (κ × β)) :=
  match rbFind k t with
  | none => some (none, t)
  | some x => (rbRemove x.1 t).map fun t' => (some x, t')

def TreeCall.run (t : RbTree (κ × β)) :
    TreeCall κ β -> Option (Option (κ × β) × RbTree (κ × β))
  -- The node that is in the way; the callers test for it
  | .insert elm => rbInsert elm t
  | .find k => some (rbFind k t, t)
  | .discard k => rbDiscard k t

def TreeCall.key : TreeCall κ β -> κ
  | .insert elm => elm.1
  | .find k => k
  | .discard k => k

def TreeCall.answer (bound : κ -> Option β) (c : TreeCall κ β) :
    Option (κ × β) :=
  (bound c.key).map (Prod.mk c.key)

/-- What the call leaves of a map, in which a key keeps its first value. -/
def TreeCall.bind (bound : κ -> Option β) : TreeCall κ β -> κ -> Option β
  | .insert elm =>
      if (bound elm.1).isSome then bound
      else Function.update bound elm.1 (some elm.2)
  | .find _ => bound
  | .discard k => Function.update bound k none

structure Holds (t : RbTree (κ × β)) (bound : κ -> Option β) : Prop where
  shape : SearchTree t
  mem_iff : forall x, x ∈ t.toList <-> bound x.1 = some x.2

variable {bound : κ -> Option β}

theorem Holds.rbFind_eq (h : Holds t bound) (k : κ) :
    rbFind k t = (bound k).map (Prod.mk k) := by
  cases hbound : bound k with
  | none =>
      rw [Option.map_none, Option.eq_none_iff_forall_ne_some]
      intro x hx
      rcases (rbFind_eq_some_iff h.shape.ordered).mp hx with ⟨hmem, rfl⟩
      rw [h.mem_iff, hbound] at hmem
      cases hmem
  | some b =>
      rw [Option.map_some, rbFind_eq_some_iff h.shape.ordered, h.mem_iff]
      exact ⟨hbound, rfl⟩

theorem Holds.insert (h : Holds t bound) (elm : κ × β) :
    exists t', TreeCall.run t (.insert elm) =
        some (TreeCall.answer bound (.insert elm), t') ∧
      Holds t' (TreeCall.bind bound (.insert elm)) := by
  have hfind := h.rbFind_eq elm.1
  rw [TreeCall.answer, TreeCall.key]
  cases hbound : bound elm.1 with
  | some b =>
      rw [hbound] at hfind
      refine ⟨t, ?_, ?_⟩
      · rw [TreeCall.run, rbInsert_old h.shape elm hfind]
        rfl
      · simp only [TreeCall.bind, hbound]
        exact h
  | none =>
      rw [hbound] at hfind
      rcases rbInsert_new h.shape elm hfind with ⟨t', hresult, hshape, hperm⟩
      refine ⟨t', ?_, hshape, ?_⟩
      · rw [TreeCall.run, hresult]
        rfl
      · intro x
        simp only [TreeCall.bind, hbound]
        rw [hperm.mem_iff, List.mem_cons, h.mem_iff]
        by_cases hkey : x.1 = elm.1
        · simp [hkey, hbound, Prod.ext_iff, eq_comm]
        · simp [hkey, Prod.ext_iff]

theorem Holds.discard (h : Holds t bound) (k : κ) :
    exists t', TreeCall.run t (.discard k) =
        some (TreeCall.answer bound (.discard k), t') ∧
      Holds t' (TreeCall.bind bound (.discard k)) := by
  have hfind := h.rbFind_eq k
  rw [TreeCall.run, rbDiscard, hfind, TreeCall.answer, TreeCall.key]
  cases hbound : bound k with
  | none =>
      refine ⟨t, rfl, h.shape, ?_⟩
      intro x
      simp only [TreeCall.bind]
      rw [h.mem_iff]
      by_cases hkey : x.1 = k
      · simp [hkey, hbound]
      · simp [hkey]
  | some b =>
      rw [hbound] at hfind
      rcases rbRemove_found h.shape hfind with ⟨t', hresult, hshape, hperm⟩
      refine ⟨t', ?_, hshape, ?_⟩
      · simp only [Option.map_some, hresult]
      intro x
      simp only [TreeCall.bind]
      rw [h.shape.ordered.mem_rest hperm, h.mem_iff]
      by_cases hkey : x.1 = k
      · simp [hkey]
      · simp [hkey]

def treeRunFrom (t : RbTree (κ × β)) :
    List (TreeCall κ β) -> Option (List (Option (κ × β)) × RbTree (κ × β))
  | [] => some ([], t)
  | c :: rest =>
      match c.run t with
      | none => none
      | some (answer, t') =>
          (treeRunFrom t' rest).map fun (answers, t'') => (answer :: answers, t'')

def treeRun (calls : List (TreeCall κ β)) :
    Option (List (Option (κ × β)) × RbTree (κ × β)) :=
  treeRunFrom .nil calls

def mapRunFrom (bound : κ -> Option β) :
    List (TreeCall κ β) -> List (Option (κ × β)) × (κ -> Option β)
  | [] => ([], bound)
  | c :: rest =>
      let (answers, bound') := mapRunFrom (c.bind bound) rest
      (c.answer bound :: answers, bound')

def mapRun (calls : List (TreeCall κ β)) :
    List (Option (κ × β)) × (κ -> Option β) :=
  mapRunFrom (fun _ => none) calls

theorem Holds.call (h : Holds t bound) (c : TreeCall κ β) :
    exists t', c.run t = some (c.answer bound, t') ∧ Holds t' (c.bind bound) := by
  cases c with
  | insert elm => exact h.insert elm
  | find k =>
      refine ⟨t, ?_, h⟩
      rw [TreeCall.run, h.rbFind_eq k]
      rfl
  | discard k => exact h.discard k

theorem Holds.calls (h : Holds t bound) (calls : List (TreeCall κ β)) :
    exists t', treeRunFrom t calls = some ((mapRunFrom bound calls).1, t') ∧
      Holds t' (mapRunFrom bound calls).2 := by
  induction calls generalizing t bound with
  | nil => exact ⟨t, rfl, h⟩
  | cons c rest ih =>
      rcases h.call c with ⟨t', hresult, hholds⟩
      rcases ih hholds with ⟨t'', hrest, hholds'⟩
      refine ⟨t'', ?_, hholds'⟩
      simp only [treeRunFrom, hresult, hrest]
      rfl

theorem holds_nil : Holds (.nil : RbTree (κ × β)) fun _ => none where
  shape := searchTree_nil
  mem_iff x := by simp

theorem treeRun_holds (calls : List (TreeCall κ β)) :
    exists t, treeRun calls = some ((mapRun calls).1, t) ∧
      Holds t (mapRun calls).2 :=
  holds_nil.calls calls

/-!
## The least key
-/

theorem rbMinBelow_eq {α : Type} (parent : Option α) (t : RbTree α) :
    rbMinBelow parent t = (t.toList.head?).or parent := by
  induction t generalizing parent with
  | nil => rfl
  | node c l x r ihl _ =>
      rw [rbMinBelow, ihl, RbTree.toList_node, List.head?_append]
      cases l.toList.head? with
      | none => rfl
      | some y => rfl

theorem rbMin_eq {α : Type} (t : RbTree α) : rbMin t = t.toList.head? := by
  rw [rbMin, rbMinBelow_eq, Option.or_none]

theorem Holds.rbMin_eq_some_iff (h : Holds t bound) :
    rbMin t = some x <-> bound x.1 = some x.2 ∧
      forall k b, bound k = some b -> x.1 <= k := by
  rw [rbMin_eq]
  have hordered := h.shape.ordered
  constructor
  · intro hhead
    rcases List.head?_eq_some_iff.mp hhead with ⟨rest, hlist⟩
    refine ⟨(h.mem_iff x).mp (hlist ▸ List.mem_cons_self), ?_⟩
    intro k b hk
    have hmem := (h.mem_iff (k, b)).mpr hk
    rw [hlist, List.mem_cons] at hmem
    rcases hmem with rfl | hmem
    · exact le_rfl
    · rw [hlist, Ordered, List.pairwise_cons] at hordered
      exact (hordered.left _ hmem).le
  · rintro ⟨hx, hleast⟩
    have hmem := (h.mem_iff x).mpr hx
    cases hlist : t.toList with
    | nil =>
        rw [hlist] at hmem
        cases hmem
    | cons y rest =>
        have hy := (h.mem_iff y).mp (hlist ▸ List.mem_cons_self)
        rw [hlist, List.mem_cons] at hmem
        rcases hmem with rfl | hmem
        · rfl
        · rw [hlist, Ordered, List.pairwise_cons] at hordered
          exact absurd (hordered.left _ hmem) (hleast y.1 y.2 hy).not_gt

theorem Holds.eq_nil_iff (h : Holds t bound) :
    t = .nil <-> forall k, bound k = none := by
  constructor
  · rintro rfl k
    rw [Option.eq_none_iff_forall_ne_some]
    intro b hb
    have hmem := (h.mem_iff (k, b)).mpr hb
    cases hmem
  · intro hnone
    cases t with
    | nil => rfl
    | node c l y r =>
        have hmem : y ∈ (RbTree.node c l y r).toList := by simp
        rw [h.mem_iff, hnone] at hmem
        cases hmem

/-!
## The length of a search
-/

theorem rbFindSteps_le_height (k : κ) (t : RbTree (κ × β)) :
    rbFindSteps k t <= t.height := by
  induction t with
  | nil => exact Nat.le_refl 0
  | node c l x r ihl ihr =>
      rw [rbFindSteps, RbTree.height]
      apply Nat.succ_le_succ
      split_ifs
      · exact ihl.trans (Nat.le_max_left _ _)
      · exact ihr.trans (Nat.le_max_right _ _)
      · exact Nat.zero_le _

theorem SearchTree.rbFindSteps_le (h : SearchTree t) (k : κ) :
    rbFindSteps k t <= 2 * Nat.log 2 (t.toList.length + 1) := by
  rcases h.balanced with ⟨n, hn⟩
  exact (rbFindSteps_le_height k t).trans hn.height_le_log

/-!
## The trees are maps
-/

/--
Whatever is inserted, looked for and removed, no missing node is read, every
call answers as on the map, and the tree then holds what the map does.
-/
theorem treeRun_refines_map (calls : List (TreeCall κ β)) :
    exists answers bound t, mapRun calls = (answers, bound) ∧
      treeRun calls = some (answers, t) ∧
      (forall k, rbFind k t = (bound k).map (Prod.mk k)) ∧
      (forall x, rbMin t = some x <-> bound x.1 = some x.2 ∧
        forall k b, bound k = some b -> x.1 <= k) ∧
      (t = .nil <-> forall k, bound k = none) := by
  rcases treeRun_holds calls with ⟨t, hresult, hholds⟩
  exact ⟨_, _, t, rfl, hresult, hholds.rbFind_eq,
    fun x => hholds.rbMin_eq_some_iff, hholds.eq_nil_iff⟩

/--
Whatever is inserted and removed, no red node has a red child, all paths pass
equally many black nodes, and a search compares with few nodes.
-/
theorem treeRun_balanced (calls : List (TreeCall κ β)) :
    exists answers t n, treeRun calls = some (answers, t) ∧
      Balanced t .black n ∧ Ordered t.toList ∧
      forall k, rbFindSteps k t <= 2 * Nat.log 2 (t.toList.length + 1) := by
  rcases treeRun_holds calls with ⟨t, hresult, hholds⟩
  rcases hholds.shape.balanced with ⟨n, hn⟩
  exact ⟨_, t, n, hresult, hn, hholds.shape.ordered,
    hholds.shape.rbFindSteps_le⟩

end NtyCo
end Z2wRpc
