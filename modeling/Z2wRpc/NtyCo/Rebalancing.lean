import Z2wRpc.NtyCo.SearchTree

/-!
# Insertion and removal restore the balance

`RB_INSERT_COLOR` and `RB_REMOVE_COLOR` on balanced trees: they read no node
that is missing, the tree is balanced again, and its elements stay in order.
-/

namespace Z2wRpc
namespace NtyCo

open Foundation RedBlack

variable {α : Type} {p up : RbPath α} {elm t t' : RbTree α} {c : Color} {n : Nat}

theorem toList_plug_congr (h : t.toList = t'.toList) (p : RbPath α) :
    (plug p t).toList = (plug p t').toList := by
  rw [toList_plug, toList_plug, h]

structure Rebalanced (result : Option (RbTree α)) (elems : List α) : Prop where
  exists_tree : exists t n, result = some t ∧ Balanced t .black n ∧
    t.toList = elems

theorem Rebalanced.of_eq {result : Option (RbTree α)} {elems elems' : List α}
    (h : Rebalanced result elems) (heq : elems = elems') :
    Rebalanced result elems' :=
  heq ▸ h

theorem rebalanced_plug (hp : Fits p c n) (ht : Balanced t c n)
    (heq : t.toList = elm.toList) :
    Rebalanced (some ((plug p t).paint .black)) (plug p elm).toList := by
  rcases hp.plug ht with ⟨m, hm⟩
  rw [<- toList_plug_congr heq]
  exact ⟨_, m, rfl, hm.paint_black, RbTree.toList_paint _ _⟩

/-!
## After an insertion
-/

theorem rotations_spec {s s' : Side} {x z : α} {sibling uncle : RbTree α}
    (hup : Fits up .black (n + 1)) (helm : Balanced elm .red n)
    (hsibling : Balanced sibling .black n) (huncle : Balanced uncle .black n) :
    Rebalanced
      (do
        let upper <- rbRotateIf (s ≠ s') s' (s.node .red elm x sibling)
        let top <- RbTree.rotate s'.flip
          (s'.node .red (upper.paint .black) z uncle)
        some ((plug up top).paint .black))
      (plug up (s'.node .black (s.node .red elm x sibling) z uncle)).toList := by
  rcases s.eq_or_eq_flip s' with rfl | rfl
  · have htop : Balanced
        (s.node .black elm x (s.node .red sibling z uncle)) .black (n + 1) :=
      helm.sideBlack s x (hsibling.sideRed s z huncle)
    rw [rbRotateIf, if_neg (by simp)]
    simp only [Option.bind_eq_bind, Option.bind_some, Side.paint_node,
      RbTree.rotate_flip_node]
    apply rebalanced_plug hup htop
    cases s with
    | left => simp [Side.node]
    | right => simp [Side.node]
  · rcases helm.red_cases s' with ⟨a, y, b, rfl, ha, hb⟩
    have htop : Balanced
        (s'.node .black (s'.node .red sibling x a) y (s'.node .red b z uncle))
        .black (n + 1) :=
      (hsibling.sideRed s' x ha).sideBlack s' y (hb.sideRed s' z huncle)
    rw [rbRotateIf, if_pos s'.flip_ne, Side.node_flip, RbTree.rotate_node]
    simp only [Option.bind_eq_bind, Option.bind_some, Side.paint_node,
      RbTree.rotate_flip_node]
    apply rebalanced_plug hup htop
    cases s' with
    | left => simp [Side.node]
    | right => simp [Side.node]

theorem rbInsertColor_spec (hp : Fits p c n) (helm : Balanced elm .red n) :
    Rebalanced (rbInsertColor p elm) (plug p elm).toList := by
  induction p, elm using rbInsertColor.induct generalizing c n with
  | case1 elm =>
      exact ⟨_, n + 1, rfl, helm.paint_red, RbTree.toList_paint _ _⟩
  | case2 parent elm hred =>
      exact absurd (hp.red_parent hred).right Fits.not_root_of_red
  | case3 parent elm hblack =>
      rw [rbInsertColor, if_neg hblack]
      exact rebalanced_plug (hp.any_color hblack .red) helm rfl
  | case4 parent gparent up elm hred huncle ih =>
      rw [rbInsertColor, if_pos hred, if_pos huncle]
      rcases hp.red_parent hred with ⟨hsibling, hgparent⟩
      rcases hgparent.black_parent (by simp [hgparent.parent_of_red]) with
        ⟨c', hgsibling, hup⟩
      have hc' : c' = .red := by
        rwa [hgsibling.isRed_eq, beq_iff_eq] at huncle
      subst hc'
      have hlower := (helm.sideBlack parent.side parent.elem hsibling).sideRed
        gparent.side gparent.elem hgsibling.paint_red
      apply (ih hup hlower).of_eq
      apply toList_plug_congr
      simp [Side.toList_node]
  | case5 parent gparent up elm hred huncle =>
      rw [rbInsertColor, if_pos hred, if_neg huncle]
      rcases hp.red_parent hred with ⟨hsibling, hgparent⟩
      have hblack := hgparent.parent_of_red
      rcases hgparent.black_parent (by simp [hblack]) with
        ⟨c', hgsibling, hup⟩
      have hc' : c' = .black := by
        rw [hgsibling.isRed_eq, beq_iff_eq] at huncle
        cases c' with
        | red => exact absurd rfl huncle
        | black => rfl
      subst hc'
      rw [plug, plug, hred, hblack]
      exact rotations_spec hup helm hsibling hgsibling
  | case6 parent gparent up elm hblack =>
      rw [rbInsertColor, if_neg hblack]
      exact rebalanced_plug (hp.any_color hblack .red) helm rfl

/-!
## After a removal
-/

def Short (t : RbTree α) (n : Nat) : Prop :=
  (t.isRed = true ∧ Balanced (t.paint .black) .black (n + 1)) ∨
    Balanced t .black n

theorem short_of_balanced (h : Balanced t c n) : Short t n := by
  cases c with
  | red => exact Or.inl ⟨h.isRed_eq, h.paint_red⟩
  | black => exact Or.inr h

theorem short_parent (s : Side) (color : Color) (x : α) {sibling : RbTree α}
    (helm : Balanced elm .black n) (hsibling : Balanced sibling .red n) :
    Short (s.node color elm x sibling) (color.above n) := by
  cases color with
  | red =>
      left
      constructor
      · rw [Side.isRed_node]
        rfl
      · rw [Side.paint_node]
        exact helm.sideBlack s x hsibling
  | black => exact Or.inr (helm.sideBlack s x hsibling)

theorem rbRemoveColorRound_node (s : Side) (color c : Color) (y x : α)
    (near far : RbTree α) :
    rbRemoveColorRound ⟨s, color, y, s.node c near x far⟩ elm =
      if near.isRed = false ∧ far.isRed = false then
        some (true, s.node color elm y (s.node .red near x far))
      else (do
        let tmp := if far.isRed then s.node c near x far
          else s.node .red (near.paint .black) x far
        let tmp <- rbRotateIf (far.isRed = false) s.flip tmp
        let tmp <- rbRecolor s color tmp
        let top <- RbTree.rotate s (s.node .black elm y tmp)
        some (false, top)) := by
  cases s with
  | left => rfl
  | right => rfl

theorem rbRecolor_node (s : Side) (color c : Color) (near far : RbTree α)
    (x : α) :
    rbRecolor s color (s.node c near x far) =
      some (s.node color near x (far.paint .black)) := by
  cases s with
  | left => rfl
  | right => rfl

/--
With a black `tmp`, either the parent passes one black node too few now, or
everything is in balance.
-/
theorem rbRemoveColorRound_spec {parent : RbFrame α}
    (hsibling : Balanced parent.sibling .black (n + 1))
    (helm : Balanced elm .black n) :
    (exists sibling, Balanced sibling .red n ∧
      sibling.toList = parent.sibling.toList ∧
      rbRemoveColorRound parent elm =
        some (true, parent.side.node parent.color elm parent.elem sibling)) ∨
    exists t, Balanced t parent.color (parent.color.above (n + 1)) ∧
      t.toList = (parent.side.node parent.color elm parent.elem
        parent.sibling).toList ∧
      rbRemoveColorRound parent elm = some (false, t) := by
  rcases parent with ⟨s, color, y, sibling⟩
  rcases hsibling.black_cases s with
    ⟨near, x, far, cnear, cfar, rfl, hnear, hfar⟩
  rw [rbRemoveColorRound_node, hnear.isRed_eq, hfar.isRed_eq]
  cases cfar with
  | red =>
      right
      have hlower := helm.sideBlack s y hnear
      refine ⟨s.node color (s.node .black elm y near) x (far.paint .black),
        hlower.sideNode s color x hfar.paint_red, ?_, ?_⟩
      · cases s with
        | left => simp [Side.node]
        | right => simp [Side.node]
      · simp [rbRotateIf, rbRecolor_node, RbTree.rotate_node]
  | black =>
      cases cnear with
      | black =>
          left
          refine ⟨s.node .red near x far, hnear.sideRed s x hfar, ?_, rfl⟩
          simp [Side.toList_node]
      | red =>
          right
          rcases hnear.red_cases s with ⟨a, z, b, rfl, ha, hb⟩
          have hlower := helm.sideBlack s y ha
          have hupper := hb.sideBlack s x hfar
          refine ⟨s.node color (s.node .black elm y a) z
            (s.node .black b x far),
            hlower.sideNode s color z hupper, ?_, ?_⟩
          · cases s with
            | left => simp [Side.node]
            | right => simp [Side.node]
          · simp [rbRotateIf, rbRecolor_node, RbTree.rotate_node,
              RbTree.rotate_flip_node]

theorem rbRemoveColor_red (s : Side) (color : Color) (y x : α)
    (near far : RbTree α) (up : RbPath α) (helm : elm.isRed = false) :
    rbRemoveColor (⟨s, color, y, s.node .red near x far⟩ :: up) elm =
      match rbRemoveColorRound ⟨s, .red, y, near⟩ elm with
      | none => none
      | some (true, t) =>
          some (plug (⟨s, .black, x, far⟩ :: up) (t.paint .black))
      | some (false, t) =>
          some ((plug (⟨s, .black, x, far⟩ :: up) t).paint .black) := by
  rw [rbRemoveColor, if_neg (by simp [helm])]
  cases s with
  | left => rfl
  | right => rfl

theorem rbRemoveColor_black {parent : RbFrame α} (up : RbPath α)
    (helm : elm.isRed = false)
    (hsibling : Balanced parent.sibling .black (n + 1)) :
    rbRemoveColor (parent :: up) elm =
      match rbRemoveColorRound parent elm with
      | none => none
      | some (true, t) => rbRemoveColor up t
      | some (false, t) => some ((plug up t).paint .black) := by
  rcases parent with ⟨s, color, y, sibling⟩
  rcases hsibling.black_cases .left with ⟨l, x, r, _, _, rfl, _, _⟩
  rw [rbRemoveColor, if_neg (by simp [helm])]
  rfl

theorem rbRemoveColor_red_spec {s : Side} {color : Color} {y : α}
    {sibling : RbTree α} (hup : Fits up .black (n + 2))
    (hsibling : Balanced sibling .red (n + 1)) (helm : Balanced elm .black n) :
    Rebalanced (rbRemoveColor (⟨s, color, y, sibling⟩ :: up) elm)
      (plug (⟨s, color, y, sibling⟩ :: up) elm).toList := by
  rcases hsibling.red_cases s with ⟨near, x, far, rfl, hnear, hfar⟩
  have hupper : Fits (⟨s, .black, x, far⟩ :: up) .black (n + 1) :=
    Fits.black hfar hup
  have hlist (t : RbTree α) (h : t.toList = (s.node .red elm y near).toList) :
      (plug (⟨s, .black, x, far⟩ :: up) t).toList =
        (plug (⟨s, color, y, s.node .red near x far⟩ :: up) elm).toList := by
    rw [plug, plug]
    apply toList_plug_congr
    cases s with
    | left => simp_all [Side.node]
    | right => simp_all [Side.node]
  rw [rbRemoveColor_red s color y x near far up helm.isRed_eq]
  have hcases := rbRemoveColorRound_spec (show Balanced
    (RbFrame.sibling ⟨s, .red, y, near⟩) .black (n + 1) from hnear) helm
  dsimp only at hcases
  rcases hcases with ⟨tmp, htmp, hsame, hround⟩ | ⟨t, ht, hsame, hround⟩
  · rw [hround]
    rcases hupper.plug (helm.sideBlack s y htmp) with ⟨m, hm⟩
    refine ⟨_, m, rfl, ?_, ?_⟩
    · rwa [Side.paint_node]
    · apply hlist
      simp [Side.toList_node, hsame]
  · rw [hround]
    rcases (Fits.any_color hupper (by simp) .red).plug ht with ⟨m, hm⟩
    refine ⟨_, m, rfl, hm.paint_black, ?_⟩
    rw [RbTree.toList_paint]
    exact hlist t hsame

theorem rbRemoveColor_spec (hp : Fits p .black (n + 1)) (helm : Short elm n) :
    Rebalanced (rbRemoveColor p elm) (plug p elm).toList := by
  induction p generalizing elm n with
  | nil =>
      rcases helm with ⟨_, hpainted⟩ | hblack
      · exact ⟨_, n + 1, rfl, hpainted, RbTree.toList_paint _ _⟩
      · exact ⟨_, n, rfl, hblack.paint_black, RbTree.toList_paint _ _⟩
  | cons parent up ih =>
      rcases helm with ⟨hred, hpainted⟩ | hblack
      · rw [rbRemoveColor, if_pos hred]
        rcases hp.plug hpainted with ⟨m, hm⟩
        exact ⟨_, m, rfl, hm, toList_plug_congr (RbTree.toList_paint _ _) _⟩
      · have hnotRed : elm.isRed = false := hblack.isRed_eq
        have hup := hp.parents
        rcases hp.other_child with hsibling | ⟨hsibling, hparent⟩
        · rw [rbRemoveColor_black up hnotRed hsibling]
          rcases rbRemoveColorRound_spec hsibling hblack with
            ⟨tmp, htmp, hsame, hround⟩ | ⟨t, ht, hsame, hround⟩
          · rw [hround]
            have habove := hp.black_parents
            rw [Color.above_succ] at habove
            have hshort := short_parent parent.side parent.color parent.elem
              hblack htmp
            apply (ih habove hshort).of_eq
            apply toList_plug_congr
            simp [Side.toList_node, hsame]
          · rw [hround]
            exact rebalanced_plug hup ht hsame
        · rw [hparent] at hup
          exact rbRemoveColor_red_spec hup hsibling hblack

end NtyCo
end Z2wRpc
