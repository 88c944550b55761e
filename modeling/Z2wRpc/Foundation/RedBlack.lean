import Mathlib.Data.Nat.Log
import Mathlib.Order.Lattice
import Mathlib.Algebra.Group.Nat.Defs

/-!
# Red-black trees

A binary tree whose nodes are red or black.  It is balanced when no red node
has a red child and every path from the root passes the same number of black
nodes, so that its height is at most twice the logarithm of its size.

A path leads from a place in a tree up to the root and keeps, for every node it
passes, the child that it does not come from.  The two directions are written
once: a side says which child is meant.
-/

namespace Z2wRpc
namespace Foundation
namespace RedBlack

inductive Color where
  | red
  | black
deriving DecidableEq, Repr

inductive Side where
  | left
  | right
deriving DecidableEq, Repr

def Color.above : Color -> Nat -> Nat
  | .red, n => n
  | .black, n => n + 1

@[simp] theorem Color.above_succ (c : Color) (n : Nat) :
    c.above (n + 1) = c.above n + 1 := by
  cases c with
  | red => rfl
  | black => rfl

def Side.flip : Side -> Side
  | .left => .right
  | .right => .left

inductive RbTree (α : Type) where
  | nil
  | node (color : Color) (left : RbTree α) (elem : α) (right : RbTree α)
deriving DecidableEq, Repr

variable {α : Type}

namespace RbTree

def toList : RbTree α -> List α
  | nil => []
  | node _ l x r => l.toList ++ x :: r.toList

def height : RbTree α -> Nat
  | nil => 0
  | node _ l _ r => max l.height r.height + 1

def isRed : RbTree α -> Bool
  | node .red _ _ _ => true
  | _ => false

def paint (color : Color) : RbTree α -> RbTree α
  | nil => nil
  | node _ l x r => node color l x r

@[simp] theorem toList_nil : (nil : RbTree α).toList = [] := rfl

@[simp] theorem toList_node (c : Color) (l : RbTree α) (x : α) (r : RbTree α) :
    (node c l x r).toList = l.toList ++ x :: r.toList := rfl

@[simp] theorem toList_paint (c : Color) (t : RbTree α) :
    (t.paint c).toList = t.toList := by
  cases t with
  | nil => rfl
  | node _ _ _ _ => rfl

end RbTree

def Side.node : Side -> Color -> RbTree α -> α -> RbTree α -> RbTree α
  | .left, c, near, x, far => .node c near x far
  | .right, c, near, x, far => .node c far x near

def Side.list : Side -> List α -> α -> List α -> List α
  | .left, near, x, far => near ++ x :: far
  | .right, near, x, far => far ++ x :: near

theorem Side.toList_node (s : Side) (c : Color) (near : RbTree α) (x : α)
    (far : RbTree α) :
    (s.node c near x far).toList = s.list near.toList x far.toList := by
  cases s with
  | left => rfl
  | right => rfl

@[simp] theorem Side.paint_node (s : Side) (c c' : Color) (near : RbTree α)
    (x : α) (far : RbTree α) :
    (s.node c near x far).paint c' = s.node c' near x far := by
  cases s with
  | left => rfl
  | right => rfl

@[simp] theorem Side.isRed_node (s : Side) (c : Color) (near : RbTree α) (x : α)
    (far : RbTree α) : (s.node c near x far).isRed = (c == .red) := by
  cases s with
  | left =>
      cases c with
      | red => rfl
      | black => rfl
  | right =>
      cases c with
      | red => rfl
      | black => rfl

theorem Side.node_flip (s : Side) (c : Color) (near : RbTree α) (x : α)
    (far : RbTree α) : s.flip.node c near x far = s.node c far x near := by
  cases s with
  | left => rfl
  | right => rfl

theorem Side.eq_or_eq_flip (s s' : Side) : s = s' ∨ s = s'.flip := by
  cases s with
  | left =>
      cases s' with
      | left => exact Or.inl rfl
      | right => exact Or.inr rfl
  | right =>
      cases s' with
      | left => exact Or.inr rfl
      | right => exact Or.inl rfl

theorem Side.flip_ne (s : Side) : s.flip ≠ s := by
  cases s with
  | left => exact Side.noConfusion
  | right => exact Side.noConfusion

namespace RbTree

/--
A rotation towards a side: the child on the other side takes the place of the
root.  There is none when that child is missing.
-/
def rotate : Side -> RbTree α -> Option (RbTree α)
  | .left, node c a x (node c' b y d) => some (node c' (node c a x b) y d)
  | .right, node c (node c' a x b) y d => some (node c' a x (node c b y d))
  | _, _ => none

theorem rotate_node (s : Side) (c c' : Color) (a b d : RbTree α) (x y : α) :
    (s.node c a x (s.node c' b y d)).rotate s =
      some (s.node c' (s.node c a x b) y d) := by
  cases s with
  | left => rfl
  | right => rfl

theorem rotate_flip_node (s : Side) (c c' : Color) (a b d : RbTree α)
    (x y : α) :
    (s.node c (s.node c' a x b) y d).rotate s.flip =
      some (s.node c' a x (s.node c b y d)) := by
  cases s with
  | left => rfl
  | right => rfl

end RbTree

/-!
## Balance
-/

/-- A balanced tree with a root of this colour, and its number of black nodes
on every path. -/
inductive Balanced : RbTree α -> Color -> Nat -> Prop where
  | nil : Balanced .nil .black 0
  | red {l r : RbTree α} {x : α} {n : Nat} (left : Balanced l .black n)
      (right : Balanced r .black n) : Balanced (.node .red l x r) .red n
  | black {l r : RbTree α} {x : α} {c c' : Color} {n : Nat}
      (left : Balanced l c n) (right : Balanced r c' n) :
      Balanced (.node .black l x r) .black (n + 1)

namespace Balanced

variable {t near far : RbTree α} {c c' : Color} {n : Nat}

theorem sideRed (s : Side) (x : α) (hnear : Balanced near .black n)
    (hfar : Balanced far .black n) :
    Balanced (s.node .red near x far) .red n := by
  cases s with
  | left => exact red hnear hfar
  | right => exact red hfar hnear

theorem sideBlack (s : Side) (x : α) (hnear : Balanced near c n)
    (hfar : Balanced far c' n) :
    Balanced (s.node .black near x far) .black (n + 1) := by
  cases s with
  | left => exact black hnear hfar
  | right => exact black hfar hnear

theorem color_eq {l r : RbTree α} {x : α} (h : Balanced (.node c l x r) c' n) :
    c = c' := by
  cases h with
  | red _ _ => rfl
  | black _ _ => rfl

theorem near_of_red {s : Side} {x : α}
    (h : Balanced (s.node .red near x far) .red n) : Balanced near .black n := by
  cases s with
  | left =>
      cases h with
      | red hl _ => exact hl
  | right =>
      cases h with
      | red _ hr => exact hr

theorem near_of_black {s : Side} {x : α}
    (h : Balanced (s.node .black near x far) .black n) :
    exists c m, n = m + 1 ∧ Balanced near c m := by
  cases s with
  | left =>
      cases h with
      | black hl _ => exact ⟨_, _, rfl, hl⟩
  | right =>
      cases h with
      | black _ hr => exact ⟨_, _, rfl, hr⟩

theorem of_node {s : Side} {color : Color} {x : α}
    (h : Balanced (s.node color near x far) c n) (y : α) :
    Balanced (s.node color near y far) c n := by
  cases s with
  | left =>
      cases h with
      | red hl hr => exact red hl hr
      | black hl hr => exact black hl hr
  | right =>
      cases h with
      | red hl hr => exact red hl hr
      | black hl hr => exact black hl hr

theorem sideNode (s : Side) (color : Color) (x : α)
    (hnear : Balanced near .black n) (hfar : Balanced far .black n) :
    Balanced (s.node color near x far) color (color.above n) := by
  cases color with
  | red => exact sideRed s x hnear hfar
  | black => exact sideBlack s x hnear hfar

theorem isRed_eq (h : Balanced t c n) : t.isRed = (c == .red) := by
  cases h with
  | nil => rfl
  | red _ _ => rfl
  | black _ _ => rfl

theorem red_cases (s : Side) (h : Balanced t .red n) :
    exists near x far, t = s.node .red near x far ∧
      Balanced near .black n ∧ Balanced far .black n := by
  cases h with
  | @red l r x _ hl hr =>
      cases s with
      | left => exact ⟨l, x, r, rfl, hl, hr⟩
      | right => exact ⟨r, x, l, rfl, hr, hl⟩

theorem black_cases (s : Side) (h : Balanced t .black (n + 1)) :
    exists near x far c c', t = s.node .black near x far ∧
      Balanced near c n ∧ Balanced far c' n := by
  cases h with
  | @black l r x c c' _ hl hr =>
      cases s with
      | left => exact ⟨l, x, r, c, c', rfl, hl, hr⟩
      | right => exact ⟨r, x, l, c', c, rfl, hr, hl⟩

theorem paint_red (h : Balanced t .red n) :
    Balanced (t.paint .black) .black (n + 1) := by
  cases h with
  | red hl hr => exact black hl hr

theorem paint_black (h : Balanced t .black n) :
    Balanced (t.paint .black) .black n := by
  cases h with
  | nil => exact nil
  | black hl hr => exact black hl hr

theorem height_le (h : Balanced t c n) :
    t.height <= 2 * n + (if c = .red then 1 else 0) := by
  induction h with
  | nil => exact Nat.le_refl 0
  | red _ _ ihl ihr =>
      rw [if_neg (by decide)] at ihl ihr
      rw [if_pos rfl, RbTree.height]
      omega
  | @black l r x c c' n _ _ ihl ihr =>
      have hl : l.height <= 2 * n + 1 := by
        split at ihl
        · exact ihl
        · omega
      have hr : r.height <= 2 * n + 1 := by
        split at ihr
        · exact ihr
        · omega
      rw [if_neg (by decide), RbTree.height]
      omega

theorem two_pow_le (h : Balanced t c n) : 2 ^ n <= t.toList.length + 1 := by
  induction h with
  | nil => exact Nat.le_refl 1
  | red _ _ ihl _ =>
      rw [RbTree.toList_node, List.length_append, List.length_cons]
      omega
  | black _ _ ihl ihr =>
      rw [RbTree.toList_node, List.length_append, List.length_cons,
        Nat.pow_succ]
      omega

theorem height_le_log (h : Balanced t .black n) :
    t.height <= 2 * Nat.log 2 (t.toList.length + 1) := by
  have hheight := h.height_le
  rw [if_neg (by decide), Nat.add_zero] at hheight
  have hlog : n <= Nat.log 2 (t.toList.length + 1) :=
    Nat.le_log_of_pow_le (by decide) h.two_pow_le
  omega

end Balanced

/-!
## Paths
-/

structure RbFrame (α : Type) where
  side : Side
  color : Color
  elem : α
  sibling : RbTree α

abbrev RbPath (α : Type) := List (RbFrame α)

def plug : RbPath α -> RbTree α -> RbTree α
  | [], t => t
  | f :: up, t => plug up (f.side.node f.color t f.elem f.sibling)

def before : RbPath α -> List α
  | [] => []
  | ⟨.left, _, _, _⟩ :: up => before up
  | ⟨.right, _, x, sibling⟩ :: up => before up ++ (sibling.toList ++ [x])

def after : RbPath α -> List α
  | [] => []
  | ⟨.left, _, x, sibling⟩ :: up => x :: (sibling.toList ++ after up)
  | ⟨.right, _, _, _⟩ :: up => after up

theorem plug_append (p q : RbPath α) (t : RbTree α) :
    plug (p ++ q) t = plug q (plug p t) := by
  induction p generalizing t with
  | nil => rfl
  | cons f up ih => exact ih _

theorem toList_plug (p : RbPath α) (t : RbTree α) :
    (plug p t).toList = before p ++ (t.toList ++ after p) := by
  induction p generalizing t with
  | nil => exact (List.append_nil _).symm
  | cons f up ih =>
      rcases f with ⟨side, c, x, sibling⟩
      rw [plug, ih]
      cases side with
      | left => simp [before, after, Side.node]
      | right => simp [before, after, Side.node]

/--
What fits into the place: with any tree of this colour and this number of black
nodes the whole is balanced and its root is black.
-/
inductive Fits : RbPath α -> Color -> Nat -> Prop where
  | root (n : Nat) : Fits [] .black n
  | red {s : Side} {x : α} {sibling : RbTree α} {up : RbPath α} {n : Nat}
      (other : Balanced sibling .black n) (parents : Fits up .red n) :
      Fits (⟨s, .red, x, sibling⟩ :: up) .black n
  | black {s : Side} {x : α} {sibling : RbTree α} {up : RbPath α} {c c' : Color}
      {n : Nat} (other : Balanced sibling c' n)
      (parents : Fits up .black (n + 1)) :
      Fits (⟨s, .black, x, sibling⟩ :: up) c n

namespace Fits

variable {p : RbPath α} {t : RbTree α} {c : Color} {n : Nat}

theorem plug (hp : Fits p c n) (ht : Balanced t c n) :
    exists m, Balanced (plug p t) .black m := by
  induction hp generalizing t with
  | root n => exact ⟨n, ht⟩
  | red hsibling _ ih => exact ih (ht.sideRed _ _ hsibling)
  | black hsibling _ ih => exact ih (ht.sideBlack _ _ hsibling)

theorem of_red (hp : Fits p .red n) : Fits p .black n := by
  cases hp with
  | black hsibling hup => exact black hsibling hup

variable {f : RbFrame α} {up : RbPath α}

theorem red_parent (hp : Fits (f :: up) c n) (h : f.color = .red) :
    Balanced f.sibling .black n ∧ Fits up .red n := by
  cases hp with
  | red hsibling hup => exact ⟨hsibling, hup⟩
  | black _ _ => cases h

theorem black_parent (hp : Fits (f :: up) c n) (h : f.color ≠ .red) :
    exists c', Balanced f.sibling c' n ∧ Fits up .black (n + 1) := by
  cases hp with
  | red _ _ => exact absurd rfl h
  | black hsibling hup => exact ⟨_, hsibling, hup⟩

theorem parents (hp : Fits (f :: up) c n) :
    Fits up f.color (f.color.above n) := by
  cases hp with
  | red _ hup => exact hup
  | black _ hup => exact hup

theorem black_parents (hp : Fits (f :: up) c n) :
    Fits up .black (f.color.above n) := by
  cases hp with
  | red _ hup => exact hup.of_red
  | black _ hup => exact hup

theorem other_child (hp : Fits (f :: up) c n) :
    Balanced f.sibling .black n ∨
      (Balanced f.sibling .red n ∧ f.color = .black) := by
  cases hp with
  | red hsibling _ => exact Or.inl hsibling
  | @black _ _ _ _ _ c' _ hsibling _ =>
      cases c' with
      | red => exact Or.inr ⟨hsibling, rfl⟩
      | black => exact Or.inl hsibling

theorem any_color (hp : Fits (f :: up) c n) (h : f.color ≠ .red)
    (c' : Color) : Fits (f :: up) c' n := by
  cases hp with
  | red _ _ => exact absurd rfl h
  | black hsibling hup => exact black hsibling hup

theorem parent_of_red (hp : Fits (f :: up) .red n) : f.color = .black := by
  cases hp with
  | black _ _ => rfl

theorem not_root_of_red : ¬ Fits ([] : RbPath α) .red n := by
  intro hp
  cases hp

theorem child {s : Side} {near far : RbTree α} {x : α} (hp : Fits p c n)
    (h : Balanced (s.node c near x far) c n) :
    exists c' m, Fits (⟨s, c, x, far⟩ :: p) c' m ∧ Balanced near c' m := by
  cases s with
  | left =>
      cases h with
      | red hl hr => exact ⟨.black, n, red hr hp, hl⟩
      | black hl hr => exact ⟨_, _, black hr hp, hl⟩
  | right =>
      cases h with
      | red hl hr => exact ⟨.black, n, red hl hp, hr⟩
      | black hl hr => exact ⟨_, _, black hl hp, hr⟩

end Fits

end RedBlack
end Foundation
end Z2wRpc
