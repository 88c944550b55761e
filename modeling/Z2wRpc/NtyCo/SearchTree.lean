import Z2wRpc.Foundation.RedBlack

/-!
# The search trees of the scheduler

`RB_GENERATE` of `nty_tree.h`, for the two trees of coroutines that the
scheduler keeps.  A node is the key by which it is compared and the coroutine.
The nodes above a node, which the macros reach through `RB_PARENT`, are its
path.  A node that is missing where the macros read one is `none`.
-/

namespace Z2wRpc
namespace NtyCo

open Foundation RedBlack

variable {α κ β : Type}

/-!
## Colours
-/

def rbRotateIf (needed : Prop) [Decidable needed] (side : Side) (t : RbTree α) :
    Option (RbTree α) :=
  if needed then t.rotate side else some t

/--
`RB_INSERT_COLOR`, from `elm` upwards.  The two branches of the source differ
in the side on which the parent is.
-/
def rbInsertColor : RbPath α -> RbTree α -> Option (RbTree α)
  | [], elm => some (elm.paint .black)
  | [parent], elm =>
      -- a red parent without a parent of its own
      if parent.color = .red then none
      else some ((plug [parent] elm).paint .black)
  | parent :: gparent :: up, elm =>
      if parent.color = .red then
        if gparent.sibling.isRed then
          rbInsertColor up
            (gparent.side.node .red
              (parent.side.node .black elm parent.elem parent.sibling)
              gparent.elem (gparent.sibling.paint .black))
        else do
          let upper <- rbRotateIf (parent.side ≠ gparent.side) gparent.side
            (parent.side.node .red elm parent.elem parent.sibling)
          let top <- RbTree.rotate gparent.side.flip
            (gparent.side.node .red (upper.paint .black) gparent.elem
              gparent.sibling)
          some ((plug up top).paint .black)
      else some ((plug (parent :: gparent :: up) elm).paint .black)

/-- `tmp` in the colour of the parent, its child away from `elm` black. -/
def rbRecolor (side : Side) (color : Color) : RbTree α -> Option (RbTree α)
  | .nil => none
  | .node _ l x r =>
      match side with
      | .left => some (.node color l x (r.paint .black))
      | .right => some (.node color (l.paint .black) x r)

/-- The child of `tmp` on the side of `elm`, and the other one. -/
def rbNear (side : Side) (l r : RbTree α) : RbTree α :=
  match side with
  | .left => l
  | .right => r

/--
The round of `RB_REMOVE_COLOR` in which `tmp`, the other child of the parent,
is black.  Either the loop goes on at the parent, or it is left with a new
subtree.
-/
def rbRemoveColorRound (parent : RbFrame α) (elm : RbTree α) :
    Option (Bool × RbTree α) :=
  match parent.sibling with
  | .nil => none
  | .node color l x r =>
      let near := rbNear parent.side l r
      let far := rbNear parent.side.flip l r
      if near.isRed = false ∧ far.isRed = false then
        some (true, parent.side.node parent.color elm parent.elem
          (.node .red l x r))
      else do
        let tmp : RbTree α := if far.isRed then .node color l x r
          else parent.side.node .red (near.paint .black) x far
        let tmp <- rbRotateIf (far.isRed = false) parent.side.flip tmp
        let tmp <- rbRecolor parent.side parent.color tmp
        let top <- RbTree.rotate parent.side
          (parent.side.node .black elm parent.elem tmp)
        some (false, top)

/-- `RB_REMOVE_COLOR`: the place of `elm` passes one black node too few. -/
def rbRemoveColor : RbPath α -> RbTree α -> Option (RbTree α)
  | [], elm => some (elm.paint .black)
  | parent :: up, elm =>
      if elm.isRed then some (plug (parent :: up) (elm.paint .black))
      else
        match parent.sibling with
        | .nil => none
        | .node .red l x r =>
            -- the parent goes down, red, and `tmp` comes up, black
            let upper : RbFrame α :=
              ⟨parent.side, .black, x, rbNear parent.side.flip l r⟩
            match rbRemoveColorRound
              { parent with color := .red, sibling := rbNear parent.side l r }
              elm with
            | none => none
            -- the parent is red, so the loop ends there
            | some (true, t) => some (plug (upper :: up) (t.paint .black))
            | some (false, t) => some ((plug (upper :: up) t).paint .black)
        | .node .black _ _ _ =>
            match rbRemoveColorRound parent elm with
            | none => none
            | some (true, t) => rbRemoveColor up t
            | some (false, t) => some ((plug up t).paint .black)

/-!
## Insertion and removal
-/

def rbSeek [LinearOrder κ] (k : κ) :
    RbTree (κ × β) -> RbPath (κ × β) -> RbPath (κ × β) × RbTree (κ × β)
  | .nil, parents => (parents, .nil)
  | .node c l x r, parents =>
      if k < x.1 then rbSeek k l (⟨.left, c, x, r⟩ :: parents)
      else if x.1 < k then rbSeek k r (⟨.right, c, x, l⟩ :: parents)
      else (parents, .node c l x r)

/-- `RB_INSERT`: the node that was there before, and the tree. -/
def rbInsert [LinearOrder κ] (elm : κ × β) (head : RbTree (κ × β)) :
    Option (Option (κ × β) × RbTree (κ × β)) :=
  match rbSeek elm.1 head [] with
  | (_, .node _ _ x _) => some (some x, head)
  | (parents, .nil) =>
      (rbInsertColor parents (.node .red .nil elm .nil)).map fun t => (none, t)

def rbFind [LinearOrder κ] (k : κ) : RbTree (κ × β) -> Option (κ × β)
  | .nil => none
  | .node _ l x r =>
      if k < x.1 then rbFind k l else if x.1 < k then rbFind k r else some x

/-- How many comparisons `RB_FIND` makes. -/
def rbFindSteps [LinearOrder κ] (k : κ) : RbTree (κ × β) -> Nat
  | .nil => 0
  | .node _ l x r =>
      (if k < x.1 then rbFindSteps k l
        else if x.1 < k then rbFindSteps k r else 0) + 1

/-- `RB_MINMAX` to the left, below `parent`. -/
def rbMinBelow (parent : Option α) : RbTree α -> Option α
  | .nil => parent
  | .node _ l x _ => rbMinBelow (some x) l

def rbMin (head : RbTree α) : Option α :=
  rbMinBelow none head

def rbLeftmost : Color -> RbTree α -> α -> RbTree α -> RbPath α ->
    Color × α × RbTree α × RbPath α
  | c, .nil, x, r, parents => (c, x, r, parents)
  | c, .node c' l' x' r', x, r, parents =>
      rbLeftmost c' l' x' r' (⟨.left, c, x, r⟩ :: parents)

def rbUnlink (color : Color) (parents : RbPath α) (child : RbTree α) :
    Option (RbTree α) :=
  if color = .black then rbRemoveColor parents child
  else some (plug parents child)

/-- `RB_REMOVE` of the node with this key, which has to be in the tree. -/
def rbRemove [LinearOrder κ] (k : κ) (head : RbTree (κ × β)) :
    Option (RbTree (κ × β)) :=
  match rbSeek k head [] with
  | (_, .nil) => none
  | (parents, .node c .nil _ r) => rbUnlink c parents r
  | (parents, .node c l _ .nil) => rbUnlink c parents l
  | (parents, .node c l _ (.node c' l' x' r')) =>
      -- the next node takes the place and the colour
      let (color, next, child, below) := rbLeftmost c' l' x' r' []
      rbUnlink color (below ++ ⟨.right, c, next, l⟩ :: parents) child

end NtyCo
end Z2wRpc
