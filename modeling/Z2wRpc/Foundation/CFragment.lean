import Mathlib.Data.List.Nodup
import Z2wRpc.Foundation.Bytes

/-!
# Fragments of C as trees

Function heads and flat function bodies with their text, enough to say what a
generated function declares, which lists it holds and what a name in it refers
to.  A body declares in the same scope as the parameters of its function.
-/

namespace Z2wRpc
namespace Foundation
namespace CFragment

/-!
## Lists
-/

def commaSeparated (elements : List (List Byte)) : List Byte :=
  (ascii ", ").intercalate elements

@[simp]
theorem commaSeparated_singleton (element : List Byte) :
    commaSeparated [element] = element :=
  List.intercalate_singleton

@[simp]
theorem commaSeparated_cons_cons (first second : List Byte)
    (rest : List (List Byte)) :
    commaSeparated (first :: second :: rest) =
      first ++ (ascii ", " ++ commaSeparated (second :: rest)) := by
  rw [commaSeparated, List.intercalate_cons_cons, List.append_assoc]
  rfl

def NoneEmpty (elements : List (List Byte)) : Prop :=
  forall element, element ∈ elements -> element ≠ []

instance (elements : List (List Byte)) : Decidable (NoneEmpty elements) :=
  inferInstanceAs (Decidable (forall element, element ∈ elements -> _))

theorem noneEmpty_map_iff {α : Type} {f : α -> List Byte} {l : List α} :
    NoneEmpty (l.map f) <-> forall a, a ∈ l -> f a ≠ [] :=
  List.forall_mem_map

theorem noneEmpty_cons_iff {first : List Byte} {rest : List (List Byte)} :
    NoneEmpty (first :: rest) <-> first ≠ [] ∧ NoneEmpty rest :=
  List.forall_mem_cons

/-!
## Names
-/

def startsName (b : Byte) : Bool :=
  (65 <= b.toNat && b.toNat <= 90) || (97 <= b.toNat && b.toNat <= 122) ||
    b.toNat == 95

def continuesName (b : Byte) : Bool :=
  startsName b || (48 <= b.toNat && b.toNat <= 57)

def isIdentifier (x : CString) : Bool :=
  match x.bytes with
  | [] => false
  | first :: rest => startsName first && rest.all continuesName

theorem bytes_ne_nil_of_identifier {x : CString} (h : isIdentifier x = true) :
    x.bytes ≠ [] := by
  intro hempty
  rw [isIdentifier, hempty] at h
  cases h

/-!
## Syntax
-/

structure Declaration where
  specifier : CString
  name : CString

inductive Operand where
  | literal (text : CString)
  | name (x : CString)
  | member (x field : CString)

inductive Expr where
  | operand (o : Operand)
  | call (callee : CString) (args : List Operand)

inductive Statement where
  | declare (d : Declaration) (value : Expr)
  | eval (e : Expr)
  | comment (text : CString)
  | ret (o : Operand)

structure Head where
  declares : Declaration
  params : List Declaration

structure Function where
  head : Head
  body : List Statement

/-!
## Texts
-/

def Declaration.text (d : Declaration) : List Byte :=
  d.specifier.bytes ++ d.name.bytes

def Operand.text : Operand -> List Byte
  | .literal text => text.bytes
  | .name x => x.bytes
  | .member x field => x.bytes ++ (ascii "->" ++ field.bytes)

def Expr.text : Expr -> List Byte
  | .operand o => o.text
  | .call callee args =>
      callee.bytes ++
        (ascii "(" ++ (commaSeparated (args.map Operand.text) ++ ascii ")"))

def Statement.text : Statement -> List Byte
  | .declare d value =>
      ascii "\t" ++ (d.text ++ (ascii " = " ++ (value.text ++ ascii ";\n")))
  | .eval e => ascii "\t" ++ (e.text ++ ascii ";\n")
  | .comment text => ascii "\t/*" ++ (text.bytes ++ ascii "*/\n")
  | .ret o => ascii "\treturn " ++ (o.text ++ ascii ";\n")

def Head.text (head : Head) : List Byte :=
  head.declares.text ++
    (ascii "(" ++
      (commaSeparated (head.params.map Declaration.text) ++ ascii ")"))

def Head.prototype (head : Head) : List Byte :=
  head.text ++ ascii ";\n"

def Function.text (f : Function) : List Byte :=
  f.head.text ++ (ascii "\n\x7b\n" ++
    (f.body.flatMap Statement.text ++ ascii "\x7d\n\n"))

/-!
## The lists of a function
-/

def Expr.lists : Expr -> List (List (List Byte))
  | .operand _ => []
  | .call _ args => [args.map Operand.text]

def Statement.lists : Statement -> List (List (List Byte))
  | .declare _ value => value.lists
  | .eval e => e.lists
  | .comment _ => []
  | .ret _ => []

def Head.list (head : Head) : List (List Byte) :=
  head.params.map Declaration.text

def Function.lists (f : Function) : List (List (List Byte)) :=
  f.head.list :: f.body.flatMap Statement.lists

def Statement.Complete (line : Statement) : Prop :=
  forall list, list ∈ line.lists -> NoneEmpty list

instance (line : Statement) : Decidable line.Complete :=
  inferInstanceAs (Decidable (forall list, list ∈ line.lists -> _))

def Function.Complete (f : Function) : Prop :=
  forall list, list ∈ f.lists -> NoneEmpty list

theorem complete_iff {f : Function} :
    f.Complete <-> NoneEmpty f.head.list ∧
      forall line, line ∈ f.body -> line.Complete := by
  rw [Function.Complete, Function.lists, List.forall_mem_cons]
  apply and_congr_right
  intro _
  constructor
  · intro h line hline list hlist
    exact h list (List.mem_flatMap.mpr ⟨line, hline, hlist⟩)
  · intro h list hlist
    rcases List.mem_flatMap.mp hlist with ⟨line, hline, hlist⟩
    exact h line hline list hlist

/-!
## Scopes
-/

def Statement.declared : Statement -> List CString
  | .declare d _ => [d.name]
  | _ => []

def locals (body : List Statement) : List CString :=
  body.flatMap Statement.declared

def Head.names (head : Head) : List CString :=
  head.params.map Declaration.name

def Function.scope (f : Function) : List CString :=
  f.head.names ++ locals f.body

inductive Referent where
  | parameter
  | variable
deriving DecidableEq

/--
The referent of a name in the statement with index `k`, which sees the name
that it declares itself.
-/
def Function.refersTo (f : Function) (k : Nat) (x : CString) :
    Option Referent :=
  if x ∈ locals (f.body.take (k + 1)) then some .variable
  else if x ∈ f.head.names then some .parameter
  else none

theorem refersTo_eq_parameter_iff {f : Function} {k : Nat} {x : CString} :
    f.refersTo k x = some .parameter <->
      x ∉ locals (f.body.take (k + 1)) ∧ x ∈ f.head.names := by
  unfold Function.refersTo
  split
  · rename_i hlocal
    simp [hlocal]
  · rename_i hlocal
    simp [hlocal]

theorem scope_nodup_iff {f : Function} :
    f.scope.Nodup <-> f.head.names.Nodup ∧ (locals f.body).Nodup ∧
      forall x, x ∈ f.head.names -> x ∉ locals f.body := by
  rw [Function.scope, List.nodup_append']
  rfl

end CFragment
end Foundation
end Z2wRpc
