import Z2wRpc.Generator.EmittedCode

/-!
# Prototypes and definitions

The two writers print the signatures of an element separately.  In every run
that reports success the header declares what the source defines, under the
names of the document.
-/

namespace Z2wRpc

open Foundation

namespace Generator

open CJson CFragment Dispatch

/-!
## What belongs to an element
-/

/--
The functions that the document asks for: the method, its handler and its stub
with its types and names, and nothing for an element without a name or a return
type.
-/
def Defines (item : CJson) (fs : List Function) : Prop :=
  (Named item -> exists entry, Lists item entry ∧
    fs.map Function.head =
      [methodHead entry, handlerHead entry, stubHead entry]) ∧
  (¬ Named item -> fs = [])

/-- The source defines these functions and the header declares them, those of
one element in the opposite order. -/
def HeaderMatchesSource (s : Setting) (prior : Target -> List Byte) : Prop :=
  exists items definitions, HasItems s items ∧
    List.Forall₂ Defines items definitions ∧
    generatedFile s prior .source = text sourcePreamble ++
      definitions.flatten.flatMap Function.text ∧
    generatedFile s prior .header = text headerPreamble ++
      ((definitions.flatMap fun fs => fs.reverse.map Function.head).flatMap
        Head.prototype ++ text headerEnd)

/-!
## What is written
-/

def definitionsOf (item : CJson) : List Function :=
  (shownEntry item).toList.flatMap fun entry =>
    functions entry (sentOperands entry)

theorem codeOfItem_source (item : CJson) :
    (codeOfItem .source item).flatMap CString.bytes =
      (definitionsOf item).flatMap Function.text := by
  rw [codeOfItem, definitionsOf]
  cases shownEntry item with
  | none => rfl
  | some entry =>
      simp only [Option.toList_some, List.flatMap_singleton]
      exact text_source entry

theorem codeOfItem_header (item : CJson) :
    (codeOfItem .header item).flatMap CString.bytes =
      ((definitionsOf item).reverse.map Function.head).flatMap
        Head.prototype := by
  rw [codeOfItem, definitionsOf]
  cases shownEntry item with
  | none => rfl
  | some entry =>
      simp only [Option.toList_some, List.flatMap_singleton]
      exact text_header entry

section

variable {s : Setting}

theorem files_of_definitions (h : ReachesSuccess s)
    (prior : Target -> List Byte) :
    exists items, HasItems s items ∧
      (forall item, item ∈ items -> exists i, GoodEntry s i (some item)) ∧
      generatedFile s prior .source = text sourcePreamble ++
        (items.map definitionsOf).flatten.flatMap Function.text ∧
      generatedFile s prior .header = text headerPreamble ++
        (((items.map definitionsOf).flatMap fun fs =>
          fs.reverse.map Function.head).flatMap Head.prototype ++
            text headerEnd) := by
  rw [reachesSuccess_iff] at h
  rcases generatedFile_of_accepted h prior with
    ⟨items, hitems, hgood, hfiles⟩
  refine ⟨items, hitems, ?_, ?_, ?_⟩
  · intro item hitem
    rcases List.mem_iff_getElem?.mp hitem with ⟨i, hi⟩
    exact ⟨i, hgood i item hi⟩
  · rcases hfiles .source with ⟨hprinted, hfile⟩
    rw [hfile, hprinted, preambleOf, endOf, List.append_nil,
      List.flatMap_append, List.flatMap_assoc, <- List.flatMap_def,
      List.flatMap_assoc]
    simp only [codeOfItem_source]
    rfl
  · rcases hfiles .header with ⟨hprinted, hfile⟩
    rw [hfile, hprinted, preambleOf, endOf, List.flatMap_append,
      List.flatMap_append, List.flatMap_assoc, List.flatMap_map,
      List.flatMap_assoc]
    simp only [codeOfItem_header]
    rfl

/-!
## Names of the document
-/

theorem exists_lists_of_written {i : Nat} {item : CJson}
    (hwritten : WrittenEntry s i (some item)) (hnamed : Named item) :
    exists entry, Lists item entry := by
  rcases hwritten with ⟨method, rettype, params, types, hmethod, hrettype,
    hparamsOf, htypesOf, hsize, _, _, hwritable⟩
  have hwrites : GeneratorWritesEntry item :=
    ⟨method, rettype, params, types, hmethod, hrettype, hparamsOf, htypesOf,
      hsize, hwritable⟩
  have hnames := hnamed
  rw [Named, hmethod, hrettype] at hnames
  rcases hwritable hnames.left hnames.right with ⟨htypes, hparams⟩
  refine exists_lists hwrites ⟨hnamed.left, hnamed.right, ?_, ?_⟩
  · rw [paramsOf, hparamsOf]
    exact hparams
  · rw [typesOf, htypesOf]
    exact htypes

theorem defines_definitionsOf {item : CJson}
    (h : Named item -> exists entry, Lists item entry) :
    Defines item (definitionsOf item) := by
  constructor
  · intro hnamed
    rcases h hnamed with ⟨entry, hlists⟩
    refine ⟨entry, hlists, ?_⟩
    rw [definitionsOf, shownEntry_of_lists hlists]
    rfl
  · intro hnamed
    rw [definitionsOf, (shownEntry_eq_none_iff item).mpr hnamed]
    rfl

end

end Generator
end Z2wRpc
