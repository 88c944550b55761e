import Z2wRpc.Generator.EmittedCode

/-!
# The lists in the emitted code

Every separator loop is right for any number of parameters, but the stub prints
a comma behind the number of parameters before it knows whether any follow.
-/

namespace Z2wRpc

open Foundation

namespace Generator

open CFragment CJson Dispatch

def countedNames (entry : EntryText) : List Operand :=
  .literal (CString.ofBytes (decimal entry.params.length)) ::
    entry.params.map fun p => .name p.1

/--
The texts are those of the functions and heads with one declaration, one item
and one name for each parameter, and no list in them has an empty element.
-/
structure CompleteLists (source header : List Byte) (entry : EntryText) :
    Prop where
  source : source =
    (functions entry (countedNames entry)).flatMap Function.text
  header : header = (heads entry).flatMap Head.prototype
  calls : forall f, f ∈ functions entry (countedNames entry) -> f.Complete
  prototypes : forall head, head ∈ heads entry -> NoneEmpty head.list

section

variable {entry : EntryText}

/-!
## No empty element
-/

theorem declaration_text_ne_nil {d : Declaration} (h : d.specifier.bytes ≠ []) :
    d.text ≠ [] := by
  rw [Declaration.text]
  exact List.append_ne_nil_of_left_ne_nil h _

theorem noneEmpty_parameters :
    NoneEmpty ((entry.params.map parameter).map Declaration.text) := by
  rw [List.map_map]
  apply noneEmpty_map_iff.mpr
  intro p _
  apply declaration_text_ne_nil
  exact List.append_ne_nil_of_right_ne_nil _ (by decide)

theorem noneEmpty_heads (head : Head) (h : head ∈ heads entry) :
    NoneEmpty head.list := by
  simp only [heads, List.mem_cons, List.not_mem_nil, or_false] at h
  rcases h with rfl | rfl | rfl
  · exact noneEmpty_parameters
  · show NoneEmpty [_, _]
    rw [noneEmpty_cons_iff, noneEmpty_cons_iff]
    refine ⟨by decide, by decide, ?_⟩
    intro element helement
    cases helement
  · exact noneEmpty_parameters

theorem noneEmpty_items :
    NoneEmpty ((entry.params.map itemOperand).map Operand.text) := by
  rw [List.map_map]
  apply noneEmpty_map_iff.mpr
  intro p _
  apply List.append_ne_nil_of_right_ne_nil
  exact List.append_ne_nil_of_left_ne_nil (by decide) _

theorem noneEmpty_countedNames
    (hnames : forall p, p ∈ entry.params -> isIdentifier p.1 = true) :
    NoneEmpty ((countedNames entry).map Operand.text) := by
  rw [countedNames, List.map_cons, noneEmpty_cons_iff, List.map_map]
  constructor
  · show (CString.ofBytes (decimal entry.params.length)).bytes ≠ []
    rw [CString.ofBytes_bytes_of_noNul (Double.decimal_noNul _)]
    exact decimal_ne_nil _
  · apply noneEmpty_map_iff.mpr
    intro p hp
    exact bytes_ne_nil_of_identifier (hnames p hp)

theorem complete_of_list {line : Statement} {list : List (List Byte)}
    (hlists : line.lists = [list]) (h : NoneEmpty list) : line.Complete := by
  rw [Statement.Complete, hlists]
  exact List.forall_mem_singleton.mpr h

theorem complete_lookup (p : CString × CString) :
    (lookupStatement p).Complete := by
  apply complete_of_list rfl
  rw [List.map_cons, List.map_cons, List.map_nil, noneEmpty_cons_iff,
    noneEmpty_cons_iff]
  refine ⟨by decide, ?_, by decide⟩
  exact List.append_ne_nil_of_left_ne_nil (by decide) _

theorem complete_conversion (type : CString) :
    (conversionStatement type).Complete := by
  unfold conversionStatement
  split_ifs
  case neg =>
    intro list hlist
    cases hlist
  all_goals decide

theorem complete_methodFunction : (methodFunction entry).Complete := by
  apply complete_iff.mpr
  refine ⟨noneEmpty_parameters, fun line hline => ?_⟩
  simp only [methodFunction, List.mem_cons, List.not_mem_nil, or_false]
    at hline
  rcases hline with rfl | rfl | rfl
  · split
    · decide
    · intro list hlist
      cases hlist
  · decide
  · decide

theorem complete_handlerFunction : (handlerFunction entry).Complete := by
  apply complete_iff.mpr
  have hhead : handlerHead entry ∈ heads entry := by simp [heads]
  refine ⟨noneEmpty_heads _ hhead, fun line hline => ?_⟩
  rcases List.mem_append.mp hline with hlookup | hline
  · rcases List.mem_map.mp hlookup with ⟨p, _, rfl⟩
    exact complete_lookup p
  · simp only [List.mem_cons, List.not_mem_nil, or_false] at hline
    rcases hline with rfl | rfl | rfl | rfl | rfl | rfl | rfl | rfl
    · exact complete_of_list rfl noneEmpty_items
    · decide
    · decide
    · split
      · decide
      · decide
    · decide
    · decide
    · decide
    · decide

theorem complete_stubFunction
    (hnames : forall p, p ∈ entry.params -> isIdentifier p.1 = true) :
    (stubFunction entry (countedNames entry)).Complete := by
  apply complete_iff.mpr
  refine ⟨noneEmpty_parameters, fun line hline => ?_⟩
  simp only [stubFunction, List.mem_cons, List.not_mem_nil, or_false] at hline
  rcases hline with rfl | rfl | rfl | rfl | rfl | rfl | rfl | rfl
  · exact complete_of_list rfl (noneEmpty_countedNames hnames)
  · decide
  · decide
  · exact complete_conversion _
  · decide
  · decide
  · decide
  · decide

/-!
## The stub's call
-/

theorem sent_eq_of_text {sent sent' : List Operand}
    (h : (stubFunction entry sent).text = (stubFunction entry sent').text) :
    commaSeparated (sent.map Operand.text) =
      commaSeparated (sent'.map Operand.text) := by
  simpa [Function.text, stubFunction, Statement.text, Expr.text] using h

theorem sentOperands_of_ne (h : entry.params ≠ []) :
    sentOperands entry = countedNames entry := by
  rw [sentOperands, if_neg h, countedNames]

theorem sent_text_ne (h : entry.params = []) :
    commaSeparated ((sentOperands entry).map Operand.text) ≠
      commaSeparated ((countedNames entry).map Operand.text) := by
  rw [sentOperands, countedNames, if_pos h, h]
  decide

end

/-!
## Any number of parameters
-/

section

variable {s : Setting} {i : Nat} {item : CJson} {entry : EntryText}

theorem completeLists_of_some (hwritten : WrittenEntry s i (some item))
    (hlists : Lists item entry)
    (hnames : forall p, p ∈ entry.params -> isIdentifier p.1 = true)
    (hsome : entry.params ≠ []) :
    CompleteLists (written s i item .source) (written s i item .header)
      entry := by
  rcases written_of_lists entry hwritten hlists with ⟨hsource, hheader⟩
  rw [sentOperands_of_ne hsome] at hsource
  refine ⟨hsource, hheader, fun f hf => ?_, noneEmpty_heads⟩
  simp only [functions, List.mem_cons, List.not_mem_nil, or_false] at hf
  rcases hf with rfl | rfl | rfl
  · exact complete_methodFunction
  · exact complete_handlerFunction
  · exact complete_stubFunction hnames

theorem not_completeLists_of_none (hwritten : WrittenEntry s i (some item))
    (hlists : Lists item entry) (hnone : entry.params = []) :
    ¬ CompleteLists (written s i item .source) (written s i item .header)
      entry := by
  intro h
  rcases written_of_lists entry hwritten hlists with ⟨hsource, _⟩
  have hsame := hsource.symm.trans h.source
  simp only [functions, List.flatMap_cons, List.flatMap_nil, List.append_nil,
    List.append_cancel_left_eq] at hsame
  exact sent_text_ne hnone (sent_eq_of_text hsame)

end

/--
The lists in the code written for an accepted entry are complete exactly when
the entry has a parameter.
-/
theorem completeLists_iff {s : Setting} {i : Nat} {item : CJson}
    {entry : EntryText} (hwritten : WrittenEntry s i (some item))
    (hlists : Lists item entry)
    (hnames : forall p, p ∈ entry.params -> isIdentifier p.1 = true) :
    CompleteLists (written s i item .source) (written s i item .header)
        entry <-> entry.params ≠ [] := by
  constructor
  · intro h hnone
    exact not_completeLists_of_none hwritten hlists hnone h
  · intro hsome
    exact completeLists_of_some hwritten hlists hnames hsome

theorem completeLists_add :
    CompleteLists (written (workingSetting []) 1 addSignature.text.document
        .source)
      (written (workingSetting []) 1 addSignature.text.document .header)
      addSignature.text <-> addSignature.text.params ≠ [] := by
  have hwritten : WrittenEntry (workingSetting []) 1
      (some addSignature.text.document) :=
    (writtenEntry_iff (fun _ => rfl) 1 _).mpr
      (generatorWrites_of_describes (describes_entry _))
  exact completeLists_iff hwritten (lists_of_describes (describes_entry _))
    (by decide)

def pingEntry : EntryText where
  method := .lit "ping"
  params := []
  rettype := .lit "int"

def pingDocument : CJson :=
  entriesDocument (.lit "172.16.0.6") 9096 [pingEntry]

/-- The generator accepts it, and its stub does not compile. -/
theorem pingEntry_empty_argument :
    ReachesSuccess (workingSetting (print pingDocument).bytes) ∧
      ¬ CompleteLists
        (written (workingSetting (print pingDocument).bytes) 0
          pingEntry.document .source)
        (written (workingSetting (print pingDocument).bytes) 0
          pingEntry.document .header) pingEntry := by
  have hwritten : WrittenEntry (workingSetting (print pingDocument).bytes) 0
      (some pingEntry.document) :=
    (writtenEntry_iff (fun _ => rfl) 0 _).mpr
      (generatorWrites_of_describes (describes_entry _))
  constructor
  · exact reachesSuccess_entriesDocument (by decide) (by decide +kernel)
  · exact not_completeLists_of_none hwritten
      (lists_of_describes (describes_entry _)) rfl

end Generator
end Z2wRpc
