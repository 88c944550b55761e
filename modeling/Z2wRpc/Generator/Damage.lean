import Z2wRpc.Generator.Accepted

/-!
# What a failed generation leaves behind

The streams are opened for writing before the register file is parsed, so a
register file that is refused later has already emptied both files.
-/

namespace Z2wRpc

open Foundation

namespace Generator

/--
Unless the success messages are reached, both files are at the end what they
were before, whatever that was.
-/
def DestroysNothing (s : Setting) : Prop :=
  ¬ ReachesSuccess s ->
    forall prior target, (filesAfter s prior).contents target = prior target

def OpensNothing (s : Setting) : Prop :=
  forall content, s.register = some content -> ReadWhole s content ->
    forall target, s.opens target = false

section

variable {s : Setting}

/-!
## Files that are opened and files that are not
-/

theorem after_keeps {files : Files} {c : Call} {target : Target}
    (hclosed : files.stream target = none)
    (hopen : c = .fopen target -> s.opens target = false) :
    (files.after s c).contents target = files.contents target ∧
      (files.after s c).stream target = none := by
  cases c with
  | fopen other =>
      rw [Files.after]
      split
      · rename_i hopens
        have hne : target ≠ other := by
          intro heq
          subst heq
          rw [hopen rfl] at hopens
          cases hopens
        simp [Function.update_of_ne hne, hclosed]
      · exact ⟨rfl, hclosed⟩
  | fprintf other text =>
      rw [Files.after]
      split
      · exact ⟨rfl, hclosed⟩
      · rename_i buffer hbuffer
        have hne : target ≠ other := by
          intro heq
          subst heq
          rw [hclosed] at hbuffer
          cases hbuffer
        simp [Function.update_of_ne hne, hclosed]
  | _ => exact ⟨rfl, hclosed⟩

theorem foldl_after_keeps {files : Files} {calls : List Call}
    {target : Target} (hclosed : files.stream target = none)
    (hopen : .fopen target ∈ calls -> s.opens target = false) :
    (calls.foldl (Files.after s) files).contents target =
      files.contents target := by
  induction calls generalizing files with
  | nil => rfl
  | cons c rest ih =>
      have hstep := after_keeps hclosed
        (fun h => hopen (h ▸ List.mem_cons_self))
      rw [List.foldl_cons,
        ih hstep.right fun h => hopen (List.mem_cons_of_mem c h)]
      exact hstep.left

def SameFile (target : Target) (files files' : Files) : Prop :=
  files.contents target = files'.contents target ∧
    files.stream target = files'.stream target

theorem after_same {files files' : Files} {c : Call} {target : Target}
    (h : SameFile target files files') :
    SameFile target (files.after s c) (files'.after s c) := by
  rcases h with ⟨hcontents, hstream⟩
  cases c with
  | fopen other =>
      rw [Files.after, Files.after]
      split
      · by_cases hother : target = other
        · subst hother
          simp [SameFile]
        · simp [SameFile, Function.update_of_ne hother, hcontents, hstream]
      · exact ⟨hcontents, hstream⟩
  | fprintf other text =>
      by_cases hother : target = other
      · subst hother
        rw [Files.after, Files.after, hstream, hcontents]
        split
        · exact ⟨hcontents, hstream⟩
        · simp [SameFile]
      · have hkeeps (f : Files) :
            SameFile target (f.after s (.fprintf other text)) f := by
          rw [Files.after]
          split
          · exact ⟨rfl, rfl⟩
          · simp [SameFile, Function.update_of_ne hother]
        rw [SameFile, (hkeeps files).left, (hkeeps files).right,
          (hkeeps files').left, (hkeeps files').right]
        exact ⟨hcontents, hstream⟩
  | _ => exact ⟨hcontents, hstream⟩

theorem after_fopen {files files' : Files} {target : Target}
    (h : s.opens target = true) :
    SameFile target (files.after s (.fopen target))
      (files'.after s (.fopen target)) := by
  rw [Files.after, Files.after, if_pos h, if_pos h]
  simp [SameFile]

theorem foldl_after_same {files files' : Files} {calls : List Call}
    {target : Target} (hopens : s.opens target = true)
    (hmem : .fopen target ∈ calls ∨ SameFile target files files') :
    SameFile target (calls.foldl (Files.after s) files)
      (calls.foldl (Files.after s) files') := by
  induction calls generalizing files files' with
  | nil =>
      rcases hmem with hmem | hsame
      · cases hmem
      · exact hsame
  | cons c rest ih =>
      apply ih
      rcases hmem with hmem | hsame
      · rcases List.mem_cons.mp hmem with rfl | hrest
        · exact Or.inr (after_fopen hopens)
        · exact Or.inl hrest
      · exact Or.inr (after_same hsame)

/-!
## When nothing is destroyed
-/

theorem filesAfter_of_opensNothing (h : OpensNothing s)
    (prior : Target -> List Byte) (target : Target) :
    (filesAfter s prior).contents target = prior target := by
  apply foldl_after_keeps rfl
  intro hmem
  rcases (mem_fopen_iff target).mp hmem with ⟨content, hregister, hread⟩
  exact h content hregister hread target

theorem filesAfter_of_opens {content : List Byte} {target : Target}
    (hregister : s.register = some content) (hread : ReadWhole s content)
    (hopens : s.opens target = true) (prior prior' : Target -> List Byte) :
    (filesAfter s prior).contents target =
      (filesAfter s prior').contents target := by
  have hmem : .fopen target ∈ (rpcGenerateMethodCode s).events :=
    (mem_fopen_iff target).mpr ⟨content, hregister, hread⟩
  exact (foldl_after_same hopens (Or.inl hmem)).left

end

/--
A generation destroys nothing exactly when it succeeds, or neither file gets
as far as being opened for writing.
-/
theorem destroysNothing_iff (s : Setting) :
    DestroysNothing s <-> Accepted s ∨ OpensNothing s := by
  unfold DestroysNothing
  rw [reachesSuccess_iff, or_iff_not_imp_left]
  constructor
  · intro hkeeps haccepted content hregister hread target
    by_contra hopens
    rw [Bool.not_eq_false] at hopens
    have hempty := hkeeps haccepted (fun _ => []) target
    have hfull := hkeeps haccepted (fun _ => [0#8]) target
    have hsame := filesAfter_of_opens hregister hread hopens
      (fun _ => []) (fun _ => [0#8])
    rw [hempty, hfull] at hsame
    cases hsame
  · intro hopens haccepted prior target
    exact filesAfter_of_opensNothing (hopens haccepted) prior target

/-!
## A register file that is not JSON
-/

/-- Every call succeeds and `read` delivers the whole file. -/
def workingSetting (content : List Byte) : Setting where
  register := some content
  mallocs _ := true
  memory := List.replicate (content.length + 1) 0#8
  delivers := some content.length
  opens _ := true
  parses := true
  flushes _ _ := 0
  holdsNull _ := false

/-- The hand-written methods are gone when the generator returns. -/
theorem notJson_empties_files :
    (rpcGenerateMethodCode (workingSetting (ascii "add"))).result = .ok (-1) ∧
      ¬ ReachesSuccess (workingSetting (ascii "add")) ∧
      forall target, (filesAfter (workingSetting (ascii "add"))
        fun _ => ascii "int rpc_add(int a, int b);\n").contents target = [] := by
  have hparse : CJson.parse
      (jsonText (workingSetting (ascii "add")) (ascii "add")) = none := rfl
  refine ⟨rfl, ?_, ?_⟩
  · rw [reachesSuccess_iff]
    intro h
    rcases h with ⟨content, hregister, _, _, _, _, root, hroot, _⟩
    rw [<- Option.some.inj hregister, hparse] at hroot
    cases hroot
  · intro target
    cases target with
    | source => rfl
    | header => rfl

end Generator
end Z2wRpc
