import Z2wRpc.CJson.Parse

/-!
# The parser never runs out of fuel

Every reader returns a part of the text it was given, and every call of the
recursion stands behind a byte that has been read.  Twice the length of the
text therefore bounds the depth of the recursion, and more fuel does not change
the result.
-/

namespace Z2wRpc

open Foundation

namespace CJson

/-!
## Readers do not lengthen the text
-/

theorem skipWhitespace_length_le (bs : List Byte) :
    (skipWhitespace bs).length <= bs.length := by
  unfold skipWhitespace
  split
  · cases bs with
    | nil => exact Nat.le_refl 0
    | cons b bs =>
        rw [List.getLast?_cons, Option.toList_some]
        simp
  · exact List.IsSuffix.length_le (List.dropWhile_suffix _)

theorem readSign_suffix (bs : List Byte) : (readSign bs).2 <:+ bs := by
  cases bs with
  | nil => exact List.suffix_refl []
  | cons b bs =>
      rw [readSign]
      split_ifs
      · exact List.suffix_cons b bs
      · exact List.suffix_cons b bs
      · exact List.suffix_refl _

theorem readExponent_suffix (bs : List Byte) : (readExponent bs).2 <:+ bs := by
  cases bs with
  | nil => exact List.suffix_refl []
  | cons b bs =>
      simp only [readExponent]
      split
      · have hdigits := List.dropWhile_suffix (l := (readSign bs).2) isDigit
        exact (hdigits.trans (readSign_suffix bs)).trans (List.suffix_cons b bs)
      · exact List.suffix_refl _

theorem readFraction_suffix {bs fraction rest : List Byte}
    (h : readFraction bs = some (fraction, rest)) : rest <:+ bs := by
  cases bs with
  | nil => cases h
  | cons b bs =>
      rw [readFraction] at h
      split_ifs at h
      obtain ⟨rfl, rfl⟩ : _ = fraction ∧ _ = rest := by simpa using h
      exact (List.dropWhile_suffix isDigit).trans (List.suffix_cons b bs)

theorem readFloat_suffix {bs rest : List Byte} {q : ℚ}
    (h : readFloat bs = some (q, rest)) : rest <:+ bs := by
  have hwhole : (readSign bs).2.dropWhile isDigit <:+ bs :=
    (List.dropWhile_suffix isDigit).trans (readSign_suffix bs)
  have hfraction : ((readFraction ((readSign bs).2.dropWhile isDigit)).getD
      ([], (readSign bs).2.dropWhile isDigit)).2 <:+ bs := by
    cases hread : readFraction ((readSign bs).2.dropWhile isDigit) with
    | none => exact hwhole
    | some r => exact (readFraction_suffix hread).trans hwhole
  simp only [readFloat] at h
  split at h
  · cases h
  · simp only [Option.some.injEq, Prod.mk.injEq] at h
    rw [← h.right]
    exact (readExponent_suffix _).trans hfraction

theorem exists_of_map_wrap {β γ : Type} {read : Option (β × List Byte)}
    {wrap : β -> γ} {y : γ} {rest : List Byte}
    (h : (read.map fun x => (wrap x.1, x.2)) = some (y, rest)) :
    exists x, read = some (x, rest) ∧ wrap x = y := by
  rcases Option.map_eq_some_iff.mp h with ⟨⟨x, after⟩, hread, heq⟩
  rcases Prod.mk.inj heq with ⟨hwrap, rfl⟩
  exact ⟨x, hread, hwrap⟩

theorem parseNumber_eq_some {bs rest : List Byte} {t : CJson}
    (h : parseNumber bs = some (t, rest)) :
    exists d tail, t = .number d ∧
      Double.strtod (bs.takeWhile isNumberByte) = some (d, tail) ∧
      tail <:+ bs.takeWhile isNumberByte ∧
      rest = tail ++ bs.dropWhile isNumberByte := by
  rcases Option.map_eq_some_iff.mp h with ⟨⟨d, tail⟩, hstrtod, heq⟩
  rcases Prod.mk.inj heq with ⟨rfl, rfl⟩
  rcases exists_of_map_wrap hstrtod with ⟨q, hread, rfl⟩
  exact ⟨_, _, rfl, hstrtod, readFloat_suffix hread, rfl⟩

theorem parseNumber_length_le {bs rest : List Byte} {t : CJson}
    (h : parseNumber bs = some (t, rest)) : rest.length <= bs.length := by
  rcases parseNumber_eq_some h with ⟨_, tail, _, _, htail, rfl⟩
  have hsplit := List.takeWhile_append_dropWhile (p := isNumberByte) (l := bs)
  have hlength := congrArg List.length hsplit
  have hle := htail.length_le
  rw [List.length_append] at hlength ⊢
  omega

theorem scanLiteral_length_le {bs literal rest : List Byte}
    (h : scanLiteral bs = some (literal, rest)) :
    rest.length <= bs.length := by
  fun_induction scanLiteral bs generalizing literal rest with
  | case1 => cases h
  | case2 tail =>
      obtain ⟨rfl, rfl⟩ : [] = literal ∧ tail = rest := by simpa using h
      simp
  | case3 => cases h
  | case4 _ c tail ih =>
      rcases Option.map_eq_some_iff.mp h with ⟨r, hr, heq⟩
      have hle := ih hr
      have htail : r.2 = rest := congrArg Prod.snd heq
      simp only [List.length_cons, ← htail]
      omega
  | case5 b tail _ _ ih =>
      rcases Option.map_eq_some_iff.mp h with ⟨r, hr, heq⟩
      have hle := ih hr
      have htail : r.2 = rest := congrArg Prod.snd heq
      simp only [List.length_cons, ← htail]
      omega

theorem parseString_length_le {bs rest : List Byte} {s : CString}
    (h : parseString bs = some (s, rest)) : rest.length <= bs.length := by
  cases bs with
  | nil => cases h
  | cons b bs =>
      rw [parseString] at h
      split_ifs at h
      rcases Option.bind_eq_some_iff.mp h with ⟨⟨literal, tail⟩, hscan, hmap⟩
      rcases Option.map_eq_some_iff.mp hmap with ⟨_, _, heq⟩
      have hle := scanLiteral_length_le hscan
      have htail : tail = rest := congrArg Prod.snd heq
      rw [List.length_cons, ← htail]
      omega

/-!
## The recursion
-/

def Shortens (fuel : Nat) : Prop :=
  (forall depth bs r, parseValue fuel depth bs = some r ->
      r.2.length <= bs.length) ∧
    (forall depth bs r, parseItems fuel depth bs = some r ->
      r.2.length <= bs.length) ∧
    (forall depth bs r, parseMembers fuel depth bs = some r ->
      r.2.length <= bs.length)

theorem bracket_length_le {β : Type} {close : Byte} {empty : CJson}
    {inner : List Byte -> Option (β × List Byte)} {wrap : β -> CJson}
    (hinner : forall bs r, inner bs = some r -> r.2.length <= bs.length)
    {bs : List Byte} {r : CJson × List Byte}
    (h : (match skipWhitespace bs with
      | [] => none
      | c :: rest =>
          if c = close then some (empty, rest)
          else (inner (c :: rest)).map fun x => (wrap x.1, x.2)) = some r) :
    r.2.length <= bs.length := by
  have hskip := skipWhitespace_length_le bs
  cases hrest : skipWhitespace bs with
  | nil =>
      rw [hrest] at h
      cases h
  | cons c rest =>
      rw [hrest] at h hskip
      simp only at h
      split_ifs at h
      · rw [← Option.some.inj h]
        rw [List.length_cons] at hskip
        simp only
        omega
      · rcases Option.map_eq_some_iff.mp h with ⟨x, hx, rfl⟩
        exact Nat.le_trans (hinner _ _ hx) hskip

theorem parseValue_length_le {fuel : Nat} (ih : Shortens fuel)
    {depth : Nat} {bs : List Byte} {r : CJson × List Byte}
    (h : parseValue (fuel + 1) depth bs = some r) :
    r.2.length <= bs.length := by
  have hdrop : forall n, (bs.drop n).length <= bs.length := fun n =>
    (List.drop_suffix n bs).length_le
  rw [parseValue.eq_def] at h
  simp only at h
  split at h
  · rw [← Option.some.inj h]
    exact hdrop 4
  split at h
  · rw [← Option.some.inj h]
    exact hdrop 5
  split at h
  · rw [← Option.some.inj h]
    exact hdrop 4
  cases bs with
  | nil => cases h
  | cons b bs =>
      simp only at h
      split at h
      · rcases Option.map_eq_some_iff.mp h with ⟨x, hx, rfl⟩
        exact parseString_length_le hx
      split at h
      · exact parseNumber_length_le h
      split at h
      · split at h
        · cases h
        · exact Nat.le_succ_of_le
            (bracket_length_le (ih.right.left (depth + 1)) h)
      split at h
      · split at h
        · cases h
        · exact Nat.le_succ_of_le
            (bracket_length_le (ih.right.right (depth + 1)) h)
      · cases h

theorem parseItems_length_le {fuel : Nat} (ih : Shortens fuel)
    {depth : Nat} {bs : List Byte} {r : List CJson × List Byte}
    (h : parseItems (fuel + 1) depth bs = some r) :
    r.2.length <= bs.length := by
  rw [parseItems] at h
  rcases Option.bind_eq_some_iff.mp h with ⟨⟨item, tail⟩, hitem, htail⟩
  have hle := Nat.le_trans (ih.left _ _ _ hitem) (skipWhitespace_length_le bs)
  have hskip := skipWhitespace_length_le tail
  simp only at hle htail
  cases hrest : skipWhitespace tail with
  | nil =>
      rw [hrest] at htail
      cases htail
  | cons c rest =>
      rw [hrest] at htail hskip
      rw [List.length_cons] at hskip
      simp only at htail
      split_ifs at htail
      · rcases Option.map_eq_some_iff.mp htail with ⟨x, hx, rfl⟩
        have hmore := ih.right.left _ _ _ hx
        simp only
        omega
      · rw [← Option.some.inj htail]
        simp only
        omega

theorem parseMembers_length_le {fuel : Nat} (ih : Shortens fuel)
    {depth : Nat} {bs : List Byte} {r : Members × List Byte}
    (h : parseMembers (fuel + 1) depth bs = some r) :
    r.2.length <= bs.length := by
  rw [parseMembers] at h
  rcases Option.bind_eq_some_iff.mp h with ⟨⟨name, tail⟩, hname, htail⟩
  have hle := Nat.le_trans (parseString_length_le hname)
    (skipWhitespace_length_le bs)
  have hskip := skipWhitespace_length_le tail
  simp only at htail
  cases hrest : skipWhitespace tail with
  | nil =>
      rw [hrest] at htail
      cases htail
  | cons colon rest =>
      rw [hrest] at htail hskip
      rw [List.length_cons] at hskip
      simp only at htail
      split_ifs at htail
      rcases Option.bind_eq_some_iff.mp htail with ⟨⟨item, after⟩, hitem, hafter⟩
      have hitemLe := Nat.le_trans (ih.left _ _ _ hitem)
        (skipWhitespace_length_le rest)
      have hskip' := skipWhitespace_length_le after
      simp only at hitemLe hafter
      cases hlast : skipWhitespace after with
      | nil =>
          rw [hlast] at hafter
          cases hafter
      | cons c last =>
          rw [hlast] at hafter hskip'
          rw [List.length_cons] at hskip'
          simp only at hafter
          split_ifs at hafter
          · rcases Option.map_eq_some_iff.mp hafter with ⟨x, hx, rfl⟩
            have hmore := ih.right.right _ _ _ hx
            simp only
            omega
          · rw [← Option.some.inj hafter]
            simp only
            omega

theorem shortens (fuel : Nat) : Shortens fuel := by
  induction fuel with
  | zero =>
      refine ⟨?_, ?_, ?_⟩ <;> intro depth bs r h <;> cases h
  | succ fuel ih =>
      exact ⟨fun _ _ _ => parseValue_length_le ih,
        fun _ _ _ => parseItems_length_le ih,
        fun _ _ _ => parseMembers_length_le ih⟩

/-!
## Enough fuel
-/

def Covers (fuel : Nat) : Prop :=
  (forall depth bs, 2 * bs.length + 1 <= fuel ->
      parseValue (fuel + 1) depth bs = parseValue fuel depth bs) ∧
    (forall depth bs, 2 * bs.length + 2 <= fuel ->
      parseItems (fuel + 1) depth bs = parseItems fuel depth bs) ∧
    (forall depth bs, 2 * bs.length + 2 <= fuel ->
      parseMembers (fuel + 1) depth bs = parseMembers fuel depth bs)

theorem parseValue_covers {fuel : Nat} (ih : Covers fuel) {depth : Nat}
    {bs : List Byte} (h : 2 * bs.length + 1 <= fuel + 1) :
    parseValue (fuel + 1 + 1) depth bs = parseValue (fuel + 1) depth bs := by
  rw [parseValue.eq_def (fuel + 1 + 1), parseValue.eq_def (fuel + 1)]
  cases bs with
  | nil => rfl
  | cons b bs =>
      have hskip := skipWhitespace_length_le bs
      rw [List.length_cons] at h
      cases hrest : skipWhitespace bs with
      | nil => simp only [hrest]
      | cons c rest =>
          rw [hrest] at hskip
          simp only [hrest, ih.right.left (depth + 1) (c :: rest) (by omega),
            ih.right.right (depth + 1) (c :: rest) (by omega)]

theorem parseItems_covers {fuel : Nat} (ih : Covers fuel) {depth : Nat}
    {bs : List Byte} (h : 2 * bs.length + 2 <= fuel + 1) :
    parseItems (fuel + 1 + 1) depth bs = parseItems (fuel + 1) depth bs := by
  have hskip := skipWhitespace_length_le bs
  rw [parseItems.eq_def (fuel + 1 + 1), parseItems.eq_def (fuel + 1)]
  simp only [ih.left depth (skipWhitespace bs) (by omega)]
  cases hitem : parseValue fuel depth (skipWhitespace bs) with
  | none => rfl
  | some r =>
      have hle := (shortens fuel).left _ _ _ hitem
      have hnext := skipWhitespace_length_le r.2
      rw [Option.bind_some, Option.bind_some]
      cases hrest : skipWhitespace r.2 with
      | nil => rfl
      | cons c rest =>
          rw [hrest, List.length_cons] at hnext
          simp only [ih.right.left depth rest (by omega)]

theorem parseMembers_covers {fuel : Nat} (ih : Covers fuel) {depth : Nat}
    {bs : List Byte} (h : 2 * bs.length + 2 <= fuel + 1) :
    parseMembers (fuel + 1 + 1) depth bs =
      parseMembers (fuel + 1) depth bs := by
  have hskip := skipWhitespace_length_le bs
  rw [parseMembers.eq_def (fuel + 1 + 1), parseMembers.eq_def (fuel + 1)]
  simp only
  cases hname : parseString (skipWhitespace bs) with
  | none => rfl
  | some name =>
      have hname := parseString_length_le hname
      have hcolon := skipWhitespace_length_le name.2
      rw [Option.bind_some, Option.bind_some]
      cases hrest : skipWhitespace name.2 with
      | nil => rfl
      | cons colon rest =>
          have hvalue := skipWhitespace_length_le rest
          rw [hrest, List.length_cons] at hcolon
          simp only [ih.left depth (skipWhitespace rest) (by omega)]
          cases hitem : parseValue fuel depth (skipWhitespace rest) with
          | none => rfl
          | some r =>
              have hle := (shortens fuel).left _ _ _ hitem
              have hnext := skipWhitespace_length_le r.2
              rw [Option.bind_some, Option.bind_some]
              cases hlast : skipWhitespace r.2 with
              | nil => rfl
              | cons c last =>
                  rw [hlast, List.length_cons] at hnext
                  simp only [ih.right.right depth last (by omega)]

theorem covers (fuel : Nat) : Covers fuel := by
  induction fuel with
  | zero =>
      refine ⟨?_, ?_, ?_⟩ <;> intro depth bs h <;> omega
  | succ fuel ih =>
      exact ⟨fun _ _ => parseValue_covers ih, fun _ _ => parseItems_covers ih,
        fun _ _ => parseMembers_covers ih⟩

theorem parse_eq_of_fuel {value : CString} {fuel : Nat}
    (h : 2 * (value.strlen + 1) + 2 <= fuel) :
    parse value = (parseValue fuel 0
      (skipWhitespace (skipUtf8Bom value.stored))).map Prod.fst := by
  have hbom : (skipUtf8Bom value.stored).length <= value.stored.length := by
    unfold skipUtf8Bom
    split_ifs
    · exact (List.drop_suffix _ _).length_le
    · exact Nat.le_refl _
  have hskip := skipWhitespace_length_le (skipUtf8Bom value.stored)
  have hstored := value.stored_length
  induction fuel, h using Nat.le_induction with
  | base => rw [parse, hstored]
  | succ fuel hfuel ih =>
      rw [ih, (covers fuel).left _ _ (by omega)]

end CJson
end Z2wRpc
