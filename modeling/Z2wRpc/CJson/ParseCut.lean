import Z2wRpc.CJson.RoundTrip
import Z2wRpc.CJson.ParseFuel

/-!
# Containers end at their own bracket

A reader that succeeds does not look behind the byte at which it stops: the same
bytes in front of another continuation are read the same way.  A container
stops at its bracket, so an object is read the same way whatever stands behind
the text, and a printed container that has been cut short is not read at all.
-/

namespace Z2wRpc

open Foundation

namespace CJson

/-!
## White space
-/

theorem skipWhitespace_eq_cons {bs rest : List Byte} {c : Byte}
    (h : skipWhitespace bs = c :: rest) (hc : 32 < c.toNat) :
    exists ws, (forall b, b ∈ ws -> b.toNat <= 32) ∧ bs = ws ++ c :: rest := by
  unfold skipWhitespace at h
  split at h
  · -- only white space: the last byte is white space too
    rename_i hspace
    have hall := List.dropWhile_eq_nil_iff.mp hspace
    have hmem : c ∈ bs := by
      cases hlast : bs.getLast? with
      | none => simp [hlast] at h
      | some b =>
          rw [hlast, Option.toList_some, List.cons.injEq] at h
          rw [← h.left]
          exact List.mem_of_getLast? hlast
    have hle := of_decide_eq_true (hall c hmem)
    omega
  · refine ⟨bs.takeWhile (·.toNat <= 32), ?_, ?_⟩
    · intro b hb
      have hspace := List.mem_takeWhile_imp hb
      exact of_decide_eq_true hspace
    · rw [← h, List.takeWhile_append_dropWhile]

theorem skipWhitespace_token {bs token rest : List Byte} {b : Byte}
    (h : skipWhitespace bs = b :: token ++ rest) (hlong : token ++ rest ≠ []) :
    exists ws, bs = ws ++ (b :: token ++ rest) ∧
      forall rest', skipWhitespace (ws ++ (b :: token ++ rest')) =
        b :: token ++ rest' := by
  have hb : 32 < b.toNat := by
    unfold skipWhitespace at h
    split at h
    · cases hlast : bs.getLast? with
      | none => simp [hlast] at h
      | some c =>
          rw [hlast, Option.toList_some, List.cons_append, List.cons.injEq] at h
          exact absurd h.right.symm hlong
    · rename_i hdrop
      have hhead :=
        List.head?_dropWhile_not (fun c : Byte => decide (c.toNat <= 32)) bs
      rw [h] at hhead
      simpa using hhead
  rcases skipWhitespace_eq_cons h hb with ⟨ws, hws, hbs⟩
  refine ⟨ws, hbs, ?_⟩
  intro rest'
  exact skipWhitespace_append hws hb _

theorem isNumberByte_of_space {b : Byte} (h : b.toNat <= 32) :
    isNumberByte b = false := by
  revert h
  revert b
  decide +kernel

theorem stopsAt_space {ws rest : List Byte} {c : Byte}
    (hws : forall b, b ∈ ws -> b.toNat <= 32) (hc : isNumberByte c = false) :
    StopsAt isNumberByte (ws ++ c :: rest) := by
  cases ws with
  | nil => exact stopsAt_cons hc rest
  | cons b ws =>
      apply stopsAt_cons
      exact isNumberByte_of_space (hws b (List.mem_cons_self ..))

/-!
## Strings and numbers
-/

theorem scanLiteral_stops {bs literal rest : List Byte}
    (h : scanLiteral bs = some (literal, rest)) :
    bs = literal ++ 0x22#8 :: rest ∧ forall rest',
      scanLiteral (literal ++ 0x22#8 :: rest') = some (literal, rest') := by
  fun_induction scanLiteral bs generalizing literal rest with
  | case1 => cases h
  | case2 tail =>
      obtain ⟨rfl, rfl⟩ : [] = literal ∧ tail = rest := by simpa using h
      exact ⟨rfl, scanLiteral_quote⟩
  | case3 => cases h
  | case4 _ c tail ih =>
      rcases @exists_of_map_wrap _ _ _ (_ :: _ :: ·) _ _ h
        with ⟨inner, hinner, rfl⟩
      rcases ih hinner with ⟨hsplit, hagain⟩
      refine ⟨by rw [hsplit]; rfl, ?_⟩
      intro other
      rw [List.cons_append, List.cons_append, scanLiteral_pair, hagain]
      rfl
  | case5 b tail hquote hslash ih =>
      rcases exists_of_map_wrap h with ⟨inner, hinner, rfl⟩
      rcases ih hinner with ⟨hsplit, hagain⟩
      refine ⟨by rw [hsplit]; rfl, ?_⟩
      intro other
      rw [List.cons_append, scanLiteral_plain hquote hslash, hagain]
      rfl

theorem parseString_stops {bs rest : List Byte} {s : CString}
    (h : parseString bs = some (s, rest)) :
    exists token, token ≠ [] ∧ bs = 0x22#8 :: token ++ rest ∧
      forall rest', parseString (0x22#8 :: token ++ rest') = some (s, rest') := by
  cases bs with
  | nil => cases h
  | cons b bs =>
      rw [parseString] at h
      split_ifs at h with hquote
      rcases Option.bind_eq_some_iff.mp h with ⟨⟨literal, tail⟩, hscan, hmap⟩
      rcases Option.map_eq_some_iff.mp hmap with ⟨text, htext, heq⟩
      rcases Prod.mk.inj heq with ⟨rfl, rfl⟩
      rcases scanLiteral_stops hscan with ⟨hsplit, hagain⟩
      refine ⟨literal ++ [0x22#8], by simp, by simp [hquote, hsplit], ?_⟩
      intro rest'
      simp only [List.cons_append, List.append_assoc, List.nil_append]
      rw [parseString, if_pos rfl, hagain, Option.bind_some, htext]
      rfl

theorem parseNumber_stops {bs rest : List Byte} {b : Byte} {t : CJson}
    (h : parseNumber (b :: bs) = some (t, rest))
    (hb : isNumberByte b = true) (hrest : StopsAt isNumberByte rest) :
    exists token, b :: bs = b :: token ++ rest ∧
      forall rest', StopsAt isNumberByte rest' ->
        parseNumber (b :: token ++ rest') = some (t, rest') := by
  rcases parseNumber_eq_some h with ⟨d, tail, rfl, hstrtod, htail, rfl⟩
  have hrun : forall c, c ∈ (b :: bs).takeWhile isNumberByte ->
      isNumberByte c = true := fun c hc => List.mem_takeWhile_imp hc
  -- nothing of the run is left over
  obtain rfl : tail = [] := by
    cases tail with
    | nil => rfl
    | cons c tail =>
        have hstop := hrest c rfl
        rw [hrun c (htail.subset (List.mem_cons_self ..))] at hstop
        cases hstop
  rw [List.takeWhile_cons_of_pos hb] at hstrtod hrun
  refine ⟨bs.takeWhile isNumberByte, ?_, ?_⟩
  · rw [List.nil_append, List.dropWhile_cons_of_pos hb, List.cons_append,
      List.takeWhile_append_dropWhile]
  · intro rest' hstop
    have hspan := span_append hrun hstop
    rw [parseNumber, hspan.left, hspan.right, hstrtod]
    rfl

/-!
## The recursion
-/

def Closes {β : Type} (close : Byte)
    (reader : List Byte -> Option (β × List Byte)) : Prop :=
  forall bs x rest, reader bs = some (x, rest) ->
    exists front, bs = front ++ close :: rest ∧
      forall rest', reader (front ++ close :: rest') = some (x, rest')

def Ends (reader : List Byte -> Option (CJson × List Byte)) : Prop :=
  forall bs t rest, reader bs = some (t, rest) -> StopsAt isNumberByte rest ->
    exists b token, bs = b :: token ++ rest ∧
      forall rest', StopsAt isNumberByte rest' ->
        reader (b :: token ++ rest') = some (t, rest')

def Stops (fuel : Nat) : Prop :=
  (forall depth, Ends (parseValue fuel depth)) ∧
    (forall depth, Closes 0x5d#8 (parseItems fuel depth)) ∧
    (forall depth, Closes 0x7d#8 (parseMembers fuel depth))

theorem bracket_closes {β : Type} {close : Byte} (hclose : 32 < close.toNat)
    {empty : CJson} {inner : List Byte -> Option (β × List Byte)}
    {wrap : β -> CJson} (hinner : Closes close inner) :
    Closes close fun bs =>
      match skipWhitespace bs with
      | [] => none
      | c :: rest =>
          if c = close then some (empty, rest)
          else (inner (c :: rest)).map fun x => (wrap x.1, x.2) := by
  intro bs t rest h
  beta_reduce at h ⊢
  cases hskip : skipWhitespace bs with
  | nil =>
      rw [hskip] at h
      cases h
  | cons c tail =>
      rw [hskip] at h
      simp only at h
      split_ifs at h with hc
      · rcases Prod.mk.inj (Option.some.inj h) with ⟨rfl, rfl⟩
        rw [hc] at hskip
        rcases skipWhitespace_eq_cons hskip hclose with ⟨ws, hws, hbs⟩
        refine ⟨ws, hbs, ?_⟩
        intro rest'
        rw [skipWhitespace_append hws hclose]
        simp only [if_true]
      · rcases exists_of_map_wrap h with ⟨x, hx, rfl⟩
        rcases hinner _ _ _ hx with ⟨front, hfront, hagain⟩
        cases front with
        | nil =>
            rw [List.nil_append, List.cons.injEq] at hfront
            exact absurd hfront.left hc
        | cons d front =>
            obtain rfl : c = d := (List.cons.inj hfront).left
            have htoken : skipWhitespace bs =
                c :: (front ++ [close]) ++ rest := by
              rw [hskip, hfront]
              simp
            rcases skipWhitespace_token htoken (by simp) with
              ⟨ws, hbs, hskips⟩
            refine ⟨ws ++ c :: front, by rw [hbs]; simp, ?_⟩
            intro other
            have hother := hskips other
            simp only [List.cons_append, List.append_assoc, List.nil_append]
              at hother hagain ⊢
            rw [hother]
            simp only [if_neg hc, hagain, Option.map_some]

theorem parseValue_container {fuel depth : Nat} {b close : Byte}
    {bs rest : List Byte} {t : CJson}
    (hbracket : b = 0x5b#8 ∧ close = 0x5d#8 ∨ b = 0x7b#8 ∧ close = 0x7d#8)
    (ih : Stops fuel)
    (h : parseValue (fuel + 1) depth (b :: bs) = some (t, rest)) :
    exists front, bs = front ++ close :: rest ∧ forall rest',
      parseValue (fuel + 1) depth (b :: (front ++ close :: rest')) =
        some (t, rest') := by
  rcases hbracket with ⟨rfl, rfl⟩ | ⟨rfl, rfl⟩
  · have hcons := parseValue_cons (b := 0x5b#8) (by decide) (by decide)
      (by decide) fuel depth
    simp only [if_neg (show ¬ (0x5b#8 : Byte) = 0x22#8 by decide),
      if_neg (show ¬ ((0x5b#8 : Byte) = 0x2d#8 ∨ isDigit 0x5b#8 = true) by decide),
      if_true] at hcons
    rw [hcons] at h
    split_ifs at h with hlimit
    rcases bracket_closes (by decide) (ih.right.left (depth + 1)) bs t rest h
      with ⟨front, hfront, hagain⟩
    refine ⟨front, hfront, ?_⟩
    intro rest'
    rw [hcons, if_neg hlimit]
    exact hagain rest'
  · have hcons := parseValue_cons (b := 0x7b#8) (by decide) (by decide)
      (by decide) fuel depth
    simp only [if_neg (show ¬ (0x7b#8 : Byte) = 0x22#8 by decide),
      if_neg (show ¬ ((0x7b#8 : Byte) = 0x2d#8 ∨ isDigit 0x7b#8 = true) by decide),
      if_neg (show ¬ (0x7b#8 : Byte) = 0x5b#8 by decide), if_true] at hcons
    rw [hcons] at h
    split_ifs at h with hlimit
    rcases bracket_closes (by decide) (ih.right.right (depth + 1)) bs t rest h
      with ⟨front, hfront, hagain⟩
    refine ⟨front, hfront, ?_⟩
    intro rest'
    rw [hcons, if_neg hlimit]
    exact hagain rest'

theorem literal_ends {fuel depth : Nat} {text bs rest : List Byte}
    {item t : CJson}
    (hliteral : (text = ascii "null" ∧ item = .null) ∨
      (text = ascii "false" ∧ item = .bool false) ∨
      (text = ascii "true" ∧ item = .bool true))
    (hstarts : text.isPrefixOf bs = true)
    (h : some (item, bs.drop text.length) = some (t, rest)) :
    exists b token, bs = b :: token ++ rest ∧
      forall rest', StopsAt isNumberByte rest' ->
        parseValue (fuel + 1) depth (b :: token ++ rest') =
          some (t, rest') := by
  rcases Prod.mk.inj (Option.some.inj h) with ⟨rfl, rfl⟩
  rcases List.isPrefixOf_iff_prefix.mp hstarts with ⟨tail, rfl⟩
  obtain ⟨b, token, htext⟩ : exists b token, text = b :: token := by
    rcases hliteral with ⟨rfl, _⟩ | ⟨rfl, _⟩ | ⟨rfl, _⟩
    · exact ⟨_, _, rfl⟩
    · exact ⟨_, _, rfl⟩
    · exact ⟨_, _, rfl⟩
  refine ⟨b, token, by rw [← htext, List.drop_left], ?_⟩
  intro rest' _
  rw [← htext]
  exact parseValue_literal hliteral fuel depth rest'

theorem parseValue_ends {fuel : Nat} (ih : Stops fuel) (depth : Nat) :
    Ends (parseValue (fuel + 1) depth) := by
  intro bs t rest h hrest
  have hread := h
  rw [parseValue.eq_def] at h
  simp only at h
  split at h
  · rename_i hnull
    exact literal_ends (Or.inl ⟨rfl, rfl⟩) hnull h
  split at h
  · rename_i hfalse
    exact literal_ends (Or.inr (Or.inl ⟨rfl, rfl⟩)) hfalse h
  split at h
  · rename_i htrue
    exact literal_ends (Or.inr (Or.inr ⟨rfl, rfl⟩)) htrue h
  cases bs with
  | nil => cases h
  | cons b bs =>
      simp only at h
      split at h
      · rename_i hquote
        rcases exists_of_map_wrap h with ⟨s, hstring, rfl⟩
        rcases parseString_stops hstring with ⟨token, _, hbs, hagain⟩
        refine ⟨0x22#8, token, hbs, ?_⟩
        intro rest' _
        have htoken := hagain rest'
        rw [List.cons_append] at htoken ⊢
        rw [parseValue_cons (by decide) (by decide) (by decide), if_pos rfl,
          htoken]
        rfl
      split at h
      · rename_i hnumber
        have hb : isNumberByte b = true := by
          rcases hnumber with rfl | hdigit
          · decide
          · simp [isNumberByte, hdigit]
        rcases parseNumber_stops h hb hrest with ⟨token, hbs, hagain⟩
        refine ⟨b, token, hbs, ?_⟩
        intro rest' hstop
        have htoken := hagain rest' hstop
        rw [List.cons_append] at htoken ⊢
        rw [parseValue_of_number hnumber, htoken]
      split at h
      · rename_i harray
        rcases parseValue_container (Or.inl ⟨harray, rfl⟩) ih hread with
          ⟨front, hfront, hagain⟩
        refine ⟨b, front ++ [0x5d#8], by simp [hfront], ?_⟩
        intro rest' _
        simpa using hagain rest'
      split at h
      · rename_i hobject
        rcases parseValue_container (Or.inr ⟨hobject, rfl⟩) ih hread with
          ⟨front, hfront, hagain⟩
        refine ⟨b, front ++ [0x7d#8], by simp [hfront], ?_⟩
        intro rest' _
        simpa using hagain rest'
      · cases h

theorem parseValue_separated {fuel depth : Nat} (ih : Stops fuel)
    {bs after tail : List Byte} {c : Byte} {t : CJson}
    (hvalue : parseValue fuel depth (skipWhitespace bs) = some (t, after))
    (hskip : skipWhitespace after = c :: tail) (hc : 32 < c.toNat)
    (hnumber : isNumberByte c = false) :
    exists front, bs = front ++ c :: tail ∧ forall tail', exists after',
      parseValue fuel depth (skipWhitespace (front ++ c :: tail')) =
        some (t, after') ∧ skipWhitespace after' = c :: tail' := by
  rcases skipWhitespace_eq_cons hskip hc with ⟨ws, hws, rfl⟩
  rcases ih.left depth _ _ _ hvalue (stopsAt_space hws hnumber) with
    ⟨b, token, hbs, hagain⟩
  rcases skipWhitespace_token hbs (by simp) with ⟨ws', rfl, hskips⟩
  refine ⟨ws' ++ (b :: token ++ ws), by simp, ?_⟩
  intro tail'
  refine ⟨ws ++ c :: tail', ?_, skipWhitespace_append hws hc tail'⟩
  have hother := hagain (ws ++ c :: tail') (stopsAt_space hws hnumber)
  rw [← hskips] at hother
  simpa using hother

theorem parseString_separated {bs after tail : List Byte} {c : Byte}
    {s : CString}
    (hstring : parseString (skipWhitespace bs) = some (s, after))
    (hskip : skipWhitespace after = c :: tail) (hc : 32 < c.toNat) :
    exists front, bs = front ++ c :: tail ∧ forall tail', exists after',
      parseString (skipWhitespace (front ++ c :: tail')) = some (s, after') ∧
        skipWhitespace after' = c :: tail' := by
  rcases skipWhitespace_eq_cons hskip hc with ⟨ws, hws, rfl⟩
  rcases parseString_stops hstring with ⟨token, _, hbs, hagain⟩
  rcases skipWhitespace_token hbs (by simp) with ⟨ws', rfl, hskips⟩
  refine ⟨ws' ++ (0x22#8 :: token ++ ws), by simp, ?_⟩
  intro tail'
  refine ⟨ws ++ c :: tail', ?_, skipWhitespace_append hws hc tail'⟩
  have hother := hagain (ws ++ c :: tail')
  rw [← hskips] at hother
  simpa using hother

theorem element_closes {α : Type} {close : Byte} (hclose : 32 < close.toNat)
    (hnumber : isNumberByte close = false) (hne : close ≠ 0x2c#8)
    {fuel : Nat} (ih : Stops fuel) (depth : Nat) (element : CJson -> α)
    {others : List Byte -> Option (List α × List Byte)}
    (hothers : Closes close others) :
    Closes close fun bs =>
      (parseValue fuel depth (skipWhitespace bs)).bind fun (item, rest) =>
        match skipWhitespace rest with
        | [] => none
        | c :: rest =>
            if c = 0x2c#8 then
              (others rest).map fun r => (element item :: r.1, r.2)
            else if c = close then some ([element item], rest)
            else none := by
  intro bs elements rest h
  beta_reduce at h ⊢
  rcases Option.bind_eq_some_iff.mp h with ⟨⟨item, after⟩, hitem, hnext⟩
  simp only at hnext
  cases hskip : skipWhitespace after with
  | nil =>
      rw [hskip] at hnext
      cases hnext
  | cons c tail =>
      rw [hskip] at hnext
      simp only at hnext
      split_ifs at hnext with hcomma hbracket
      · rw [hcomma] at hskip
        rcases parseValue_separated ih hitem hskip (by decide) (by decide) with
          ⟨front, rfl, hagain⟩
        rcases exists_of_map_wrap hnext with ⟨more, hmore, rfl⟩
        rcases hothers _ _ _ hmore with ⟨front', rfl, hback⟩
        refine ⟨front ++ 0x2c#8 :: front', by simp, ?_⟩
        intro rest'
        rcases hagain (front' ++ close :: rest') with
          ⟨after', hitem', hskip'⟩
        rw [List.append_assoc, List.cons_append, hitem', Option.bind_some]
        simp only [hskip', if_true, hback, Option.map_some]
      · rw [hbracket] at hskip
        rcases Prod.mk.inj (Option.some.inj hnext) with ⟨rfl, rfl⟩
        rcases parseValue_separated ih hitem hskip hclose hnumber with
          ⟨front, rfl, hagain⟩
        refine ⟨front, rfl, ?_⟩
        intro rest'
        rcases hagain rest' with ⟨after', hitem', hskip'⟩
        rw [hitem', Option.bind_some]
        simp only [hskip', if_neg hne, if_true]

theorem named_closes {β : Type} {close : Byte}
    {value : CString -> List Byte -> Option (β × List Byte)}
    (hvalue : forall name, Closes close (value name)) :
    Closes close fun bs =>
      (parseString (skipWhitespace bs)).bind fun (name, rest) =>
        match skipWhitespace rest with
        | [] => none
        | colon :: rest => if colon = 0x3a#8 then value name rest else none := by
  intro bs x rest h
  beta_reduce at h ⊢
  rcases Option.bind_eq_some_iff.mp h with ⟨⟨name, behind⟩, hname, hcolon⟩
  simp only at hcolon
  cases hskip : skipWhitespace behind with
  | nil =>
      rw [hskip] at hcolon
      cases hcolon
  | cons colon tail =>
      rw [hskip] at hcolon
      simp only at hcolon
      split_ifs at hcolon with heq
      rw [heq] at hskip
      rcases parseString_separated hname hskip (by decide) with
        ⟨start, rfl, hnames⟩
      rcases hvalue name _ _ _ hcolon with ⟨front, rfl, hagain⟩
      refine ⟨start ++ 0x3a#8 :: front, by simp, ?_⟩
      intro rest'
      rcases hnames (front ++ close :: rest') with ⟨behind', hname', hcolon'⟩
      rw [List.append_assoc, List.cons_append, hname', Option.bind_some]
      simp only [hcolon', if_true, hagain]

theorem parseItems_closes {fuel : Nat} (ih : Stops fuel) (depth : Nat) :
    Closes 0x5d#8 (parseItems (fuel + 1) depth) := by
  intro bs items rest h
  simp only [parseItems] at h ⊢
  exact element_closes (by decide) (by decide) (by decide) ih depth id
    (ih.right.left depth) bs items rest h

theorem parseMembers_closes {fuel : Nat} (ih : Stops fuel) (depth : Nat) :
    Closes 0x7d#8 (parseMembers (fuel + 1) depth) := by
  have hvalue := fun name : CString =>
    element_closes (by decide) (by decide) (by decide) ih depth
      (fun item => (name, item)) (ih.right.right depth)
  intro bs members rest h
  simp only [parseMembers] at h ⊢
  exact named_closes hvalue bs members rest h

theorem stops (fuel : Nat) : Stops fuel := by
  induction fuel with
  | zero =>
      refine ⟨?_, ?_, ?_⟩
      · intro depth bs t rest h
        cases h
      · intro depth bs items rest h
        cases h
      · intro depth bs members rest h
        cases h
  | succ fuel ih =>
      exact ⟨parseValue_ends ih, parseItems_closes ih, parseMembers_closes ih⟩

/-!
## Longer texts
-/

theorem eq_append_of_ne_last {cs front rest : List Byte} {c last : Byte}
    (hc : c ≠ last) (h : cs ++ [last] = front ++ c :: rest) :
    exists inside, cs = front ++ c :: inside ∧ rest = inside ++ [last] := by
  rcases List.eq_nil_or_concat rest with rfl | ⟨inside, d, rfl⟩
  · have hlast := congrArg List.getLast? h
    simp [Ne.symm hc] at hlast
  · rw [List.concat_eq_append, ← List.cons_append, ← List.append_assoc] at h
    rcases List.append_inj' h rfl with ⟨hcs, hd⟩
    obtain rfl : last = d := List.singleton_inj.mp hd
    exact ⟨inside, hcs, List.concat_eq_append⟩

def byteOrderMark : List Byte := [0xEF#8, 0xBB#8, 0xBF#8]

theorem skipUtf8Bom_append {s : CString} {t : CJson} (h : parse s = some t) :
    exists bs, skipUtf8Bom s.stored = bs ++ [0#8] ∧ forall tail : CString,
      skipUtf8Bom (s.append tail).stored = bs ++ (tail.bytes ++ [0#8]) := by
  -- nothing is read from a beginning of the mark
  have hshort : ¬ s.bytes <+: byteOrderMark := by
    intro hprefix
    have hnone : forall front, front ∈ byteOrderMark.inits ->
        parse (CString.ofBytes front) = none := by decide +kernel
    have hparse := hnone s.bytes ((List.mem_inits _ _).mpr hprefix)
    rw [CString.ofBytes_bytes, h] at hparse
    cases hparse
  by_cases hbom : byteOrderMark <+: s.bytes
  · rcases hbom with ⟨rest, hrest⟩
    have hmark (others : List Byte) (hlong : others ≠ []) :
        skipUtf8Bom (byteOrderMark ++ (rest ++ others)) = rest ++ others := by
      have hne : rest ≠ [] := by
        intro hnil
        rw [hnil, List.append_nil] at hrest
        exact hshort (hrest ▸ List.prefix_rfl)
      have hlength := List.length_pos_of_ne_nil hne
      have hothers := List.length_pos_of_ne_nil hlong
      rw [skipUtf8Bom, if_pos]
      · rfl
      · refine ⟨?_, List.isPrefixOf_iff_prefix.mpr (List.prefix_append _ _)⟩
        simp only [List.length_append, byteOrderMark, List.length_cons,
          List.length_nil]
        omega
    refine ⟨rest, ?_, fun tail => ?_⟩
    · rw [CString.stored, <- hrest, List.append_assoc]
      exact hmark _ (List.cons_ne_nil _ _)
    · have hbytes : (s.append tail).bytes = s.bytes ++ tail.bytes := rfl
      rw [CString.stored, hbytes, <- hrest, List.append_assoc,
        List.append_assoc]
      exact hmark _ (by simp)
  · have hnoMark (others : List Byte) :
        skipUtf8Bom (s.bytes ++ others) = s.bytes ++ others := by
      rw [skipUtf8Bom, if_neg]
      intro h
      rcases List.prefix_or_prefix_of_prefix
        (List.isPrefixOf_iff_prefix.mp h.right) (List.prefix_append s.bytes
          others) with hmark | hfront
      · exact hbom hmark
      · exact hshort hfront
    refine ⟨s.bytes, hnoMark _, fun tail => ?_⟩
    rw [CString.stored, CString.append, List.append_assoc]
    exact hnoMark _

theorem start_append {s : CString} {t : CJson} (h : parse s = some t) :
    exists b rest, skipWhitespace (skipUtf8Bom s.stored) =
        b :: (rest ++ [0#8]) ∧
      forall tail : CString,
        skipWhitespace (skipUtf8Bom (s.append tail).stored) =
          b :: (rest ++ (tail.bytes ++ [0#8])) := by
  rcases skipUtf8Bom_append h with ⟨bs, hstored, htail⟩
  cases hskip : skipWhitespace (bs ++ [0#8]) with
  | nil =>
      rw [parse, hstored, hskip] at h
      cases h
  | cons b others =>
      have hnul : parseValue (2 * s.stored.length + 2) 0 [0#8] = none := rfl
      by_cases hspace : 32 < b.toNat
      · rcases skipWhitespace_eq_cons hskip hspace with ⟨ws, hws, hbs⟩
        have hb : b ≠ 0#8 := by
          intro hzero
          rw [hzero] at hspace
          exact absurd hspace (by decide)
        rcases eq_append_of_ne_last hb hbs with ⟨rest, rfl, rfl⟩
        refine ⟨b, rest, by rw [hstored, hskip], fun tail => ?_⟩
        rw [htail, List.append_assoc, List.cons_append]
        exact skipWhitespace_append hws hspace _
      · -- only white space: the terminator would be the value
        have hlast : b :: others = [0#8] := by
          rw [<- hskip]
          unfold skipWhitespace at hskip ⊢
          cases hdrop : (bs ++ [0#8]).dropWhile (·.toNat <= 32) with
          | nil => simp
          | cons c after =>
              rw [hdrop] at hskip
              have hhead := List.head?_dropWhile_not
                (fun c : Byte => decide (c.toNat <= 32)) (bs ++ [0#8])
              rw [hdrop] at hhead
              obtain rfl : c = b := (List.cons.inj hskip).left
              exact absurd (by simpa using hhead) hspace
        rw [parse, hstored, hskip, hlast, hnul] at h
        cases h

theorem brace_of_object {fuel depth : Nat} {b : Byte} {bs rest : List Byte}
    {members : List (CString × CJson)}
    (h : parseValue (fuel + 1) depth (b :: bs) = some (.object members, rest)) :
    b = 0x7b#8 := by
  have hmap {α : Type} {read : Option α} {f : α -> CJson × List Byte}
      (hf : forall a, (f a).1 ≠ .object members) :
      read.map f ≠ some (.object members, rest) := by
    intro heq
    rcases Option.map_eq_some_iff.mp heq with ⟨a, _, ha⟩
    exact hf a (by rw [ha])
  rw [parseValue] at h
  by_contra hb
  simp only [if_neg hb] at h
  split_ifs at h
  case pos => cases h
  case pos => cases h
  case pos => cases h
  case pos => exact hmap (fun _ heq => by cases heq) h
  case pos => exact hmap (fun _ heq => by cases heq) h
  case neg =>
    split at h
    · cases h
    · split at h
      · cases h
      · exact hmap (fun _ heq => by cases heq) h

theorem object_of_brace {fuel depth : Nat} {bs rest : List Byte} {t : CJson}
    (h : parseValue (fuel + 1) depth (0x7b#8 :: bs) = some (t, rest)) :
    exists members, t = .object members := by
  rw [parseValue_cons (by decide) (by decide) (by decide), if_neg (by decide),
    if_neg (by decide), if_neg (by decide), if_pos rfl] at h
  split_ifs at h
  split at h
  · cases h
  · split at h
    · rcases Prod.mk.inj (Option.some.inj h) with ⟨rfl, _⟩
      exact ⟨[], rfl⟩
    · rcases exists_of_map_wrap h with ⟨members, _, rfl⟩
      exact ⟨members, rfl⟩

theorem parse_append_of_object {s : CString}
    {members : List (CString × CJson)} (h : parse s = some (.object members))
    (tail : CString) : parse (s.append tail) = some (.object members) := by
  rcases start_append h with ⟨b, rest, hstart, htail⟩
  generalize hfuel : 2 * ((s.append tail).strlen + 1) + 1 = fuel
  have hlength : (s.append tail).strlen = s.strlen + tail.strlen :=
    List.length_append
  have hread := h
  rw [@parse_eq_of_fuel s (fuel + 1) (by omega), hstart] at hread
  rw [@parse_eq_of_fuel _ (fuel + 1) (by omega), htail]
  rcases Option.map_eq_some_iff.mp hread with ⟨⟨t, after⟩, hvalue, rfl⟩
  obtain rfl := brace_of_object hvalue
  rcases parseValue_container (Or.inr ⟨rfl, rfl⟩) (stops fuel) hvalue with
    ⟨front, hfront, hagain⟩
  rcases eq_append_of_ne_last (by decide) hfront with ⟨inside, rfl, _⟩
  have hlonger := hagain (inside ++ (tail.bytes ++ [0#8]))
  rw [List.append_assoc, List.cons_append, hlonger]
  rfl

theorem object_of_parse_append {s tail : CString} {t : CJson}
    {members : List (CString × CJson)} (h : parse s = some t)
    (happend : parse (s.append tail) = some (.object members)) :
    parse s = some (.object members) := by
  rcases start_append h with ⟨b, rest, hstart, htail⟩
  generalize hfuel : 2 * ((s.append tail).strlen + 1) + 1 = fuel
  have hlength : (s.append tail).strlen = s.strlen + tail.strlen :=
    List.length_append
  have hread := happend
  rw [@parse_eq_of_fuel _ (fuel + 1) (by omega), htail] at hread
  rcases Option.map_eq_some_iff.mp hread with ⟨⟨_, after⟩, hvalue, rfl⟩
  obtain rfl := brace_of_object hvalue
  have hobject : exists members', t = .object members' := by
    have hshort := h
    rw [@parse_eq_of_fuel s (fuel + 1) (by omega), hstart] at hshort
    rcases Option.map_eq_some_iff.mp hshort with ⟨⟨_, _⟩, hvalue', rfl⟩
    exact object_of_brace hvalue'
  rcases hobject with ⟨members', rfl⟩
  rw [parse_append_of_object h tail] at happend
  rw [h, happend]

/-!
## Printed containers
-/

def IsContainer : CJson -> Prop
  | .array _ => True
  | .object _ => True
  | _ => False

theorem parse_cut {n : Nat} {t : CJson} (h : Readable n t)
    (hn : n <= nestingLimit) (ht : IsContainer t) {p : CString}
    {q : List Byte} (hcut : (print t).bytes = p.bytes ++ q) (hq : q ≠ []) :
    parse p = none := by
  obtain ⟨b, close, bs, hbracket, htext⟩ : exists b close bs,
      (b = 0x5b#8 ∧ close = 0x5d#8 ∨ b = 0x7b#8 ∧ close = 0x7d#8) ∧
        printValue 0 t = b :: bs := by
    cases t with
    | array items => exact ⟨_, _, _, Or.inl ⟨rfl, rfl⟩, by rw [printValue]⟩
    | object members => exact ⟨_, _, _, Or.inr ⟨rfl, rfl⟩, by rw [printValue]⟩
    | _ => exact ht.elim
  have hspace : 32 < b.toNat ∧ b.toNat < 128 := by
    rcases hbracket with ⟨rfl, _⟩ | ⟨rfl, _⟩ <;> decide
  have hclose : close ≠ 0#8 := by
    rcases hbracket with ⟨_, rfl⟩ | ⟨_, rfl⟩ <;> decide
  rw [print_bytes, htext] at hcut
  cases hp : p.bytes with
  | nil =>
      obtain rfl : p = CString.ofBytes [] := CString.ext hp
      rfl
  | cons c cs =>
      rw [hp, List.cons_append, List.cons.injEq] at hcut
      rcases hcut with ⟨rfl, hbs⟩
      by_contra hparsed
      -- enough fuel for the whole text and for the part of it
      have hfuel := @parse_eq_of_fuel p
        (2 * (p.strlen + 1) + 2 + (printValue 0 t).length) (by omega)
      have hstart : skipWhitespace (skipUtf8Bom p.stored) =
          b :: (cs ++ [0#8]) := by
        rw [CString.stored, hp, List.cons_append,
          skipUtf8Bom_of_ascii hspace.right, skipWhitespace_of_head hspace.left]
      rw [hstart] at hfuel
      generalize hf : 2 * (p.strlen + 1) + 2 + (printValue 0 t).length = fuel
        at hfuel
      obtain ⟨fuel, rfl⟩ : exists k, fuel = k + 1 := ⟨fuel - 1, by omega⟩
      cases hread : parseValue (fuel + 1) 0 (b :: (cs ++ [0#8])) with
      | none =>
          rw [hread] at hfuel
          exact hparsed hfuel
      | some r =>
          rcases r with ⟨t', rest⟩
          rcases parseValue_container hbracket (stops fuel) hread with
            ⟨front, hfront, hagain⟩
          have hback := readsBack_of_readable h 0 0 (by omega) (fuel + 1) [0#8]
            (by omega) (stopsAt_cons (by decide) [])
          rcases eq_append_of_ne_last hclose hfront with
            ⟨inside, hcs, _⟩
          have hagain := hagain (inside ++ q ++ [0#8])
          have hwhole : b :: (front ++ close :: (inside ++ q ++ [0#8])) =
              printValue 0 t ++ [0#8] := by
            rw [htext, hbs, hcs]
            simp
          rw [hwhole, hback] at hagain
          have hrest := (Prod.mk.inj (Option.some.inj hagain)).right
          have hnil : [] = inside ++ q := List.append_cancel_right hrest
          exact hq (List.append_eq_nil_iff.mp hnil.symm).right

end CJson
end Z2wRpc
