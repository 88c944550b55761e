import Z2wRpc.CJson.StringRoundTrip

/-!
# Printed trees are read back

`cJSON_Parse` after `cJSON_Print` returns the same tree, for every tree whose
numbers survive as text and whose nesting the parser allows.  The induction
follows the tree; each printed element is read back in front of an arbitrary
continuation, and the fuel used up is bounded by the text it stands for.
-/

namespace Z2wRpc

open Foundation

namespace CJson

/-!
## White space and first characters
-/

theorem skipWhitespace_of_head {b : Byte} (h : 32 < b.toNat)
    (rest : List Byte) : skipWhitespace (b :: rest) = b :: rest := by
  rw [skipWhitespace, List.dropWhile_cons_of_neg (by simpa using h)]

theorem skipWhitespace_append {ws : List Byte} {b : Byte}
    (hws : forall c, c ∈ ws -> c.toNat <= 32) (h : 32 < b.toNat)
    (rest : List Byte) : skipWhitespace (ws ++ b :: rest) = b :: rest := by
  have hspan := span_append (p := fun c : Byte => decide (c.toNat <= 32))
    (fun c hc => decide_eq_true (hws c hc))
    (stopsAt_cons (b := b) (by simpa using h) rest)
  rw [skipWhitespace, hspan.right]

theorem tabs_space {depth : Nat} {c : Byte} (hc : c ∈ tabs depth) :
    c.toNat <= 32 := by
  rw [List.eq_of_mem_replicate hc]
  decide

theorem isPrefixOf_of_head_ne {a b : Byte} {as rest : List Byte}
    (h : a ≠ b) : (a :: as).isPrefixOf (b :: rest) = false := by
  rw [List.isPrefixOf, beq_false_of_ne h, Bool.false_and]

theorem parseValue_cons {b : Byte} (hn : b ≠ 0x6e#8) (hf : b ≠ 0x66#8)
    (ht : b ≠ 0x74#8) (fuel depth : Nat) (rest : List Byte) :
    parseValue (fuel + 1) depth (b :: rest) =
      if b = 0x22#8 then
        (parseString (b :: rest)).map fun r => (.string r.1, r.2)
      else if b = 0x2d#8 ∨ isDigit b then parseNumber (b :: rest)
      else if b = 0x5b#8 then
        if nestingLimit <= depth then none
        else
          match skipWhitespace rest with
          | [] => none
          | c :: rest =>
              if c = 0x5d#8 then some (.array [], rest)
              else
                (parseItems fuel (depth + 1) (c :: rest)).map fun r =>
                  (.array r.1, r.2)
      else if b = 0x7b#8 then
        if nestingLimit <= depth then none
        else
          match skipWhitespace rest with
          | [] => none
          | c :: rest =>
              if c = 0x7d#8 then some (.object [], rest)
              else
                (parseMembers fuel (depth + 1) (c :: rest)).map fun r =>
                  (.object r.1, r.2)
      else none := by
  have hnull : (ascii "null").isPrefixOf (b :: rest) = false :=
    isPrefixOf_of_head_ne (Ne.symm hn)
  have hfalse : (ascii "false").isPrefixOf (b :: rest) = false :=
    isPrefixOf_of_head_ne (Ne.symm hf)
  have htrue : (ascii "true").isPrefixOf (b :: rest) = false :=
    isPrefixOf_of_head_ne (Ne.symm ht)
  rw [parseValue, hnull, hfalse, htrue]
  rfl

theorem printValue_head {n : Nat} {t : CJson} (h : Readable n t)
    (depth : Nat) :
    exists b bs, printValue depth t = b :: bs ∧ 32 < b.toNat ∧
      b.toNat < 128 ∧ b ≠ 0x5d#8 := by
  cases h with
  | null =>
      rw [printValue]
      exact ⟨0x6e#8, ascii "ull", by decide, by decide, by decide, by decide⟩
  | bool b =>
      cases b
      · rw [printValue]
        exact ⟨0x66#8, ascii "alse", by decide, by decide, by decide,
          by decide⟩
      · rw [printValue]
        exact ⟨0x74#8, ascii "rue", by decide, by decide, by decide,
          by decide⟩
  | number exact =>
      rcases exact.starts with ⟨b, bs, htext, hb⟩
      refine ⟨b, bs, by rw [printValue, htext], ?_⟩
      rcases hb with rfl | hdigit
      · decide
      · have hne : b ≠ 0x5d#8 := isDigit_ne hdigit (by decide)
        rw [isDigit, Bool.and_eq_true, decide_eq_true_eq, decide_eq_true_eq]
          at hdigit
        exact ⟨by omega, by omega, hne⟩
  | string s =>
      rw [printValue, printString]
      exact ⟨_, _, rfl, by decide, by decide, by decide⟩
  | array _ =>
      rw [printValue]
      exact ⟨_, _, rfl, by decide, by decide, by decide⟩
  | object _ =>
      rw [printValue]
      exact ⟨_, _, rfl, by decide, by decide, by decide⟩

/-!
## Elements and members
-/

def ReadsBack (depth level : Nat) (item : CJson) : Prop :=
  forall fuel rest, (printValue depth item).length <= fuel ->
    StopsAt isNumberByte rest ->
    parseValue fuel level (printValue depth item ++ rest) = some (item, rest)

structure ReadsAs (depth level : Nat) (item item' : CJson) : Prop where
  starts : exists b bs, printValue depth item = b :: bs ∧ 32 < b.toNat
  reads : forall fuel rest, (printValue depth item).length <= fuel ->
    StopsAt isNumberByte rest ->
    parseValue fuel level (printValue depth item ++ rest) = some (item', rest)

theorem readsAs_of_readsBack {depth level n : Nat} {item : CJson}
    (hreadable : Readable n item) (hback : ReadsBack depth level item) :
    ReadsAs depth level item item where
  starts := by
    rcases printValue_head hreadable depth with ⟨b, bs, htext, hb, _⟩
    exact ⟨b, bs, htext, hb⟩
  reads := hback

theorem parseItems_step {depth level n : Nat} {item : CJson}
    (hreadable : Readable n item) (hback : ReadsBack depth level item)
    {fuel : Nat} (hfuel : (printValue depth item).length <= fuel)
    {c : Byte} (hspace : 32 < c.toNat) (hc : isNumberByte c = false)
    (rest : List Byte) :
    parseItems (fuel + 1) level (printValue depth item ++ c :: rest) =
      if c = 0x2c#8 then
        (parseItems fuel level rest).map fun r => (item :: r.1, r.2)
      else if c = 0x5d#8 then some ([item], rest)
      else none := by
  rcases printValue_head hreadable depth with ⟨b, bs, htext, hb, _⟩
  have hone := hback fuel (c :: rest) hfuel (stopsAt_cons hc rest)
  rw [parseItems]
  rw [htext, List.cons_append] at hone ⊢
  rw [skipWhitespace_of_head hb, hone, Option.bind_some]
  simp only [skipWhitespace_of_head hspace]

theorem parseItems_space (ws : List Byte) {b : Byte}
    (hws : forall c, c ∈ ws -> c.toNat <= 32) (hb : 32 < b.toNat)
    (fuel level : Nat) (rest : List Byte) :
    parseItems fuel level (ws ++ b :: rest) =
      parseItems fuel level (b :: rest) := by
  cases fuel with
  | zero => rfl
  | succ fuel =>
      rw [parseItems, parseItems, skipWhitespace_append hws hb,
        skipWhitespace_of_head hb]

theorem printItems_head {n : Nat} {item : CJson} (h : Readable n item)
    (depth : Nat) (items : List CJson) :
    exists b bs, printItems depth (item :: items) = b :: bs ∧
      32 < b.toNat ∧ b ≠ 0x5d#8 := by
  rcases printValue_head h depth with ⟨b, bs, htext, hspace, _, hb⟩
  rw [printItems, htext]
  exact ⟨b, _, rfl, hspace, hb⟩

theorem parseItems_printItems {depth level n : Nat} {item : CJson}
    {items : List CJson}
    (hreadable : forall x, x ∈ item :: items -> Readable n x)
    (hback : forall x, x ∈ item :: items -> ReadsBack depth level x)
    {fuel : Nat} (hfuel : (printItems depth (item :: items)).length < fuel)
    (rest : List Byte) :
    parseItems fuel level (printItems depth (item :: items) ++ 0x5d#8 :: rest) =
      some (item :: items, rest) := by
  obtain ⟨fuel, rfl⟩ : exists k, fuel = k + 1 := ⟨fuel - 1, by omega⟩
  have hitem := hreadable item (List.mem_cons_self ..)
  have hitemBack := hback item (List.mem_cons_self ..)
  induction items generalizing item fuel with
  | nil =>
      simp only [printItems, List.isEmpty_nil, if_true, List.append_nil]
        at hfuel ⊢
      rw [parseItems_step hitem hitemBack (by omega) (by decide) (by decide)]
      rfl
  | cons next items ih =>
      have hnext := hreadable next (by simp)
      rw [printItems] at hfuel ⊢
      simp only [List.isEmpty_cons, Bool.false_eq_true, if_false,
        List.length_append, List.length_cons] at hfuel
      obtain ⟨fuel, rfl⟩ : exists k, fuel = k + 1 := ⟨fuel - 1, by omega⟩
      have hrest := ih (fun x hx => hreadable x (List.mem_cons_of_mem item hx))
        (fun x hx => hback x (List.mem_cons_of_mem item hx)) fuel
        (by omega) hnext (hback next (by simp))
      rcases printItems_head hnext depth items with
        ⟨b, bs, htext, hb, _⟩
      have hspace := parseItems_space [0x20#8] (by decide) hb
        (fuel + 1) level (bs ++ 0x5d#8 :: rest)
      simp only [List.isEmpty_cons, Bool.false_eq_true, if_false,
        List.append_assoc, List.cons_append, List.nil_append]
      rw [parseItems_step hitem hitemBack (by omega) (by decide) (by decide),
        if_pos rfl]
      rw [htext] at hrest ⊢
      rw [List.cons_append] at hrest ⊢
      rw [show (0x20#8 :: b :: (bs ++ 0x5d#8 :: rest) : List Byte) =
        [0x20#8] ++ b :: (bs ++ 0x5d#8 :: rest) from rfl, hspace, hrest]
      rfl

theorem parseMembers_step {depth level : Nat} (name : CString)
    {item item' : CJson} (hitem : ReadsAs depth level item item')
    {fuel : Nat} (hfuel : (printValue depth item).length <= fuel)
    {tail rest : List Byte} {c : Byte} (htail : skipWhitespace tail = c :: rest)
    (hstop : StopsAt isNumberByte tail) :
    parseMembers (fuel + 1) level
        (tabs depth ++ printString name ++ [0x3a#8, 0x09#8] ++
          printValue depth item ++ tail) =
      if c = 0x2c#8 then
        (parseMembers fuel level rest).map fun r => ((name, item') :: r.1, r.2)
      else if c = 0x7d#8 then some ([(name, item')], rest)
      else none := by
  rcases hitem.starts with ⟨b, bs, htext, hb⟩
  have hone := hitem.reads fuel tail hfuel hstop
  have hname := parseString_printString name
    (0x3a#8 :: 0x09#8 :: (printValue depth item ++ tail))
  rw [parseMembers]
  simp only [List.append_assoc, List.cons_append, List.nil_append]
  rw [printString, List.cons_append] at hname ⊢
  rw [skipWhitespace_append (fun _ => tabs_space) (by decide), hname,
    Option.bind_some]
  simp only [skipWhitespace_of_head (b := 0x3a#8) (by decide), if_true]
  rw [htext, List.cons_append] at hone ⊢
  rw [show (0x09#8 :: b :: (bs ++ tail) : List Byte) =
      [0x09#8] ++ b :: (bs ++ tail) from rfl,
    skipWhitespace_append (by decide) hb, hone, Option.bind_some]
  simp only [htail]

theorem parseMembers_congr {bs bs' : List Byte}
    (h : skipWhitespace bs = skipWhitespace bs') (fuel level : Nat) :
    parseMembers fuel level bs = parseMembers fuel level bs' := by
  cases fuel with
  | zero => rfl
  | succ fuel => rw [parseMembers, parseMembers, h]

theorem printMembers_head (depth : Nat) (m : CString × CJson)
    (members : List (CString × CJson)) :
    exists bs, printMembers depth (m :: members) =
      tabs depth ++ 0x22#8 :: bs := by
  rw [printMembers, printString]
  simp only [List.append_assoc, List.cons_append]
  exact ⟨_, rfl⟩

theorem skipWhitespace_printMembers (ws : List Byte)
    (hws : forall c, c ∈ ws -> c.toNat <= 32) (depth : Nat)
    (m : CString × CJson) (members : List (CString × CJson))
    (rest : List Byte) :
    exists bs,
      skipWhitespace (ws ++ (printMembers depth (m :: members) ++ rest)) =
          0x22#8 :: bs ∧
        skipWhitespace (printMembers depth (m :: members) ++ rest) =
          0x22#8 :: bs := by
  rcases printMembers_head depth m members with ⟨bs, htext⟩
  have hboth : forall c, c ∈ ws ++ tabs depth -> c.toNat <= 32 := by
    intro c hc
    rcases List.mem_append.mp hc with h | h
    · exact hws c h
    · exact tabs_space h
  refine ⟨bs ++ rest, ?_, ?_⟩
  · rw [htext, List.append_assoc, ← List.append_assoc ws, List.cons_append,
      skipWhitespace_append hboth (by decide)]
  · rw [htext, List.append_assoc, List.cons_append,
      skipWhitespace_append (fun _ => tabs_space) (by decide)]

def MembersReadAs (depth level : Nat) :
    List (CString × CJson) -> List (CString × CJson) -> Prop :=
  List.Forall₂ fun m m' => m.1 = m'.1 ∧ ReadsAs depth level m.2 m'.2

theorem parseMembers_printMembers {depth level : Nat}
    {m m' : CString × CJson} {members members' : List (CString × CJson)}
    (hread : MembersReadAs depth level (m :: members) (m' :: members'))
    {fuel : Nat} (hfuel : (printMembers depth (m :: members)).length < fuel)
    {ws : List Byte} (hws : forall c, c ∈ ws -> c.toNat <= 32)
    (rest : List Byte) :
    parseMembers fuel level
        (printMembers depth (m :: members) ++ (ws ++ 0x7d#8 :: rest)) =
      some (m' :: members', rest) := by
  obtain ⟨fuel, rfl⟩ : exists k, fuel = k + 1 := ⟨fuel - 1, by omega⟩
  induction members generalizing m m' members' fuel with
  | nil =>
      rcases m with ⟨name, item⟩
      rcases m' with ⟨name', item'⟩
      rcases List.forall₂_cons.mp hread with ⟨⟨hname, hitem⟩, hnil⟩
      obtain rfl : name = name' := hname
      obtain rfl : members' = [] := List.forall₂_nil_left_iff.mp hnil
      have htail : skipWhitespace (0x0a#8 :: (ws ++ 0x7d#8 :: rest)) =
          0x7d#8 :: rest := by
        rw [← List.cons_append, skipWhitespace_append _ (by decide)]
        intro c hc
        rcases List.mem_cons.mp hc with rfl | hmem
        · decide
        · exact hws c hmem
      simp only [printMembers, List.isEmpty_nil, if_true, List.append_nil,
        List.length_append] at hfuel
      have hitemFuel : (printValue depth item).length <= fuel := by omega
      have hstep := parseMembers_step name hitem hitemFuel htail
        (stopsAt_cons (by decide) _)
      simp only [printMembers, List.isEmpty_nil, if_true, List.append_nil,
        List.append_assoc, List.cons_append, List.nil_append] at hstep ⊢
      rw [hstep]
      rfl
  | cons next members ih =>
      rcases m with ⟨name, item⟩
      rcases m' with ⟨name', item'⟩
      rcases List.forall₂_cons.mp hread with ⟨⟨hname, hitem⟩, hothers⟩
      obtain rfl : name = name' := hname
      rcases List.forall₂_cons_left_iff.mp hothers with
        ⟨next', members', hnext', hmembers', rfl⟩
      rcases next with ⟨nextName, nextItem⟩
      rw [printMembers] at hfuel
      simp only [List.isEmpty_cons, Bool.false_eq_true, if_false,
        List.length_append, List.length_cons, List.length_nil] at hfuel
      obtain ⟨fuel, rfl⟩ : exists k, fuel = k + 1 := ⟨fuel - 1, by omega⟩
      have hrest := ih hothers fuel (by omega)
      have hitemFuel : (printValue depth item).length <= fuel + 1 := by omega
      have hstep := parseMembers_step name hitem hitemFuel
        (skipWhitespace_of_head (b := 0x2c#8) (by decide)
          (0x0a#8 :: (printMembers depth ((nextName, nextItem) :: members) ++
            (ws ++ 0x7d#8 :: rest))))
        (stopsAt_cons (by decide) _)
      rcases skipWhitespace_printMembers [0x0a#8] (by decide) depth
        (nextName, nextItem) members (ws ++ 0x7d#8 :: rest) with
        ⟨bs, hspace, hnext⟩
      have hskip := parseMembers_congr (hspace.trans hnext.symm) (fuel + 1)
        level
      rw [printMembers]
      simp only [List.isEmpty_cons, Bool.false_eq_true, if_false,
        List.append_assoc, List.cons_append, List.nil_append]
        at hstep hskip ⊢
      rw [hstep, if_pos trivial, hskip, hrest]
      rfl

theorem readsAs_object {depth level : Nat}
    {members members' : List (CString × CJson)}
    (hlevel : level < nestingLimit)
    (hread : MembersReadAs (depth + 1) (level + 1) members members') :
    ReadsAs depth level (.object members) (.object members') where
  starts := by
    rw [printValue]
    exact ⟨_, _, rfl, by decide⟩
  reads := by
    intro fuel rest hfuel _
    rw [printValue] at hfuel ⊢
    simp only [List.length_cons, List.length_append, List.length_nil]
      at hfuel
    obtain ⟨fuel, rfl⟩ : exists k, fuel = k + 1 := ⟨fuel - 1, by omega⟩
    have hlimit : ¬ nestingLimit <= level := by omega
    simp only [List.cons_append, List.append_assoc, List.nil_append]
    rw [parseValue_cons (by decide) (by decide) (by decide),
      if_neg (by decide), if_neg (by decide), if_neg (by decide), if_pos rfl,
      if_neg hlimit]
    cases members with
    | nil =>
        obtain rfl : members' = [] := List.forall₂_nil_left_iff.mp hread
        have hspace : forall c, c ∈ 0x0a#8 :: tabs depth -> c.toNat <= 32 := by
          intro c hc
          rcases List.mem_cons.mp hc with rfl | hmem
          · decide
          · exact tabs_space hmem
        rw [printMembers, List.nil_append, ← List.cons_append,
          skipWhitespace_append hspace (by decide)]
        rfl
    | cons m members =>
        rcases List.forall₂_cons_left_iff.mp hread with
          ⟨m', members', _, _, rfl⟩
        have htabs : forall c, c ∈ tabs depth -> c.toNat <= 32 :=
          fun _ => tabs_space
        have hlength : (printMembers (depth + 1) (m :: members)).length <
            fuel := by
          omega
        have hmembers := parseMembers_printMembers hread hlength htabs rest
        rcases skipWhitespace_printMembers [0x0a#8] (by decide)
          (depth + 1) m members (tabs depth ++ 0x7d#8 :: rest) with
          ⟨bs, hspace, hnext⟩
        have hquote := skipWhitespace_of_head (b := 0x22#8) (by decide) bs
        rw [parseMembers_congr (hnext.trans hquote.symm)] at hmembers
        rw [List.singleton_append] at hspace
        simp only [hspace, hmembers, Option.map_some]
        rfl

/-!
## Whole trees
-/

theorem parseValue_literal {text : List Byte} {item : CJson}
    (h : (text = ascii "null" ∧ item = .null) ∨
      (text = ascii "false" ∧ item = .bool false) ∨
      (text = ascii "true" ∧ item = .bool true))
    (fuel level : Nat) (rest : List Byte) :
    parseValue (fuel + 1) level (text ++ rest) = some (item, rest) := by
  have hfalse : (ascii "null").isPrefixOf (ascii "false" ++ rest) = false :=
    isPrefixOf_of_head_ne (by decide)
  have htrue : (ascii "null").isPrefixOf (ascii "true" ++ rest) = false :=
    isPrefixOf_of_head_ne (by decide)
  have htrue' : (ascii "false").isPrefixOf (ascii "true" ++ rest) = false :=
    isPrefixOf_of_head_ne (by decide)
  have hself : forall text : List Byte, text.isPrefixOf (text ++ rest) = true := by
    simp
  rcases h with ⟨rfl, rfl⟩ | ⟨rfl, rfl⟩ | ⟨rfl, rfl⟩
  · rw [parseValue.eq_def]
    simp only [hself, if_true]
    rfl
  · rw [parseValue.eq_def]
    simp only [hfalse, hself, Bool.false_eq_true, if_false, if_true]
    rfl
  · rw [parseValue.eq_def]
    simp only [htrue, htrue', hself, Bool.false_eq_true, if_false, if_true]
    rfl

theorem parseValue_printedLiteral {depth level : Nat} {printed item : CJson}
    {text : List Byte}
    (h : (text = ascii "null" ∧ item = .null) ∨
      (text = ascii "false" ∧ item = .bool false) ∨
      (text = ascii "true" ∧ item = .bool true))
    (htext : printValue depth printed = text) {fuel : Nat}
    (hfuel : (printValue depth printed).length <= fuel) (rest : List Byte) :
    parseValue fuel level (printValue depth printed ++ rest) =
      some (item, rest) := by
  have hpos : 0 < text.length := by
    rcases h with ⟨rfl, _⟩ | ⟨rfl, _⟩ | ⟨rfl, _⟩
    all_goals decide
  rw [htext] at hfuel ⊢
  obtain ⟨fuel, rfl⟩ : exists k, fuel = k + 1 := ⟨fuel - 1, by omega⟩
  exact parseValue_literal h fuel level rest

theorem parseValue_of_number {b : Byte} (hb : b = 0x2d#8 ∨ isDigit b = true)
    (fuel level : Nat) (rest : List Byte) :
    parseValue (fuel + 1) level (b :: rest) = parseNumber (b :: rest) := by
  have hletter : forall c, c ≠ 0x2d#8 -> isDigit c = false -> b ≠ c := by
    intro c hc hdigit
    rcases hb with rfl | hb
    · exact Ne.symm hc
    · exact isDigit_ne hb hdigit
  rw [parseValue_cons (hletter _ (by decide) (by decide))
    (hletter _ (by decide) (by decide)) (hletter _ (by decide) (by decide)),
    if_neg (hletter _ (by decide) (by decide)), if_pos hb]

theorem parseValue_numberText {text bs rest : List Byte} {b : Byte}
    (htext : text = b :: bs) (hb : b = 0x2d#8 ∨ isDigit b = true) {fuel : Nat}
    (hfuel : text.length <= fuel) (level : Nat) :
    parseValue fuel level (text ++ rest) = parseNumber (text ++ rest) := by
  subst htext
  obtain ⟨fuel, rfl⟩ : exists k, fuel = k + 1 :=
    ⟨fuel - 1, by simp at hfuel; omega⟩
  rw [List.cons_append, parseValue_of_number hb]

theorem readsBack_string (depth level : Nat) (s : CString) :
    ReadsBack depth level (.string s) := by
  intro fuel rest hfuel _
  have hparse := parseString_printString s rest
  rw [printValue, printString] at hfuel ⊢
  obtain ⟨fuel, rfl⟩ : exists k, fuel = k + 1 :=
    ⟨fuel - 1, by simp at hfuel; omega⟩
  rw [printString, List.cons_append] at hparse
  rw [List.cons_append]
  rw [parseValue_cons (by decide) (by decide) (by decide), if_pos rfl,
    hparse]
  rfl

theorem readsBack_array {depth level n : Nat} {items : List CJson}
    (hlevel : level < nestingLimit)
    (hreadable : forall x, x ∈ items -> Readable n x)
    (hback : forall x, x ∈ items -> ReadsBack (depth + 1) (level + 1) x) :
    ReadsBack depth level (.array items) := by
  intro fuel rest hfuel _
  rw [printValue] at hfuel ⊢
  simp only [List.length_cons, List.length_append, List.length_nil] at hfuel
  obtain ⟨fuel, rfl⟩ : exists k, fuel = k + 1 := ⟨fuel - 1, by omega⟩
  have hlimit : ¬ nestingLimit <= level := by omega
  simp only [List.cons_append, List.append_assoc, List.nil_append]
  rw [parseValue_cons (by decide) (by decide) (by decide),
    if_neg (by decide), if_neg (by decide), if_pos rfl, if_neg hlimit]
  cases items with
  | nil =>
      rw [printItems, List.nil_append, skipWhitespace_of_head (by decide)]
      rfl
  | cons item items =>
      have hitem := hreadable item (List.mem_cons_self ..)
      rcases printItems_head hitem (depth + 1) items with
        ⟨b, bs, htext, hspace, hb⟩
      have hlength : (printItems (depth + 1) (item :: items)).length <
          fuel := by
        omega
      have hitems := parseItems_printItems hreadable hback hlength rest
      rw [htext, List.cons_append] at hitems ⊢
      rw [skipWhitespace_of_head hspace]
      simp only [if_neg hb, hitems]
      rfl

theorem readsBack_of_readable {n : Nat} {t : CJson} (h : Readable n t)
    (depth level : Nat) (hlevel : level + n <= nestingLimit) :
    ReadsBack depth level t := by
  induction h generalizing depth level with
  | null =>
      intro fuel rest hfuel _
      exact parseValue_printedLiteral (Or.inl ⟨rfl, rfl⟩) rfl hfuel rest
  | bool b =>
      intro fuel rest hfuel _
      cases b with
      | false =>
          exact parseValue_printedLiteral (Or.inr (Or.inl ⟨rfl, rfl⟩)) rfl
            hfuel rest
      | true =>
          exact parseValue_printedLiteral (Or.inr (Or.inr ⟨rfl, rfl⟩)) rfl
            hfuel rest
  | number exact =>
      intro fuel rest hfuel hstop
      rcases exact.starts with ⟨b, bs, htext, hb⟩
      rw [printValue] at hfuel ⊢
      rw [parseValue_numberText htext hb hfuel]
      exact parseNumber_printNumber exact hstop
  | string s => exact readsBack_string depth level s
  | @array n items hreadable ih =>
      exact readsBack_array (by omega) hreadable
        fun x hx => ih x hx (depth + 1) (level + 1) (by omega)
  | @object n members hreadable ih =>
      apply ReadsAs.reads
      apply readsAs_object (by omega)
      rw [MembersReadAs, List.forall₂_same]
      intro x hx
      exact ⟨rfl, readsAs_of_readsBack (hreadable x hx)
        (ih x hx (depth + 1) (level + 1) (by omega))⟩

theorem skipUtf8Bom_of_ascii {b : Byte} (h : b.toNat < 128)
    (rest : List Byte) : skipUtf8Bom (b :: rest) = b :: rest := by
  have hb : 0xEF#8 ≠ b := by
    intro heq
    subst heq
    exact absurd h (by decide)
  rw [skipUtf8Bom, isPrefixOf_of_head_ne hb]
  simp

theorem parse_print_of_readsAs {t t' : CJson} (h : ReadsAs 0 0 t t')
    (hascii : forall b bs, printValue 0 t = b :: bs -> b.toNat < 128) :
    parse (print t) = some t' := by
  rcases h.starts with ⟨b, bs, htext, hspace⟩
  have hread := h.reads (2 * (printValue 0 t ++ [0#8]).length + 2) [0#8]
    (by rw [List.length_append]; omega) (stopsAt_cons (by decide) [])
  have hstart : skipWhitespace (skipUtf8Bom (printValue 0 t ++ [0#8])) =
      printValue 0 t ++ [0#8] := by
    rw [htext, List.cons_append, skipUtf8Bom_of_ascii (hascii b bs htext),
      skipWhitespace_of_head hspace]
  rw [parse, CString.stored, print_bytes, hstart, hread]
  rfl

theorem parse_print {n : Nat} {t : CJson} (h : Readable n t)
    (hn : n <= nestingLimit) : parse (print t) = some t := by
  have hback := readsBack_of_readable h 0 0 (by omega)
  apply parse_print_of_readsAs (readsAs_of_readsBack h hback)
  intro b bs htext
  rcases printValue_head h 0 with ⟨b', bs', htext', _, hascii, _⟩
  rw [htext, List.cons.injEq] at htext'
  rw [htext'.left]
  exact hascii

end CJson
end Z2wRpc
