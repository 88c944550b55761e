import Z2wRpc.CJson.Parse
import Z2wRpc.CJson.Print

/-!
# String literals are read back

Escaping is undone byte by byte: the scanner of `parse_string` passes over the
escaped form of one byte without leaving the literal, and the copying loop
turns it back into that byte.
-/

namespace Z2wRpc

open Foundation

namespace CJson

/-!
## One escaped byte
-/

theorem parseHex4_escaped {b : Byte} (hb : b.toNat <= 31) :
    parseHex4 0x30#8 0x30#8 (hexDigit (b.toNat / 16))
      (hexDigit (b.toNat % 16)) = b.toNat := by
  revert hb
  revert b
  decide +kernel

theorem hexDigit_ne {n : Nat} (hn : n < 16) :
    hexDigit n ≠ 0x22#8 ∧ hexDigit n ≠ 0x5c#8 := by
  revert hn
  revert n
  decide

theorem utf16Literal_escaped {b : Byte} (hb : b.toNat <= 31)
    (rest : List Byte) :
    utf16Literal (0x30#8 :: 0x30#8 :: hexDigit (b.toNat / 16) ::
      hexDigit (b.toNat % 16) :: rest) = some ([b], rest) := by
  have hlow : ¬ (0xDC00 <= b.toNat ∧ b.toNat <= 0xDFFF) := by omega
  have hhigh : ¬ (0xD800 <= b.toNat ∧ b.toNat <= 0xDBFF) := by omega
  have hascii : b.toNat < 0x80 := by omega
  rw [utf16Literal.eq_def]
  simp only [parseHex4_escaped hb, if_neg hlow, if_neg hhigh, utf8Bytes,
    if_pos hascii, BitVec.ofNat_toNat, BitVec.setWidth_eq]

theorem escapeByte_cases (b : Byte) :
    (escapeByte b = [b] ∧ b ≠ 0x22#8 ∧ b ≠ 0x5c#8) ∨
      (exists c, escapeByte b = [0x5c#8, c] ∧ c ≠ 0x75#8 ∧
        simpleEscape c = some b) ∨
      (b.toNat <= 31 ∧ escapeByte b = [0x5c#8, 0x75#8, 0x30#8, 0x30#8,
        hexDigit (b.toNat / 16), hexDigit (b.toNat % 16)]) := by
  have hsimple : forall c, c ≠ 0x75#8 -> simpleEscape c = some b ->
      exists c', [0x5c#8, c] = [0x5c#8, c'] ∧ c' ≠ 0x75#8 ∧
        simpleEscape c' = some b :=
    fun c hc h => ⟨c, rfl, hc, h⟩
  unfold escapeByte
  split_ifs with hplain hslash hquote hbs hff hlf hcr hht
  · exact Or.inl ⟨rfl, hplain.right⟩
  · exact Or.inr (Or.inl (hsimple _ (by decide) (by rw [hslash]; rfl)))
  · exact Or.inr (Or.inl (hsimple _ (by decide) (by rw [hquote]; rfl)))
  · exact Or.inr (Or.inl (hsimple _ (by decide) (by rw [hbs]; rfl)))
  · exact Or.inr (Or.inl (hsimple _ (by decide) (by rw [hff]; rfl)))
  · exact Or.inr (Or.inl (hsimple _ (by decide) (by rw [hlf]; rfl)))
  · exact Or.inr (Or.inl (hsimple _ (by decide) (by rw [hcr]; rfl)))
  · exact Or.inr (Or.inl (hsimple _ (by decide) (by rw [hht]; rfl)))
  · refine Or.inr (Or.inr ⟨?_, rfl⟩)
    by_contra hlarge
    exact hplain ⟨by omega, hquote, hslash⟩

theorem scanLiteral_quote (rest : List Byte) :
    scanLiteral (0x22#8 :: rest) = some ([], rest) := by
  rw [scanLiteral.eq_def]
  rfl

theorem scanLiteral_plain {b : Byte} (hquote : b ≠ 0x22#8)
    (hslash : b ≠ 0x5c#8) (rest : List Byte) :
    scanLiteral (b :: rest) =
      (scanLiteral rest).map fun r => (b :: r.1, r.2) := by
  rw [scanLiteral.eq_def]
  simp only [if_neg hquote, if_neg hslash]

theorem scanLiteral_pair (c : Byte) (rest : List Byte) :
    scanLiteral (0x5c#8 :: c :: rest) =
      (scanLiteral rest).map fun r => (0x5c#8 :: c :: r.1, r.2) := by
  rw [scanLiteral.eq_def]
  rfl

theorem scanLiteral_escapeByte (b : Byte) (rest : List Byte) :
    scanLiteral (escapeByte b ++ rest) =
      (scanLiteral rest).map fun r => (escapeByte b ++ r.1, r.2) := by
  rcases escapeByte_cases b with ⟨h, hquote, hslash⟩ | ⟨c, h, _, _⟩ | ⟨hb, h⟩
  · rw [h]
    exact scanLiteral_plain hquote hslash rest
  · rw [h]
    exact scanLiteral_pair c rest
  · have hhigh := hexDigit_ne (n := b.toNat / 16) (by omega)
    have hlow := hexDigit_ne (n := b.toNat % 16) (by omega)
    rw [h]
    simp only [List.cons_append, List.nil_append]
    rw [scanLiteral_pair, scanLiteral_plain (by decide) (by decide),
      scanLiteral_plain (by decide) (by decide),
      scanLiteral_plain hhigh.left hhigh.right,
      scanLiteral_plain hlow.left hlow.right]
    cases scanLiteral rest <;> rfl

theorem unescape_escapeByte (fuel : Nat) (b : Byte) (rest : List Byte) :
    unescape (fuel + 1) (escapeByte b ++ rest) =
      (unescape fuel rest).map (b :: ·) := by
  rcases escapeByte_cases b with
    ⟨h, _, hslash⟩ | ⟨c, h, hc, hsimple⟩ | ⟨hb, h⟩
  · rw [h]
    simp [unescape, hslash]
  · rw [h]
    simp [unescape, hc, hsimple]
  · rw [h]
    simp only [List.cons_append, List.nil_append]
    rw [unescape]
    simp [utf16Literal_escaped hb]

/-!
## Whole literals
-/

theorem scanLiteral_escape (bs rest : List Byte) :
    scanLiteral (escape bs ++ 0x22#8 :: rest) = some (escape bs, rest) := by
  induction bs with
  | nil => exact scanLiteral_quote rest
  | cons b bs ih =>
      rw [escape, List.flatMap_cons, List.append_assoc, ← escape,
        scanLiteral_escapeByte, ih]
      rfl

theorem unescape_escape {bs : List Byte} {fuel : Nat}
    (h : bs.length < fuel) : unescape fuel (escape bs) = some bs := by
  induction bs generalizing fuel with
  | nil =>
      obtain ⟨fuel, rfl⟩ : exists k, fuel = k + 1 := ⟨fuel - 1, by omega⟩
      rfl
  | cons b bs ih =>
      obtain ⟨fuel, rfl⟩ : exists k, fuel = k + 1 := ⟨fuel - 1, by omega⟩
      rw [List.length_cons] at h
      rw [escape, List.flatMap_cons, ← escape, unescape_escapeByte,
        ih (by omega)]
      rfl

theorem escapeByte_length_pos (b : Byte) : 0 < (escapeByte b).length := by
  rcases escapeByte_cases b with ⟨h, _⟩ | ⟨c, h, _⟩ | ⟨_, h⟩ <;> simp [h]

theorem length_le_escape_length (bs : List Byte) :
    bs.length <= (escape bs).length := by
  induction bs with
  | nil => exact Nat.le_refl 0
  | cons b bs ih =>
      have hpos := escapeByte_length_pos b
      rw [escape, List.flatMap_cons, ← escape, List.length_append,
        List.length_cons]
      omega

theorem parseString_printString (s : CString) (rest : List Byte) :
    parseString (printString s ++ rest) = some (s, rest) := by
  have hlength := length_le_escape_length s.bytes
  rw [printString, List.cons_append, List.append_assoc, List.singleton_append,
    parseString, if_pos rfl, scanLiteral_escape, Option.bind_some,
    unescape_escape (by simp only; omega)]
  simp

end CJson
end Z2wRpc
