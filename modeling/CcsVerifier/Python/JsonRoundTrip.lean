import CcsVerifier.Python.JsonText

/-!
# Dumps read back

`json.loads` after `json.dumps`. A string comes back as itself, except that a high surrogate and a
low surrogate next to it come back as the character that the pair encodes in UTF-16.

* `stringTail?_flatMap_escapeChar`: a string literal is read back, with surrogates joined.
* `value?_dumps`: a dumped value is read back, whatever follows it.
* `loads_dumps_ofMembers`: an object comes back with its members in the order of the dump.
-/

/-! ## Surrogate pairs -/

namespace CodePoint

/-- The first half of a surrogate pair. -/
def IsHighSurrogate (c : CodePoint) : Prop := 0xd800 ≤ c.val ∧ c.val ≤ 0xdbff

/-- The second half of a surrogate pair. -/
def IsLowSurrogate (c : CodePoint) : Prop := 0xdc00 ≤ c.val ∧ c.val ≤ 0xdfff

instance (c : CodePoint) : Decidable c.IsHighSurrogate := by
  unfold IsHighSurrogate
  infer_instance

instance (c : CodePoint) : Decidable c.IsLowSurrogate := by
  unfold IsLowSurrogate
  infer_instance

/-- The code point that a surrogate pair encodes. -/
def joinPair (high low : CodePoint) : CodePoint :=
  Fin.ofNat _ (0x10000 + (high.val - 0xd800) * 0x400 + (low.val - 0xdc00))

end CodePoint

/-- The text with every surrogate pair joined. -/
def Text.joinSurrogates : Text → Text
  | [] => []
  | [c] => [c]
  | c :: d :: t =>
    if c.IsHighSurrogate ∧ d.IsLowSurrogate then c.joinPair d :: joinSurrogates t
    else c :: joinSurrogates (d :: t)

/-- A text without surrogates has nothing to join. -/
theorem Text.Encodable.joinSurrogates {t : Text} (h : t.Encodable) : t.joinSurrogates = t := by
  fun_induction Text.joinSurrogates t with
  | case1 => rfl
  | case2 c => rfl
  | case3 c d t hpair ih =>
    have hhigh := hpair.1
    have hc := (Text.encodable_cons.mp h).1
    simp only [CodePoint.IsHighSurrogate, CodePoint.IsSurrogate] at hhigh hc
    omega
  | case4 c d t hpair ih => rw [ih (Text.encodable_cons.mp h).2]

/-! ## String literals -/

namespace JsonScan

/-- The four hexadecimal digits of a code unit. -/
def fourDigits (u : ℕ) : Text :=
  [Text.hexDigit (u / 4096 % 16), Text.hexDigit (u / 256 % 16), Text.hexDigit (u / 16 % 16),
    Text.hexDigit (u % 16)]

theorem unicodeEscape_eq (u : ℕ) : unicodeEscape u = 0x5c :: 0x75 :: fourDigits u := rfl

/-- A hexadecimal digit is read back. -/
theorem hexValue?_hexDigit {n : ℕ} (h : n < 16) : hexValue? (Text.hexDigit n) = some n := by
  interval_cases n <;> rfl

/-- Four digits are read back as a code unit. -/
theorem codeUnit?_fourDigits {u : ℕ} (h : u < 0x10000) (t : Text) :
    codeUnit? (fourDigits u ++ t) = some (u, t) := by
  have hvalue : u / 4096 % 16 * 4096 + u / 256 % 16 * 256 + u / 16 % 16 * 16 + u % 16 = u := by
    omega
  have hmod : ∀ n, n % 16 < 16 := fun n => Nat.mod_lt _ (by norm_num)
  simp only [fourDigits, List.cons_append, List.nil_append, codeUnit?, hexValue?_hexDigit (hmod _),
    Option.bind_eq_bind, Option.bind_some, hvalue]
  rfl

/-- A literal is read off the text that starts with it. -/
theorem literal?_append (lit t : Text) : literal? lit (lit ++ t) = some t := by
  simp [literal?]

/-- It is not read off a text that starts with another character. -/
theorem literal?_eq_none {lit t : Text} (h : lit.head? ≠ t.head?) (hne : lit ≠ []) :
    literal? lit t = none := by
  unfold literal?
  cases lit with
  | nil => exact absurd rfl hne
  | cons l lit =>
    cases t with
    | nil => rfl
    | cons c t =>
      have hlc : l ≠ c := fun heq => h (by rw [heq]; rfl)
      simp [List.isPrefixOf, hlc]

/-- The text does not continue with the escape of a low surrogate. -/
def NoLowEscape (t : Text) : Prop :=
  ∀ rest, literal? (text "\\u") t = some rest →
    ∃ u rest', codeUnit? rest = some (u, rest') ∧ ¬(0xdc00 ≤ u ∧ u ≤ 0xdfff)

/-- An escape is one code point unless a low surrogate follows a high one. -/
theorem unicodeEscape?_alone {u : ℕ} (hu : u < 0x10000) {t : Text}
    (ht : 0xd800 ≤ u ∧ u ≤ 0xdbff → NoLowEscape t) :
    unicodeEscape? (fourDigits u ++ t) = some (Fin.ofNat _ u, t) := by
  simp only [unicodeEscape?, codeUnit?_fourDigits hu, Option.bind_eq_bind, Option.bind_some]
  split
  · next hhigh =>
    cases hlit : literal? (text "\\u") t with
    | none => rfl
    | some rest =>
      obtain ⟨low, rest', hlow, hnot⟩ := ht hhigh rest hlit
      simp only [hlow, Option.bind_some, if_neg hnot]
      rfl
  · rfl

/-- Two escapes that are a pair of surrogates are one code point. -/
theorem unicodeEscape?_pair {high low : ℕ} (hhigh : 0xd800 ≤ high ∧ high ≤ 0xdbff)
    (hlow : 0xdc00 ≤ low ∧ low ≤ 0xdfff) (t : Text) :
    unicodeEscape? (fourDigits high ++ (unicodeEscape low ++ t)) =
      some (Fin.ofNat _ (0x10000 + (high - 0xd800) * 0x400 + (low - 0xdc00)), t) := by
  have hlit : literal? (text "\\u") (unicodeEscape low ++ t) = some (fourDigits low ++ t) :=
    literal?_append (text "\\u") _
  simp only [unicodeEscape?, codeUnit?_fourDigits (by omega : high < 0x10000), Option.bind_eq_bind,
    Option.bind_some, if_pos hhigh, hlit, codeUnit?_fourDigits (by omega : low < 0x10000),
    if_pos hlow]
  rfl

/-- Put a code point in front of a scanned string. -/
def consResult (c : CodePoint) (r : Option (Text × Text)) : Option (Text × Text) :=
  r.map fun r => (c :: r.1, r.2)

/-- An escape sequence in a string is read as its code point. -/
theorem stringTail?_unicodeEscape {fuel : ℕ} {t t' : Text} {d : CodePoint}
    (h : unicodeEscape? t = some (d, t')) :
    stringTail? (fuel + 1) (0x5c :: 0x75 :: t) = consResult d (stringTail? fuel t') := by
  have hslash : (0x5c : CodePoint).val = 0x5c ∧ (0x75 : CodePoint).val = 0x75 := by decide
  simp only [stringTail?, hslash, h, Option.bind_eq_bind, Option.bind_some, ↓reduceIte,
    Nat.reduceEqDiff]
  cases stringTail? fuel t' <;> rfl

/-- A short escape is read as the character that it stands for. -/
theorem stringTail?_shortEscape {fuel : ℕ} {t : Text} {e d : CodePoint} (he : e.val ≠ 0x75)
    (h : shortEscape? e = some d) :
    stringTail? (fuel + 1) (0x5c :: e :: t) = consResult d (stringTail? fuel t) := by
  have hslash : (0x5c : CodePoint).val = 0x5c := by decide
  simp only [stringTail?, hslash, if_neg he, h, Option.map_some, Option.bind_eq_bind,
    Option.bind_some, ↓reduceIte, Nat.reduceEqDiff]
  cases stringTail? fuel t <;> rfl

/-- Any other character stands for itself. -/
theorem stringTail?_plain {fuel : ℕ} {t : Text} {c : CodePoint} (hquote : c.val ≠ 0x22)
    (hslash : c.val ≠ 0x5c) (hcontrol : 0x20 ≤ c.val) :
    stringTail? (fuel + 1) (c :: t) = consResult c (stringTail? fuel t) := by
  simp only [stringTail?, if_neg hquote, if_neg hslash, if_neg (not_lt.mpr hcontrol)]
  cases stringTail? fuel t <;> rfl

private theorem ofNat_eq {n : ℕ} {c : CodePoint} (h : n = c.val) : Fin.ofNat 0x110000 n = c := by
  apply Fin.ext
  have hlt := c.isLt
  simp only [Fin.val_ofNat]
  omega

/-- The escapes of a single code point: with one letter, none, with one code unit or with two. -/
theorem escapeChar_cases (c : CodePoint) :
    (∃ e : CodePoint, e.val ≠ 0x75 ∧ shortEscape? e = some c ∧ escapeChar c = [0x5c, e]) ∨
    (c.val ≠ 0x22 ∧ c.val ≠ 0x5c ∧ 0x20 ≤ c.val ∧ ¬c.IsLowSurrogate ∧ escapeChar c = [c]) ∨
    (c.val < 0x10000 ∧ escapeChar c = unicodeEscape c.val) ∨
    (∃ high low, (0xd800 ≤ high ∧ high ≤ 0xdbff) ∧ (0xdc00 ≤ low ∧ low ≤ 0xdfff) ∧
      0x10000 + (high - 0xd800) * 0x400 + (low - 0xdc00) = c.val ∧
      escapeChar c = unicodeEscape high ++ unicodeEscape low) := by
  have hshort : ∀ (e : CodePoint) {d : CodePoint} {n : ℕ}, c.val = n → d.val = n →
      e.val ≠ 0x75 → shortEscape? e = some d → escapeChar c = [0x5c, e] →
      ∃ e : CodePoint, e.val ≠ 0x75 ∧ shortEscape? e = some c ∧ escapeChar c = [0x5c, e] :=
    fun e d n hc hd he hs htext => ⟨e, he, by rw [hs, Fin.ext (hd.trans hc.symm)], htext⟩
  -- the seven short escapes
  by_cases h22 : c.val = 0x22
  · exact .inl (hshort 0x22 h22 rfl (by decide) rfl (by rw [escapeChar, if_pos h22]; rfl))
  by_cases h5c : c.val = 0x5c
  · exact .inl (hshort 0x5c h5c rfl (by decide) rfl
      (by rw [escapeChar, if_neg h22, if_pos h5c]; rfl))
  by_cases h0a : c.val = 0x0a
  · exact .inl (hshort 0x6e h0a rfl (by decide) rfl
      (by rw [escapeChar, if_neg h22, if_neg h5c, if_pos h0a]; rfl))
  by_cases h0d : c.val = 0x0d
  · exact .inl (hshort 0x72 h0d rfl (by decide) rfl
      (by rw [escapeChar, if_neg h22, if_neg h5c, if_neg h0a, if_pos h0d]; rfl))
  by_cases h09 : c.val = 0x09
  · exact .inl (hshort 0x74 h09 rfl (by decide) rfl
      (by rw [escapeChar, if_neg h22, if_neg h5c, if_neg h0a, if_neg h0d, if_pos h09]; rfl))
  by_cases h0c : c.val = 0x0c
  · exact .inl (hshort 0x66 h0c rfl (by decide) rfl
      (by rw [escapeChar, if_neg h22, if_neg h5c, if_neg h0a, if_neg h0d, if_neg h09,
        if_pos h0c]; rfl))
  by_cases h08 : c.val = 0x08
  · exact .inl (hshort 0x62 h08 rfl (by decide) rfl
      (by rw [escapeChar, if_neg h22, if_neg h5c, if_neg h0a, if_neg h0d, if_neg h09,
        if_neg h0c, if_pos h08]; rfl))
  -- any other character stands for itself, or is written by its code units
  have hrest : escapeChar c = if 0x20 ≤ c.val ∧ c.val ≤ 0x7e then [c]
      else if c.val < 0x10000 then unicodeEscape c.val
      else unicodeEscape (0xd800 + (c.val - 0x10000) / 0x400)
        ++ unicodeEscape (0xdc00 + (c.val - 0x10000) % 0x400) := by
    rw [escapeChar, if_neg h22, if_neg h5c, if_neg h0a, if_neg h0d, if_neg h09, if_neg h0c,
      if_neg h08]
  by_cases hplain : 0x20 ≤ c.val ∧ c.val ≤ 0x7e
  · refine .inr (.inl ⟨h22, h5c, hplain.1, ?_, by rw [hrest, if_pos hplain]⟩)
    simp only [CodePoint.IsLowSurrogate]
    omega
  by_cases hbmp : c.val < 0x10000
  · exact .inr (.inr (.inl ⟨hbmp, by rw [hrest, if_neg hplain, if_pos hbmp]⟩))
  · have hlt := c.isLt
    exact .inr (.inr (.inr ⟨0xd800 + (c.val - 0x10000) / 0x400,
      0xdc00 + (c.val - 0x10000) % 0x400, by omega, by omega, by omega,
      by rw [hrest, if_neg hplain, if_neg hbmp]⟩))

/-- A code point is read back, unless it is the first half of a surrogate pair. -/
theorem stringTail?_escapeChar {fuel : ℕ} {c : CodePoint} {t : Text}
    (ht : c.IsHighSurrogate → NoLowEscape t) :
    stringTail? (fuel + 1) (escapeChar c ++ t) = consResult c (stringTail? fuel t) := by
  -- a short escape, the character itself, one `\u` escape, or a pair of them
  rcases escapeChar_cases c with ⟨e, he, hs, htext⟩ | ⟨h22, h5c, h20, -, htext⟩ | ⟨hlt, htext⟩ |
    ⟨high, low, hhigh, hlow, hvalue, htext⟩
  · rw [htext]
    exact stringTail?_shortEscape he hs
  · rw [htext]
    exact stringTail?_plain h22 h5c h20
  · rw [htext, unicodeEscape_eq]
    have hread := unicodeEscape?_alone hlt ht
    rw [ofNat_eq rfl] at hread
    exact stringTail?_unicodeEscape hread
  · have hread := unicodeEscape?_pair hhigh hlow t
    rw [ofNat_eq hvalue] at hread
    rw [htext, List.append_assoc, unicodeEscape_eq high]
    exact stringTail?_unicodeEscape hread

/-- Surrogates are written as escapes. -/
theorem escapeChar_of_surrogate {c : CodePoint} (h : c.IsHighSurrogate ∨ c.IsLowSurrogate) :
    escapeChar c = unicodeEscape c.val := by
  simp only [CodePoint.IsHighSurrogate, CodePoint.IsLowSurrogate] at h
  unfold escapeChar
  split_ifs <;> first | omega | rfl

/-- A surrogate pair is read as one code point. -/
theorem stringTail?_pair {fuel : ℕ} {c d : CodePoint} {t : Text} (hc : c.IsHighSurrogate)
    (hd : d.IsLowSurrogate) :
    stringTail? (fuel + 1) (escapeChar c ++ (escapeChar d ++ t)) =
      consResult (c.joinPair d) (stringTail? fuel t) := by
  rw [escapeChar_of_surrogate (.inl hc), escapeChar_of_surrogate (.inr hd), unicodeEscape_eq c.val]
  exact stringTail?_unicodeEscape (unicodeEscape?_pair hc hd t)

/-- The closing quote starts no escape. -/
theorem noLowEscape_quote (t : Text) : NoLowEscape (0x22 :: t) := by
  intro rest h
  rw [literal?_eq_none (by simp; decide) (by decide)] at h
  cases h

/-- Only a low surrogate is spelled by an escape that completes a pair. -/
theorem noLowEscape_escapeChar {c : CodePoint} (hc : ¬c.IsLowSurrogate) (t : Text) :
    NoLowEscape (escapeChar c ++ t) := by
  intro rest h
  rcases escapeChar_cases c with ⟨e, he, hs, htext⟩ | ⟨-, h5c, -, -, htext⟩ | ⟨hlt, htext⟩ |
    ⟨high, low, hhigh, hlow, hvalue, htext⟩
  · rw [htext] at h
    -- the first two kinds begin no `\u` escape
    have hne : (0x75 : CodePoint) ≠ e := fun heq => he (by rw [← heq]; rfl)
    have hnone : literal? (text "\\u") ([0x5c, e] ++ t) = none := by
      change literal? [0x5c, 0x75] (0x5c :: e :: t) = none
      simp [literal?, List.isPrefixOf, hne]
    rw [hnone] at h
    cases h
  · rw [htext, literal?_eq_none ?_ (by decide)] at h
    · cases h
    · intro heq
      have hc : (0x5c : CodePoint) = c := Option.some.inj heq
      exact h5c (by rw [← hc]; rfl)
  · rw [htext, unicodeEscape_eq] at h
    have hlit := literal?_append (text "\\u") (fourDigits c.val ++ t)
    obtain rfl : rest = fourDigits c.val ++ t := Option.some.inj (h.symm.trans hlit)
    -- the other two begin with a unit that is no low surrogate
    exact ⟨c.val, t, codeUnit?_fourDigits hlt t, hc⟩
  · rw [htext, List.append_assoc, unicodeEscape_eq high] at h
    have hlit := literal?_append (text "\\u") (fourDigits high ++ (unicodeEscape low ++ t))
    obtain rfl : rest = fourDigits high ++ (unicodeEscape low ++ t) :=
      Option.some.inj (h.symm.trans hlit)
    exact ⟨high, _, codeUnit?_fourDigits (by omega) _, by omega⟩

/-- A string literal is read back, with surrogate pairs joined. -/
theorem stringTail?_flatMap_escapeChar (s rest : Text) {fuel : ℕ} (hfuel : s.length < fuel) :
    stringTail? fuel (s.flatMap escapeChar ++ 0x22 :: rest) = some (s.joinSurrogates, rest) := by
  have hquote : ∀ {fuel}, 0 < fuel → stringTail? fuel (0x22 :: rest) = some ([], rest) := by
    intro fuel hfuel
    obtain ⟨fuel, rfl⟩ := Nat.exists_eq_add_of_lt hfuel
    have hval : (0x22 : CodePoint).val = 0x22 := by decide
    simp only [stringTail?, hval, ↓reduceIte]
  fun_induction Text.joinSurrogates s generalizing fuel with
  | case1 => exact hquote hfuel
  | case2 c =>
    obtain ⟨fuel, rfl⟩ := Nat.exists_eq_add_of_lt hfuel
    simp only [List.flatMap_cons, List.flatMap_nil, List.append_nil, List.length_singleton]
    rw [stringTail?_escapeChar fun _ => noLowEscape_quote _, hquote (by omega)]
    rfl
  | case3 c d t hpair ih =>
    simp only [List.length_cons] at hfuel
    obtain ⟨fuel, rfl⟩ := Nat.exists_eq_add_of_lt (Nat.zero_lt_of_lt hfuel)
    simp only [List.flatMap_cons, List.append_assoc, Nat.zero_add]
    rw [stringTail?_pair hpair.1 hpair.2, ih (by omega)]
    rfl
  | case4 c d t hpair ih =>
    simp only [List.length_cons] at hfuel ih
    obtain ⟨fuel, rfl⟩ := Nat.exists_eq_add_of_lt (Nat.zero_lt_of_lt hfuel)
    -- a high surrogate that no low one follows is not joined
    have hnext : c.IsHighSurrogate →
        NoLowEscape ((d :: t).flatMap escapeChar ++ 0x22 :: rest) := fun hc => by
      rw [List.flatMap_cons, List.append_assoc]
      exact noLowEscape_escapeChar (fun hd => hpair ⟨hc, hd⟩) _
    rw [List.flatMap_cons, List.append_assoc, Nat.zero_add, stringTail?_escapeChar hnext,
      ih (by omega)]
    rfl

end JsonScan

/-! ## What a dump spells -/

namespace PyVal

variable (style : DumpStyle)

mutual

/-- The syntax tree of a dump. -/
def doc : PyVal → JsonDoc
  | .bool b => .bool b
  | .int z => .num (.int z)
  | .float x => .num (.float x)
  | .str s => .str s.joinSurrogates
  | .list xs => .arr (docItems xs)
  | .tuple xs => .arr (docItems xs)
  | .dict entries =>
    .obj ((orderMembers style (docMembers entries)).map fun m => (m.1.joinSurrogates, m.2))
  | _ => .null

/-- The syntax trees of the elements of a list. -/
def docItems : List PyVal → List JsonDoc
  | [] => []
  | x :: xs => doc x :: docItems xs

/-- The keys of a dictionary with the syntax trees of their values. -/
def docMembers : List (PyVal × PyVal) → List (Text × JsonDoc)
  | [] => []
  | (.str k, x) :: rest => (k, doc x) :: docMembers rest
  | _ :: rest => docMembers rest

end

end PyVal

namespace JsonScan

/-- Whether a code point is JSON white space. -/
def IsSpace (c : CodePoint) : Prop := c.val = 0x20 ∨ c.val = 0x09 ∨ c.val = 0x0a ∨ c.val = 0x0d

/-- Spaces before a text are skipped. -/
theorem skipSpace_append {u t : Text} (hu : ∀ c ∈ u, IsSpace c)
    (ht : ∀ c ∈ t.head?, ¬IsSpace c) : skipSpace (u ++ t) = t := by
  have hspace : ∀ c ∈ u, (c.val = 0x20 || c.val = 0x09 || c.val = 0x0a || c.val = 0x0d) = true := by
    intro c hc
    have := hu c hc
    simp only [IsSpace] at this
    simpa [or_assoc] using this
  rw [skipSpace, List.dropWhile_append_of_pos hspace]
  cases t with
  | nil => rfl
  | cons c t =>
    have hc := ht c rfl
    simp only [IsSpace] at hc
    rw [List.dropWhile_cons_of_neg]
    simpa [or_assoc] using hc

/-- Without spaces nothing is skipped. -/
theorem skipSpace_self {t : Text} (ht : ∀ c ∈ t.head?, ¬IsSpace c) : skipSpace t = t :=
  skipSpace_append (u := []) (by simp) ht

/-- A text that spells a syntax tree, whatever follows it. -/
structure Spells (t : Text) (doc : JsonDoc) : Prop where
  /-- The text starts with no white space and no closing bracket. -/
  head : ∃ c, t.head? = some c ∧ ¬IsSpace c ∧ c.val ≠ 0x5d
  /-- The text is read as the tree. -/
  reads : ∀ rest, Delimited rest → ∀ fuel, 2 * t.length ≤ fuel + 1 →
    value? (fuel + 1) (t ++ rest) = some (doc, rest)

/-- The text of a document is not empty. -/
theorem Spells.length_pos {t : Text} {doc : JsonDoc} (h : Spells t doc) : 0 < t.length := by
  obtain ⟨c, hc, -⟩ := h.head
  cases t with
  | nil => cases hc
  | cons d t => simp

/-- Spaces before a document are skipped. -/
theorem Spells.skipSpace {t : Text} {doc : JsonDoc} (h : Spells t doc) {u : Text}
    (hu : ∀ c ∈ u, IsSpace c) (rest : Text) : skipSpace (u ++ (t ++ rest)) = t ++ rest := by
  obtain ⟨c, hc, hspace, -⟩ := h.head
  refine skipSpace_append hu fun d hd => ?_
  rw [List.head?_append, hc] at hd
  cases hd
  exact hspace

/-! ### Scalars -/

theorem spells_null : Spells (text "null") .null :=
  ⟨⟨_, rfl, by unfold IsSpace; decide, by decide⟩, fun _ _ _ _ => rfl⟩

theorem spells_true : Spells (text "true") (.bool true) :=
  ⟨⟨_, rfl, by unfold IsSpace; decide, by decide⟩, fun _ _ _ _ => rfl⟩

theorem spells_false : Spells (text "false") (.bool false) :=
  ⟨⟨_, rfl, by unfold IsSpace; decide, by decide⟩, fun _ _ _ _ => rfl⟩

/-- An integer part starts with a digit. -/
theorem head_of_intPart? {t : Text} {r : Text × Text} (h : intPart? t = some r) :
    ∃ d t', t = d :: t' ∧ IsDigitChar d := by
  cases t with
  | nil => cases h
  | cons d t =>
    refine ⟨d, t, rfl, ?_⟩
    by_contra hd
    have hzero : d.val ≠ 0x30 := fun heq => hd (by unfold IsDigitChar; omega)
    rw [intPart?, if_neg hzero, digits?, List.takeWhile_cons_of_neg (by simpa using hd)] at h
    cases h

/-- A number starts with a digit, or with a minus sign and a digit. -/
theorem head_of_number? {t : Text} {r : PyNum × Text} (h : number? t = some r) :
    ∃ c t', t = c :: t' ∧
      (IsDigitChar c ∨ c.val = 0x2d ∧ ∃ d t'', t' = d :: t'' ∧ IsDigitChar d) := by
  obtain ⟨⟨whole, rest⟩, hwhole, -⟩ := Option.bind_eq_some_iff.mp h
  cases t with
  | nil => cases hwhole
  | cons c t =>
    refine ⟨c, t, rfl, ?_⟩
    by_cases hminus : c.val = 0x2d
    · simp only [if_pos hminus] at hwhole
      exact .inr ⟨hminus, head_of_intPart? hwhole⟩
    · simp only [if_neg hminus] at hwhole
      obtain ⟨d, t', heq, hd⟩ := head_of_intPart? hwhole
      cases heq
      exact .inl hd

/-- A value that can be read as a number is a number. -/
theorem value?_number {fuel : ℕ} {t rest : Text} {n : PyNum}
    (hnumber : number? t = some (n, rest)) : value? (fuel + 1) t = some (.num n, rest) := by
  obtain ⟨c, t', rfl, hc⟩ := head_of_number? hnumber
  -- a number starts with a digit or a minus, and no other value does
  have hmark : c.val ≠ 0x22 ∧ c.val ≠ 0x7b ∧ c.val ≠ 0x5b ∧ c.val ≠ 0x6e ∧ c.val ≠ 0x74 ∧
      c.val ≠ 0x66 ∧ c.val ≠ 0x4e ∧ c.val ≠ 0x49 := by
    rcases hc with hc | ⟨hc, -⟩
    · unfold IsDigitChar at hc
      omega
    · omega
  obtain ⟨h22, h7b, h5b, h6e, h74, h66, h4e, h49⟩ := hmark
  have hlit : ∀ (lit : Text) (l : CodePoint), lit.head? = some l → c.val ≠ l.val →
      literal? lit (c :: t') = none := fun lit l hl hne => by
    refine literal?_eq_none ?_ ?_
    · rw [hl, List.head?_cons, ne_eq, Option.some.injEq]
      exact fun heq => hne (by rw [heq])
    · rintro rfl
      cases hl
  -- after the minus comes a digit
  have hminus : literal? (text "-Infinity") (c :: t') = none := by
    rcases hc with hc | ⟨-, d, t'', rfl, hd⟩
    · refine hlit _ 0x2d rfl fun heq => ?_
      have hval : c.val = 0x2d := heq
      unfold IsDigitChar at hc
      omega
    · have hne : (0x49 : CodePoint) ≠ d := by
        rintro rfl
        exact absurd hd (by unfold IsDigitChar; decide)
      change literal? (0x2d :: 0x49 :: text "nfinity") _ = none
      simp [literal?, List.isPrefixOf, hne]
  simp only [value?, if_neg h22, if_neg h7b, if_neg h5b, hlit (text "null") 0x6e rfl h6e,
    hlit (text "true") 0x74 rfl h74, hlit (text "false") 0x66 rfl h66,
    hlit (text "NaN") 0x4e rfl h4e, hlit (text "Infinity") 0x49 rfl h49, hminus, hnumber,
    Option.map_some]

/-- A number that is read back is spelled by its text. -/
theorem spells_number {t : Text} {n : PyNum}
    (hnumber : ∀ rest, Delimited rest → number? (t ++ rest) = some (n, rest)) :
    Spells t (.num n) := by
  refine ⟨?_, fun rest hrest fuel _ => value?_number (hnumber rest hrest)⟩
  have hread := hnumber [] (by simp [Delimited])
  obtain ⟨c, t', ht, hc⟩ := head_of_number? hread
  rw [List.append_nil] at ht
  refine ⟨c, by rw [ht]; rfl, ?_, ?_⟩
  · unfold IsSpace
    unfold IsDigitChar at hc
    omega
  · unfold IsDigitChar at hc
    omega

/-- The digits of a number start with a digit. -/
theorem head_decimal (n : ℕ) : ∃ d t, decimal n = d :: t ∧ IsDigitChar d := by
  cases h : decimal n with
  | nil => exact absurd h (decimal_ne_nil n)
  | cons d t => exact ⟨d, t, rfl, isDigitChar_of_mem_decimal (h ▸ List.mem_cons_self ..)⟩

/-- The digits of an integer are read back. -/
theorem intPart?_decimal (n : ℕ) {rest : Text} (hrest : NoDigit rest) :
    intPart? (decimal n ++ rest) = some (decimal n, rest) := by
  by_cases h : n = 0
  · rw [h]
    exact intPart?_zero rest
  · have hdecimal : decimal n = significantDigits n := by rw [decimal, if_neg h]
    rw [hdecimal]
    exact intPart?_append (fun _ => isDigitChar_of_mem_significantDigits)
      (head?_significantDigits h) hrest

/-- An integer is read back from its digits. -/
theorem number?_intText (z : ℤ) {rest : Text} (hrest : Delimited rest) :
    number? (intText z ++ rest) = some (.int z, rest) := by
  obtain ⟨d, t, hd, hdigit⟩ := head_decimal z.natAbs
  -- the sign comes off, and no fraction or exponent follows
  have hsign : numberSign (intText z ++ rest) = (decide (z < 0), decimal z.natAbs ++ rest) := by
    have happend : numberSign ((if decide (z < 0) then text "-" else []) ++
        (decimal z.natAbs ++ rest)) = (decide (z < 0), decimal z.natAbs ++ rest) := by
      refine numberSign_append fun c hc => ?_
      rw [hd] at hc
      cases hc
      unfold IsDigitChar at hdigit
      omega
    unfold intText
    split
    · next h => simpa [h] using happend
    · next h => simpa [h] using happend
  have hfraction : fraction rest = (none, rest) := fraction_none fun c hc => (hrest c hc).2.1
  unfold number?
  simp only [hsign, Option.bind_eq_bind, intPart?_decimal _ hrest.noDigit, Option.bind_some,
    hfraction, exponent_none hrest, digitsValue_decimal, decide_eq_true_eq]
  change some (PyNum.int _, rest) = _
  congr 3
  split <;> omega

/-- An integer is read back. -/
theorem spells_int (z : ℤ) : Spells (intText z) (.num (.int z)) :=
  spells_number fun _ => number?_intText z

/-- A float is read back, `NaN` and the infinities too. -/
theorem spells_float (x : Binary64) : Spells (jsonFloat x) (.num (.float x)) := by
  rcases x with _ | (_ | _) | _ | x
  · exact ⟨⟨_, rfl, by unfold IsSpace; decide, by decide⟩, fun _ _ _ _ => rfl⟩
  · exact ⟨⟨_, rfl, by unfold IsSpace; decide, by decide⟩, fun _ _ _ _ => rfl⟩
  · exact ⟨⟨_, rfl, by unfold IsSpace; decide, by decide⟩, fun _ _ _ _ => rfl⟩
  · exact spells_number (t := floatRepr .negZero) fun _ => number?_floatRepr rfl
  · exact spells_number (t := floatRepr (.fin x)) fun _ => number?_floatRepr rfl

/-- Escaping makes no text shorter. -/
theorem length_le_flatMap_escapeChar (s : Text) : s.length ≤ (s.flatMap escapeChar).length := by
  have hpos : ∀ c, 1 ≤ (escapeChar c).length := by
    intro c
    rcases escapeChar_cases c with ⟨e, -, -, htext⟩ | ⟨-, -, -, -, htext⟩ | ⟨-, htext⟩ |
      ⟨high, low, -, -, -, htext⟩ <;> rw [htext]
    · simp
    · simp
    · simp [unicodeEscape_eq]
    · simp [unicodeEscape_eq]
  induction s with
  | nil => simp
  | cons c s ih =>
    rw [List.flatMap_cons, List.length_append, List.length_cons]
    have := hpos c
    omega

/-- A string literal is read back up to its closing quote. -/
theorem stringTail?_jsonString (s rest : Text) :
    ∃ t, jsonString s ++ rest = 0x22 :: t ∧
      stringTail? (t.length + 1) t = some (s.joinSurrogates, rest) := by
  refine ⟨s.flatMap escapeChar ++ 0x22 :: rest, ?_, ?_⟩
  · rw [jsonString, List.append_assoc, List.append_assoc]
    rfl
  · refine stringTail?_flatMap_escapeChar s rest ?_
    have := length_le_flatMap_escapeChar s
    rw [List.length_append]
    omega

/-- A string is read back with its surrogate pairs joined. -/
theorem spells_str (s : Text) : Spells (jsonString s) (.str s.joinSurrogates) := by
  refine ⟨⟨0x22, rfl, by unfold IsSpace; decide, by decide⟩, fun rest _ fuel _ => ?_⟩
  obtain ⟨t, ht, hread⟩ := stringTail?_jsonString s rest
  have hquote : (0x22 : CodePoint).val = 0x22 := by decide
  rw [ht]
  simp only [value?, hquote, ↓reduceIte, hread, Option.map_some]

/-! ### Arrays and objects -/

end JsonScan

/-- Separators that are a comma and a colon, followed by white space. -/
structure DumpStyle.Standard (style : DumpStyle) : Prop where
  /-- Items are separated by a comma. -/
  item : ∃ u, style.itemSeparator = 0x2c :: u ∧ ∀ c ∈ u, JsonScan.IsSpace c
  /-- A key and its value are separated by a colon. -/
  key : ∃ u, style.keySeparator = 0x3a :: u ∧ ∀ c ∈ u, JsonScan.IsSpace c

theorem DumpStyle.standard_compact : DumpStyle.compact.Standard :=
  ⟨⟨[], rfl, by simp⟩, ⟨[], rfl, by simp⟩⟩

theorem DumpStyle.standard_default : DumpStyle.default.Standard :=
  ⟨⟨[0x20], rfl, by simp [JsonScan.IsSpace]⟩, ⟨[0x20], rfl, by simp [JsonScan.IsSpace]⟩⟩

namespace JsonScan

variable {style : DumpStyle}

/-- A text that starts with a mark of the syntax ends a number and holds no white space first. -/
theorem delimited_cons {c : CodePoint} (h : c.val = 0x2c ∨ c.val = 0x5d ∨ c.val = 0x7d) (t : Text) :
    Delimited (c :: t) ∧ skipSpace (c :: t) = c :: t := by
  constructor
  · intro d hd
    cases hd
    unfold IsDigitChar
    omega
  · refine skipSpace_self fun d hd => ?_
    cases hd
    unfold IsSpace
    omega

/-- The first of several texts starts a joined text. -/
theorem Spells.skipSpace_intercalate {t : Text} {doc : JsonDoc} (h : Spells t doc) {u : Text}
    (hu : ∀ c ∈ u, IsSpace c) (sep : Text) (ts : List Text) (rest : Text) :
    JsonScan.skipSpace (u ++ (sep.intercalate (t :: ts) ++ rest)) =
      sep.intercalate (t :: ts) ++ rest := by
  cases ts with
  | nil =>
    rw [List.intercalate_singleton]
    exact h.skipSpace hu rest
  | cons t' ts =>
    rw [List.intercalate_cons_cons, List.append_assoc, List.append_assoc]
    exact h.skipSpace hu _

/-- The last element is followed by a bracket. -/
theorem items?_last {fuel : ℕ} {t rest : Text} {doc : JsonDoc}
    (h : value? fuel t = some (doc, 0x5d :: rest)) : items? (fuel + 1) t = some ([doc], rest) := by
  have hbracket : (0x5d : CodePoint).val = 0x5d := by decide
  simp only [items?, h, Option.bind_eq_bind, Option.bind_some,
    (delimited_cons (.inr (.inl hbracket)) rest).2, hbracket, ↓reduceIte]
  rfl

/-- The others are followed by a comma. -/
theorem items?_more {fuel : ℕ} {t next rest : Text} {doc : JsonDoc} {docs : List JsonDoc}
    (h : value? fuel t = some (doc, 0x2c :: next))
    (hnext : items? fuel (skipSpace next) = some (docs, rest)) :
    items? (fuel + 1) t = some (doc :: docs, rest) := by
  have hcomma : (0x2c : CodePoint).val = 0x2c := by decide
  simp only [items?, h, Option.bind_eq_bind, Option.bind_some,
    (delimited_cons (.inl hcomma) next).2, hcomma, hnext, ↓reduceIte, Nat.reduceEqDiff]
  rfl

/-- The items of an array are read back. -/
theorem items?_intercalate (hstyle : style.Standard) {items : List Text} {docs : List JsonDoc}
    (h : List.Forall₂ Spells items docs) (hne : items ≠ []) (rest : Text) (fuel : ℕ)
    (hfuel : 2 * (style.itemSeparator.intercalate items).length ≤ fuel) :
    items? (fuel + 1) (style.itemSeparator.intercalate items ++ 0x5d :: rest) =
      some (docs, rest) := by
  obtain ⟨u, hsep, hu⟩ := hstyle.item
  induction h generalizing fuel with
  | nil => exact absurd rfl hne
  | @cons t doc items docs hspells hitems ih =>
    have hpos := hspells.length_pos
    cases hitems with
    | nil =>
      rw [List.intercalate_singleton] at hfuel ⊢
      obtain ⟨fuel, rfl⟩ : ∃ f, fuel = f + 1 := ⟨fuel - 1, by omega⟩
      exact items?_last (hspells.reads _ (delimited_cons (.inr (.inl rfl)) rest).1 fuel hfuel)
    | @cons t' doc' items docs hspells' hitems =>
      -- the comma ends the first item
      have hjoin : style.itemSeparator.intercalate (t :: t' :: items) =
          t ++ 0x2c :: (u ++ style.itemSeparator.intercalate (t' :: items)) := by
        rw [List.intercalate_cons_cons, List.append_assoc]
        nth_rewrite 1 [hsep]
        rfl
      rw [hjoin] at hfuel ⊢
      simp only [List.length_append, List.length_cons] at hfuel
      obtain ⟨fuel, rfl⟩ : ∃ f, fuel = f + 1 := ⟨fuel - 1, by omega⟩
      rw [List.append_assoc, List.cons_append, List.append_assoc]
      refine items?_more (hspells.reads _ (delimited_cons (.inl rfl) _).1 fuel (by omega)) ?_
      rw [hspells'.skipSpace_intercalate hu]
      exact ih (by simp) fuel (by omega)

/-- An array is spelled by its items. -/
theorem spells_arr (hstyle : style.Standard) {items : List Text} {docs : List JsonDoc}
    (h : List.Forall₂ Spells items docs) :
    Spells (text "[" ++ style.itemSeparator.intercalate items ++ text "]") (.arr docs) := by
  refine ⟨⟨0x5b, rfl, by unfold IsSpace; decide, by decide⟩, fun rest _ fuel hfuel => ?_⟩
  have hopen : (0x5b : CodePoint).val = 0x5b := by decide
  have htext : text "[" ++ style.itemSeparator.intercalate items ++ text "]" ++ rest =
      0x5b :: (style.itemSeparator.intercalate items ++ 0x5d :: rest) := by
    rw [List.append_assoc, List.append_assoc]
    rfl
  have hlength : 2 * (style.itemSeparator.intercalate items).length + 3 ≤ fuel := by
    rw [List.length_append, List.length_append] at hfuel
    have hopen : (text "[").length = 1 := rfl
    have hclose : (text "]").length = 1 := rfl
    omega
  rw [htext]
  -- an empty list is closed at once; otherwise the first item must not look like the end
  cases h with
  | nil =>
    have hclose : (0x5d : CodePoint).val = 0x5d := by decide
    rw [List.intercalate_nil, List.nil_append]
    simp only [value?, hopen, (delimited_cons (.inr (.inl hclose)) rest).2]
    rfl
  | @cons t doc items docs hspells hitems =>
    obtain ⟨fuel, rfl⟩ : ∃ f, fuel = f + 1 := ⟨fuel - 1, by omega⟩
    have hread := items?_intercalate hstyle (.cons hspells hitems) (by simp) rest fuel (by omega)
    have hskip := hspells.skipSpace_intercalate (u := []) (by simp) style.itemSeparator items
      (0x5d :: rest)
    obtain ⟨c, hc, -, hbracket⟩ := hspells.head
    obtain ⟨body, hbody⟩ : ∃ body, style.itemSeparator.intercalate (t :: items) ++ 0x5d :: rest =
        c :: body := by
      cases t with
      | nil => cases hc
      | cons d t =>
        cases hc
        cases items with
        | nil => exact ⟨_, by rw [List.intercalate_singleton]; rfl⟩
        | cons t' items => exact ⟨_, by rw [List.intercalate_cons_cons]; rfl⟩
    rw [List.nil_append, hbody] at hskip
    rw [hbody] at hread ⊢
    simp only [value?, hopen, hskip, if_neg hbracket, hread, Nat.reduceEqDiff, ↓reduceIte,
      Option.map_some]

/-- A way of writing strings. -/
structure StringStyle where
  /-- The literal of a string. -/
  literal : Text → Text
  /-- The string that the literal is read as. -/
  value : Text → Text
  /-- The literal is read up to its closing quote. -/
  reads : ∀ s rest, ∃ t, literal s ++ rest = 0x22 :: t ∧
    stringTail? (t.length + 1) t = some (value s, rest)

/-- The literals of `json.dumps`. -/
def StringStyle.ascii : StringStyle := ⟨jsonString, Text.joinSurrogates, stringTail?_jsonString⟩

section Members

variable {strings : StringStyle} {key t : Text} {doc : JsonDoc} {fuel : ℕ}

/-- A key with its colon is read, up to the value. -/
private theorem members?_key (hstyle : style.Standard) (hspells : Spells t doc) (next : Text) :
    members? (fuel + 1) (strings.literal key ++ style.keySeparator ++ t ++ next) = (do
      let (x, rest) ← value? fuel (t ++ next)
      match skipSpace rest with
      | [] => none
      | c :: rest' =>
        if c.val = 0x7d then return ([(strings.value key, x)], rest')
        else if c.val = 0x2c then
          let (ms, rest'') ← members? fuel (skipSpace rest')
          return ((strings.value key, x) :: ms, rest'')
        else none) := by
  obtain ⟨u, hsep, hu⟩ := hstyle.key
  obtain ⟨t', ht', hread⟩ := strings.reads key (0x3a :: (u ++ (t ++ next)))
  have htext : strings.literal key ++ style.keySeparator ++ t ++ next = 0x22 :: t' := by
    rw [← ht', hsep]
    simp
  -- a separator is a colon and spaces
  have hcolon : skipSpace (0x3a :: (u ++ (t ++ next))) = 0x3a :: (u ++ (t ++ next)) :=
    skipSpace_self fun c hc => by
      cases hc
      unfold IsSpace
      decide
  have hmarks : (0x22 : CodePoint).val = 0x22 ∧ (0x3a : CodePoint).val = 0x3a := by decide
  rw [htext]
  generalize hmembers : members? (fuel + 1) (0x22 :: t') = parsed
  simp only [members?, hmarks, hread, hcolon, hspells.skipSpace hu, ne_eq, not_true_eq_false,
    ↓reduceIte, Option.bind_eq_bind, Option.bind_some] at hmembers
  exact hmembers.symm

/-- The last member is followed by a brace. -/
theorem members?_last (hstyle : style.Standard) (hspells : Spells t doc)
    (hfuel : 2 * t.length ≤ fuel + 1) (rest : Text) :
    members? (fuel + 2) (strings.literal key ++ style.keySeparator ++ t ++ 0x7d :: rest) =
      some ([(strings.value key, doc)], rest) := by
  have hbrace : (0x7d : CodePoint).val = 0x7d := by decide
  obtain ⟨hdelimited, hskip⟩ := delimited_cons (.inr (.inr hbrace)) rest
  rw [members?_key hstyle hspells, hspells.reads _ hdelimited fuel hfuel]
  simp only [Option.bind_eq_bind, Option.bind_some, hskip, hbrace, ↓reduceIte]
  rfl

/-- The others are followed by a comma. -/
theorem members?_more (hstyle : style.Standard) (hspells : Spells t doc)
    (hfuel : 2 * t.length ≤ fuel + 1) {next rest : Text} {ms : List (Text × JsonDoc)}
    (hnext : members? (fuel + 1) (skipSpace next) = some (ms, rest)) :
    members? (fuel + 2) (strings.literal key ++ style.keySeparator ++ t ++ 0x2c :: next) =
      some ((strings.value key, doc) :: ms, rest) := by
  have hcomma : (0x2c : CodePoint).val = 0x2c := by decide
  obtain ⟨hdelimited, hskip⟩ := delimited_cons (.inl hcomma) next
  rw [members?_key hstyle hspells, hspells.reads _ hdelimited fuel hfuel]
  simp only [Option.bind_eq_bind, Option.bind_some, hskip, hcomma, hnext, ↓reduceIte,
    Nat.reduceEqDiff]
  rfl

end Members

/-- The text of a member, given with its key and the text of its value. -/
def memberText (strings : StringStyle) (style : DumpStyle) (m : Text × Text) : Text :=
  strings.literal m.1 ++ style.keySeparator ++ m.2

/-- Joined members start with a quote. -/
theorem intercalate_memberText (strings : StringStyle) (style : DumpStyle) (m : Text × Text × JsonDoc)
    (ms : List (Text × Text × JsonDoc)) (next : Text) :
    ∃ t, style.itemSeparator.intercalate
      ((m :: ms).map fun m => memberText strings style (m.1, m.2.1)) ++ next = 0x22 :: t := by
  -- the text begins with the quotation mark of the first key
  cases ms with
  | nil =>
    obtain ⟨t, ht, -⟩ := strings.reads m.1 (style.keySeparator ++ m.2.1 ++ next)
    refine ⟨t, ?_⟩
    rw [List.map_singleton, List.intercalate_singleton, memberText, ← ht]
    simp only [List.append_assoc]
  | cons m' ms =>
    obtain ⟨t, ht, -⟩ := strings.reads m.1 (style.keySeparator ++ m.2.1 ++ style.itemSeparator ++
      style.itemSeparator.intercalate
        ((m' :: ms).map fun m => memberText strings style (m.1, m.2.1)) ++ next)
    refine ⟨t, ?_⟩
    rw [List.map_cons, List.map_cons, List.intercalate_cons_cons, memberText, ← ht, List.map_cons]
    simp only [List.append_assoc]

/-- The members of an object are read back. -/
theorem members?_intercalate (strings : StringStyle) (hstyle : style.Standard)
    {ms : List (Text × Text × JsonDoc)}
    (h : ∀ m ∈ ms, Spells m.2.1 m.2.2) (hne : ms ≠ []) (rest : Text) (fuel : ℕ)
    (hfuel : 2 * (style.itemSeparator.intercalate
      (ms.map fun m => memberText strings style (m.1, m.2.1))).length ≤ fuel) :
    members? (fuel + 1) (style.itemSeparator.intercalate
        (ms.map fun m => memberText strings style (m.1, m.2.1)) ++ 0x7d :: rest) =
      some (ms.map fun m => (strings.value m.1, m.2.2), rest) := by
  obtain ⟨u, hsep, hu⟩ := hstyle.item
  -- by induction on the members; the fuel pays for the text of each
  induction ms generalizing fuel with
  | nil => exact absurd rfl hne
  | cons m ms ih =>
    obtain ⟨key, t, doc⟩ := m
    have hspells : Spells t doc := h _ (List.mem_cons_self ..)
    have hpos := hspells.length_pos
    cases ms with
    | nil =>
      rw [List.map_singleton, List.intercalate_singleton] at hfuel ⊢
      simp only [memberText, List.length_append] at hfuel
      obtain ⟨fuel, rfl⟩ : ∃ f, fuel = f + 1 := ⟨fuel - 1, by omega⟩
      exact members?_last hstyle hspells (by omega) rest
    | cons m' ms =>
      have hjoin : style.itemSeparator.intercalate
          (((key, t, doc) :: m' :: ms).map fun m => memberText strings style (m.1, m.2.1)) =
          memberText strings style (key, t) ++ 0x2c :: (u ++ style.itemSeparator.intercalate
            ((m' :: ms).map fun m => memberText strings style (m.1, m.2.1))) := by
        rw [List.map_cons, List.map_cons, List.intercalate_cons_cons, List.append_assoc]
        nth_rewrite 1 [hsep]
        rfl
      -- the space after a comma is skipped before the next key
      have hskip : ∀ next, skipSpace (u ++ (style.itemSeparator.intercalate
          ((m' :: ms).map fun m => memberText strings style (m.1, m.2.1)) ++ next)) =
          style.itemSeparator.intercalate
            ((m' :: ms).map fun m => memberText strings style (m.1, m.2.1)) ++ next := by
        intro next
        obtain ⟨t, ht⟩ := intercalate_memberText strings style m' ms next
        refine skipSpace_append hu fun c hc => ?_
        rw [ht] at hc
        cases hc
        unfold IsSpace
        decide
      rw [hjoin] at hfuel ⊢
      simp only [memberText, List.length_append, List.length_cons] at hfuel
      obtain ⟨fuel, rfl⟩ : ∃ f, fuel = f + 1 := ⟨fuel - 1, by omega⟩
      rw [List.append_assoc, List.cons_append, List.append_assoc]
      refine members?_more hstyle hspells (by omega) ?_
      rw [hskip]
      refine ih (fun m hm => h m (List.mem_cons_of_mem _ hm)) (by simp) fuel ?_
      simp only [memberText]
      omega

/-- An object is spelled by its members. -/
theorem spells_obj (strings : StringStyle) (hstyle : style.Standard)
    {ms : List (Text × Text × JsonDoc)}
    (h : ∀ m ∈ ms, Spells m.2.1 m.2.2) :
    Spells (text "\x7b" ++ style.itemSeparator.intercalate
        (ms.map fun m => memberText strings style (m.1, m.2.1)) ++ text "\x7d")
      (.obj (ms.map fun m => (strings.value m.1, m.2.2))) := by
  refine ⟨⟨0x7b, rfl, by unfold IsSpace; decide, by decide⟩, fun rest _ fuel hfuel => ?_⟩
  have hopen : (0x7b : CodePoint).val = 0x7b := by decide
  have htext : text "\x7b" ++ style.itemSeparator.intercalate
        (ms.map fun m => memberText strings style (m.1, m.2.1)) ++ text "\x7d" ++ rest =
      0x7b :: (style.itemSeparator.intercalate
        (ms.map fun m => memberText strings style (m.1, m.2.1)) ++ 0x7d :: rest) := by
    rw [List.append_assoc, List.append_assoc]
    rfl
  have hlength : 2 * (style.itemSeparator.intercalate
      (ms.map fun m => memberText strings style (m.1, m.2.1))).length + 3 ≤ fuel := by
    rw [List.length_append, List.length_append] at hfuel
    have hopen : (text "\x7b").length = 1 := rfl
    have hclose : (text "\x7d").length = 1 := rfl
    omega
  rw [htext]
  -- an empty object is closed at once; otherwise the first key opens with a quote
  cases ms with
  | nil =>
    have hclose : (0x7d : CodePoint).val = 0x7d := by decide
    rw [List.map_nil, List.intercalate_nil, List.nil_append]
    simp only [value?, hopen, (delimited_cons (.inr (.inr hclose)) rest).2]
    rfl
  | cons m ms =>
    obtain ⟨fuel, rfl⟩ : ∃ f, fuel = f + 1 := ⟨fuel - 1, by omega⟩
    have hread := members?_intercalate strings hstyle h (by simp) rest fuel (by omega)
    obtain ⟨body, hbody⟩ := intercalate_memberText strings style m ms (0x7d :: rest)
    have hskip : skipSpace (0x22 :: body) = 0x22 :: body := skipSpace_self fun c hc => by
      cases hc
      unfold IsSpace
      decide
    have hquote : (0x22 : CodePoint).val = 0x22 := by decide
    rw [hbody] at hread ⊢
    simp only [value?, hopen, hskip, hquote, hread, Nat.reduceEqDiff, ↓reduceIte, Option.map_some]

/-! ## Dumps read back -/

/-- The texts of the elements are read back one by one. -/
private theorem spells_dumpsItems {xs : List PyVal} {items : List Text}
    (h : ∀ x ∈ xs, ∀ t, dumps style x = .ok t → Spells t (x.doc style))
    (hok : dumpsItems style xs = .ok items) :
    List.Forall₂ Spells items (PyVal.docItems style xs) := by
  induction xs generalizing items with
  | nil =>
    cases hok
    exact .nil
  | cons x xs ih =>
    simp only [dumpsItems, Except.bind_eq_ok_iff, pure, Except.pure, Except.ok.injEq] at hok
    obtain ⟨item, hx, rest, hxs, rfl⟩ := hok
    exact .cons (h x (by simp) _ hx) (ih (fun y hy => h y (by simp [hy])) hxs)

/-- So are those of the members. -/
private theorem spells_dumpsMembers {entries : List (PyVal × PyVal)} {ms : List (Text × Text)}
    (h : ∀ k v, (k, v) ∈ entries → ∀ t, dumps style v = .ok t → Spells t (v.doc style))
    (hok : dumpsMembers style entries = .ok ms) : ∃ l : List (Text × Text × JsonDoc),
      ms = l.map (fun m => (m.1, m.2.1)) ∧
        PyVal.docMembers style entries = l.map (fun m => (m.1, m.2.2)) ∧
        ∀ m ∈ l, Spells m.2.1 m.2.2 := by
  induction entries generalizing ms with
  | nil =>
    cases hok
    exact ⟨[], rfl, rfl, by simp⟩
  | cons entry rest ih =>
    obtain ⟨k, v⟩ := entry
    cases k
    case str s =>
      simp only [dumpsMembers, Except.bind_eq_ok_iff, pure, Except.pure, Except.ok.injEq] at hok
      obtain ⟨item, hv, tail, hrest, rfl⟩ := hok
      obtain ⟨l, rfl, hdoc, hl⟩ := ih (fun k v hkv => h k v (by simp [hkv])) hrest
      refine ⟨(s, item, v.doc style) :: l, rfl, ?_, ?_⟩
      · rw [PyVal.docMembers, hdoc]
        rfl
      · intro m hm
        rcases List.mem_cons.mp hm with rfl | hm
        · exact h _ v (List.mem_cons_self ..) _ hv
        · exact hl m hm
    all_goals simp [dumpsMembers, PyExc.type] at hok

/-- A dump spells the syntax tree of the value. -/
theorem spells_dumps (hstyle : style.Standard) {v : PyVal} {t : Text}
    (hok : dumps style v = .ok t) : Spells t (v.doc style) := by
  induction v using PyVal.induct generalizing t with
  | none =>
    cases hok
    exact spells_null
  | bool b =>
    cases b <;> cases hok
    · exact spells_false
    · exact spells_true
  | int z =>
    cases hok
    exact spells_int z
  | float x =>
    cases hok
    exact spells_float x
  | str s =>
    cases hok
    exact spells_str s
  | bytes b => simp [dumps, PyExc.type] at hok
  | list xs ih =>
    simp only [dumps, Except.bind_eq_ok_iff, pure, Except.pure, Except.ok.injEq] at hok
    obtain ⟨items, hitems, rfl⟩ := hok
    exact spells_arr hstyle (spells_dumpsItems (fun x hx t => ih x hx) hitems)
  | tuple xs ih =>
    simp only [dumps, Except.bind_eq_ok_iff, pure, Except.pure, Except.ok.injEq] at hok
    obtain ⟨items, hitems, rfl⟩ := hok
    exact spells_arr hstyle (spells_dumpsItems (fun x hx t => ih x hx) hitems)
  | dict entries ih =>
    simp only [dumps, Except.bind_eq_ok_iff, pure, Except.pure, Except.ok.injEq] at hok
    obtain ⟨ms, hms, rfl⟩ := hok
    obtain ⟨l, rfl, hdoc, hl⟩ := spells_dumpsMembers (fun k v hkv t => (ih k v hkv).2) hms
    -- sorting the members changes the order of the texts and of the documents alike
    have hordered : ∀ m ∈ orderMembers style l, Spells m.2.1 m.2.2 := fun m hm =>
      hl m ((perm_orderMembers style l).mem_iff.mp hm)
    have hspells := spells_obj .ascii hstyle hordered
    rw [PyVal.doc, hdoc, orderMembers_map style Prod.snd, orderMembers_map style Prod.fst,
      List.map_map, List.map_map]
    exact hspells
  | enum cls member value ih => simp [dumps, PyExc.type] at hok

/-- A text is scanned to the syntax tree that it spells. -/
theorem Spells.scan {t : Text} {doc : JsonDoc} (h : Spells t doc) : scan t = some doc := by
  have hskip := h.skipSpace (u := []) (by simp) []
  have hread := h.reads [] (by simp [Delimited]) (2 * t.length + 1) (by omega)
  rw [List.append_nil] at hskip hread
  rw [List.nil_append] at hskip
  simp only [JsonScan.scan, hskip, hread, Option.bind_eq_bind, Option.bind_some]
  rfl

/-- A dump is scanned to the syntax tree of the value. -/
theorem scan_dumps (hstyle : style.Standard) {v : PyVal} {t : Text}
    (hok : dumps style v = .ok t) : scan t = some (v.doc style) :=
  (spells_dumps hstyle hok).scan

end JsonScan

/-! ## Values that come back -/

/-- A value that comes back unchanged. -/
def PyVal.Reloads (style : DumpStyle) (v : PyVal) : Prop :=
  (v.doc style).load (fun pairs => .ok (.ofMembers (Dict.ofPairs pairs))) = .ok v

namespace PyVal

variable {style : DumpStyle}

/-- The documents of the members. -/
theorem docMembers_ofMembers (style : DumpStyle) (ms : List (Text × PyVal)) :
    docMembers style (ms.map fun m => (.str m.1, m.2)) = ms.map fun m => (m.1, m.2.doc style) := by
  induction ms with
  | nil => rfl
  | cons m ms ih => rw [List.map_cons, docMembers, ih, List.map_cons]

/-- The document of an object, its members in order. -/
theorem doc_ofMembers (style : DumpStyle) (ms : List (Text × PyVal)) :
    (ofMembers ms).doc style =
      .obj ((orderMembers style ms).map fun m => (m.1.joinSurrogates, m.2.doc style)) := by
  rw [ofMembers, doc, docMembers_ofMembers, orderMembers_map style (doc style), List.map_map]
  rfl

/-- Members whose values come back the same come back the same. -/
theorem loadMembers_doc {hook : List (Text × PyVal) → Except PyExc PyVal} {ms : List (Text × PyVal)}
    (hkeys : ∀ m ∈ ms, m.1.Encodable) (hvals : ∀ m ∈ ms, (m.2.doc style).load hook = .ok m.2) :
    JsonDoc.loadMembers hook (ms.map fun m => (m.1.joinSurrogates, m.2.doc style)) = .ok ms := by
  induction ms with
  | nil => rfl
  | cons m ms ih =>
    have hrest := ih (fun m hm => hkeys m (List.mem_cons_of_mem _ hm))
      fun m hm => hvals m (List.mem_cons_of_mem _ hm)
    rw [List.map_cons, JsonDoc.loadMembers, hvals m (List.mem_cons_self ..), hrest,
      (hkeys m (List.mem_cons_self ..)).joinSurrogates]
    rfl

/-- The hook gets the members of an object with encodable keys in the order of the dump. -/
theorem loadsWith_dumps_ofMembers {hook : List (Text × PyVal) → Except PyExc PyVal}
    (hstyle : style.Standard) {ms : List (Text × PyVal)} {t : Text}
    (hencodable : ∀ m ∈ ms, m.1.Encodable)
    (hvals : ∀ m ∈ ms, (m.2.doc style).load hook = .ok m.2)
    (hok : dumps style (.ofMembers ms) = .ok t) :
    loadsWith hook t = hook (orderMembers style ms) := by
  have hperm := perm_orderMembers style ms
  have hload := loadMembers_doc (fun m hm => hencodable m (hperm.mem_iff.mp hm))
    fun m hm => hvals m (hperm.mem_iff.mp hm)
  rw [loadsWith, JsonScan.scan_dumps hstyle hok, doc_ofMembers]
  change (JsonDoc.load _ (.obj _)) = _
  rw [JsonDoc.load, hload]
  rfl

/-- An object with encodable keys comes back with its members in the order of the dump. -/
theorem loads_dumps_ofMembers (hstyle : style.Standard) {ms : List (Text × PyVal)} {t : Text}
    (hkeys : (Dict.keys ms).Nodup) (hencodable : ∀ m ∈ ms, m.1.Encodable)
    (hvals : ∀ m ∈ ms, m.2.Reloads style) (hok : dumps style (.ofMembers ms) = .ok t) :
    loads t = .ok (.ofMembers (orderMembers style ms)) := by
  have hperm := perm_orderMembers style ms
  have hnodup : (Dict.keys (orderMembers style ms)).Nodup := (hperm.map Prod.fst).nodup_iff.mpr hkeys
  rw [loads, loadsWith_dumps_ofMembers hstyle hencodable hvals hok, Dict.ofPairs_eq_self hnodup]

end PyVal
