import Mathlib

/-!
# Strings of code points

A string is a list of Unicode code points. Unlike `String`, it may hold surrogate code
points, which a JSON text can spell (`"\ud800"`) and which UTF-8 cannot encode.

* `encodeUtf8 t`: the UTF-8 bytes of `t`, or `none` if `t` holds a surrogate.
* `encodeUtf8_isSome_iff`: encoding succeeds exactly on the strings without a surrogate.
* `encodeUtf8_injective`: two strings with the same bytes are equal.
* `decodeUtf8_of_encodeUtf8`: decoding the bytes gives the string back.
-/

/-- A code point, possibly a surrogate. -/
abbrev CodePoint := Fin 0x110000

instance instNeZeroCodePoint : NeZero 0x110000 := ⟨by decide⟩

/-- A string as its list of code points. -/
abbrev Text := List CodePoint

/-- A sequence of bytes. -/
abbrev Bytes := List UInt8

/-- The code points of an ASCII string literal, read off its bytes. -/
def text (s : String) : Text := s.toByteArray.data.toList.map fun b => Fin.ofNat 0x110000 b.toNat

namespace CodePoint

/-- Surrogates are the code points that are not characters. -/
def IsSurrogate (c : CodePoint) : Prop := 0xd800 ≤ c.val ∧ c.val ≤ 0xdfff

instance (c : CodePoint) : Decidable c.IsSurrogate := by
  unfold IsSurrogate
  infer_instance

/-- The character of a code point, unless it is a surrogate. -/
def toChar? (c : CodePoint) : Option Char :=
  if h : c.val.isValidChar then some (Char.ofNatAux c.val h) else none

/-- The code points that a `Char` can hold are those that are no surrogates. -/
theorem isValidChar_iff (c : CodePoint) : c.val.isValidChar ↔ ¬c.IsSurrogate := by
  have := c.isLt
  unfold Nat.isValidChar IsSurrogate
  omega

/-- Two code points are not one character. -/
theorem toChar?_injective {c d : CodePoint} {ch : Char} (hc : toChar? c = some ch)
    (hd : toChar? d = some ch) : c = d := by
  have toNat_eq : ∀ {e : CodePoint}, toChar? e = some ch → ch.toNat = e.val := by
    intro e he
    unfold toChar? at he
    split at he
    · cases he
      rfl
    · cases he
  exact Fin.ext ((toNat_eq hc).symm.trans (toNat_eq hd))

end CodePoint

namespace Text

/-- A string without surrogates: one that has a UTF-8 encoding. -/
def Encodable (t : Text) : Prop := ∀ c ∈ t, ¬CodePoint.IsSurrogate c

instance (t : Text) : Decidable t.Encodable := List.decidableBAll _ t

/-- The empty text can be encoded. -/
@[simp]
theorem encodable_nil : Encodable [] := by simp [Encodable]

/-- A text can be encoded when each of its code points can. -/
@[simp]
theorem encodable_cons {c : CodePoint} {t : Text} :
    Encodable (c :: t) ↔ ¬c.IsSurrogate ∧ t.Encodable := by
  simp [Encodable]

/-- Texts that are joined can be encoded when both can. -/
@[simp]
theorem encodable_append {s t : Text} : Encodable (s ++ t) ↔ s.Encodable ∧ t.Encodable := by
  simp [Encodable, or_imp, forall_and]

/-- So can the start of a text. -/
theorem Encodable.take {t : Text} (h : t.Encodable) (n : ℕ) : Encodable (t.take n) :=
  fun c hc => h c (List.mem_of_mem_take hc)

/-- The characters of a string, unless it holds a surrogate. -/
def chars? : Text → Option (List Char)
  | [] => some []
  | c :: t => do
      let ch ← c.toChar?
      let rest ← chars? t
      return ch :: rest

/-- A text is made of characters exactly when it can be encoded. -/
theorem chars?_isSome_iff (t : Text) : t.chars?.isSome ↔ t.Encodable := by
  induction t with
  | nil => simp [chars?]
  | cons c t ih =>
    rw [encodable_cons, ← CodePoint.isValidChar_iff, ← ih]
    by_cases hc : c.val.isValidChar
    · cases ht : chars? t <;> simp [chars?, CodePoint.toChar?, hc, ht]
    · simp [chars?, CodePoint.toChar?, hc]

/-- The characters determine the text. -/
theorem chars?_injective {s t : Text} {l : List Char} (hs : s.chars? = some l)
    (ht : t.chars? = some l) : s = t := by
  induction s generalizing t l with
  | nil =>
    cases hs
    cases t with
    | nil => rfl
    | cons c t =>
      simp only [chars?, Option.bind_eq_bind, Option.bind_eq_some_iff] at ht
      obtain ⟨ch, -, rest, -, h⟩ := ht
      cases h
  | cons c s ih =>
    simp only [chars?, Option.bind_eq_bind, Option.bind_eq_some_iff] at hs
    obtain ⟨ch, hc, rest, hrest, h⟩ := hs
    cases h
    cases t with
    | nil => cases ht
    | cons d t =>
      simp only [chars?, Option.bind_eq_bind, Option.bind_eq_some_iff] at ht
      obtain ⟨ch', hd, rest', hrest', h'⟩ := ht
      cases h'
      rw [CodePoint.toChar?_injective hc hd, ih hrest hrest']

/-- The UTF-8 encoding of a string, unless it holds a surrogate. -/
def encodeUtf8 (t : Text) : Option Bytes := t.chars?.map (·.flatMap String.utf8EncodeChar)

/-- UTF-8 encodes exactly the texts without surrogates. -/
theorem encodeUtf8_isSome_iff (t : Text) : t.encodeUtf8.isSome ↔ t.Encodable := by
  rw [encodeUtf8, Option.isSome_map, chars?_isSome_iff]

/-- The bytes determine the characters: decoding gives them back. -/
private theorem flatMap_utf8EncodeChar_injective {l m : List Char}
    (h : l.flatMap String.utf8EncodeChar = m.flatMap String.utf8EncodeChar) : l = m := by
  have hbytes : l.utf8Encode = m.utf8Encode := by rw [List.utf8Encode, List.utf8Encode, h]
  have hdecode := congrArg ByteArray.utf8Decode? hbytes
  simpa using hdecode

/-- UTF-8 encoding is injective. -/
theorem encodeUtf8_injective {s t : Text} {b : Bytes} (hs : s.encodeUtf8 = some b)
    (ht : t.encodeUtf8 = some b) : s = t := by
  obtain ⟨l, hl, rfl⟩ := Option.map_eq_some_iff.mp hs
  obtain ⟨m, hm, heq⟩ := Option.map_eq_some_iff.mp ht
  rw [flatMap_utf8EncodeChar_injective heq] at hm
  exact chars?_injective hl hm

/-- The code points of characters. -/
def ofChars (l : List Char) : Text := l.map fun ch => Fin.ofNat 0x110000 ch.toNat

/-- The text is given back by its characters. -/
theorem ofChars_of_chars? {t : Text} {l : List Char} (h : t.chars? = some l) : ofChars l = t := by
  induction t generalizing l with
  | nil =>
    cases h
    rfl
  | cons c t ih =>
    simp only [chars?, Option.bind_eq_bind, Option.bind_eq_some_iff] at h
    obtain ⟨ch, hc, rest, hrest, h⟩ := h
    cases h
    -- a code point that is a character has its value
    have hval : ch.toNat = c.val := by
      unfold CodePoint.toChar? at hc
      split at hc
      · cases hc
        rfl
      · cases hc
    show Fin.ofNat 0x110000 ch.toNat :: ofChars rest = c :: t
    rw [ih hrest, hval, Fin.ofNat_val_eq_self]

/-- The string of a sequence of bytes in UTF-8. -/
def decodeUtf8 (b : Bytes) : Option Text :=
  b.toByteArray.utf8Decode?.map fun chars => ofChars chars.toList

/-- Decoding gives an encoded string back. -/
theorem decodeUtf8_of_encodeUtf8 {t : Text} {b : Bytes} (h : t.encodeUtf8 = some b) :
    decodeUtf8 b = some t := by
  obtain ⟨l, hl, rfl⟩ := Option.map_eq_some_iff.mp h
  have hdecode : (l.flatMap String.utf8EncodeChar).toByteArray.utf8Decode? = some l.toArray :=
    List.utf8Decode?_utf8Encode
  rw [decodeUtf8, hdecode, Option.map_some, ofChars_of_chars? hl]

end Text

/-! ## ASCII and hexadecimal -/

namespace Text

/-- A text of ASCII characters. -/
def IsAscii (t : Text) : Prop := ∀ c ∈ t, c.val < 128

instance (t : Text) : Decidable t.IsAscii :=
  List.decidableBAll (fun c : CodePoint => c.val < 128) t

@[simp]
theorem isAscii_nil : IsAscii [] := by simp [IsAscii]

/-- Texts that are joined are ASCII when both are. -/
@[simp]
theorem isAscii_append {s t : Text} : IsAscii (s ++ t) ↔ s.IsAscii ∧ t.IsAscii := by
  simp [IsAscii, or_imp, forall_and]

/-- So are texts that are joined by a map over a list. -/
theorem IsAscii.flatMap {α : Type} {l : List α} {f : α → Text} (h : ∀ x ∈ l, (f x).IsAscii) :
    IsAscii (l.flatMap f) := by
  intro c hc
  obtain ⟨x, hx, hcx⟩ := List.mem_flatMap.mp hc
  exact h x hx c hcx

/-- The characters of a joined text are those of the items, apart from the separators. -/
theorem forall_mem_intercalate {P : CodePoint → Prop} {sep : Text} {items : List Text}
    (hsep : ∀ c ∈ sep, P c) :
    (∀ c ∈ sep.intercalate items, P c) ↔ ∀ t ∈ items, ∀ c ∈ t, P c := by
  induction items with
  | nil => simp
  | cons t items ih =>
    cases items with
    | nil => simp
    | cons u items =>
      rw [List.intercalate_cons_cons]
      simp only [List.mem_append, or_imp, forall_and, ih, List.mem_cons, forall_eq]
      exact ⟨fun ⟨⟨ht, _⟩, hrest⟩ => ⟨ht, hrest⟩, fun ⟨ht, hrest⟩ => ⟨⟨ht, hsep⟩, hrest⟩⟩

/-- No surrogate is ASCII. -/
theorem IsAscii.encodable {t : Text} (h : t.IsAscii) : t.Encodable := by
  intro c hc hs
  have := h c hc
  unfold CodePoint.IsSurrogate at hs
  omega

/-- A text of printable ASCII characters. -/
def IsPlain (t : Text) : Prop := ∀ c ∈ t, 0x20 ≤ c.val ∧ c.val < 0x7f

instance (t : Text) : Decidable t.IsPlain :=
  List.decidableBAll (fun c : CodePoint => 0x20 ≤ c.val ∧ c.val < 0x7f) t

@[simp]
theorem isPlain_append {s t : Text} : IsPlain (s ++ t) ↔ s.IsPlain ∧ t.IsPlain :=
  List.forall_mem_append

/-- Printable ASCII is ASCII. -/
theorem IsPlain.isAscii {t : Text} (h : t.IsPlain) : t.IsAscii := by
  intro c hc
  have := h c hc
  omega

/-- The characters of a text as bytes, for an ASCII text. -/
def asciiBytes (t : Text) : Bytes := t.map fun c => UInt8.ofNat c.val

/-- The bytes of an ASCII string. -/
def encodeAscii (t : Text) : Option Bytes := if t.IsAscii then some t.asciiBytes else none

/-- An ASCII character is one byte. -/
private theorem utf8EncodeChar_of_lt {ch : Char} (h : ch.toNat < 128) :
    String.utf8EncodeChar ch = [UInt8.ofNat ch.toNat] := by
  have hval : ch.val.toNat ≤ 0x7f := Nat.le_of_lt_succ h
  unfold String.utf8EncodeChar
  rw [if_pos hval]
  rfl

/-- The UTF-8 encoding of an ASCII text has one byte for each character. -/
theorem encodeUtf8_of_isAscii {t : Text} (h : t.IsAscii) : t.encodeUtf8 = some t.asciiBytes := by
  induction t with
  | nil => rfl
  | cons c t ih =>
    have hc : c.val < 128 := h c (by simp)
    have ht : IsAscii t := fun d hd => h d (by simp [hd])
    obtain ⟨l, hl, hbytes⟩ := Option.map_eq_some_iff.mp (ih ht)
    have hvalid : c.val.isValidChar := Or.inl (by omega)
    have hchar : c.toChar? = some (Char.ofNatAux c.val hvalid) := by
      rw [CodePoint.toChar?, dif_pos hvalid]
    have htoNat : (Char.ofNatAux c.val hvalid).toNat = c.val := rfl
    rw [encodeUtf8, chars?, hchar, hl]
    simp only [Option.bind_eq_bind, Option.bind_some, Option.pure_def, Option.map_some,
      List.flatMap_cons, utf8EncodeChar_of_lt (htoNat ▸ hc), htoNat, hbytes, asciiBytes,
      List.map_cons, List.cons_append, List.nil_append]

/-- The string of a sequence of ASCII bytes. -/
def ofAscii (b : Bytes) : Text := b.map fun x => Fin.ofNat 0x110000 x.toNat

/-- The text determines the bytes. -/
theorem ofAscii_injective {a b : Bytes} (h : ofAscii a = ofAscii b) : a = b := by
  refine List.map_injective_iff.mpr (fun x y hxy => ?_) h
  have hx := x.toNat_lt
  have hy := y.toNat_lt
  have hval := congrArg Fin.val hxy
  simp only [Fin.val_ofNat] at hval
  exact UInt8.toNat.inj (by omega)

/-- A text of bytes holds no surrogates. -/
theorem ofAscii_encodable (b : Bytes) : (ofAscii b).Encodable := by
  intro c hc
  obtain ⟨x, -, rfl⟩ := List.mem_map.mp hc
  have hx := x.toNat_lt
  simp only [CodePoint.IsSurrogate, Fin.val_ofNat]
  omega

/-- The digit of a value below 16, in lower case. -/
def hexDigit (n : ℕ) : CodePoint :=
  if n < 10 then Fin.ofNat _ (48 + n) else Fin.ofNat _ (87 + n)

/-- Two lower-case hexadecimal digits for each byte. -/
def hex (b : Bytes) : Text := b.flatMap fun x => [hexDigit (x.toNat / 16), hexDigit (x.toNat % 16)]

/-- Each byte has two digits. -/
@[simp]
theorem length_hex (b : Bytes) : (hex b).length = 2 * b.length := by
  induction b with
  | nil => rfl
  | cons x b ih =>
    simp only [hex, List.flatMap_cons, List.length_append, List.length_cons, List.length_nil]
      at ih ⊢
    omega

/-- A hexadecimal digit is a printable ASCII character. -/
theorem hexDigit_bounds {n : ℕ} (h : n < 16) :
    0x20 ≤ (hexDigit n).val ∧ (hexDigit n).val < 0x7f := by
  unfold hexDigit
  split <;> simp only [Fin.val_ofNat] <;> omega

theorem hexDigit_lt {n : ℕ} (h : n < 16) : (hexDigit n).val < 128 :=
  (hexDigit_bounds h).2.trans (by norm_num)

/-- Hexadecimal digits are ASCII. -/
theorem hex_isAscii (b : Bytes) : (hex b).IsAscii := by
  intro c hc
  obtain ⟨x, -, hx⟩ := List.mem_flatMap.mp hc
  have hlt := x.toNat_lt
  rcases List.mem_pair.mp hx with rfl | rfl <;> exact hexDigit_lt (by omega)

end Text
