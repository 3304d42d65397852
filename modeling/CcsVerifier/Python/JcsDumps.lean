import CcsVerifier.Python.JcsReload

/-!
# `json.dumps` and canonical JSON

`json.dumps` with sorted keys and compact separators escapes every character that is not printable
ASCII and writes floats as `repr` does; RFC 8785 leaves characters as they are and writes floats as
ECMAScript does.

* `Binary64.PrintsAlike`: the floats that both write with the same text.
* `PyVal.strings`: the strings inside of a value.
* `Jcs.serialize_eq_dumps_iff`: the two texts are the same exactly when all strings are below U+007F
  and all floats are printed alike.
-/

/-! ## Floats -/

/-- The double `1e-4`. -/
def tenThousandth : ℚ := 7378697629483821 / 2 ^ 66

/-- The double `1e-9`. -/
def billionth : ℚ := 4835703278458517 / 2 ^ 82

theorem representable_tenThousandth : Representable tenThousandth :=
  ⟨7378697629483821, -66, by norm_num, by norm_num, by norm_num, by norm_num [tenThousandth]⟩

theorem representable_billionth : Representable billionth :=
  ⟨4835703278458517, -82, by norm_num, by norm_num, by norm_num, by norm_num [billionth]⟩

theorem representable_tenPow16 : Representable (10 ^ 16) :=
  ⟨5 ^ 16, 16, by norm_num, by norm_num, by norm_num, by norm_num⟩

/-- The floats that `repr` and ECMAScript write with the same text: those with an exponent of two
digits or more in both, and those without an exponent in both that are not integral. -/
def Binary64.PrintsAlike : Binary64 → Prop
  | .fin x => 10 ^ 21 ≤ |x.val| ∨ (x.val ≠ 0 ∧ |x.val| < billionth) ∨
      (x.val.den ≠ 1 ∧ tenThousandth ≤ |x.val|)
  | _ => False

instance : DecidablePred Binary64.PrintsAlike := fun x => by
  unfold Binary64.PrintsAlike
  split <;> infer_instance

namespace Decimal

variable {d : Decimal}

/-- The position of the point is the order of magnitude. -/
theorem tenPow_le_value_iff (h : d.significand ≠ 0) (k : ℤ) :
    (10 : ℚ) ^ k ≤ d.value ↔ k < (significantDigits d.significand).length + d.exponent := by
  rw [length_significantDigits]
  generalize hn : (Nat.digits 10 d.significand).length = n
  -- the number of digits and the exponent bound the value within a factor of ten
  have hupper : d.value < 10 ^ (n + d.exponent) := by
    have hdigits := Nat.lt_base_pow_length_digits (b := 10) (m := d.significand) (by norm_num)
    rw [hn] at hdigits
    rw [value, zpow_add₀ (by norm_num), zpow_natCast]
    exact mul_lt_mul_of_pos_right (by exact_mod_cast hdigits) (zpow_pos (by norm_num) _)
  have hlower : 10 ^ (n + d.exponent) ≤ 10 * d.value := by
    have hdigits := Nat.base_pow_length_digits_le 10 d.significand (by norm_num) h
    rw [hn] at hdigits
    rw [value, zpow_add₀ (by norm_num), zpow_natCast, ← mul_assoc]
    exact mul_le_mul_of_nonneg_right (by exact_mod_cast hdigits) (zpow_pos (by norm_num) _).le
  constructor
  · intro hle
    exact (zpow_lt_zpow_iff_right₀ (by norm_num : (1 : ℚ) < 10)).mp (hle.trans_lt hupper)
  · intro hlt
    have hpow : (10 : ℚ) ^ (k + 1) ≤ 10 ^ (n + d.exponent) :=
      zpow_le_zpow_right₀ (by norm_num) (by omega)
    rw [zpow_add_one₀ (by norm_num)] at hpow
    linarith

end Decimal

/-- A double and its shortest decimal are on the same side of a power of ten and of the double next
to it. -/
theorem le_value_shortestDecimal_iff {b r : ℚ} (hb : roundToGrid r = b) (hr : 0 < r)
    (htop : ∀ x : FiniteBinary64, |x.val| = b → (shortestDecimal x).value = r)
    {x : FiniteBinary64} (hx : x.val ≠ 0) : r ≤ (shortestDecimal x).value ↔ b ≤ |x.val| := by
  have hvalue := Decimal.value_pos (significand_shortestDecimal_ne_zero hx)
  have habs := Decimal.abs_eq_roundToGrid (shortestDecimal_reads x)
  constructor
  · intro hle
    rw [habs, ← hb]
    exact roundToGrid_mono hr hle
  · intro hle
    by_contra hlt
    have hupper : |x.val| ≤ b := by
      rw [habs, ← hb]
      exact roundToGrid_mono hvalue (not_le.mp hlt).le
    exact hlt (htop x (le_antisymm hupper hle)).ge

/-- A property of the two doubles of one magnitude. -/
private theorem forall_abs_eq {P : FiniteBinary64 → Prop} {b : ℚ} (hb : Representable b)
    (hpos : P ⟨b, hb⟩) (hneg : P ⟨-b, hb.neg⟩) (x : FiniteBinary64) (hx : |x.val| = b) : P x := by
  obtain ⟨q, hq⟩ := x
  obtain rfl | rfl := eq_or_eq_neg_of_abs_eq hx
  · exact hpos
  · exact hneg

/-- The shortest decimal of a double reaches `10 ^ 21` exactly when the double does. -/
theorem tenPow21_le_value_iff {x : FiniteBinary64} (hx : x.val ≠ 0) :
    (10 : ℚ) ^ (21 : ℤ) ≤ (shortestDecimal x).value ↔ 10 ^ 21 ≤ |x.val| := by
  have hpow : (10 : ℚ) ^ (21 : ℤ) = 10 ^ 21 := by norm_num
  rw [hpow]
  exact le_value_shortestDecimal_iff (roundToGrid_eq_self representable_tenPow21) (by norm_num)
    (fun _ => Jcs.value_shortestDecimal_tenPow21) hx

/-- The same for a ten thousandth, below which `repr` uses an exponent. -/
theorem tenThousandth_le_iff {x : FiniteBinary64} (hx : x.val ≠ 0) :
    (10 : ℚ) ^ (-4 : ℤ) ≤ (shortestDecimal x).value ↔ tenThousandth ≤ |x.val| :=
  le_value_shortestDecimal_iff (by decide +kernel) (by norm_num)
    (forall_abs_eq representable_tenThousandth (by decide +kernel) (by decide +kernel)) hx

/-- The same for a billionth. -/
theorem billionth_le_iff {x : FiniteBinary64} (hx : x.val ≠ 0) :
    (10 : ℚ) ^ (-9 : ℤ) ≤ (shortestDecimal x).value ↔ billionth ≤ |x.val| :=
  le_value_shortestDecimal_iff (by decide +kernel) (by norm_num)
    (forall_abs_eq representable_billionth (by decide +kernel) (by decide +kernel)) hx

/-- The shortest decimal has a fraction exactly when the double is no integer. -/
theorem exponent_neg_iff {x : FiniteBinary64} (hx : x.val ≠ 0) :
    (shortestDecimal x).exponent < 0 ↔ x.val.den ≠ 1 := by
  rw [← not_le, ne_eq, not_iff_not]
  constructor
  · intro hexp
    obtain ⟨z, hz⟩ := Jcs.integral_of_exponent_nonneg hexp
    rw [hz, Rat.den_intCast]
  · intro hden
    have hnum := (Rat.coe_int_num_of_den_eq_one hden).symm
    refine exponent_shortestDecimal_nonneg hnum fun hzero => hx ?_
    rw [hnum, hzero, Int.cast_zero]

/-- A double that is not integral is small. -/
theorem value_shortestDecimal_lt {x : FiniteBinary64} (hden : x.val.den ≠ 1) :
    (shortestDecimal x).value < 10 ^ (16 : ℤ) := by
  by_contra hge
  have hpow : (10 : ℚ) ^ (16 : ℤ) = 10 ^ 16 := by norm_num
  rw [not_lt, hpow] at hge
  have hle := Decimal.le_abs_of_le_value (shortestDecimal_reads x) representable_tenPow16 hge
  obtain ⟨z, hz⟩ := x.exists_int_of_le (le_trans (by norm_num) hle)
  rw [hz, Rat.den_intCast] at hden
  exact hden rfl

/-! ### The two layouts -/

section Layout

variable {ds : Text} {point : ℤ}

/-- Without an exponent there are digits and a point. -/
private theorem not_mem_layout (hds : ∀ c ∈ ds, IsDigitChar c) (hpoint : -6 < point ∧ point ≤ 21) :
    (0x65 : CodePoint) ∉ Jcs.layout ds point := by
  -- the letter is no digit, and only the layouts with an exponent spell it
  have hdigits : ∀ {t : Text}, (∀ c ∈ t, IsDigitChar c) → (0x65 : CodePoint) ∉ t := by
    intro t h hmem
    have hdigit := h _ hmem
    unfold IsDigitChar at hdigit
    exact absurd hdigit.2 (by decide)
  have hzeros : ∀ n, (0x65 : CodePoint) ∉ List.replicate n (digitChar 0) := fun n =>
    hdigits fun c hc => List.eq_of_mem_replicate hc ▸ isDigitChar_digitChar (by norm_num)
  have hlit : (0x65 : CodePoint) ∉ text "." ∧ (0x65 : CodePoint) ∉ text "0." := by decide
  have htake : (0x65 : CodePoint) ∉ ds.take point.toNat :=
    hdigits fun c hc => hds c (List.mem_of_mem_take hc)
  have hdrop : (0x65 : CodePoint) ∉ ds.drop point.toNat :=
    hdigits fun c hc => hds c (List.mem_of_mem_drop hc)
  unfold Jcs.layout
  split_ifs
  · simp [hdigits hds, hzeros]
  · simp only [List.mem_append, htake, hlit, hdrop, or_self, not_false_eq_true]
  · simp only [List.mem_append, hdigits hds, hlit, hzeros, or_self, not_false_eq_true]
  all_goals omega

/-- A number with an exponent, up to its digits. -/
private def mantissa (ds : Text) (point : ℤ) : Text :=
  ds.take 1 ++ (if ds.length ≤ 1 then [] else text "." ++ ds.drop 1)
    ++ text (if point - 1 < 0 then "e-" else "e+")

/-- In the scientific notation of `repr` the exponent has at least two digits. -/
private theorem layoutDigits_scientific (hpoint : point ≤ -4 ∨ 16 < point) :
    layoutDigits ds point = mantissa ds point
      ++ (if (point - 1).natAbs < 10 then [digitChar 0] else []) ++ decimal (point - 1).natAbs := by
  unfold layoutDigits
  rw [if_neg (by omega : ¬(0 < point ∧ point ≤ 16)), if_neg (by omega : ¬(-4 < point ∧ point ≤ 0))]
  rfl

/-- In that of RFC 8785 it has as many as it needs. -/
private theorem layout_scientific (hpoint : point ≤ -6 ∨ 21 < point) :
    Jcs.layout ds point = mantissa ds point ++ decimal (point - 1).natAbs := by
  unfold Jcs.layout
  rw [if_neg (by omega : ¬((ds.length : ℤ) ≤ point ∧ point ≤ 21)),
    if_neg (by omega : ¬(0 < point ∧ point ≤ 21)), if_neg (by omega : ¬(-6 < point ∧ point ≤ 0))]
  rfl

/-- The scientific notation has an `e`. -/
private theorem mem_layoutDigits (hpoint : point ≤ -4 ∨ 16 < point) :
    (0x65 : CodePoint) ∈ layoutDigits ds point := by
  have hsign : (0x65 : CodePoint) ∈ text (if point - 1 < 0 then "e-" else "e+") := by
    split <;> decide
  rw [layoutDigits_scientific hpoint, mantissa]
  simp only [List.mem_append, hsign, or_true, true_or]

/-- The two layouts of the same digits are the same text: without an exponent if there are digits
after the point, with an exponent if it has at least two digits. -/
theorem layoutDigits_eq_layout_iff (hne : ds ≠ []) (hds : ∀ c ∈ ds, IsDigitChar c) :
    layoutDigits ds point = Jcs.layout ds point ↔
      (-4 < point ∧ point ≤ 16 ∧ point < ds.length) ∨ 21 < point ∨ point ≤ -9 := by
  have hlen : 0 < ds.length := List.length_pos_of_ne_nil hne
  rcases le_or_gt point (-6) with hsmall | hsmall
  · -- both write an exponent, `repr` one of at least two digits
    rw [layoutDigits_scientific (by omega), layout_scientific (.inl hsmall)]
    by_cases htwo : point ≤ -9
    · rw [if_neg (by omega : ¬(point - 1).natAbs < 10), List.append_nil]
      exact iff_of_true rfl (.inr (.inr htwo))
    · rw [if_pos (by omega : (point - 1).natAbs < 10)]
      refine iff_of_false (fun h => ?_) (by omega)
      have hlength := congrArg List.length h
      simp only [List.length_append, List.length_cons, List.length_nil] at hlength
      omega
  rcases le_or_gt point (-4) with hlow | hlow
  · -- `repr` writes an exponent already, the canonical text does not yet
    refine iff_of_false (fun h => ?_) (by omega)
    exact not_mem_layout hds (by omega) (h ▸ mem_layoutDigits (.inl hlow))
  -- both write zeros after the point
  rcases le_or_gt point 0 with hzero | hzero
  · unfold layoutDigits Jcs.layout
    rw [if_neg (by omega), if_pos (by omega), if_neg (by omega), if_neg (by omega),
      if_pos (by omega)]
    exact iff_of_true rfl (by omega)
  rcases le_or_gt point 16 with hmid | hmid
  · unfold layoutDigits Jcs.layout
    rw [if_pos (by omega)]
    by_cases hdigits : (ds.length : ℤ) ≤ point
    · -- an integer, which `repr` marks as a float
      rw [if_pos hdigits, if_pos (by omega)]
      refine iff_of_false (fun h => ?_) (by omega)
      have hlength := congrArg List.length h
      rw [List.length_append, (by decide : (text ".0").length = 2)] at hlength
      omega
    · rw [if_neg hdigits, if_neg (by omega), if_pos (by omega)]
      exact iff_of_true rfl (by omega)
  rcases le_or_gt point 21 with hlarge | hlarge
  · refine iff_of_false (fun h => ?_) (by omega)
    exact not_mem_layout hds (by omega) (h ▸ mem_layoutDigits (.inr hmid))
  · rw [layoutDigits_scientific (.inr hmid), layout_scientific (.inr hlarge),
      if_neg (by omega : ¬(point - 1).natAbs < 10), List.append_nil]
    exact iff_of_true rfl (.inr (.inl hlarge))

end Layout

namespace Jcs

/-- Which finite doubles both write with the same text. -/
theorem finiteRepr_eq_number_iff {x : FiniteBinary64} :
    finiteRepr x = number x ↔ (Binary64.fin x).PrintsAlike := by
  by_cases hx : x.val = 0
  · rw [finiteRepr, number, if_pos hx, if_pos hx]
    refine iff_of_false (by decide) ?_
    rintro (h | h | h)
    · rw [hx] at h
      norm_num at h
    · exact h.1 hx
    · rw [hx] at h
      exact h.1 rfl
  have hsig := significand_shortestDecimal_ne_zero hx
  obtain ⟨c, hc, -⟩ := JsonScan.head?_significantDigits hsig
  have hne : significantDigits (shortestDecimal x).significand ≠ [] := fun hnil => by
    rw [hnil] at hc
    cases hc
  -- the bounds on the position of the point as bounds on the double
  have hpoint := Decimal.tenPow_le_value_iff hsig
  have hlow := tenThousandth_le_iff hx
  have hnano := billionth_le_iff hx
  have htop := tenPow21_le_value_iff hx
  have hexp := exponent_neg_iff hx
  have hmid : x.val.den ≠ 1 → ¬(10 : ℚ) ^ (16 : ℤ) ≤ (shortestDecimal x).value := fun hden =>
    not_le.mpr (value_shortestDecimal_lt hden)
  rw [hpoint] at hlow hnano htop hmid
  rw [finiteRepr, number, if_neg hx, if_neg hx]
  dsimp only
  rw [List.append_cancel_left_eq,
    layoutDigits_eq_layout_iff hne fun _ => isDigitChar_of_mem_significantDigits,
    Binary64.PrintsAlike, ← htop, ← hlow, ← hexp, ← not_le (b := |x.val|), ← hnano]
  rw [← hexp] at hmid
  generalize (significantDigits (shortestDecimal x).significand).length = n at *
  generalize (shortestDecimal x).exponent = e at *
  constructor
  · rintro (⟨h, -, hlt⟩ | h | h)
    · exact .inr (.inr ⟨by omega, h⟩)
    · exact .inl h
    · exact .inr (.inl ⟨hx, by omega⟩)
  · rintro (h | ⟨-, h⟩ | ⟨hlt, h⟩)
    · exact .inr (.inl h)
    · exact .inr (.inr (by omega))
    · have hle := hmid hlt
      exact .inl ⟨h, by omega, by omega⟩

end Jcs

/-! ## Strings -/

/-- All characters are below U+007F. -/
def Text.BelowDelete (s : Text) : Prop := ∀ c ∈ s, c.val < 0x7f

instance (s : Text) : Decidable s.BelowDelete :=
  List.decidableBAll (fun c : CodePoint => c.val < 0x7f) s

namespace PyVal

mutual

/-- The strings at any depth of the value, keys included. -/
def strings : PyVal → List Text
  | .str s => [s]
  | .list xs => stringsOfItems xs
  | .tuple xs => stringsOfItems xs
  | .dict entries => stringsOfEntries entries
  | _ => []

/-- The strings in the elements of a list. -/
def stringsOfItems : List PyVal → List Text
  | [] => []
  | x :: xs => strings x ++ stringsOfItems xs

/-- The strings in the keys and values of a dictionary. -/
def stringsOfEntries : List (PyVal × PyVal) → List Text
  | [] => []
  | (k, x) :: rest => strings k ++ strings x ++ stringsOfEntries rest

end

/-- The strings of a list are those of its elements. -/
theorem forall_mem_strings_list {P : Text → Prop} {xs : List PyVal} :
    (∀ s ∈ (PyVal.list xs).strings, P s) ↔ ∀ v ∈ xs, ∀ s ∈ v.strings, P s := by
  rw [strings]
  induction xs with
  | nil => simp [stringsOfItems]
  | cons v xs ih => rw [stringsOfItems, List.forall_mem_append, ih, List.forall_mem_cons]

/-- The strings of an object are its keys and those of its values. -/
theorem forall_mem_strings_ofMembers {P : Text → Prop} {ms : List (Text × PyVal)} :
    (∀ s ∈ (ofMembers ms).strings, P s) ↔ ∀ m ∈ ms, P m.1 ∧ ∀ s ∈ m.2.strings, P s := by
  rw [ofMembers, strings]
  induction ms with
  | nil => simp [stringsOfEntries]
  | cons m ms ih =>
    have hkey : (PyVal.str m.1).strings = [m.1] := rfl
    rw [List.map_cons, stringsOfEntries, List.forall_mem_append, List.forall_mem_append, ih, hkey,
      List.forall_mem_singleton, List.forall_mem_cons]

/-- The floats of a list are those of its elements. -/
theorem forall_mem_floats_list {P : Binary64 → Prop} {xs : List PyVal} :
    (∀ x ∈ (PyVal.list xs).floats, P x) ↔ ∀ v ∈ xs, ∀ x ∈ v.floats, P x := by
  simp only [mem_floats_list, forall_exists_index, and_imp]
  exact ⟨fun h v hv x => h x v hv, fun h x v hv => h v hv x⟩

/-- The floats of an object are those of its values. -/
theorem forall_mem_floats_ofMembers {P : Binary64 → Prop} {ms : List (Text × PyVal)} :
    (∀ x ∈ (ofMembers ms).floats, P x) ↔ ∀ m ∈ ms, ∀ x ∈ m.2.floats, P x := by
  simp only [mem_floats_ofMembers, forall_exists_index, and_imp]
  exact ⟨fun h m hm x => h x m hm, fun h x m hm => h m hm x⟩

end PyVal

namespace Jcs

/-- Below the delete character the two writers escape alike. -/
theorem escape_eq_escapeChar {c : CodePoint} (h : c.val < 0x7f) : escape c = escapeChar c := by
  unfold escape escapeChar
  split_ifs <;> first | rfl | omega

/-- Both spell such a string in the same way. -/
theorem string_eq_jsonString {s : Text} (h : s.BelowDelete) : string s = jsonString s := by
  have hflat : s.flatMap escape = s.flatMap escapeChar := by
    induction s with
    | nil => rfl
    | cons c s ih =>
      obtain ⟨hc, hs⟩ := List.forall_mem_cons.mp h
      rw [List.flatMap_cons, List.flatMap_cons, escape_eq_escapeChar hc, ih hs]
  rw [string, jsonString, hflat]

/-- Another character stands in the canonical literal as it is. -/
theorem mem_string {s : Text} {c : CodePoint} (hc : c ∈ s) (h : 0x7f ≤ c.val) : c ∈ string s := by
  have hself : escape c = [c] := by
    unfold escape
    split_ifs <;> first | rfl | omega
  have hflat : c ∈ s.flatMap escape := List.mem_flatMap.mpr ⟨c, hc, by simp [hself]⟩
  simp only [string, List.mem_append, hflat, or_true, true_or]

/-- On such keys the order of UTF-16 code units is that of characters. -/
theorem utf16_lt_iff {s t : Text} (hs : s.BelowDelete) (ht : t.BelowDelete) :
    utf16 s < utf16 t ↔ s < t := by
  -- below the delete character a code point is its own code unit
  have hunits : ∀ {c : CodePoint} {r : Text}, c.val < 0x7f → utf16 (c :: r) = c.val :: utf16 r := by
    intro c r h
    rw [utf16, List.flatMap_cons, if_pos (by omega)]
    rfl
  induction t generalizing s with
  | nil => exact iff_of_false (List.not_lt_nil _) (List.not_lt_nil _)
  | cons d t ih =>
    obtain ⟨hd, ht⟩ := List.forall_mem_cons.mp ht
    cases s with
    | nil =>
      rw [hunits hd]
      exact iff_of_true (List.nil_lt_cons _ _) (List.nil_lt_cons _ _)
    | cons c s =>
      obtain ⟨hc, hs⟩ := List.forall_mem_cons.mp hs
      have hrest : utf16 s < utf16 t ↔ s < t := ih hs ht
      rw [hunits hc, hunits hd, List.cons_lt_cons_iff, List.cons_lt_cons_iff, hrest, Fin.lt_def,
        Fin.ext_iff]

/-- For such keys UTF-16 order is the order of code points. -/
theorem sortMembers_eq_orderMembers {α : Type} {ms : List (Text × α)}
    (h : ∀ m ∈ ms, m.1.BelowDelete) : sortMembers ms = orderMembers .compact ms := by
  have hsort := List.map_insertionSort (fun a b : Text × α => utf16 a.1 ≤ utf16 b.1)
    (fun a b : Text × α => a.1 ≤ b.1) id ms fun a ha b hb => by
      rw [← not_lt, utf16_lt_iff (h b hb) (h a ha), not_lt]
      rfl
  rw [List.map_id, List.map_id] at hsort
  exact hsort

end Jcs

/-! ## Texts that go together -/

/-- The text does not go on with a character of a number. -/
def Closes (t : Text) : Prop := ∀ c ∈ t.head?, ¬IsFloatChar c

/-- Numbers before such texts are the same if the whole texts are. -/
theorem eq_of_append_eq {t u r r' : Text} (ht : FloatChars t) (hu : FloatChars u) (hr : Closes r)
    (hr' : Closes r') (h : t ++ r = u ++ r') : t = u := by
  induction t generalizing u with
  | nil =>
    cases u with
    | nil => rfl
    | cons d u =>
      rw [List.nil_append] at h
      exact absurd (hu d List.mem_cons_self) (hr d (by rw [h]; rfl))
  | cons c t ih =>
    -- where one text ends, the other would go on with the end of the first
    cases u with
    | nil =>
      rw [List.nil_append] at h
      exact absurd (ht c List.mem_cons_self) (hr' c (by rw [← h]; rfl))
    | cons d u =>
      obtain ⟨rfl, hrest⟩ := List.cons.inj h
      rw [ih (fun e he => ht e (List.mem_cons_of_mem _ he))
        (fun e he => hu e (List.mem_cons_of_mem _ he)) hrest]

/-- The two texts are the same exactly when `p` holds, also where other texts come after them. -/
structure SameIff (p : Prop) (t u : Text) : Prop where
  /-- The texts are the same if `p` holds. -/
  eq : p → t = u
  /-- The texts are the same before what comes after them only if `p` holds. -/
  holds : ∀ r r', Closes r → Closes r' → t ++ r = u ++ r' → p

namespace SameIff

variable {p q : Prop} {t u t' u' : Text}

/-- The two texts are equal exactly under the condition. -/
theorem eq_iff (h : SameIff p t u) : t = u ↔ p := by
  refine ⟨fun heq => h.holds [] [] ?_ ?_ (by rw [heq]), h.eq⟩ <;> exact fun c hc => by cases hc

theorem refl (hp : p) (t : Text) : SameIff p t t := ⟨fun _ => rfl, fun _ _ _ _ _ => hp⟩

/-- The condition may be put in another way. -/
theorem congr (h : SameIff p t u) (hpq : p ↔ q) : SameIff q t u :=
  ⟨fun hq => h.eq (hpq.mpr hq), fun r r' hr hr' heq => hpq.mp (h.holds r r' hr hr' heq)⟩

theorem of_floatChars (ht : FloatChars t) (hu : FloatChars u) (h : t = u ↔ p) : SameIff p t u :=
  ⟨h.mpr, fun _ _ hr hr' heq => h.mp (eq_of_append_eq ht hu hr hr' heq)⟩

/-- The same text before both. -/
theorem append_left (h : SameIff p t u) (w : Text) : SameIff p (w ++ t) (w ++ u) := by
  refine ⟨fun hp => by rw [h.eq hp], fun r r' hr hr' heq => h.holds r r' hr hr' ?_⟩
  rwa [List.append_assoc, List.append_assoc, List.append_cancel_left_eq] at heq

/-- Two pairs of texts with a character between them that no number has. -/
theorem append (h : SameIff p t u) (h' : SameIff q t' u') {c : CodePoint} (hc : ¬IsFloatChar c) :
    SameIff (p ∧ q) (t ++ c :: t') (u ++ c :: u') := by
  refine ⟨fun ⟨hp, hq⟩ => by rw [h.eq hp, h'.eq hq], fun r r' hr hr' heq => ?_⟩
  rw [List.append_assoc, List.append_assoc, List.cons_append, List.cons_append] at heq
  have hcloses : ∀ w, Closes (c :: w) := fun w d hd => by
    rw [← Option.some.inj hd]
    exact hc
  have hp := h.holds _ _ (hcloses _) (hcloses _) heq
  rw [h.eq hp, List.append_cancel_left_eq, List.cons.injEq] at heq
  exact ⟨hp, h'.holds r r' hr hr' heq.2⟩

/-- The same closing character after both. -/
theorem append_singleton (h : SameIff p t u) {c : CodePoint} (hc : ¬IsFloatChar c) :
    SameIff p (t ++ [c]) (u ++ [c]) :=
  (h.append (refl trivial []) hc).congr (and_iff_left trivial)

/-- Two lists of texts, each joined with commas. -/
theorem intercalate {α : Type} {f g : α → Text} {P : α → Prop} {l : List α}
    (h : ∀ a ∈ l, SameIff (P a) (f a) (g a)) :
    SameIff (∀ a ∈ l, P a) ((text ",").intercalate (l.map f))
      ((text ",").intercalate (l.map g)) := by
  induction l with
  | nil => exact refl (by simp) _
  | cons a l ih =>
    obtain ⟨ha, hl⟩ := List.forall_mem_cons.mp h
    cases l with
    | nil =>
      rw [List.map_singleton, List.map_singleton, List.intercalate_singleton,
        List.intercalate_singleton]
      exact ha.congr List.forall_mem_singleton.symm
    | cons b l =>
      simp only [List.map_cons] at ih ⊢
      rw [List.intercalate_cons_cons, List.intercalate_cons_cons, List.append_assoc,
        List.append_assoc]
      -- the comma ends whatever stands before it
      exact (ha.append (ih hl) (by decide : ¬IsFloatChar 0x2c)).congr List.forall_mem_cons.symm

end SameIff

/-! ## Values -/

/-- The text of a value that has one. -/
def textOf (r : Except PyExc Text) : Text := r.toOption.getD []

/-- A text that was made is the result. -/
theorem eq_ok_textOf {r : Except PyExc Text} (h : ∃ t, r = .ok t) : r = .ok (textOf r) := by
  obtain ⟨t, rfl⟩ := h
  rfl

/-- The dump of a list. -/
theorem dumps_compact_list {xs : List PyVal} (h : ∀ x ∈ xs, x.IsJson) :
    dumps .compact (.list xs) = .ok (text "["
      ++ (text ",").intercalate (xs.map fun x => textOf (dumps .compact x)) ++ text "]") := by
  have hitems : dumpsItems .compact xs = .ok (xs.map fun x => textOf (dumps .compact x)) := by
    induction xs with
    | nil => rfl
    | cons x xs ih =>
      obtain ⟨hx, hxs⟩ := List.forall_mem_cons.mp h
      rw [dumpsItems, eq_ok_textOf (dumps_isOk_of_isJson .compact hx), ih hxs]
      rfl
  rw [dumps, hitems]
  rfl

/-- The dump of an object, its members in the order of their keys. -/
theorem dumps_compact_ofMembers {ms : List (Text × PyVal)} (h : ∀ m ∈ ms, m.2.IsJson) :
    dumps .compact (.ofMembers ms) = .ok (text "\x7b" ++ (text ",").intercalate
      ((orderMembers .compact ms).map fun m => jsonString m.1 ++ text ":" ++
        textOf (dumps .compact m.2)) ++ text "\x7d") := by
  have hmembers : dumpsMembers .compact (ms.map fun m => (.str m.1, m.2)) =
      .ok (ms.map fun m => (m.1, textOf (dumps .compact m.2))) :=
    PyVal.dumpsMembers_map fun m hm => eq_ok_textOf (dumps_isOk_of_isJson .compact (h m hm))
  have horder := orderMembers_map .compact (fun v : PyVal => textOf (dumps .compact v)) ms
  rw [PyVal.ofMembers, dumps, hmembers]
  simp only [bind, Except.bind, horder, List.map_map]
  rfl

namespace Jcs

/-- The canonical text of a list. -/
theorem serialize_list {xs : List PyVal} (h : ∀ x ∈ xs, ∃ t, serialize x = .ok t) :
    serialize (.list xs) = .ok (text "["
      ++ (text ",").intercalate (xs.map fun x => textOf (serialize x)) ++ text "]") := by
  have hitems : serializeItems xs = .ok (xs.map fun x => textOf (serialize x)) := by
    induction xs with
    | nil => rfl
    | cons x xs ih =>
      obtain ⟨hx, hxs⟩ := List.forall_mem_cons.mp h
      rw [serializeItems, eq_ok_textOf hx, ih hxs]
      rfl
  rw [serialize, hitems]
  rfl

/-- The canonical text of an object, its members in the order of their keys. -/
theorem serialize_obj {ms : List (Text × PyVal)} (h : ∀ m ∈ ms, ∃ t, serialize m.2 = .ok t) :
    serialize (.ofMembers ms) = .ok (text "\x7b" ++ (text ",").intercalate
      ((sortMembers ms).map fun m => string m.1 ++ text ":" ++ textOf (serialize m.2))
        ++ text "\x7d") := by
  have hitem := serialize_ofMembers fun m hm => eq_ok_textOf (h m hm)
  rw [show (ms.map fun m => (m.1, m.2)) = ms from List.map_id ms,
    sortMembers_map (fun m => textOf (serialize m.2)) ms, List.map_map] at hitem
  exact hitem

/-- A JSON value with finite numbers has a canonical text. -/
theorem exists_serialize {v : PyVal} (hv : v.IsJson) (hfinite : v.FiniteFloats) :
    ∃ t, serialize v = .ok t := by
  obtain ⟨t, ht, -⟩ := serialize_spec hv hfinite
  exact ⟨t, ht⟩

/-- What is joined holds no other characters than the whole. -/
private theorem belowDelete_of_joined {l r : Text} {items : List Text}
    (h : Text.BelowDelete (l ++ (text ",").intercalate items ++ r)) :
    ∀ t ∈ items, t.BelowDelete := by
  have hcomma : (text ",").BelowDelete := by decide
  refine (Text.forall_mem_intercalate hcomma).mp fun c hc => h c ?_
  exact List.mem_append_left _ (List.mem_append_right _ hc)

/-- All strings are below U+007F if the canonical text is. -/
theorem belowDelete_of_serialize {v : PyVal} (hv : v.IsJson) (hfinite : v.FiniteFloats)
    (h : (textOf (serialize v)).BelowDelete) : ∀ s ∈ v.strings, s.BelowDelete := by
  induction v, hv using PyVal.isJson_induct with
  | none | bool b | int z | float x => exact fun s hs => by cases hs
  | str t =>
    refine List.forall_mem_singleton.mpr fun c hc => ?_
    by_contra hge
    exact hge (h c (mem_string hc (not_lt.mp hge)))
  | list xs hxs ih =>
    have hparts := PyVal.finiteItems_iff.mp hfinite
    rw [serialize_list fun y hy => exists_serialize (hxs y hy) (hparts y hy)] at h
    have hitems := List.forall_mem_map.mp (belowDelete_of_joined h)
    exact PyVal.forall_mem_strings_list.mpr fun x hx => ih x hx (hparts x hx) (hitems x hx)
  | obj ms hkeys hms ih =>
    have hparts : ∀ m ∈ ms, m.2.FiniteFloats := fun m hm =>
      (PyVal.finiteFloats_ofMembers_iff.mp hfinite m hm).2
    rw [serialize_obj fun n hn => exists_serialize (hms n hn) (hparts n hn)] at h
    have hitems := List.forall_mem_map.mp (belowDelete_of_joined h)
    refine PyVal.forall_mem_strings_ofMembers.mpr fun m hm => ?_
    obtain ⟨hkey, hvalue⟩ := List.forall_mem_append.mp (hitems m (mem_sortMembers.mpr hm))
    refine ⟨fun c hc => ?_, ih m hm (hparts m hm) hvalue⟩
    by_contra hge
    exact hge (hkey c (List.mem_append_left _ (mem_string hc (not_lt.mp hge))))

/-- A float is written alike by both exactly when it prints alike. -/
theorem sameIff_float {x : Binary64} (hx : x.isFinite = true) :
    SameIff x.PrintsAlike (jsonFloat x) (textOf (serialize (.float x))) := by
  rcases x with _ | _ | _ | x
  · cases hx
  · cases hx
  · refine .of_floatChars (by decide) (by decide) (iff_of_false (by decide) ?_)
    exact fun h => h
  · exact .of_floatChars (floatRepr_chars (.fin x)) (number_chars x) finiteRepr_eq_number_iff

/-- If all strings are below U+007F then the two texts differ in the floats only. -/
theorem sameIff_dumps {v : PyVal} (hv : v.IsJson) (hfinite : v.FiniteFloats)
    (hstrings : ∀ s ∈ v.strings, s.BelowDelete) :
    SameIff (∀ x ∈ v.floats, x.PrintsAlike) (textOf (dumps .compact v)) (textOf (serialize v)) := by
  induction v, hv using PyVal.isJson_induct with
  | none => exact .refl (fun _ hx => by cases hx) _
  | bool b => cases b <;> exact .refl (fun _ hx => by cases hx) _
  | int z => exact .refl (fun _ hx => by cases hx) _
  | float x => exact (sameIff_float hfinite).congr List.forall_mem_singleton.symm
  | str s =>
    have hsame : string s = jsonString s :=
      string_eq_jsonString (hstrings s (List.mem_singleton_self s))
    -- below U+007F both escape the same characters
    show SameIff _ (jsonString s) (string s)
    rw [hsame]
    exact .refl (fun _ hx => by cases hx) _
  | list xs hxs ih =>
    have hparts := PyVal.finiteItems_iff.mp hfinite
    rw [dumps_compact_list hxs,
      serialize_list fun x hx => exists_serialize (hxs x hx) (hparts x hx)]
    have hitems := SameIff.intercalate fun x hx => ih x hx (hparts x hx) fun s hs =>
      PyVal.forall_mem_strings_list.mp hstrings x hx s hs
    exact ((hitems.append_left (text "[")).append_singleton (by decide)).congr
      PyVal.forall_mem_floats_list.symm
  | obj ms hkeys hms ih =>
    have hparts : ∀ m ∈ ms, m.2.FiniteFloats := fun m hm =>
      (PyVal.finiteFloats_ofMembers_iff.mp hfinite m hm).2
    have hstringParts := PyVal.forall_mem_strings_ofMembers.mp hstrings
    rw [dumps_compact_ofMembers hms,
      serialize_obj fun m hm => exists_serialize (hms m hm) (hparts m hm),
      -- for such keys the two orders are the same
      sortMembers_eq_orderMembers fun m hm => (hstringParts m hm).1]
    have hmem : ∀ m ∈ orderMembers .compact ms, m ∈ ms := fun m hm =>
      (perm_orderMembers _ ms).mem_iff.mp hm
    have hitems : SameIff _ _ _ := SameIff.intercalate (l := orderMembers .compact ms)
      (f := fun m => jsonString m.1 ++ text ":" ++ textOf (dumps .compact m.2))
      (g := fun m => string m.1 ++ text ":" ++ textOf (serialize m.2)) fun m hm => by
        obtain ⟨hkey, hvalue⟩ := hstringParts m (hmem m hm)
        rw [string_eq_jsonString hkey]
        exact (ih m (hmem m hm) (hparts m (hmem m hm)) hvalue).append_left _
    refine ((hitems.append_left (text "\x7b")).append_singleton (by decide)).congr ?_
    simp only [PyVal.forall_mem_floats_ofMembers, (perm_orderMembers .compact ms).mem_iff]

/-- The compact dump is the canonical text exactly when all strings, keys included, are below U+007F
and all floats are printed alike. -/
theorem serialize_eq_dumps_iff {v : PyVal} (hv : v.IsJson) (hfinite : v.FiniteFloats) :
    (∃ t, dumps .compact v = .ok t ∧ serialize v = .ok t) ↔
      (∀ s ∈ v.strings, s.BelowDelete) ∧ ∀ x ∈ v.floats, x.PrintsAlike := by
  have hdumps := eq_ok_textOf (dumps_isOk_of_isJson .compact hv)
  have hserialize := eq_ok_textOf (exists_serialize hv hfinite)
  constructor
  · rintro ⟨t, ht, ht'⟩
    -- what `json.dumps` writes is plain, so the canonical text is as well
    have hplain := dumps_compact_isPlain ht
    have htext := Except.ok.inj (ht.symm.trans hdumps)
    have htext' := Except.ok.inj (ht'.symm.trans hserialize)
    have hstrings := belowDelete_of_serialize hv hfinite fun c hc => by
      rw [← htext'] at hc
      exact (hplain c hc).2
    exact ⟨hstrings, (sameIff_dumps hv hfinite hstrings).eq_iff.mp (htext.symm.trans htext')⟩
  · rintro ⟨hstrings, hfloats⟩
    have hsame := (sameIff_dumps hv hfinite hstrings).eq hfloats
    rw [← hsame] at hserialize
    exact ⟨_, hdumps, hserialize⟩

end Jcs
