import CcsVerifier.Python.Json

/-!
# The JSON Canonicalization Scheme

RFC 8785 over Python values: no white space, raw UTF-8 strings, members sorted by the UTF-16
code units of their keys, and numbers as ECMAScript prints doubles. It is one function that the
`jcs` package may be; the verifier takes the package itself as a parameter.

* `Jcs.canonicalize`: the canonical bytes of a value.
* `PyVal.EncodableStrings`: no string or key inside a value holds a surrogate.
* `Jcs.canonicalize_isOk_iff`: a JSON value with finite numbers is accepted exactly when all its
  strings can be encoded.
-/

namespace PyVal

mutual

/-- No string or key inside the value holds a surrogate. -/
def EncodableStrings : PyVal → Prop
  | .str s => s.Encodable
  | .list xs => EncodableItems xs
  | .tuple xs => EncodableItems xs
  | .dict entries => EncodableEntries entries
  | _ => True

/-- `EncodableStrings` of every element. -/
def EncodableItems : List PyVal → Prop
  | [] => True
  | x :: xs => EncodableStrings x ∧ EncodableItems xs

/-- `EncodableStrings` of every key and value. -/
def EncodableEntries : List (PyVal × PyVal) → Prop
  | [] => True
  | (k, v) :: rest => (EncodableStrings k ∧ EncodableStrings v) ∧ EncodableEntries rest

end

mutual

/-- Every float inside the value is finite. -/
def FiniteFloats : PyVal → Prop
  | .float x => x.isFinite
  | .list xs => FiniteItems xs
  | .tuple xs => FiniteItems xs
  | .dict entries => FiniteEntries entries
  | _ => True

/-- `FiniteFloats` of every element. -/
def FiniteItems : List PyVal → Prop
  | [] => True
  | x :: xs => FiniteFloats x ∧ FiniteItems xs

/-- `FiniteFloats` of every key and value. -/
def FiniteEntries : List (PyVal × PyVal) → Prop
  | [] => True
  | (k, v) :: rest => (FiniteFloats k ∧ FiniteFloats v) ∧ FiniteEntries rest

end

/-- The elements of a list, one by one. -/
theorem encodableItems_iff {xs : List PyVal} :
    EncodableItems xs ↔ ∀ x ∈ xs, x.EncodableStrings := by
  induction xs with
  | nil => simp [EncodableItems]
  | cons x xs ih => rw [EncodableItems, ih, List.forall_mem_cons]

/-- The strings of an object are its keys and those of its members. -/
theorem encodableStrings_ofMembers_iff {ms : List (Text × PyVal)} :
    (ofMembers ms).EncodableStrings ↔ ∀ m ∈ ms, m.1.Encodable ∧ m.2.EncodableStrings := by
  rw [ofMembers, EncodableStrings]
  induction ms with
  | nil => simp [EncodableEntries]
  | cons m ms ih => rw [List.map_cons, EncodableEntries, ih, List.forall_mem_cons, EncodableStrings]

/-- The elements of a list, one by one. -/
theorem finiteItems_iff {xs : List PyVal} : FiniteItems xs ↔ ∀ x ∈ xs, x.FiniteFloats := by
  induction xs with
  | nil => simp [FiniteItems]
  | cons x xs ih => rw [FiniteItems, ih, List.forall_mem_cons]

/-- The entries of a dictionary, one by one. -/
theorem finiteEntries_iff {entries : List (PyVal × PyVal)} :
    FiniteEntries entries ↔ ∀ k v, (k, v) ∈ entries → k.FiniteFloats ∧ v.FiniteFloats := by
  induction entries with
  | nil => simp [FiniteEntries]
  | cons entry rest ih =>
    obtain ⟨k, v⟩ := entry
    rw [FiniteEntries, ih]
    constructor
    · rintro ⟨hkv, hrest⟩ a b hab
      rcases List.mem_cons.mp hab with heq | hab
      · cases heq
        exact hkv
      · exact hrest a b hab
    · exact fun h => ⟨h k v (List.mem_cons_self ..), fun a b hab =>
        h a b (List.mem_cons_of_mem _ hab)⟩

end PyVal

namespace Jcs

/-- The spelling of a character inside a string. -/
def escape (c : CodePoint) : Text :=
  if c.val = 0x22 then text "\\\""
  else if c.val = 0x5c then text "\\\\"
  else if c.val = 0x08 then text "\\b"
  else if c.val = 0x09 then text "\\t"
  else if c.val = 0x0a then text "\\n"
  else if c.val = 0x0c then text "\\f"
  else if c.val = 0x0d then text "\\r"
  else if c.val < 0x20 then unicodeEscape c.val
  else [c]

/-- A string literal. -/
def string (s : Text) : Text := text "\"" ++ s.flatMap escape ++ text "\""

/-- ECMAScript's layout of a number `0.d₁d₂… * 10 ^ point` with digits `ds`. -/
def layout (ds : Text) (point : ℤ) : Text :=
  if ds.length ≤ point ∧ point ≤ 21 then
    ds ++ List.replicate (point - ds.length).toNat (digitChar 0)
  else if 0 < point ∧ point ≤ 21 then ds.take point.toNat ++ text "." ++ ds.drop point.toNat
  else if -6 < point ∧ point ≤ 0 then
    text "0." ++ List.replicate (-point).toNat (digitChar 0) ++ ds
  else
    ds.take 1 ++ (if ds.length ≤ 1 then [] else text "." ++ ds.drop 1)
      ++ text (if point - 1 < 0 then "e-" else "e+") ++ decimal (point - 1).natAbs

/-- A finite double. -/
def number (x : FiniteBinary64) : Text :=
  if x.val = 0 then text "0"
  else
    let d := shortestDecimal x
    let ds := significantDigits d.significand
    (if x.val < 0 then text "-" else []) ++ layout ds (ds.length + d.exponent)

/-- The UTF-16 code units of a string. -/
def utf16 (s : Text) : List ℕ :=
  s.flatMap fun c =>
    if c.val < 0x10000 then [c.val]
    else [0xd800 + (c.val - 0x10000) / 0x400, 0xdc00 + (c.val - 0x10000) % 0x400]

mutual

/-- The canonical text of a value. -/
def serialize : PyVal → Except PyExc Text
  | .none => .ok (text "null")
  | .bool true => .ok (text "true")
  | .bool false => .ok (text "false")
  | .int z => .ok (intText z)
  | .float .negZero => .ok (text "0")
  | .float (.fin x) => .ok (number x)
  | .float _ => PyExc.value (text "Out of range float values are not JSON compliant")
  | .str s => .ok (string s)
  | .list xs => do
      let items ← serializeItems xs
      return text "[" ++ (text ",").intercalate items ++ text "]"
  | .tuple xs => do
      let items ← serializeItems xs
      return text "[" ++ (text ",").intercalate items ++ text "]"
  | .dict entries => do
      let ms ← serializeMembers entries
      let sorted := ms.insertionSort fun a b => utf16 a.1 ≤ utf16 b.1
      return text "\x7b" ++ (text ",").intercalate
        (sorted.map fun m => string m.1 ++ text ":" ++ m.2) ++ text "\x7d"
  | v => PyExc.type (text "Object of type " ++ v.typeName ++ text " is not JSON serializable")

/-- The canonical texts of the elements of a list. -/
def serializeItems : List PyVal → Except PyExc (List Text)
  | [] => .ok []
  | x :: xs => do
      let item ← serialize x
      let items ← serializeItems xs
      return item :: items

/-- The keys of a dictionary with the canonical texts of their values. -/
def serializeMembers : List (PyVal × PyVal) → Except PyExc (List (Text × Text))
  | [] => .ok []
  | (.str k, x) :: rest => do
      let item ← serialize x
      let items ← serializeMembers rest
      return (k, item) :: items
  | (k, _) :: _ => .error ⟨.attributeError,
      text "'" ++ k.typeName ++ text "' object has no attribute 'encode'"⟩

end

/-- `jcs.canonicalize(v)`. -/
def canonicalize (v : PyVal) : Except PyExc Bytes := do
  let t ← serialize v
  t.encode

/-! ## Which values are accepted -/

/-- An escape can be encoded unless it leaves a surrogate as it is. -/
theorem escape_encodable {c : CodePoint} : (escape c).Encodable ↔ ¬c.IsSurrogate := by
  by_cases hc : c.IsSurrogate
  · have hself : escape c = [c] := by
      unfold CodePoint.IsSurrogate at hc
      unfold escape
      split_ifs <;> first | rfl | omega
    simp [hself, hc]
  · refine iff_of_true ?_ hc
    unfold escape
    split_ifs
    case neg => simpa using hc
    all_goals first | decide | exact (unicodeEscape_isPlain _).isAscii.encodable

/-- A string literal can be encoded exactly when the string can. -/
theorem string_encodable {s : Text} : (string s).Encodable ↔ s.Encodable := by
  have hquote : (text "\"").Encodable := by decide
  have hflat : Text.Encodable (s.flatMap escape) ↔ s.Encodable := by
    induction s with
    | nil => simp
    | cons c s ih => rw [List.flatMap_cons, Text.encodable_append, Text.encodable_cons, ih,
        escape_encodable]
  simp [string, hquote, hflat]

/-- A number is spelled with digits, a sign, a point and an exponent. -/
theorem number_chars (x : FiniteBinary64) : FloatChars (number x) := by
  -- a layout is made of parts of the digits, zeros, a point and an exponent
  have hlayout : ∀ {ds : Text} {point : ℤ}, FloatChars ds → FloatChars (layout ds point) := by
    intro ds point h
    have htake : ∀ n, FloatChars (ds.take n) := fun n c hc => h c (List.mem_of_mem_take hc)
    have hdrop : ∀ n, FloatChars (ds.drop n) := fun n c hc => h c (List.mem_of_mem_drop hc)
    have htail : FloatChars ds.tail := fun c hc => h c (List.mem_of_mem_tail hc)
    have hexp : ∀ n, FloatChars (decimal n) := fun n =>
      .of_digits fun _ hc => isDigitChar_of_mem_decimal hc
    have hlit : FloatChars (text ".") ∧ FloatChars (text "0.") ∧ FloatChars (text "e-")
        ∧ FloatChars (text "e+") := by decide
    unfold layout
    split_ifs <;> simp [h, htake, hdrop, htail, hexp, hlit]
  unfold number
  split
  · decide
  · refine FloatChars.append.mpr ⟨by split <;> decide, hlayout ?_⟩
    exact .of_digits fun _ hc => isDigitChar_of_mem_significantDigits hc

/-- Elements that have texts have them in order. -/
private theorem serializeItems_spec {xs : List PyVal}
    (h : ∀ x ∈ xs, ∃ t, serialize x = .ok t ∧ (t.Encodable ↔ x.EncodableStrings)) :
    ∃ items, serializeItems xs = .ok items ∧
      ((∀ t ∈ items, t.Encodable) ↔ PyVal.EncodableItems xs) := by
  induction xs with
  | nil => exact ⟨[], rfl, by simp [PyVal.EncodableItems]⟩
  | cons x xs ih =>
    obtain ⟨t, ht, hiff⟩ := h x (by simp)
    obtain ⟨items, hitems, hrest⟩ := ih fun y hy => h y (by simp [hy])
    refine ⟨t :: items, by simp only [serializeItems, ht, hitems]; rfl, ?_⟩
    rw [PyVal.EncodableItems, ← hiff, ← hrest, List.forall_mem_cons]

/-- So have members. -/
private theorem serializeMembers_spec {entries : List (PyVal × PyVal)}
    (hkeys : ∀ k v, (k, v) ∈ entries → ∃ s, k = .str s)
    (h : ∀ k v, (k, v) ∈ entries → ∃ t, serialize v = .ok t ∧ (t.Encodable ↔ v.EncodableStrings)) :
    ∃ ms, serializeMembers entries = .ok ms ∧
      ((∀ m ∈ ms, m.1.Encodable ∧ m.2.Encodable) ↔ PyVal.EncodableEntries entries) := by
  induction entries with
  | nil => exact ⟨[], rfl, by simp [PyVal.EncodableEntries]⟩
  | cons entry rest ih =>
    obtain ⟨k, v⟩ := entry
    obtain ⟨s, rfl⟩ := hkeys k v (by simp)
    obtain ⟨t, ht, hiff⟩ := h _ v (List.mem_cons_self ..)
    obtain ⟨ms, hms, hrest⟩ := ih (fun k v hkv => hkeys k v (by simp [hkv]))
      (fun k v hkv => h k v (by simp [hkv]))
    refine ⟨(s, t) :: ms, by simp only [serializeMembers, ht, hms]; rfl, ?_⟩
    rw [PyVal.EncodableEntries, ← hiff, ← hrest, List.forall_mem_cons, PyVal.EncodableStrings]

/-- A JSON value with finite numbers has a canonical text, which can be encoded exactly when its
strings can. -/
theorem serialize_spec {v : PyVal} (hjson : v.IsJson) (hfinite : v.FiniteFloats) :
    ∃ t, serialize v = .ok t ∧ (t.Encodable ↔ v.EncodableStrings) := by
  have hbracket : ∀ {l r : Text} {items : List Text}, l.Encodable → r.Encodable →
      ((l ++ (text ",").intercalate items ++ r).Encodable ↔ ∀ t ∈ items, t.Encodable) := by
    intro l r items hl hr
    have hcomma : (text ",").Encodable := by decide
    simp only [Text.encodable_append, hl, hr, true_and, and_true]
    exact Text.forall_mem_intercalate hcomma
  induction hjson with
  | none => exact ⟨_, rfl, iff_of_true (by decide) trivial⟩
  | bool b => cases b <;> exact ⟨_, rfl, iff_of_true (by decide) trivial⟩
  | int z => exact ⟨_, rfl, iff_of_true (intText_isPlain z).isAscii.encodable trivial⟩
  | float x =>
    -- `nan` and the infinities are not finite
    rcases x with _ | _ | _ | x
    · cases hfinite
    · cases hfinite
    · exact ⟨_, rfl, iff_of_true (by decide) trivial⟩
    · exact ⟨_, rfl, iff_of_true (isPlain_of_floatChars (number_chars x)).isAscii.encodable trivial⟩
  | str s => exact ⟨_, rfl, string_encodable⟩
  | list _ ih =>
    obtain ⟨items, hitems, hiff⟩ := serializeItems_spec fun x hx =>
      ih x hx (PyVal.finiteItems_iff.mp hfinite x hx)
    refine ⟨_, by simp only [serialize, hitems]; rfl, ?_⟩
    rw [hbracket (by decide) (by decide), hiff, PyVal.EncodableStrings]
  | dict hkeys _ _ ih =>
    obtain ⟨ms, hms, hiff⟩ := serializeMembers_spec hkeys fun k v hkv =>
      ih k v hkv (PyVal.finiteEntries_iff.mp hfinite k v hkv).2
    refine ⟨_, by simp only [serialize, hms]; rfl, ?_⟩
    rw [hbracket (by decide) (by decide), PyVal.EncodableStrings, ← hiff]
    have hcolon : (text ":").Encodable := by decide
    simp only [List.mem_map, forall_exists_index, and_imp, forall_apply_eq_imp_iff₂,
      List.mem_insertionSort, Text.encodable_append, string_encodable, hcolon, and_true]

/-- A JSON value with finite numbers is accepted exactly when all its strings can be encoded. -/
theorem canonicalize_isOk_iff {v : PyVal} (hjson : v.IsJson) (hfinite : v.FiniteFloats) :
    (∃ b, canonicalize v = .ok b) ↔ v.EncodableStrings := by
  obtain ⟨t, ht, hiff⟩ := serialize_spec hjson hfinite
  rw [← hiff, ← Text.encode_isOk_iff]
  simp only [canonicalize, ht, bind, Except.bind]

end Jcs
