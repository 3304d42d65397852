import CcsVerifier.Python.NumberText
import CcsVerifier.Python.Value

/-!
# JSON values and `json.dumps`

* `JsonValue`: the JSON value that a Python value stands for, with numbers by value and objects
  as finite maps; `PyVal.jsonValue?` reads it off.
* `PyVal.SameJson`: equality as JSON values, member by member for objects
  (`sameJson_ofMembers_iff`).
* `PyVal.IsJson`: the values that decoding a JSON text can produce.
* `dumps`: `json.dumps` with its default `ensure_ascii=True`.
* `dumps_isOk_of_isJson`: every decoded JSON value can be dumped.
* `dumps_isAscii`: a dump is an ASCII text.
-/

/-! ## JSON values -/

/-- A JSON value: numbers are rationals, objects are maps from keys to values. -/
inductive JsonValue where
  | null
  | bool (b : Bool)
  | num (q : ℚ)
  | str (s : Text)
  | arr (xs : List JsonValue)
  | obj (f : Text → Option JsonValue)

namespace PyVal

mutual

/-- The JSON value a Python value stands for: numbers by value, tuples as arrays, dictionaries
with string keys as maps. Bytes, `Enum` members and non-finite floats stand for none. -/
def jsonValue? : PyVal → Option JsonValue
  | .none => some .null
  | .bool b => some (.bool b)
  | .int z => some (.num z)
  | .float x => x.toRat?.map .num
  | .str s => some (.str s)
  | .list xs => (jsonValues? xs).map .arr
  | .tuple xs => (jsonValues? xs).map .arr
  | .dict entries => (jsonMembers? entries).map fun ms => .obj fun k => ms.lookup k
  | _ => Option.none

/-- The JSON values of the elements of a list. -/
def jsonValues? : List PyVal → Option (List JsonValue)
  | [] => some []
  | x :: xs => do
      let v ← jsonValue? x
      let vs ← jsonValues? xs
      return v :: vs

/-- The members of an object, for a dictionary with string keys. -/
def jsonMembers? : List (PyVal × PyVal) → Option (List (Text × JsonValue))
  | [] => some []
  | (.str k, x) :: rest => do
      let v ← jsonValue? x
      let ms ← jsonMembers? rest
      return (k, v) :: ms
  | _ :: _ => Option.none

end

/-- The values that `json.loads` returns: no tuples, bytes or `Enum` members, and dictionaries
with distinct string keys. Numbers may be non-finite floats. -/
inductive IsJson : PyVal → Prop
  | none : IsJson .none
  | bool (b : Bool) : IsJson (.bool b)
  | int (z : ℤ) : IsJson (.int z)
  | float (x : Binary64) : IsJson (.float x)
  | str (s : Text) : IsJson (.str s)
  | list {xs : List PyVal} : (∀ x ∈ xs, IsJson x) → IsJson (.list xs)
  | dict {entries : List (PyVal × PyVal)} :
      (∀ k v, (k, v) ∈ entries → ∃ s, k = .str s) → (entries.map Prod.fst).Nodup →
      (∀ k v, (k, v) ∈ entries → IsJson v) → IsJson (.dict entries)

/-- A dictionary with string keys as an object. -/
def ofMembers (ms : List (Text × PyVal)) : PyVal := .dict (ms.map fun m => (.str m.1, m.2))

/-- An object with different keys is JSON when its values are. -/
theorem isJson_ofMembers {ms : List (Text × PyVal)} (hkeys : (ms.map Prod.fst).Nodup)
    (hvals : ∀ k v, (k, v) ∈ ms → IsJson v) : IsJson (ofMembers ms) := by
  refine .dict ?_ ?_ ?_
  · intro k v hkv
    obtain ⟨m, -, hm⟩ := List.mem_map.mp hkv
    exact ⟨m.1, (congrArg Prod.fst hm).symm⟩
  · rw [List.map_map, show Prod.fst ∘ (fun m : Text × PyVal => (PyVal.str m.1, m.2))
      = PyVal.str ∘ Prod.fst from rfl, ← List.map_map]
    exact hkeys.map (fun a b hab => by injection hab)
  · intro k v hkv
    obtain ⟨m, hm, heq⟩ := List.mem_map.mp hkv
    cases heq
    exact hvals m.1 m.2 hm

end PyVal

/-! ## Equality as JSON values -/

namespace PyVal

/-- The two values stand for one JSON value: numbers are compared by value. -/
def SameJson (a b : PyVal) : Prop := ∃ j, a.jsonValue? = some j ∧ b.jsonValue? = some j

section Members

variable {α : Type} {key : α → Text} {u w : α → PyVal} {l : List α}

/-- The members of a dictionary with distinct keys are found under their keys. -/
private theorem lookup_jsonMembers? (hkeys : (l.map key).Nodup) {ms : List (Text × JsonValue)}
    (h : jsonMembers? (l.map fun a => (.str (key a), u a)) = some ms) :
    ∀ a ∈ l, ∃ j, (u a).jsonValue? = some j ∧ ms.lookup (key a) = some j := by
  induction l generalizing ms with
  | nil => simp
  | cons b l ih =>
    rw [List.map_cons, jsonMembers?] at h
    simp only [Option.bind_eq_bind, Option.bind_eq_some_iff, Option.pure_def,
      Option.some.injEq] at h
    obtain ⟨j, hj, rest, hrest, rfl⟩ := h
    rw [List.map_cons, List.nodup_cons] at hkeys
    intro a ha
    rcases List.mem_cons.mp ha with rfl | ha
    · exact ⟨j, hj, by simp⟩
    · obtain ⟨i, hi, hlookup⟩ := ih hkeys.2 hrest a ha
      have hne : key a ≠ key b := fun heq => hkeys.1 (heq ▸ List.mem_map_of_mem ha)
      exact ⟨i, hi, by rw [List.lookup_cons, beq_false_of_ne hne]; exact hlookup⟩

/-- Members with the same values under the same keys. -/
private theorem jsonMembers?_congr (key : α → Text) (h : ∀ a ∈ l, SameJson (u a) (w a)) :
    ∃ ms, jsonMembers? (l.map fun a => (.str (key a), u a)) = some ms ∧
      jsonMembers? (l.map fun a => (.str (key a), w a)) = some ms := by
  induction l with
  | nil => exact ⟨[], rfl, rfl⟩
  | cons b l ih =>
    obtain ⟨j, hu, hw⟩ := h b (by simp)
    obtain ⟨ms, hmu, hmw⟩ := ih fun a ha => h a (by simp [ha])
    refine ⟨(key b, j) :: ms, ?_, ?_⟩
    · simp only [List.map_cons, jsonMembers?, hu, hmu]
      rfl
    · simp only [List.map_cons, jsonMembers?, hw, hmw]
      rfl

/-- Two objects with the same distinct keys are equal exactly when their members are. -/
theorem sameJson_ofMembers_iff (hkeys : (l.map key).Nodup) :
    SameJson (ofMembers (l.map fun a => (key a, u a))) (ofMembers (l.map fun a => (key a, w a))) ↔
      ∀ a ∈ l, SameJson (u a) (w a) := by
  have hvalue : ∀ v : α → PyVal, (ofMembers (l.map fun a => (key a, v a))).jsonValue? =
      (jsonMembers? (l.map fun a => (.str (key a), v a))).map fun ms =>
        .obj fun k => ms.lookup k := fun v => by
    rw [ofMembers, List.map_map, jsonValue?]
    rfl
  rw [SameJson, hvalue, hvalue]
  constructor
  · rintro ⟨j, hu, hw⟩ a ha
    obtain ⟨ms, hms, rfl⟩ := Option.map_eq_some_iff.mp hu
    obtain ⟨ns, hns, heq⟩ := Option.map_eq_some_iff.mp hw
    obtain ⟨i, hi, hlookup⟩ := lookup_jsonMembers? hkeys hms a ha
    obtain ⟨i', hi', hlookup'⟩ := lookup_jsonMembers? hkeys hns a ha
    injection heq with hfun
    -- equal objects have equal values under every key
    have hsame := congrFun hfun (key a)
    rw [hlookup, hlookup', Option.some.injEq] at hsame
    exact ⟨i, hi, hsame ▸ hi'⟩
  · intro h
    obtain ⟨ms, hu, hw⟩ := jsonMembers?_congr key h
    exact ⟨_, by rw [hu]; rfl, by rw [hw]; rfl⟩

end Members

end PyVal

/-! ## String literals -/

/-- The escape `\uXXXX` of a 16-bit code unit. -/
def unicodeEscape (u : ℕ) : Text :=
  text "\\u" ++ [Text.hexDigit (u / 4096 % 16), Text.hexDigit (u / 256 % 16),
    Text.hexDigit (u / 16 % 16), Text.hexDigit (u % 16)]

/-- The spelling of a code point inside an ASCII string literal. -/
def escapeChar (c : CodePoint) : Text :=
  if c.val = 0x22 then text "\\\""
  else if c.val = 0x5c then text "\\\\"
  else if c.val = 0x0a then text "\\n"
  else if c.val = 0x0d then text "\\r"
  else if c.val = 0x09 then text "\\t"
  else if c.val = 0x0c then text "\\f"
  else if c.val = 0x08 then text "\\b"
  else if 0x20 ≤ c.val ∧ c.val ≤ 0x7e then [c]
  else if c.val < 0x10000 then unicodeEscape c.val
  else unicodeEscape (0xd800 + (c.val - 0x10000) / 0x400)
    ++ unicodeEscape (0xdc00 + (c.val - 0x10000) % 0x400)

/-- The ASCII string literal of a string. -/
def jsonString (s : Text) : Text := text "\"" ++ s.flatMap escapeChar ++ text "\""

/-! ## `json.dumps` -/

/-- The arguments of `json.dumps` that the code sets. -/
structure DumpStyle where
  /-- `sort_keys` -/
  sortKeys : Bool
  /-- The first of `separators`, between items. -/
  itemSeparator : Text
  /-- The second of `separators`, between a key and its value. -/
  keySeparator : Text

/-- `sort_keys=True, separators=(",", ":")`. -/
def DumpStyle.compact : DumpStyle := ⟨true, text ",", text ":"⟩

/-- The arguments that `json.dumps(obj)` defaults to. -/
def DumpStyle.default : DumpStyle := ⟨false, text ", ", text ": "⟩

/-- `float.__repr__` with the spellings of the non-finite values that `json.dumps` uses. -/
def jsonFloat : Binary64 → Text
  | .nan => text "NaN"
  | .inf false => text "Infinity"
  | .inf true => text "-Infinity"
  | x => floatRepr x

/-- The members of an object in the order in which `style` writes them. -/
def orderMembers {α : Type} (style : DumpStyle) (ms : List (Text × α)) : List (Text × α) :=
  if style.sortKeys then ms.insertionSort fun a b => a.1 ≤ b.1 else ms

/-- The members are put in order, and none is lost. -/
theorem perm_orderMembers {α : Type} (style : DumpStyle) (ms : List (Text × α)) :
    (orderMembers style ms).Perm ms := by
  unfold orderMembers
  split
  · exact List.perm_insertionSort _ ms
  · exact .refl ms

/-- The order depends on the keys only. -/
theorem orderMembers_map {α β : Type} (style : DumpStyle) (f : α → β) (ms : List (Text × α)) :
    orderMembers style (ms.map fun m => (m.1, f m.2)) =
      (orderMembers style ms).map fun m => (m.1, f m.2) := by
  unfold orderMembers
  split
  · exact (List.map_insertionSort (fun a b : Text × α => a.1 ≤ b.1)
      (fun a b : Text × β => a.1 ≤ b.1) _ ms fun _ _ _ _ => Iff.rfl).symm
  · rfl

section Dumps

variable (style : DumpStyle)

mutual

/-- `json.dumps(v)`. Object keys are strings wherever the code calls it; another key is
refused here. -/
def dumps : PyVal → Except PyExc Text
  | .none => .ok (text "null")
  | .bool true => .ok (text "true")
  | .bool false => .ok (text "false")
  | .int z => .ok (intText z)
  | .float x => .ok (jsonFloat x)
  | .str s => .ok (jsonString s)
  | .list xs => do
      let items ← dumpsItems xs
      return text "[" ++ style.itemSeparator.intercalate items ++ text "]"
  | .tuple xs => do
      let items ← dumpsItems xs
      return text "[" ++ style.itemSeparator.intercalate items ++ text "]"
  | .dict entries => do
      let ms ← dumpsMembers entries
      let items := (orderMembers style ms).map fun m =>
        jsonString m.1 ++ style.keySeparator ++ m.2
      return text "\x7b" ++ style.itemSeparator.intercalate items ++ text "\x7d"
  | v => PyExc.type (text "Object of type " ++ v.typeName ++ text " is not JSON serializable")

/-- The dumped elements of a list. -/
def dumpsItems : List PyVal → Except PyExc (List Text)
  | [] => .ok []
  | x :: xs => do
      let item ← dumps x
      let items ← dumpsItems xs
      return item :: items

/-- The keys of a dictionary with their dumped values. -/
def dumpsMembers : List (PyVal × PyVal) → Except PyExc (List (Text × Text))
  | [] => .ok []
  | (.str k, x) :: rest => do
      let item ← dumps x
      let items ← dumpsMembers rest
      return (k, item) :: items
  | (k, _) :: _ => PyExc.type (text "keys must be str, int, float, bool or None, not " ++ k.typeName)

end

variable {style}

/-- Elements that can be dumped can be dumped as a list. -/
private theorem dumpsItems_isOk {xs : List PyVal}
    (h : ∀ x ∈ xs, ∃ t, dumps style x = .ok t) :
    ∃ items, dumpsItems style xs = .ok items := by
  induction xs with
  | nil => exact ⟨[], rfl⟩
  | cons x xs ih =>
    obtain ⟨item, hx⟩ := h x (by simp)
    obtain ⟨items, hxs⟩ := ih fun y hy => h y (by simp [hy])
    exact ⟨item :: items, by simp only [dumpsItems, hx, hxs]; rfl⟩

/-- So can members under string keys. -/
private theorem dumpsMembers_isOk {entries : List (PyVal × PyVal)}
    (hkeys : ∀ k v, (k, v) ∈ entries → ∃ s, k = .str s)
    (h : ∀ k v, (k, v) ∈ entries → ∃ t, dumps style v = .ok t) :
    ∃ ms, dumpsMembers style entries = .ok ms := by
  induction entries with
  | nil => exact ⟨[], rfl⟩
  | cons entry rest ih =>
    obtain ⟨k, v⟩ := entry
    obtain ⟨s, rfl⟩ := hkeys k v (by simp)
    obtain ⟨item, hv⟩ := h _ v (List.mem_cons_self ..)
    obtain ⟨items, hrest⟩ := ih (fun k v hkv => hkeys k v (by simp [hkv]))
      (fun k v hkv => h k v (by simp [hkv]))
    exact ⟨(s, item) :: items, by simp only [dumpsMembers, hv, hrest]; rfl⟩

variable (style) in
/-- `json.dumps` accepts every decoded JSON value. -/
theorem dumps_isOk_of_isJson {v : PyVal} (h : v.IsJson) :
    ∃ t, dumps style v = .ok t := by
  induction h with
  | none => exact ⟨_, rfl⟩
  | bool b => cases b <;> exact ⟨_, rfl⟩
  | int z => exact ⟨_, rfl⟩
  | float x => exact ⟨_, rfl⟩
  | str s => exact ⟨_, rfl⟩
  | list _ ih =>
    obtain ⟨items, hitems⟩ := dumpsItems_isOk ih
    exact ⟨_, by simp only [dumps, hitems]; rfl⟩
  | dict hkeys _ _ ih =>
    obtain ⟨ms, hms⟩ := dumpsMembers_isOk hkeys ih
    exact ⟨_, by simp only [dumps, hms]; rfl⟩

/-- What cannot be dumped is a `TypeError`. -/
theorem dumps_raises (style : DumpStyle) (v : PyVal) :
    (dumps style v).Raises fun e => e.kind = .typeError := by
  have hitems : ∀ xs : List PyVal, (∀ x ∈ xs, (dumps style x).Raises fun e => e.kind = .typeError) →
      (dumpsItems style xs).Raises fun e => e.kind = .typeError := by
    intro xs h
    induction xs with
    | nil => exact Except.raises_ok _
    | cons x xs ih =>
      obtain ⟨hx, hxs⟩ := List.forall_mem_cons.mp h
      exact hx.bind fun _ _ => (ih hxs).bind fun _ _ => Except.raises_ok _
  induction v using PyVal.induct with
  | none => exact Except.raises_ok _
  | bool b => cases b <;> exact Except.raises_ok _
  | int z => exact Except.raises_ok _
  | float x => exact Except.raises_ok _
  | str s => exact Except.raises_ok _
  | bytes b => exact Except.raises_error rfl
  | list xs ih => exact (hitems xs ih).bind fun _ _ => Except.raises_ok _
  | tuple xs ih => exact (hitems xs ih).bind fun _ _ => Except.raises_ok _
  | enum cls member value ih => exact Except.raises_error rfl
  -- a key that is not a string is refused as well
  | dict entries ih =>
    have hmembers : (dumpsMembers style entries).Raises fun e => e.kind = .typeError := by
      induction entries with
      | nil => exact Except.raises_ok _
      | cons entry rest ihrest =>
        obtain ⟨k, v⟩ := entry
        have hv := (ih k v List.mem_cons_self).2
        have hrest := ihrest fun k v hkv => ih k v (List.mem_cons_of_mem _ hkv)
        cases k with
        | str s => exact hv.bind fun _ _ => hrest.bind fun _ _ => Except.raises_ok _
        | _ => exact Except.raises_error rfl
    exact hmembers.bind fun _ _ => Except.raises_ok _

/-! ### A dump is ASCII -/

/-- An escape sequence is printable ASCII. -/
theorem unicodeEscape_isPlain (u : ℕ) : (unicodeEscape u).IsPlain := by
  have hdigit : ∀ n, 0x20 ≤ (Text.hexDigit (n % 16)).val ∧ (Text.hexDigit (n % 16)).val < 0x7f :=
    fun n => Text.hexDigit_bounds (Nat.mod_lt _ (by norm_num))
  intro c hc
  rcases List.mem_append.mp hc with hc | hc
  · exact (by decide : (text "\\u").IsPlain) c hc
  · simp only [List.mem_cons, List.not_mem_nil, or_false] at hc
    rcases hc with rfl | rfl | rfl | rfl <;> exact hdigit _

/-- So is every character after escaping. -/
theorem escapeChar_isPlain (c : CodePoint) : (escapeChar c).IsPlain := by
  by_cases hprintable : 0x20 ≤ c.val ∧ c.val ≤ 0x7e
  · have hsingle : Text.IsPlain [c] := fun d hd => by
      rw [List.mem_singleton.mp hd]
      omega
    unfold escapeChar
    split_ifs <;> first | decide | exact hsingle
  · unfold escapeChar
    split_ifs <;> first
      | decide
      | exact unicodeEscape_isPlain _
      | exact Text.isPlain_append.mpr ⟨unicodeEscape_isPlain _, unicodeEscape_isPlain _⟩

/-- So is a string literal. -/
theorem jsonString_isPlain (s : Text) : (jsonString s).IsPlain := by
  have hchars : Text.IsPlain (s.flatMap escapeChar) := fun d hd => by
    obtain ⟨c, -, hcd⟩ := List.mem_flatMap.mp hd
    exact escapeChar_isPlain c d hcd
  simp only [jsonString, Text.isPlain_append]
  exact ⟨⟨by decide, hchars⟩, by decide⟩

/-- So are the characters of a number. -/
theorem isPlain_of_floatChars {t : Text} (h : FloatChars t) : t.IsPlain := by
  intro c hc
  rcases h c hc with hdigit | hletter
  · unfold IsDigitChar at hdigit
    omega
  · exact (by decide : (text ".+-einfa").IsPlain) c hletter

/-- So is the text of an integer. -/
theorem intText_isPlain (z : ℤ) : (intText z).IsPlain := by
  have hdecimal : (decimal z.natAbs).IsPlain :=
    isPlain_of_floatChars (.of_digits fun _ => isDigitChar_of_mem_decimal)
  unfold intText
  split
  · exact Text.isPlain_append.mpr ⟨by decide, hdecimal⟩
  · exact hdecimal

/-- So is the text of a float. -/
theorem jsonFloat_isPlain (x : Binary64) : (jsonFloat x).IsPlain := by
  rcases x with _ | (_ | _) | _ | _
  case fin x => exact isPlain_of_floatChars (floatRepr_chars (.fin x))
  all_goals decide

section Characters

variable {P : CodePoint → Prop} (hplain : ∀ {t : Text}, t.IsPlain → ∀ c ∈ t, P c)
  (hitem : ∀ c ∈ style.itemSeparator, P c) (hkey : ∀ c ∈ style.keySeparator, P c)

/-- What holds of the characters of all items holds of the dumped items. -/
private theorem dumpsItems_forall {xs : List PyVal} {items : List Text}
    (h : ∀ x ∈ xs, ∀ t, dumps style x = .ok t → ∀ c ∈ t, P c)
    (hok : dumpsItems style xs = .ok items) : ∀ t ∈ items, ∀ c ∈ t, P c := by
  induction xs generalizing items with
  | nil =>
    cases hok
    simp
  | cons x xs ih =>
    simp only [dumpsItems, Except.bind_eq_ok_iff, pure, Except.pure, Except.ok.injEq] at hok
    obtain ⟨item, hx, rest, hxs, rfl⟩ := hok
    intro t ht
    rcases List.mem_cons.mp ht with rfl | ht
    · exact h x (by simp) _ hx
    · exact ih (fun y hy => h y (by simp [hy])) hxs t ht

/-- The same for members. -/
private theorem dumpsMembers_forall {entries : List (PyVal × PyVal)} {ms : List (Text × Text)}
    (h : ∀ k v, (k, v) ∈ entries → ∀ t, dumps style v = .ok t → ∀ c ∈ t, P c)
    (hok : dumpsMembers style entries = .ok ms) : ∀ m ∈ ms, ∀ c ∈ m.2, P c := by
  induction entries generalizing ms with
  | nil =>
    cases hok
    simp
  | cons entry rest ih =>
    obtain ⟨k, v⟩ := entry
    cases k
    -- a key of another type has no dump
    case str s =>
      simp only [dumpsMembers, Except.bind_eq_ok_iff, pure, Except.pure, Except.ok.injEq] at hok
      obtain ⟨item, hv, tail, hrest, rfl⟩ := hok
      intro m hm
      rcases List.mem_cons.mp hm with rfl | hm
      · exact h _ v (List.mem_cons_self ..) _ hv
      · exact ih (fun k v hkv => h k v (by simp [hkv])) hrest m hm
    all_goals simp [dumpsMembers, PyExc.type] at hok

variable (style) in
include hplain hitem hkey in
/-- What holds of printable ASCII characters and of the separators holds of a whole dump, since
every other character is escaped. -/
theorem dumps_forall {v : PyVal} {t : Text} (hok : dumps style v = .ok t) : ∀ c ∈ t, P c := by
  have happend : ∀ {s t : Text}, (∀ c ∈ s, P c) → (∀ c ∈ t, P c) → ∀ c ∈ s ++ t, P c :=
    fun hs ht c hc => (List.mem_append.mp hc).elim (hs c) (ht c)
  have hlist : ∀ {items : List Text}, (∀ t ∈ items, ∀ c ∈ t, P c) →
      ∀ c ∈ text "[" ++ style.itemSeparator.intercalate items ++ text "]", P c := fun h =>
    happend (happend (hplain (by decide)) ((Text.forall_mem_intercalate hitem).mpr h))
      (hplain (by decide))
  -- bytes and members of enumerations are refused
  induction v using PyVal.induct generalizing t with
  | none =>
    cases hok
    exact hplain (by decide)
  | bool b =>
    cases b <;> cases hok <;> exact hplain (by decide)
  | int z =>
    cases hok
    exact hplain (intText_isPlain z)
  | float x =>
    cases hok
    exact hplain (jsonFloat_isPlain x)
  | str s =>
    cases hok
    exact hplain (jsonString_isPlain s)
  | bytes b => simp [dumps, PyExc.type] at hok
  | list xs ih =>
    simp only [dumps, Except.bind_eq_ok_iff, pure, Except.pure, Except.ok.injEq] at hok
    obtain ⟨items, hitems, rfl⟩ := hok
    exact hlist (dumpsItems_forall (fun x hx t => ih x hx) hitems)
  | tuple xs ih =>
    simp only [dumps, Except.bind_eq_ok_iff, pure, Except.pure, Except.ok.injEq] at hok
    obtain ⟨items, hitems, rfl⟩ := hok
    exact hlist (dumpsItems_forall (fun x hx t => ih x hx) hitems)
  | dict entries ih =>
    simp only [dumps, Except.bind_eq_ok_iff, pure, Except.pure, Except.ok.injEq] at hok
    obtain ⟨ms, hms, rfl⟩ := hok
    have hvals := dumpsMembers_forall (fun k v hkv t => (ih k v hkv).2) hms
    have horder : ∀ m ∈ orderMembers style ms, m ∈ ms := fun m hm =>
      (perm_orderMembers style ms).mem_iff.mp hm
    refine happend (happend (hplain (by decide))
      ((Text.forall_mem_intercalate hitem).mpr fun t ht => ?_)) (hplain (by decide))
    obtain ⟨m, hm, rfl⟩ := List.mem_map.mp ht
    exact happend (happend (hplain (jsonString_isPlain _)) hkey) (hvals m (horder m hm))
  | enum cls member value ih => simp [dumps, PyExc.type] at hok

end Characters

variable (style) in
/-- A dump is an ASCII text. -/
theorem dumps_isAscii (hitem : style.itemSeparator.IsAscii) (hkey : style.keySeparator.IsAscii)
    {v : PyVal} {t : Text} (hok : dumps style v = .ok t) : t.IsAscii :=
  dumps_forall style Text.IsPlain.isAscii hitem hkey hok

/-- A compact dump has printable ASCII characters only. -/
theorem dumps_compact_isPlain {v : PyVal} {t : Text} (hok : dumps .compact v = .ok t) :
    t.IsPlain :=
  dumps_forall .compact (fun h => h) (by decide : (text ",").IsPlain)
    (by decide : (text ":").IsPlain) hok

end Dumps
