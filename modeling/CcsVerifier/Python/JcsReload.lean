import CcsVerifier.Python.JcsNumber
import CcsVerifier.Python.JcsOrder

/-!
# Canonical JSON read back

What `json.loads` makes of a canonical text. The text does not tell whether a number was an integer
or a float, so an integral float comes back as an integer.

* `PyVal.floats`: the floats at any depth of a value.
* `PyVal.reread`: the value that comes back from the canonical text (`Jcs.loads_serialize`).
* `Jcs.rereadNumber_cases`: an integral float comes back as an integer, and every other one as the
  same float.
-/

namespace PyVal

mutual

/-- The floats at any depth of the value. -/
def floats : PyVal → List Binary64
  | .float x => [x]
  | .list xs => floatsOfItems xs
  | .tuple xs => floatsOfItems xs
  | .dict entries => floatsOfEntries entries
  | _ => []

/-- The floats in the elements of a list. -/
def floatsOfItems : List PyVal → List Binary64
  | [] => []
  | x :: xs => floats x ++ floatsOfItems xs

/-- The floats in the keys and values of a dictionary. -/
def floatsOfEntries : List (PyVal × PyVal) → List Binary64
  | [] => []
  | (k, x) :: rest => floats k ++ floats x ++ floatsOfEntries rest

end

/-- A float of a list is one of an element. -/
theorem mem_floats_list {xs : List PyVal} {x : Binary64} :
    x ∈ (PyVal.list xs).floats ↔ ∃ v ∈ xs, x ∈ v.floats := by
  rw [floats]
  induction xs with
  | nil => simp [floatsOfItems]
  | cons v xs ih => simp [floatsOfItems, ih]

/-- A float of an object is one of a value. -/
theorem mem_floats_ofMembers {ms : List (Text × PyVal)} {x : Binary64} :
    x ∈ (ofMembers ms).floats ↔ ∃ m ∈ ms, x ∈ m.2.floats := by
  rw [ofMembers, floats]
  induction ms with
  | nil => simp [floatsOfEntries]
  | cons m ms ih =>
    have hkey : (PyVal.str m.1).floats = [] := rfl
    simp [floatsOfEntries, ih, hkey]

end PyVal

namespace Jcs

/-! ## String literals -/

/-- A character of a canonical string literal is read back. -/
theorem stringTail?_escape {fuel : ℕ} {c : CodePoint} {t : Text} :
    JsonScan.stringTail? (fuel + 1) (escape c ++ t) =
      JsonScan.consResult c (JsonScan.stringTail? fuel t) := by
  have hshort : ∀ (e d : CodePoint), c.val = d.val → e.val ≠ 0x75 →
      JsonScan.shortEscape? e = some d → JsonScan.stringTail? (fuel + 1) ([0x5c, e] ++ t) =
        JsonScan.consResult c (JsonScan.stringTail? fuel t) := fun e d hc he hs => by
    rw [Fin.ext hc]
    exact JsonScan.stringTail?_shortEscape he hs
  unfold escape
  -- seven short escapes, the other control characters, and what is written as it is
  split_ifs with h22 h5c h08 h09 h0a h0c h0d hcontrol
  · exact hshort 0x22 0x22 h22 (by decide) rfl
  · exact hshort 0x5c 0x5c h5c (by decide) rfl
  · exact hshort 0x62 0x08 h08 (by decide) rfl
  · exact hshort 0x74 0x09 h09 (by decide) rfl
  · exact hshort 0x6e 0x0a h0a (by decide) rfl
  · exact hshort 0x66 0x0c h0c (by decide) rfl
  · exact hshort 0x72 0x0d h0d (by decide) rfl
  · have hread := JsonScan.unicodeEscape?_alone (by omega : c.val < 0x10000) (t := t)
      fun h => absurd h.1 (by omega)
    rw [show Fin.ofNat 0x110000 c.val = c from Fin.ofNat_val_eq_self c] at hread
    exact JsonScan.stringTail?_unicodeEscape hread
  · exact JsonScan.stringTail?_plain h22 h5c (not_lt.mp hcontrol)

/-- A canonical string literal is read back. -/
theorem stringTail?_string (s rest : Text) :
    ∃ t, string s ++ rest = 0x22 :: t ∧
      JsonScan.stringTail? (t.length + 1) t = some (s, rest) := by
  have hread : ∀ (u : Text) {fuel : ℕ}, u.length < fuel →
      JsonScan.stringTail? fuel (u.flatMap escape ++ 0x22 :: rest) = some (u, rest) := by
    intro u
    -- each escape is read by itself, whatever follows
    induction u with
    | nil =>
      intro fuel hfuel
      obtain ⟨fuel, rfl⟩ := Nat.exists_eq_add_of_lt hfuel
      have hval : (0x22 : CodePoint).val = 0x22 := by decide
      simp only [List.flatMap_nil, List.nil_append, JsonScan.stringTail?, hval, ↓reduceIte]
    | cons c u ih =>
      intro fuel hfuel
      simp only [List.length_cons] at hfuel
      obtain ⟨fuel, rfl⟩ := Nat.exists_eq_add_of_lt (Nat.zero_lt_of_lt hfuel)
      rw [List.flatMap_cons, List.append_assoc, Nat.zero_add, stringTail?_escape, ih (by omega)]
      rfl
  have hlength : ∀ u : Text, u.length ≤ (u.flatMap escape).length := by
    intro u
    induction u with
    | nil => simp
    | cons c u ih =>
      have hpos : 1 ≤ (escape c).length := by
        unfold escape
        split_ifs <;> first | decide | simp [unicodeEscape]
      rw [List.flatMap_cons, List.length_append, List.length_cons]
      omega
  refine ⟨s.flatMap escape ++ 0x22 :: rest, ?_, hread s ?_⟩
  · rw [string, List.append_assoc, List.append_assoc]
    rfl
  · have := hlength s
    rw [List.length_append]
    omega

/-- The literals of canonical JSON. -/
def stringStyle : JsonScan.StringStyle := ⟨string, id, stringTail?_string⟩

/-! ## Numbers -/

/-- The number that a printed double is read as. -/
def rereadNumber (x : FiniteBinary64) : PyNum :=
  ((JsonScan.number? (number x)).map Prod.fst).getD (.float (.fin x))

/-- The number that a printed float is read as. -/
def rereadFloat : Binary64 → PyNum
  | .negZero => .int 0
  | .fin x => rereadNumber x
  | x => .float x

/-- An integral double below `10 ^ 21` comes back as the integer that it is printed as, any other
double as itself. -/
theorem rereadNumber_cases (x : FiniteBinary64) :
    (∃ z w : ℤ, x.val = z ∧ |z| < 10 ^ 21 ∧ number x = intText w ∧ (|z| < 2 ^ 53 → w = z) ∧
      (2 ^ 53 ≤ |z| → 2 ^ 53 ≤ |w|) ∧ rereadNumber x = .int w) ∨
    (x.val ≠ 0 ∧ (∀ z : ℤ, x.val = z → 10 ^ 21 ≤ |z|) ∧ rereadNumber x = .float (.fin x)) := by
  have hnil : JsonScan.Delimited [] := by simp [JsonScan.Delimited]
  -- an integral float below `10 ^ 21` is printed without a point or an exponent
  by_cases hint : ∃ z : ℤ, x.val = z ∧ |z| < 10 ^ 21
  · obtain ⟨z, hz, hlt⟩ := hint
    obtain ⟨w, hw, hsmall, hlarge⟩ := exists_number_eq_intText hz hlt
    refine .inl ⟨z, w, hz, hlt, hw, hsmall, hlarge, ?_⟩
    have hread := JsonScan.number?_intText w hnil
    rw [List.append_nil, ← hw] at hread
    rw [rereadNumber, hread]
    rfl
  · have hfloat : ∀ z : ℤ, x.val = z → 10 ^ 21 ≤ |z| := fun z hz =>
      not_lt.mp fun hlt => hint ⟨z, hz, hlt⟩
    have hnz : x.val ≠ 0 := fun h0 => by
      have hle := hfloat 0 (by rw [h0, Int.cast_zero])
      norm_num at hle
    refine .inr ⟨hnz, hfloat, ?_⟩
    have hread := number?_number hnz hfloat hnil
    rw [List.append_nil] at hread
    rw [rereadNumber, hread]
    rfl

/-- The text of a finite float is read as a number. -/
theorem spells_float {x : Binary64} (hx : x.isFinite = true) :
    ∃ t, serialize (.float x) = .ok t ∧ JsonScan.Spells t (.num (rereadFloat x)) := by
  rcases x with _ | _ | _ | x
  · cases hx
  · cases hx
  · exact ⟨_, rfl, JsonScan.spells_int 0⟩
  refine ⟨_, rfl, ?_⟩
  obtain ⟨z, w, -, -, hw, -, -, hreread⟩ | ⟨hnz, hfloat, hreread⟩ := rereadNumber_cases x
  · show JsonScan.Spells (number x) (.num (rereadNumber x))
    rw [hreread, hw]
    exact JsonScan.spells_int w
  · show JsonScan.Spells (number x) (.num (rereadNumber x))
    rw [hreread]
    exact JsonScan.spells_number fun rest => number?_number hnz hfloat

end Jcs

/-! ## Values -/

namespace PyVal

/-- A key does not come after another in the order of UTF-16 code units. -/
def UnitsLe (a b : PyVal × PyVal) : Prop :=
  match a.1, b.1 with
  | .str s, .str t => Jcs.utf16 s ≤ Jcs.utf16 t
  | _, _ => True

instance : DecidableRel UnitsLe
  | (.str s, _), (.str t, _) => inferInstanceAs (Decidable (Jcs.utf16 s ≤ Jcs.utf16 t))
  | (.str _, _), (.none, _) | (.str _, _), (.bool _, _) | (.str _, _), (.int _, _)
  | (.str _, _), (.float _, _) | (.str _, _), (.bytes _, _) | (.str _, _), (.list _, _)
  | (.str _, _), (.tuple _, _) | (.str _, _), (.dict _, _) | (.str _, _), (.enum _ _ _, _)
  | (.none, _), _ | (.bool _, _), _ | (.int _, _), _ | (.float _, _), _ | (.bytes _, _), _
  | (.list _, _), _ | (.tuple _, _), _ | (.dict _, _), _ | (.enum _ _ _, _), _ => isTrue trivial

mutual

/-- The value that comes back from the canonical text. -/
def reread : PyVal → PyVal
  | .float x => (Jcs.rereadFloat x).toVal
  | .list xs => .list (rereadItems xs)
  | .tuple xs => .list (rereadItems xs)
  | .dict entries => .dict ((rereadEntries entries).insertionSort UnitsLe)
  | v => v

/-- The elements of a list as they come back. -/
def rereadItems : List PyVal → List PyVal
  | [] => []
  | x :: xs => reread x :: rereadItems xs

/-- The members of a dictionary with the values that come back. -/
def rereadEntries : List (PyVal × PyVal) → List (PyVal × PyVal)
  | [] => []
  | (k, x) :: rest => (k, reread x) :: rereadEntries rest

end

/-- A list comes back element by element. -/
theorem rereadItems_eq (xs : List PyVal) : rereadItems xs = xs.map reread := by
  induction xs with
  | nil => rfl
  | cons x xs ih => rw [rereadItems, ih, List.map_cons]

/-- An object comes back with its members in the order of the text. -/
theorem reread_ofMembers (ms : List (Text × PyVal)) :
    (ofMembers ms).reread = ofMembers ((Jcs.sortMembers ms).map fun m => (m.1, m.2.reread)) := by
  have hentries : rereadEntries (ms.map fun m => (.str m.1, m.2)) =
      ms.map fun m => (.str m.1, m.2.reread) := by
    induction ms with
    | nil => rfl
    | cons m ms ih => rw [List.map_cons, rereadEntries, ih, List.map_cons]
  have hsort := List.map_insertionSort
    (fun a b : Text × PyVal => Jcs.utf16 a.1 ≤ Jcs.utf16 b.1) UnitsLe
    (fun m : Text × PyVal => ((.str m.1, m.2.reread) : PyVal × PyVal)) ms fun _ _ _ _ => Iff.rfl
  rw [ofMembers, reread, hentries, ofMembers, List.map_map, ← hsort]
  rfl

end PyVal

namespace Jcs

/-- `json.loads` builds dictionaries from pairs. -/
private abbrev dictHook (pairs : List (Text × PyVal)) : Except PyExc PyVal :=
  .ok (.ofMembers (Dict.ofPairs pairs))

/-- The elements of a list, with their texts and with the trees that these spell. -/
private theorem exists_items {xs : List PyVal}
    (h : ∀ x ∈ xs, ∃ t doc, serialize x = .ok t ∧ JsonScan.Spells t doc ∧
      doc.load dictHook = .ok x.reread) :
    ∃ items docs, serializeItems xs = .ok items ∧ List.Forall₂ JsonScan.Spells items docs ∧
      JsonDoc.loadItems dictHook docs = .ok (PyVal.rereadItems xs) := by
  induction xs with
  | nil => exact ⟨[], [], rfl, .nil, rfl⟩
  | cons x xs ih =>
    obtain ⟨t, doc, ht, hspells, hload⟩ := h x (List.mem_cons_self ..)
    obtain ⟨items, docs, hitems, hspells', hloads⟩ := ih fun y hy => h y (List.mem_cons_of_mem _ hy)
    refine ⟨t :: items, doc :: docs, ?_, .cons hspells hspells', ?_⟩
    · rw [serializeItems, ht, hitems]
      rfl
    · rw [JsonDoc.loadItems, hload, hloads]
      rfl

/-- Members come back one by one. -/
private theorem loadMembers_map {α : Type} {key : α → Text} {tree : α → JsonDoc} {val : α → PyVal}
    {l : List α} (h : ∀ a ∈ l, (tree a).load dictHook = .ok (val a)) :
    JsonDoc.loadMembers dictHook (l.map fun a => (key a, tree a)) =
      .ok (l.map fun a => (key a, val a)) := by
  induction l with
  | nil => rfl
  | cons a l ih =>
    rw [List.map_cons, JsonDoc.loadMembers, h a (List.mem_cons_self ..),
      ih fun b hb => h b (List.mem_cons_of_mem _ hb)]
    rfl

/-- Sorting loses no member. -/
theorem mem_sortMembers {α : Type} {ms : List (Text × α)} {m : Text × α} :
    m ∈ sortMembers ms ↔ m ∈ ms :=
  List.mem_insertionSort _

/-- The order depends on the keys only. -/
theorem sortMembers_map {α β : Type} (f : Text × α → β) (ms : List (Text × α)) :
    sortMembers (ms.map fun m => (m.1, f m)) = (sortMembers ms).map fun m => (m.1, f m) :=
  (List.map_insertionSort (fun a b : Text × α => utf16 a.1 ≤ utf16 b.1)
    (fun a b : Text × β => utf16 a.1 ≤ utf16 b.1) (fun m => (m.1, f m)) ms
    fun _ _ _ _ => Iff.rfl).symm

private instance : Nonempty JsonDoc := ⟨.null⟩

/-- The canonical text of a JSON value spells a tree that loads to the value that comes back. -/
theorem exists_spells {v : PyVal} (hv : v.IsJson) (hfinite : v.FiniteFloats) :
    ∃ t doc, serialize v = .ok t ∧ JsonScan.Spells t doc ∧ doc.load dictHook = .ok v.reread := by
  induction v, hv using PyVal.isJson_induct with
  | none => exact ⟨_, _, rfl, JsonScan.spells_null, rfl⟩
  | bool b =>
    cases b
    · exact ⟨_, _, rfl, JsonScan.spells_false, rfl⟩
    · exact ⟨_, _, rfl, JsonScan.spells_true, rfl⟩
  | int z => exact ⟨_, _, rfl, JsonScan.spells_int z, rfl⟩
  | float x =>
    obtain ⟨t, ht, hspells⟩ := spells_float hfinite
    exact ⟨t, _, ht, hspells, rfl⟩
  | str s =>
    refine ⟨_, .str s, rfl, ⟨⟨0x22, rfl, by unfold JsonScan.IsSpace; decide, by decide⟩, ?_⟩, rfl⟩
    -- the text of a string is read up to its closing quote
    intro rest _ fuel _
    obtain ⟨t, ht, hread⟩ := stringTail?_string s rest
    have hquote : (0x22 : CodePoint).val = 0x22 := by decide
    rw [ht]
    simp only [JsonScan.value?, hquote, ↓reduceIte, hread, Option.map_some]
  | list xs h ih =>
    obtain ⟨items, docs, hitems, hspells, hloads⟩ := exists_items fun x hx =>
      ih x hx (PyVal.finiteItems_iff.mp hfinite x hx)
    refine ⟨_, .arr docs, by rw [serialize, hitems]; rfl,
      JsonScan.spells_arr DumpStyle.standard_compact hspells, ?_⟩
    rw [JsonDoc.load, hloads]
    rfl
  | obj ms hkeys h ih =>
    -- the members are written in the order of their keys, and read in this order
    have hparts := fun m hm => ih m hm (PyVal.finiteFloats_ofMembers_iff.mp hfinite m hm).2
    choose! item tree hitem hspells hload using hparts
    have htext := serialize_ofMembers hitem
    rw [List.map_id'' (fun _ => rfl), sortMembers_map item, List.map_map] at htext
    have hsorted : ∀ m ∈ (sortMembers ms).map fun m => (m.1, item m, tree m),
        JsonScan.Spells m.2.1 m.2.2 := by
      refine List.forall_mem_map.mpr fun m hm => ?_
      exact hspells m (mem_sortMembers.mp hm)
    have hobj := JsonScan.spells_obj stringStyle DumpStyle.standard_compact hsorted
    rw [List.map_map, List.map_map] at hobj
    have hnodup : (Dict.keys ((sortMembers ms).map fun m => (m.1, m.2.reread))).Nodup := by
      rw [Dict.keys, List.map_map]
      exact ((List.perm_insertionSort _ ms).map Prod.fst).nodup_iff.mpr hkeys
    have hloads : JsonDoc.loadMembers dictHook ((sortMembers ms).map fun m => (m.1, tree m)) =
        .ok ((sortMembers ms).map fun m => (m.1, m.2.reread)) :=
      loadMembers_map fun m hm => hload m (mem_sortMembers.mp hm)
    refine ⟨_, _, htext, hobj, ?_⟩
    rw [JsonDoc.load, PyVal.reread_ofMembers]
    show (JsonDoc.loadMembers dictHook ((sortMembers ms).map fun m => (m.1, tree m)) >>=
      dictHook) = _
    rw [hloads]
    show Except.ok _ = _
    rw [Dict.ofPairs_eq_self hnodup]

/-- A canonical text loads to the value that comes back. -/
theorem loads_serialize {v : PyVal} (hv : v.IsJson) (hfinite : v.FiniteFloats) {t : Text}
    (ht : serialize v = .ok t) : loads t = .ok v.reread := by
  obtain ⟨t', doc, ht', hspells, hload⟩ := exists_spells hv hfinite
  obtain rfl : t' = t := Except.ok.inj (ht'.symm.trans ht)
  rw [loads, loadsWith, hspells.scan]
  exact hload

end Jcs
