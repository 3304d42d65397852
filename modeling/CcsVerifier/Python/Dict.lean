import Mathlib

/-!
# Dictionaries in insertion order

A dictionary is the list of its entries, oldest first. A new key goes to the end, an assignment
to an old key keeps its place, and a dictionary display keeps the last value of a repeated key.

* `Dict.lookup_set`, `Dict.lookup_erase`, `Dict.lookup_filter_key`, `Dict.lookup_filter_value`:
  what each operation leaves under a key.
* `Dict.ofPairs_eq_self`: pairs with distinct keys are their own dictionary.
-/

/-- A dictionary as the list of its entries. -/
abbrev Dict (κ α : Type) := List (κ × α)

namespace Dict

variable {κ α : Type} [DecidableEq κ]

/-- The value under a key. -/
def lookup (d : Dict κ α) (k : κ) : Option α := List.lookup k d

/-- The keys in order. -/
def keys (d : Dict κ α) : List κ := d.map Prod.fst

/-- `d[k] = v` -/
def set (d : Dict κ α) (k : κ) (v : α) : Dict κ α :=
  if k ∈ d.keys then d.map fun m => if m.1 = k then (k, v) else m else d ++ [(k, v)]

/-- `del d[k]` -/
def erase (d : Dict κ α) (k : κ) : Dict κ α := d.filter fun m => decide (m.1 ≠ k)

/-- `dict(pairs)` -/
def ofPairs (pairs : List (κ × α)) : Dict κ α := pairs.foldl (fun d m => d.set m.1 m.2) []

variable {d : Dict κ α} {k l : κ} {v w : α}

/-! ## Lookup -/

@[simp]
theorem lookup_nil : lookup ([] : Dict κ α) k = none := rfl

/-- The first entry is found under its key. -/
@[simp]
theorem lookup_cons_self : lookup ((k, v) :: d) k = some v := List.lookup_cons_self

/-- Another key is looked up in the rest. -/
theorem lookup_cons_of_ne (h : l ≠ k) : lookup ((k, v) :: d) l = lookup d l := by
  rw [lookup, List.lookup_cons, beq_false_of_ne h]
  rfl

/-- What is found in the first of two dictionaries hides what is in the second. -/
theorem lookup_append (d e : Dict κ α) : lookup (d ++ e) k = (lookup d k).or (lookup e k) :=
  List.lookup_append

/-- What is found is an entry. -/
theorem mem_of_lookup_eq_some (h : d.lookup k = some v) : (k, v) ∈ d := by
  obtain ⟨l₁, l₂, rfl, -⟩ := List.lookup_eq_some_iff.mp h
  simp

/-- Nothing is found exactly under the keys that are not there. -/
theorem lookup_eq_none_iff : d.lookup k = none ↔ k ∉ d.keys := by
  rw [lookup, List.lookup_eq_none_iff, keys]
  simp only [List.mem_map, not_exists, not_and, bne_iff_ne]
  exact ⟨fun h m hm heq => h m hm heq.symm, fun h m hm heq => h m hm heq.symm⟩

/-- In a dictionary with distinct keys every entry is found. -/
theorem lookup_eq_some_iff (hd : d.keys.Nodup) : d.lookup k = some v ↔ (k, v) ∈ d := by
  refine ⟨mem_of_lookup_eq_some, fun h => ?_⟩
  induction d with
  | nil => cases h
  | cons m d ih =>
    obtain ⟨l, w⟩ := m
    rw [keys, List.map_cons, List.nodup_cons] at hd
    rcases List.mem_cons.mp h with heq | hmem
    · cases heq
      exact lookup_cons_self
    · have hne : k ≠ l := by
        rintro rfl
        exact hd.1 (List.mem_map.mpr ⟨(k, v), hmem, rfl⟩)
      rw [lookup_cons_of_ne hne]
      exact ih hd.2 hmem

/-- The order of entries does not matter when their keys are distinct. -/
theorem lookup_perm {e : Dict κ α} (hperm : List.Perm d e) (hd : d.keys.Nodup) :
    d.lookup k = e.lookup k := by
  have he : e.keys.Nodup := (hperm.map Prod.fst).nodup_iff.mp hd
  refine Option.ext fun v => ?_
  rw [lookup_eq_some_iff hd, lookup_eq_some_iff he]
  exact hperm.mem_iff

/-- Mapping the values maps what is found. -/
theorem lookup_map {β : Type} (f : α → β) :
    lookup (List.map (fun m => (m.1, f m.2)) d) k = (d.lookup k).map f := by
  induction d with
  | nil => rfl
  | cons m d ih =>
    obtain ⟨l, v⟩ := m
    rw [List.map_cons]
    by_cases h : k = l
    · rw [h, lookup_cons_self, lookup_cons_self, Option.map_some]
    · rw [lookup_cons_of_ne h, lookup_cons_of_ne h, ih]

/-- A filter on keys keeps or drops all of a key. -/
theorem lookup_filter_key (p : κ → Bool) :
    lookup (d.filter fun m => p m.1) k = if p k then d.lookup k else none := by
  induction d with
  | nil => simp
  | cons m d ih =>
    obtain ⟨l, w⟩ := m
    rw [List.filter_cons]
    by_cases hk : k = l
    · subst hk
      -- whether the key passes decides for all its entries
      by_cases hp : p k
      · rw [if_pos hp, if_pos hp, lookup_cons_self, lookup_cons_self]
      · rw [if_neg hp, ih, if_neg hp, if_neg hp]
    · rw [lookup_cons_of_ne hk, ← ih]
      split
      · exact lookup_cons_of_ne hk
      · rfl

/-- A filter on values keeps a key exactly when it keeps its value. -/
theorem lookup_filter_value (hd : d.keys.Nodup) (p : α → Bool) :
    lookup (d.filter fun m => p m.2) k = (d.lookup k).filter p := by
  have hfilter : (keys (d.filter fun m => p m.2)).Nodup :=
    hd.sublist ((List.filter_sublist (l := d)).map Prod.fst)
  refine Option.ext fun v => ?_
  rw [lookup_eq_some_iff hfilter, List.mem_filter, Option.filter_eq_some_iff,
    lookup_eq_some_iff hd]

/-- Only the erased key is gone. -/
theorem lookup_erase : lookup (d.erase l) k = if k = l then none else d.lookup k := by
  rw [erase, lookup_filter_key fun m => decide (m ≠ l)]
  by_cases h : k = l <;> simp [h]

/-- Only the key that is set has another value. -/
theorem lookup_set : lookup (d.set l v) k = if k = l then some v else d.lookup k := by
  unfold set
  split
  -- a key that is there keeps its place
  · next hmem =>
    induction d with
    | nil => cases hmem
    | cons m d ih =>
      obtain ⟨j, w⟩ := m
      rw [List.map_cons]
      by_cases hj : j = l
      · subst hj
        rw [if_pos rfl]
        by_cases hk : k = j
        · subst hk
          rw [lookup_cons_self, if_pos rfl]
        · rw [lookup_cons_of_ne hk, lookup_cons_of_ne hk, if_neg hk]
          by_cases hmem' : j ∈ keys d
          · rw [ih hmem', if_neg hk]
          · -- the key stands in no other place
            have hsame : ∀ m ∈ d, (if m.1 = j then (j, v) else m) = id m := by
              intro m hm
              refine if_neg fun heq => hmem' ?_
              subst heq
              exact List.mem_map_of_mem hm
            rw [List.map_congr_left hsame, List.map_id]
      · have hmem' : l ∈ keys d := by
          rcases List.mem_cons.mp hmem with heq | hmem
          · exact absurd heq.symm hj
          · exact hmem
        rw [if_neg hj]
        by_cases hk : k = j
        · subst hk
          rw [lookup_cons_self, lookup_cons_self, if_neg hj]
        · rw [lookup_cons_of_ne hk, lookup_cons_of_ne hk, ih hmem']
  -- a new key goes to the end
  · next hmem =>
    rw [lookup_append]
    by_cases hk : k = l
    · subst hk
      rw [lookup_eq_none_iff.mpr hmem, lookup_cons_self, if_pos rfl]
      rfl
    · rw [lookup_cons_of_ne hk, if_neg hk, lookup_nil, Option.or_none]

/-! ## Keys -/

/-- A new key comes last, and a key that is there stays where it is. -/
theorem keys_set : (d.set k v).keys = if k ∈ d.keys then d.keys else d.keys ++ [k] := by
  unfold set
  split
  · rw [keys, List.map_map]
    refine List.map_congr_left fun m _ => ?_
    by_cases h : m.1 = k <;> simp [h]
  · simp [keys]

omit [DecidableEq κ] in
/-- Leaving entries out repeats no key. -/
theorem nodup_keys_filter (h : d.keys.Nodup) (p : κ × α → Bool) : (keys (d.filter p)).Nodup :=
  h.sublist ((List.filter_sublist (l := d)).map Prod.fst)

/-- Setting a key repeats none. -/
theorem nodup_keys_set (h : d.keys.Nodup) : (d.set k v).keys.Nodup := by
  rw [keys_set]
  split
  · exact h
  · next hk => exact List.nodup_append.mpr ⟨h, List.nodup_singleton k, by grind⟩

/-- Erasing a key repeats none. -/
theorem nodup_keys_erase (h : d.keys.Nodup) : (d.erase k).keys.Nodup := nodup_keys_filter h _

private theorem nodup_keys_foldl_set (pairs : List (κ × α)) (h : d.keys.Nodup) :
    (keys (pairs.foldl (fun d m => d.set m.1 m.2) d)).Nodup := by
  induction pairs generalizing d with
  | nil => exact h
  | cons m pairs ih => exact ih (nodup_keys_set h)

/-- An entry after a key was set is the new one or was there before. -/
theorem mem_of_mem_set {m : κ × α} (h : m ∈ d.set k v) : m = (k, v) ∨ m ∈ d := by
  unfold set at h
  split at h
  · obtain ⟨n, hn, rfl⟩ := List.mem_map.mp h
    split
    · exact .inl rfl
    · exact .inr hn
  · rcases List.mem_append.mp h with h | h
    · exact .inr h
    · exact .inl (List.mem_singleton.mp h)

private theorem mem_foldl_set (pairs : List (κ × α)) {m : κ × α}
    (h : m ∈ pairs.foldl (fun d m => d.set m.1 m.2) d) : m ∈ d ∨ m ∈ pairs := by
  induction pairs generalizing d with
  | nil => exact .inl h
  | cons n pairs ih =>
    rcases ih h with h | h
    · rcases mem_of_mem_set h with rfl | h
      · exact .inr (List.mem_cons_self ..)
      · exact .inl h
    · exact .inr (List.mem_cons_of_mem _ h)

/-- A dictionary holds only the pairs that it was made of. -/
theorem mem_of_mem_ofPairs {pairs : List (κ × α)} {m : κ × α} (h : m ∈ ofPairs pairs) :
    m ∈ pairs :=
  (mem_foldl_set pairs h).resolve_left List.not_mem_nil

/-- A dictionary made of pairs repeats no key, whichever the pairs repeat. -/
theorem nodup_keys_ofPairs (pairs : List (κ × α)) : (ofPairs pairs).keys.Nodup :=
  nodup_keys_foldl_set pairs List.nodup_nil

/-- Pairs with new keys are entered in their order. -/
private theorem foldl_set_eq_append (pairs : List (κ × α)) (h : (keys (d ++ pairs)).Nodup) :
    pairs.foldl (fun d m => d.set m.1 m.2) d = d ++ pairs := by
  induction pairs generalizing d with
  | nil => simp
  | cons m pairs ih =>
    have hnew : m.1 ∉ d.keys := by
      rw [keys, List.map_append, List.nodup_append] at h
      exact fun hmem => h.2.2 m.1 hmem m.1 (by simp) rfl
    have hset : d.set m.1 m.2 = d ++ [m] := if_neg hnew
    rw [List.foldl_cons, hset, ih (by simpa using h), List.append_assoc]
    rfl

/-- Pairs with distinct keys are their own dictionary. -/
theorem ofPairs_eq_self {pairs : List (κ × α)} (h : (keys pairs).Nodup) :
    ofPairs pairs = pairs := by
  exact foldl_set_eq_append (d := []) pairs h

end Dict
