import CcsVerifier.Python.JsonRoundTrip

/-!
# Values after a trip through JSON

What `json.loads` makes of a text that `json.dumps` has written.

* `PyVal.reload`: the value that comes back from a dump, for every value (`loads_dumps`).
* `PyVal.sorted`: the value with the members of every object in the order of their keys.
* `PyVal.sameData_ofMembers_iff`: objects hold the same data when their members do, in any order.
* `PyVal.Reloadable`: the values that come back up to the order of members (`reload_compact`).
* `dumps_sorted`: the compact dump does not depend on the order of members.
* `isJson_of_loads`: a decoded text is a JSON value.
-/

namespace PyVal

/-! ## What comes back -/

section Reload

variable (style : DumpStyle)

mutual

/-- The value that comes back from a dump: surrogate pairs are joined, tuples are lists and
objects have their members in the order of the dump. -/
def reload : PyVal → PyVal
  | .bool b => .bool b
  | .int z => .int z
  | .float x => .float x
  | .str s => .str s.joinSurrogates
  | .list xs => .list (reloadItems xs)
  | .tuple xs => .list (reloadItems xs)
  | .dict entries =>
    .ofMembers (Dict.ofPairs
      ((orderMembers style (reloadMembers entries)).map fun m => (m.1.joinSurrogates, m.2)))
  | _ => .none

/-- The elements of a list as they come back. -/
def reloadItems : List PyVal → List PyVal
  | [] => []
  | x :: xs => reload x :: reloadItems xs

/-- The keys of a dictionary with the values that come back. -/
def reloadMembers : List (PyVal × PyVal) → List (Text × PyVal)
  | [] => []
  | (.str k, x) :: rest => (k, reload x) :: reloadMembers rest
  | _ :: rest => reloadMembers rest

end

end Reload

variable {style : DumpStyle}

/-- `json.loads` builds dictionaries from pairs. -/
private abbrev dictHook (pairs : List (Text × PyVal)) : Except PyExc PyVal :=
  .ok (.ofMembers (Dict.ofPairs pairs))

/-- A list comes back element by element. -/
private theorem loadItems_docItems {xs : List PyVal}
    (h : ∀ x ∈ xs, (x.doc style).load dictHook = .ok (x.reload style)) :
    JsonDoc.loadItems dictHook (docItems style xs) = .ok (reloadItems style xs) := by
  induction xs with
  | nil => rfl
  | cons x xs ih =>
    have hx := h x (List.mem_cons_self ..)
    have hxs := ih fun y hy => h y (List.mem_cons_of_mem _ hy)
    rw [docItems, JsonDoc.loadItems, hx, hxs]
    rfl

/-- The members of a dictionary, with their syntax trees and with what these load to. -/
private theorem exists_docMembers {entries : List (PyVal × PyVal)}
    (h : ∀ k v, (k, v) ∈ entries → (v.doc style).load dictHook = .ok (v.reload style)) :
    ∃ l : List (Text × JsonDoc × PyVal),
      docMembers style entries = l.map (fun m => (m.1, m.2.1)) ∧
      reloadMembers style entries = l.map (fun m => (m.1, m.2.2)) ∧
      ∀ m ∈ l, m.2.1.load dictHook = .ok m.2.2 := by
  induction entries with
  | nil => exact ⟨[], rfl, rfl, by simp⟩
  | cons entry rest ih =>
    obtain ⟨k, v⟩ := entry
    obtain ⟨l, hdoc, hreload, hl⟩ := ih fun k v hkv => h k v (List.mem_cons_of_mem _ hkv)
    cases k
    case str s =>
      refine ⟨(s, v.doc style, v.reload style) :: l, ?_, ?_, ?_⟩
      · rw [docMembers, hdoc]
        rfl
      · rw [reloadMembers, hreload]
        rfl
      · intro m hm
        rcases List.mem_cons.mp hm with rfl | hm
        · exact h _ v (List.mem_cons_self ..)
        · exact hl m hm
    -- a key that is not a string is in neither list
    all_goals exact ⟨l, by rw [docMembers, hdoc]; simp, by rw [reloadMembers, hreload]; simp, hl⟩

/-- Members come back one by one. -/
private theorem loadMembers_map {l : List (Text × JsonDoc × PyVal)}
    (h : ∀ m ∈ l, m.2.1.load dictHook = .ok m.2.2) :
    JsonDoc.loadMembers dictHook (l.map fun m => (m.1.joinSurrogates, m.2.1)) =
      .ok (l.map fun m => (m.1.joinSurrogates, m.2.2)) := by
  induction l with
  | nil => rfl
  | cons m l ih =>
    have hm := h m (List.mem_cons_self ..)
    have hl := ih fun n hn => h n (List.mem_cons_of_mem _ hn)
    rw [List.map_cons, JsonDoc.loadMembers, hm, hl]
    rfl

/-- The syntax tree of a dump loads to the value that comes back. -/
theorem load_doc (v : PyVal) : (v.doc style).load dictHook = .ok (v.reload style) := by
  induction v using PyVal.induct with
  | none | bool b | int z | float x | str s | bytes b | enum cls member value ih => rfl
  | list xs ih | tuple xs ih =>
    rw [doc, JsonDoc.load, loadItems_docItems ih]
    rfl
  | dict entries ih =>
    obtain ⟨l, hdoc, hreload, hl⟩ := exists_docMembers fun k v hkv => (ih k v hkv).2
    -- every member is read back by the induction hypothesis, in the order of the text
    have hordered : ∀ m ∈ orderMembers style l, m.2.1.load dictHook = .ok m.2.2 := fun m hm =>
      hl m ((perm_orderMembers style l).mem_iff.mp hm)
    have hload := loadMembers_map hordered
    rw [doc, reload, hdoc, hreload, JsonDoc.load, orderMembers_map style Prod.fst,
      orderMembers_map style Prod.snd, List.map_map, List.map_map]
    show (JsonDoc.loadMembers dictHook
      ((orderMembers style l).map fun m => (m.1.joinSurrogates, m.2.1)) >>= dictHook) = _
    rw [hload]
    rfl

/-- A dump loads to the value that comes back. -/
theorem loads_dumps (hstyle : style.Standard) {v : PyVal} {t : Text}
    (hok : dumps style v = .ok t) : loads t = .ok (v.reload style) := by
  rw [loads, loadsWith, JsonScan.scan_dumps hstyle hok]
  exact load_doc v

/-! ## The order of members -/

/-- A key does not come after another in the order of strings. -/
def KeyLe (a b : PyVal × PyVal) : Prop :=
  match a.1, b.1 with
  | .str s, .str t => s ≤ t
  | _, _ => True

instance : DecidableRel KeyLe := fun a b => by
  unfold KeyLe
  split <;> infer_instance

mutual

/-- The value with the members of every object in the order of their keys. -/
def sorted : PyVal → PyVal
  | .list xs => .list (sortedItems xs)
  | .tuple xs => .tuple (sortedItems xs)
  | .dict entries => .dict ((sortedEntries entries).insertionSort KeyLe)
  | v => v

/-- The elements of a list with their members in order. -/
def sortedItems : List PyVal → List PyVal
  | [] => []
  | x :: xs => sorted x :: sortedItems xs

/-- The members of a dictionary, each with its own members in order. -/
def sortedEntries : List (PyVal × PyVal) → List (PyVal × PyVal)
  | [] => []
  | (k, x) :: rest => (k, sorted x) :: sortedEntries rest

end

/-- Two values that are equal up to the order of members, as Python compares dictionaries. -/
def SameData (v w : PyVal) : Prop := v.sorted = w.sorted

/-- The elements of a list are sorted inside. -/
theorem sortedItems_eq (xs : List PyVal) : sortedItems xs = xs.map sorted := by
  induction xs with
  | nil => rfl
  | cons x xs ih => rw [sortedItems, ih, List.map_cons]

/-- So are the values of an object. -/
theorem sortedEntries_ofMembers (ms : List (Text × PyVal)) :
    sortedEntries (ms.map fun m => (.str m.1, m.2)) = ms.map fun m => (.str m.1, m.2.sorted) := by
  induction ms with
  | nil => rfl
  | cons m ms ih => rw [List.map_cons, sortedEntries, ih, List.map_cons]

/-- An object with its members in order. -/
theorem sorted_ofMembers (ms : List (Text × PyVal)) : (ofMembers ms).sorted =
    ofMembers ((orderMembers .compact ms).map fun m => (m.1, m.2.sorted)) := by
  rw [ofMembers, sorted, sortedEntries_ofMembers, ofMembers, List.map_map]
  have hsort := List.map_insertionSort (fun a b : Text × PyVal => a.1 ≤ b.1) KeyLe
    (fun m : Text × PyVal => ((.str m.1, m.2.sorted) : PyVal × PyVal)) ms fun _ _ _ _ => Iff.rfl
  rw [← hsort]
  rfl

/-- The order of members is fixed by their keys, so it does not depend on the order before. -/
theorem orderMembers_perm {α : Type} {ms ns : List (Text × α)} (hperm : ms.Perm ns)
    (hkeys : (Dict.keys ms).Nodup) : orderMembers .compact ms = orderMembers .compact ns := by
  have hsorted : ∀ l : List (Text × α), (orderMembers .compact l).Pairwise (fun a b => a.1 ≤ b.1) :=
    fun l => List.pairwise_insertionSort (fun a b : Text × α => a.1 ≤ b.1) l
  have hperm' : (orderMembers .compact ms).Perm (orderMembers .compact ns) :=
    (perm_orderMembers _ ms).trans (hperm.trans (perm_orderMembers _ ns).symm)
  refine hperm'.eq_of_pairwise (fun a b ha hb hab hba => ?_) (hsorted ms) (hsorted ns)
  -- members with one key are one member
  have ha' : a ∈ ms := (perm_orderMembers _ ms).mem_iff.mp ha
  have hb' : b ∈ ms := hperm.mem_iff.mpr ((perm_orderMembers _ ns).mem_iff.mp hb)
  exact List.inj_on_of_nodup_map hkeys ha' hb' (le_antisymm hab hba)

/-- Ordering ordered members changes nothing. -/
theorem orderMembers_orderMembers {α : Type} {ms : List (Text × α)}
    (hkeys : (Dict.keys ms).Nodup) :
    orderMembers .compact (orderMembers .compact ms) = orderMembers .compact ms :=
  (orderMembers_perm (perm_orderMembers _ ms).symm hkeys).symm

/-- An object determines its members. -/
theorem ofMembers_injective : Function.Injective ofMembers := by
  refine fun ms ns h => List.map_injective_iff.mpr (fun m n hmn => ?_) (PyVal.dict.inj h)
  obtain ⟨hkey, hval⟩ := Prod.mk.inj hmn
  exact Prod.ext (PyVal.str.inj hkey) hval

/-- Two objects hold the same data when they hold the same members, up to the same data, in any
order. -/
theorem sameData_ofMembers_iff {ms ns : List (Text × PyVal)} (hkeys : (Dict.keys ms).Nodup) :
    (ofMembers ms).SameData (ofMembers ns) ↔
      (ms.map fun m => (m.1, m.2.sorted)).Perm (ns.map fun m => (m.1, m.2.sorted)) := by
  -- sorting the values and ordering the members can be done in either order
  have horder : ∀ l : List (Text × PyVal), (orderMembers .compact l).map
      (fun m => (m.1, m.2.sorted)) = orderMembers .compact (l.map fun m => (m.1, m.2.sorted)) :=
    fun l => (orderMembers_map .compact PyVal.sorted l).symm
  rw [SameData, sorted_ofMembers, sorted_ofMembers, horder, horder]
  constructor
  · intro h
    refine (perm_orderMembers .compact _).symm.trans ?_
    rw [ofMembers_injective h]
    exact perm_orderMembers .compact _
  · intro hperm
    have hnodup : (Dict.keys (ms.map fun m => (m.1, m.2.sorted))).Nodup := by
      rw [Dict.keys, List.map_map]
      exact hkeys
    rw [orderMembers_perm hperm hnodup]

/-- Ordering the members repeats no key. -/
theorem keys_orderMembers {α : Type} {ms : List (Text × α)} (hkeys : (Dict.keys ms).Nodup) :
    (Dict.keys (orderMembers style ms)).Nodup :=
  ((perm_orderMembers style ms).map Prod.fst).nodup_iff.mpr hkeys

/-! ## JSON values -/

/-- A dictionary that JSON can hold is an object with distinct keys. -/
theorem exists_members_of_isJson {entries : List (PyVal × PyVal)} (h : (PyVal.dict entries).IsJson) :
    ∃ ms : List (Text × PyVal), PyVal.dict entries = ofMembers ms ∧ (Dict.keys ms).Nodup ∧
      ∀ m ∈ ms, m.2.IsJson := by
  cases h with
  | dict hkeys hnodup hvals =>
    induction entries with
    | nil => exact ⟨[], rfl, List.nodup_nil, by simp⟩
    | cons entry rest ih =>
      obtain ⟨k, v⟩ := entry
      rw [List.map_cons, List.nodup_cons] at hnodup
      -- the key is a string, which stands in no other entry
      obtain ⟨s, rfl⟩ := hkeys _ _ (List.mem_cons_self ..)
      obtain ⟨ms, heq, hms, hjson⟩ := ih
        (fun k v hkv => hkeys k v (List.mem_cons_of_mem _ hkv)) hnodup.2
        (fun k v hkv => hvals k v (List.mem_cons_of_mem _ hkv))
      obtain rfl : rest = ms.map fun m => (.str m.1, m.2) := PyVal.dict.inj heq
      refine ⟨(s, v) :: ms, rfl, ?_, ?_⟩
      · rw [Dict.keys, List.map_cons, List.nodup_cons]
        refine ⟨fun hmem => hnodup.1 ?_, hms⟩
        obtain ⟨m, hm, rfl⟩ := List.mem_map.mp hmem
        rw [List.map_map]
        exact List.mem_map.mpr ⟨m, hm, rfl⟩
      · intro m hm
        rcases List.mem_cons.mp hm with rfl | hm
        · exact hvals _ _ (List.mem_cons_self ..)
        · exact hjson m hm

/-- Induction on JSON values, with objects given by their members. -/
@[elab_as_elim]
theorem isJson_induct {P : ∀ v : PyVal, v.IsJson → Prop} (none : P .none .none)
    (bool : ∀ b, P (.bool b) (.bool b)) (int : ∀ z, P (.int z) (.int z))
    (float : ∀ x, P (.float x) (.float x)) (str : ∀ s, P (.str s) (.str s))
    (list : ∀ xs (h : ∀ x ∈ xs, x.IsJson), (∀ x hx, P x (h x hx)) → P (.list xs) (.list h))
    (obj : ∀ (ms : List (Text × PyVal)) (hkeys : (Dict.keys ms).Nodup)
      (h : ∀ m ∈ ms, m.2.IsJson), (∀ m hm, P m.2 (h m hm)) →
        P (ofMembers ms) (isJson_ofMembers hkeys fun k v hkv => h (k, v) hkv))
    (v : PyVal) (hv : v.IsJson) : P v hv := by
  induction v using PyVal.induct with
  | none => exact none
  | bool b => exact bool b
  | int z => exact int z
  | float x => exact float x
  | str s => exact str s
  | list xs ih =>
    have hxs : ∀ x ∈ xs, x.IsJson := by
      cases hv with
      | list hxs => exact hxs
    exact list xs hxs fun x hx => ih x hx (hxs x hx)
  | dict entries ih =>
    -- a dictionary that is JSON is an object with its members
    obtain ⟨ms, heq, hkeys, hjson⟩ := exists_members_of_isJson hv
    obtain rfl : entries = ms.map fun m => (.str m.1, m.2) := PyVal.dict.inj heq
    refine obj ms hkeys hjson fun m hm => ?_
    exact (ih _ _ (List.mem_map.mpr ⟨m, hm, rfl⟩)).2 (hjson m hm)
  | bytes b | tuple xs ih | enum cls member value ih => cases hv

/-- Sorting the members keeps JSON values. -/
theorem IsJson.sorted {v : PyVal} (hv : v.IsJson) : v.sorted.IsJson := by
  induction v, hv using isJson_induct with
  | none => exact .none
  | bool b => exact .bool b
  | int z => exact .int z
  | float x => exact .float x
  | str s => exact .str s
  | list xs h ih =>
    rw [PyVal.sorted, sortedItems_eq]
    exact .list (List.forall_mem_map.mpr ih)
  | obj ms hkeys h ih =>
    rw [sorted_ofMembers]
    -- ordering the members leaves their keys different
    refine isJson_ofMembers ?_ fun k v hkv => ?_
    · rw [List.map_map]
      exact keys_orderMembers hkeys
    · obtain ⟨m, hm, heq⟩ := List.mem_map.mp hkv
      cases heq
      exact ih m ((perm_orderMembers _ ms).mem_iff.mp hm)

/-- Sorting twice is sorting once. -/
theorem sorted_sorted {v : PyVal} (hv : v.IsJson) : v.sorted.sorted = v.sorted := by
  induction v, hv using isJson_induct with
  | none | bool b | int z | float x | str s => rfl
  | list xs h ih =>
    simp only [PyVal.sorted, sortedItems_eq, List.map_map]
    exact congrArg PyVal.list (List.map_congr_left ih)
  | obj ms hkeys h ih =>
    rw [sorted_ofMembers, sorted_ofMembers, orderMembers_map .compact PyVal.sorted,
      orderMembers_orderMembers hkeys, List.map_map]
    refine congrArg ofMembers (List.map_congr_left fun m hm => ?_)
    have hm' := ih m ((perm_orderMembers _ ms).mem_iff.mp hm)
    show (m.1, m.2.sorted.sorted) = (m.1, m.2.sorted)
    rw [hm']

namespace SameData

variable {u v w : PyVal}

theorem refl (v : PyVal) : v.SameData v := rfl

theorem symm (h : v.SameData w) : w.SameData v := Eq.symm h

theorem trans (h : u.SameData v) (h' : v.SameData w) : u.SameData w := Eq.trans h h'

/-- What does not depend on the order of members is the same for values with the same data. -/
theorem congr {α : Sort*} {f : PyVal → α} (hf : ∀ x : PyVal, x.IsJson → f x.sorted = f x)
    (hv : v.IsJson) (hw : w.IsJson) (h : v.SameData w) : f v = f w := by
  rw [← hf v hv, ← hf w hw, show v.sorted = w.sorted from h]

/-- A string holds the same data only as itself. -/
theorem eq_str {s : Text} (hv : v.IsJson) (h : (str s).SameData v) : v = str s := by
  cases hv with
  | str t => exact h.symm
  | _ => cases h

/-- Objects made of the same keys hold the same data when their members do. -/
theorem ofMembers {α : Type} {l : List α} {key : α → Text} {f g : α → PyVal}
    (h : ∀ a ∈ l, (f a).SameData (g a)) :
    (ofMembers (l.map fun a => (key a, f a))).SameData (ofMembers (l.map fun a => (key a, g a))) := by
  have hmembers : ∀ f' : α → PyVal,
      (orderMembers .compact (l.map fun a => (key a, f' a))).map (fun m => (m.1, m.2.sorted)) =
        orderMembers .compact (l.map fun a => (key a, (f' a).sorted)) := fun f' => by
    rw [← orderMembers_map .compact PyVal.sorted, List.map_map]
    rfl
  rw [SameData, sorted_ofMembers, sorted_ofMembers, hmembers, hmembers]
  refine congrArg (fun ms => PyVal.ofMembers (orderMembers .compact ms)) ?_
  exact List.map_congr_left fun a ha => congrArg (key a, ·) (h a ha)

end SameData

/-- Sorting the members keeps the data. -/
theorem sameData_sorted {v : PyVal} (hv : v.IsJson) : v.sorted.SameData v := sorted_sorted hv

/-- Whether a value counts as true does not depend on the order of members. -/
theorem truthy_sorted {v : PyVal} (hv : v.IsJson) : v.sorted.truthy = v.truthy := by
  induction v, hv using isJson_induct with
  | none | bool b | int z | float x | str s => rfl
  | list xs h ih => cases xs <;> rfl
  | obj ms hkeys h ih =>
    have hempty : (orderMembers .compact ms).isEmpty = ms.isEmpty := by
      rw [Bool.eq_iff_iff, List.isEmpty_iff_length_eq_zero, List.isEmpty_iff_length_eq_zero,
        (perm_orderMembers .compact ms).length_eq]
    rw [sorted_ofMembers]
    simp only [ofMembers, truthy, List.isEmpty_map, hempty]

/-! ## Values that come back up to the order of members -/

/-- The JSON values that `json.loads` makes of their dumps: no string in them holds a surrogate
pair, which a JSON text cannot tell from the one code point that the pair encodes. -/
inductive Reloadable : PyVal → Prop
  | none : Reloadable .none
  | bool (b : Bool) : Reloadable (.bool b)
  | int (z : ℤ) : Reloadable (.int z)
  | float (x : Binary64) : Reloadable (.float x)
  | str {s : Text} : s.joinSurrogates = s → Reloadable (.str s)
  | list {xs : List PyVal} : (∀ x ∈ xs, Reloadable x) → Reloadable (.list xs)
  | obj {ms : List (Text × PyVal)} : (Dict.keys ms).Nodup →
      (∀ m ∈ ms, m.1.joinSurrogates = m.1) → (∀ m ∈ ms, Reloadable m.2) →
      Reloadable (ofMembers ms)

/-- What JSON gives back is JSON. -/
theorem Reloadable.isJson {v : PyVal} (h : v.Reloadable) : v.IsJson := by
  induction h with
  | none => exact .none
  | bool b => exact .bool b
  | int z => exact .int z
  | float x => exact .float x
  | str h => exact .str _
  | list h ih => exact .list ih
  | obj hkeys hjoin h ih => exact isJson_ofMembers hkeys fun k v hkv => ih (k, v) hkv

/-- A list comes back element by element. -/
theorem reloadItems_eq (xs : List PyVal) : reloadItems style xs = xs.map (reload style) := by
  induction xs with
  | nil => rfl
  | cons x xs ih => rw [reloadItems, ih, List.map_cons]

/-- Members come back under their keys. -/
theorem reloadMembers_ofMembers (ms : List (Text × PyVal)) :
    reloadMembers style (ms.map fun m => (.str m.1, m.2)) =
      ms.map fun m => (m.1, m.2.reload style) := by
  induction ms with
  | nil => rfl
  | cons m ms ih => rw [List.map_cons, reloadMembers, ih, List.map_cons]

/-- An object whose keys come back has its members in order when it comes back. -/
theorem reload_ofMembers {ms : List (Text × PyVal)} (hkeys : (Dict.keys ms).Nodup)
    (hjoin : ∀ m ∈ ms, m.1.joinSurrogates = m.1) : (ofMembers ms).reload .compact =
      ofMembers ((orderMembers .compact ms).map fun m => (m.1, m.2.reload .compact)) := by
  have hmembers : ((orderMembers .compact ms).map fun m => (m.1, m.2.reload .compact)).map
      (fun m => (m.1.joinSurrogates, m.2)) =
      (orderMembers .compact ms).map fun m => (m.1, m.2.reload .compact) := by
    rw [List.map_map]
    refine List.map_congr_left fun m hm => ?_
    show (m.1.joinSurrogates, m.2.reload .compact) = (m.1, m.2.reload .compact)
    rw [hjoin m ((perm_orderMembers _ ms).mem_iff.mp hm)]
  rw [ofMembers, reload, reloadMembers_ofMembers, orderMembers_map .compact (reload .compact),
    hmembers, Dict.ofPairs_eq_self]
  show (((orderMembers .compact ms).map _).map Prod.fst).Nodup
  rw [List.map_map]
  exact keys_orderMembers hkeys

/-- Such a value comes back from a compact dump with its members in order. -/
theorem Reloadable.reload_compact {v : PyVal} (h : v.Reloadable) :
    v.reload .compact = v.sorted := by
  induction h with
  | none | bool b | int z | float x => rfl
  | @str s h =>
    show PyVal.str s.joinSurrogates = .str s
    rw [h]
  | list h ih =>
    rw [reload, PyVal.sorted, reloadItems_eq, sortedItems_eq]
    exact congrArg PyVal.list (List.map_congr_left ih)
  | @obj ms hkeys hjoin h ih =>
    rw [reload_ofMembers hkeys hjoin, sorted_ofMembers]
    refine congrArg ofMembers (List.map_congr_left fun m hm => ?_)
    rw [ih m ((perm_orderMembers _ ms).mem_iff.mp hm)]

/-- Putting the members in order keeps a value reloadable. -/
theorem Reloadable.sorted {v : PyVal} (h : v.Reloadable) : v.sorted.Reloadable := by
  induction h with
  | none => exact .none
  | bool b => exact .bool b
  | int z => exact .int z
  | float x => exact .float x
  | str h => exact .str h
  | list h ih =>
    rw [PyVal.sorted, sortedItems_eq]
    exact .list (List.forall_mem_map.mpr ih)
  | @obj ms hkeys hjoin h ih =>
    -- ordering the members adds none
    have hmem : ∀ m ∈ orderMembers .compact ms, m ∈ ms := fun m hm =>
      (perm_orderMembers _ ms).mem_iff.mp hm
    rw [sorted_ofMembers]
    refine .obj ?_ (List.forall_mem_map.mpr fun m hm => hjoin m (hmem m hm))
      (List.forall_mem_map.mpr fun m hm => ih m (hmem m hm))
    show (((orderMembers .compact ms).map _).map Prod.fst).Nodup
    rw [List.map_map]
    exact keys_orderMembers hkeys

/-- The values that a compact dump gives back as they are: their members are in order. -/
structure Stable (v : PyVal) : Prop where
  /-- The value comes back, up to the order of members. -/
  reloadable : v.Reloadable
  /-- Its members are in order. -/
  sorted_eq : v.sorted = v

theorem Stable.str {s : Text} (h : s.joinSurrogates = s) : (PyVal.str s).Stable := ⟨.str h, rfl⟩

theorem Stable.int (z : ℤ) : (PyVal.int z).Stable := ⟨.int z, rfl⟩

theorem Stable.float (x : Binary64) : (PyVal.float x).Stable := ⟨.float x, rfl⟩

/-- What JSON gives back is given back the same once it is sorted. -/
theorem Reloadable.stable_sorted {v : PyVal} (h : v.Reloadable) : v.sorted.Stable :=
  ⟨h.sorted, sorted_sorted h.isJson⟩

/-! ## Dumps do not depend on the order of members -/

/-- Elements with the same dumps make the same list of texts. -/
private theorem dumpsItems_congr {f : PyVal → PyVal} {xs : List PyVal}
    (h : ∀ x ∈ xs, dumps style (f x) = dumps style x) :
    dumpsItems style (xs.map f) = dumpsItems style xs := by
  induction xs with
  | nil => rfl
  | cons x xs ih =>
    rw [List.map_cons, dumpsItems, dumpsItems, h x (List.mem_cons_self ..),
      ih fun y hy => h y (List.mem_cons_of_mem _ hy)]

/-- The members of an object are dumped one by one. -/
theorem dumpsMembers_map {α : Type} {key : α → Text} {val : α → PyVal} {item : α → Text}
    {l : List α} (h : ∀ a ∈ l, dumps style (val a) = .ok (item a)) :
    dumpsMembers style (l.map fun a => (.str (key a), val a)) =
      .ok (l.map fun a => (key a, item a)) := by
  induction l with
  | nil => rfl
  | cons a l ih =>
    have ha := h a (List.mem_cons_self ..)
    have hl := ih fun b hb => h b (List.mem_cons_of_mem _ hb)
    rw [List.map_cons, dumpsMembers, ha, hl]
    rfl

/-- The compact dump of an object sorts its members, so they may be given in any order. -/
theorem dumps_ofMembers_congr {ms ns : List (Text × PyVal)} {f : PyVal → PyVal} (hperm : ns.Perm ms)
    (hkeys : (Dict.keys ms).Nodup) (h : ∀ m ∈ ms, m.2.IsJson)
    (hf : ∀ m ∈ ms, dumps .compact (f m.2) = dumps .compact m.2) :
    dumps .compact (ofMembers (ns.map fun m => (m.1, f m.2))) = dumps .compact (ofMembers ms) := by
  have hexists : ∀ m ∈ ms, ∃ t, dumps .compact m.2 = .ok t := fun m hm =>
    dumps_isOk_of_isJson .compact (h m hm)
  choose! item hitem using hexists
  have hgiven : dumpsMembers .compact (ms.map fun m => (.str m.1, m.2)) =
      .ok (ms.map fun m => (m.1, item m)) := dumpsMembers_map hitem
  have hmapped : dumpsMembers .compact (ns.map fun m => (.str m.1, f m.2)) =
      .ok (ns.map fun m => (m.1, item m)) := dumpsMembers_map fun m hm => by
    rw [hf m (hperm.mem_iff.mp hm)]
    exact hitem m (hperm.mem_iff.mp hm)
  have hkeys' : (Dict.keys (ns.map fun m => (m.1, item m))).Nodup := by
    rw [Dict.keys, List.map_map]
    exact (hperm.map Prod.fst).nodup_iff.mpr hkeys
  -- the texts of the members are written in the order of the keys, which are the same
  have horder := orderMembers_perm (hperm.map fun m => (m.1, item m)) hkeys'
  rw [ofMembers, ofMembers, List.map_map, dumps, dumps, hgiven]
  simp only [Function.comp_def, hmapped, bind, Except.bind, horder]

/-- The compact dump is the same for a value with its members in order. -/
theorem dumps_sorted {v : PyVal} (hv : v.IsJson) :
    dumps .compact v.sorted = dumps .compact v := by
  induction v, hv using isJson_induct with
  | none | bool b | int z | float x | str s => rfl
  | list xs h ih => rw [PyVal.sorted, sortedItems_eq, dumps, dumps, dumpsItems_congr ih]
  | obj ms hkeys h ih =>
    rw [sorted_ofMembers]
    exact dumps_ofMembers_congr (perm_orderMembers _ ms) hkeys h ih

/-! ## Decoded texts -/

mutual

/-- What `json.loads` returns is JSON. -/
private theorem isJson_of_load : ∀ {doc : JsonDoc} {v : PyVal},
    doc.load dictHook = .ok v → v.IsJson
  | .null, v, h => by
    cases h
    exact .none
  | .bool b, v, h => by
    cases h
    exact .bool b
  | .num n, v, h => by
    cases h
    cases n with
    | int z => exact .int z
    | float x => exact .float x
  | .str s, v, h => by
    cases h
    exact .str s
  | .arr xs, v, h => by
    simp only [JsonDoc.load, Except.bind_eq_ok_iff, pure, Except.pure, Except.ok.injEq] at h
    obtain ⟨vs, hvs, rfl⟩ := h
    exact .list (isJson_of_loadItems hvs)
  | .obj ms, v, h => by
    simp only [JsonDoc.load, Except.bind_eq_ok_iff] at h
    obtain ⟨pairs, hpairs, h⟩ := h
    cases h
    have hvals := isJson_of_loadMembers hpairs
    -- of a repeated key the dictionary keeps one entry
    refine isJson_ofMembers (Dict.nodup_keys_ofPairs pairs) fun k v hkv => ?_
    exact hvals (k, v) (Dict.mem_of_mem_ofPairs hkv)

private theorem isJson_of_loadItems : ∀ {docs : List JsonDoc} {vs : List PyVal},
    JsonDoc.loadItems dictHook docs = .ok vs → ∀ v ∈ vs, v.IsJson
  | [], vs, h => by
    cases h
    simp
  | doc :: docs, vs, h => by
    simp only [JsonDoc.loadItems, Except.bind_eq_ok_iff, pure, Except.pure, Except.ok.injEq] at h
    obtain ⟨v, hv, rest, hrest, rfl⟩ := h
    exact List.forall_mem_cons.mpr ⟨isJson_of_load hv, isJson_of_loadItems hrest⟩

private theorem isJson_of_loadMembers : ∀ {docs : List (Text × JsonDoc)}
    {pairs : List (Text × PyVal)},
    JsonDoc.loadMembers dictHook docs = .ok pairs → ∀ m ∈ pairs, m.2.IsJson
  | [], pairs, h => by
    cases h
    simp
  | (k, doc) :: docs, pairs, h => by
    simp only [JsonDoc.loadMembers, Except.bind_eq_ok_iff, pure, Except.pure, Except.ok.injEq] at h
    obtain ⟨v, hv, rest, hrest, rfl⟩ := h
    exact List.forall_mem_cons.mpr ⟨isJson_of_load hv, isJson_of_loadMembers hrest⟩

end

mutual

/-- A parsed document raises nothing. -/
private theorem load_raises : ∀ doc : JsonDoc, (doc.load dictHook).Raises fun _ => False
  | .null => Except.raises_ok _
  | .bool _ => Except.raises_ok _
  | .num _ => Except.raises_ok _
  | .str _ => Except.raises_ok _
  | .arr xs => (loadItems_raises xs).bind fun _ _ => Except.raises_ok _
  | .obj ms => (loadMembers_raises ms).bind fun _ _ => Except.raises_ok _

private theorem loadItems_raises : ∀ docs : List JsonDoc,
    (JsonDoc.loadItems dictHook docs).Raises fun _ => False
  | [] => Except.raises_ok _
  | doc :: docs =>
    (load_raises doc).bind fun _ _ => (loadItems_raises docs).bind fun _ _ => Except.raises_ok _

private theorem loadMembers_raises : ∀ docs : List (Text × JsonDoc),
    (JsonDoc.loadMembers dictHook docs).Raises fun _ => False
  | [] => Except.raises_ok _
  | (_, doc) :: docs =>
    (load_raises doc).bind fun _ _ => (loadMembers_raises docs).bind fun _ _ => Except.raises_ok _

end

/-- A text that is not JSON is a `JSONDecodeError`. -/
theorem loads_raises (t : Text) : (loads t).Raises fun e => e.kind = .jsonDecodeError := by
  unfold loads loadsWith
  split
  · exact Except.raises_error rfl
  · next doc _ => exact fun e h => (load_raises doc e h).elim

/-- A decoded text is a JSON value. -/
theorem isJson_of_loads {t : Text} {v : PyVal} (h : loads t = .ok v) : v.IsJson := by
  unfold loads loadsWith at h
  split at h
  · cases h
  · exact isJson_of_load h

end PyVal
