import CcsVerifier.Python.Dict
import CcsVerifier.Python.Reload

/-!
# Subscripts, methods and rounding

The operations on decoded messages: `v[key]`, `v.get(key, default)`, iteration and
`round(v, n)`, with the exceptions that they raise on values of other types.

* `PyVal.get_ofMembers`, `PyVal.getItem_ofMembers`: reading the members of an object.
* `Binary64.roundDecimals`: the double nearest to the decimal that a double rounds to.
-/

namespace Binary64

/-- `round(x, n)` of a float: the exact value is rounded half to even in its `n`-th decimal place,
and the result to the nearest double. -/
def roundDecimals (n : ℕ) : Binary64 → Binary64
  | .fin x =>
    let r := roundHalfEven (x.val * 10 ^ n) / 10 ^ n
    if r = 0 ∧ x.val < 0 then .negZero else round r
  | x => x

end Binary64

namespace PyVal

/-- The value of the first entry under a string key. -/
def valueAt? (entries : List (PyVal × PyVal)) (key : Text) : Option PyVal :=
  (entries.find? fun entry => entry.1.eqStr key).map Prod.snd

/-- `v.get(key, default)` -/
def get (v : PyVal) (key : Text) (default : PyVal) : Except PyExc PyVal :=
  match v with
  | .dict entries => .ok ((valueAt? entries key).getD default)
  | v => .error ⟨.attributeError, text "'" ++ v.typeName ++ text "' object has no attribute 'get'"⟩

/-- `v[key]` for a string key. -/
def getItem (v : PyVal) (key : Text) : Except PyExc PyVal :=
  match v with
  | .dict entries =>
    match valueAt? entries key with
    | some value => .ok value
    | Option.none => .error ⟨.keyError, text "'" ++ key ++ text "'"⟩
  | .str _ => PyExc.type (text "string indices must be integers, not 'str'")
  | .bytes _ => PyExc.type (text "byte indices must be integers or slices, not str")
  | .list _ => PyExc.type (text "list indices must be integers or slices, not str")
  | .tuple _ => PyExc.type (text "tuple indices must be integers or slices, not str")
  | v => PyExc.type (text "'" ++ v.typeName ++ text "' object is not subscriptable")

/-- The items of `for x in v`. -/
def iter : PyVal → Except PyExc (List PyVal)
  | .list xs | .tuple xs => .ok xs
  | .str s => .ok (s.map fun c => .str [c])
  | .dict entries => .ok (entries.map Prod.fst)
  | .bytes b => .ok (b.map fun x => .int x.toNat)
  | v => PyExc.type (text "'" ++ v.typeName ++ text "' object is not iterable")

/-- `round(v, n)` -/
def round (n : ℕ) : PyVal → Except PyExc PyVal
  | .bool b => .ok (.int b.toInt)
  | .int z => .ok (.int z)
  | .float x => .ok (.float (x.roundDecimals n))
  | v => PyExc.type (text "type " ++ v.typeName ++ text " doesn't define __round__ method")

/-- The entries of an object are its members. -/
theorem valueAt?_ofMembers (ms : List (Text × PyVal)) (key : Text) :
    valueAt? (ms.map fun m => (.str m.1, m.2)) key = Dict.lookup ms key := by
  induction ms with
  | nil => rfl
  | cons m ms ih =>
    obtain ⟨k, v⟩ := m
    rw [valueAt?, List.map_cons, List.find?_cons]
    by_cases h : k = key
    · have hkey : (PyVal.str k).eqStr key = true := eqStr_iff.mpr (congrArg PyVal.str h)
      rw [hkey, h]
      exact Dict.lookup_cons_self.symm
    · have hkey : (PyVal.str k).eqStr key = false :=
        eqStr_eq_false_iff.mpr fun heq => h (PyVal.str.inj heq)
      rw [hkey, ← valueAt?, ih, Dict.lookup_cons_of_ne (Ne.symm h)]

/-- The value under a key, or the default. -/
@[simp]
theorem get_ofMembers (ms : List (Text × PyVal)) (key : Text) (default : PyVal) :
    (ofMembers ms).get key default = .ok ((Dict.lookup ms key).getD default) := by
  rw [ofMembers, get, valueAt?_ofMembers]

/-- The value under a key, or a `KeyError`. -/
@[simp]
theorem getItem_ofMembers (ms : List (Text × PyVal)) (key : Text) :
    (ofMembers ms).getItem key =
      match Dict.lookup ms key with
      | some value => .ok value
      | Option.none => .error ⟨.keyError, text "'" ++ key ++ text "'"⟩ := by
  rw [ofMembers, getItem, valueAt?_ofMembers]

/-- What `v[key]` finds, `v.get(key, default)` finds too. -/
theorem get_of_getItem {v w : PyVal} {key : Text} (h : v.getItem key = .ok w) (default : PyVal) :
    v.get key default = .ok w := by
  cases v
  case dict entries =>
    rw [getItem] at h
    cases hvalue : valueAt? entries key with
    | some value =>
      rw [hvalue] at h
      cases h
      rw [get, hvalue, Option.getD_some]
    | none =>
      rw [hvalue] at h
      cases h
  all_goals cases h

/-- What is read does not depend on the order of members. -/
theorem lookup_sorted {ms : List (Text × PyVal)} (hkeys : (Dict.keys ms).Nodup) (key : Text) :
    Dict.lookup ((orderMembers .compact ms).map fun m => (m.1, m.2.sorted)) key =
      (Dict.lookup ms key).map sorted := by
  rw [Dict.lookup_map, Dict.lookup_perm (perm_orderMembers .compact ms)]
  exact keys_orderMembers hkeys

/-- Sorting the members sorts what is found, too. -/
theorem get_sorted {ms : List (Text × PyVal)} (hkeys : (Dict.keys ms).Nodup) (key : Text)
    (default : PyVal) : (ofMembers ms).sorted.get key default =
      .ok (((Dict.lookup ms key).map sorted).getD default) := by
  rw [sorted_ofMembers, get_ofMembers, lookup_sorted hkeys]

/-- The same for a key that is there. -/
theorem getItem_sorted {ms : List (Text × PyVal)} (hkeys : (Dict.keys ms).Nodup) {key : Text}
    {v : PyVal} (h : Dict.lookup ms key = some v) :
    (ofMembers ms).sorted.getItem key = .ok v.sorted := by
  rw [sorted_ofMembers, getItem_ofMembers, lookup_sorted hkeys, h, Option.map_some]

/-- What is read off an object that has come back. -/
theorem get_reload {ms : List (Text × PyVal)} (hkeys : (Dict.keys ms).Nodup)
    (hjoin : ∀ m ∈ ms, m.1.joinSurrogates = m.1) (key : Text) (default : PyVal) :
    ((ofMembers ms).reload .compact).get key default =
      .ok (((Dict.lookup ms key).map (reload .compact)).getD default) := by
  rw [reload_ofMembers hkeys hjoin, get_ofMembers, Dict.lookup_map,
    Dict.lookup_perm (perm_orderMembers .compact ms) (keys_orderMembers hkeys)]

/-- What is found in an object that has come back is what has come back of the value. -/
theorem getItem_reload {ms : List (Text × PyVal)} (hkeys : (Dict.keys ms).Nodup)
    (hjoin : ∀ m ∈ ms, m.1.joinSurrogates = m.1) {key : Text} {v : PyVal}
    (h : Dict.lookup ms key = some v) :
    ((ofMembers ms).reload .compact).getItem key = .ok (v.reload .compact) := by
  rw [reload_ofMembers hkeys hjoin, getItem_ofMembers, Dict.lookup_map,
    Dict.lookup_perm (perm_orderMembers .compact ms) (keys_orderMembers hkeys), h, Option.map_some]

/-- Reading a message raises no network error. -/
theorem get_raises (v : PyVal) (key : Text) (default : PyVal) :
    (v.get key default).Raises fun e => e.isNetworkError = false := by
  cases v with
  | dict entries => exact Except.raises_ok _
  | _ => exact Except.raises_error rfl

/-- A subscription raises no network error. -/
theorem getItem_raises (v : PyVal) (key : Text) :
    (v.getItem key).Raises fun e => e.isNetworkError = false := by
  cases v with
  | dict entries =>
    rw [getItem]
    cases valueAt? entries key with
    | none => exact Except.raises_error rfl
    | some value => exact Except.raises_ok _
  | _ => exact Except.raises_error rfl

/-- Neither does an iteration. -/
theorem iter_raises (v : PyVal) : v.iter.Raises fun e => e.isNetworkError = false := by
  cases v <;> first | exact Except.raises_ok _ | exact Except.raises_error rfl

/-- A value with a member is an object, so that `get` finds something. -/
theorem get_isOk_of_getItem {v w : PyVal} {key : Text} (h : v.getItem key = .ok w)
    (other : Text) (default : PyVal) : ∃ value, v.get other default = .ok value := by
  cases v with
  | dict entries => exact ⟨_, rfl⟩
  | _ => cases h

/-- What is found is a value of the dictionary. -/
theorem mem_of_valueAt? {entries : List (PyVal × PyVal)} {key : Text} {v : PyVal}
    (h : valueAt? entries key = some v) : ∃ k, (k, v) ∈ entries := by
  obtain ⟨entry, hfind, rfl⟩ := Option.map_eq_some_iff.mp h
  exact ⟨entry.1, List.mem_of_find?_eq_some hfind⟩

/-- What is found in a JSON value is a JSON value. -/
theorem IsJson.getItem {v w : PyVal} {key : Text} (hjson : v.IsJson) (h : v.getItem key = .ok w) :
    w.IsJson := by
  cases hjson with
  | @dict entries hkeys hnodup hvals =>
    rw [PyVal.getItem] at h
    split at h
    · next value hvalue =>
      cases h
      obtain ⟨k, hmem⟩ := mem_of_valueAt? hvalue
      exact hvals k _ hmem
    · cases h
  | _ => cases h

/-- What is found in JSON is JSON. -/
theorem IsJson.get {v w default : PyVal} {key : Text} (hjson : v.IsJson) (hdefault : default.IsJson)
    (h : v.get key default = .ok w) : w.IsJson := by
  cases hjson with
  | @dict entries hkeys hnodup hvals =>
    rw [PyVal.get] at h
    cases h
    cases hvalue : valueAt? entries key with
    | none => exact hdefault
    | some value =>
      obtain ⟨k, hmem⟩ := mem_of_valueAt? hvalue
      exact hvals k _ hmem
  | _ => cases h

end PyVal
