import CcsVerifier.Python.Jcs
import CcsVerifier.Python.Reload

/-!
# Canonical JSON and the order of members

RFC 8785 sorts the members of an object by the UTF-16 code units of their keys. The code units
determine a key that can be encoded, so the order in which the members were given does not matter.

* `PyVal.forall_sorted_iff`: a property of all parts of a value survives the ordering of members.
* `Jcs.serialize_sorted`: the canonical text is that of the value with its members in order.
-/

namespace PyVal

/-- What a value is made of stays the same when its members are put in order: a property that says
the same of the parts of a list and of the members of an object. -/
theorem forall_sorted_iff {P : PyVal → Prop} {K : Text → Prop}
    (hlist : ∀ xs, P (.list xs) ↔ ∀ x ∈ xs, P x)
    (hobj : ∀ ms, P (ofMembers ms) ↔ ∀ m ∈ ms, K m.1 ∧ P m.2) {v : PyVal} (hv : v.IsJson) :
    P v.sorted ↔ P v := by
  induction v, hv using isJson_induct with
  | none | bool b | int z | float x | str s => exact Iff.rfl
  | list xs h ih =>
    rw [PyVal.sorted, sortedItems_eq, hlist, hlist, List.forall_mem_map]
    exact forall₂_congr ih
  | obj ms hkeys h ih =>
    -- sorting permutes the members of an object
    have hmem := fun m : Text × PyVal => (perm_orderMembers .compact ms).mem_iff (a := m)
    rw [sorted_ofMembers, hobj, hobj, List.forall_mem_map]
    constructor
    · intro hsorted m hm
      obtain ⟨hkey, hval⟩ := hsorted m ((hmem m).mpr hm)
      exact ⟨hkey, (ih m hm).mp hval⟩
    · intro hparts m hm
      obtain ⟨hkey, hval⟩ := hparts m ((hmem m).mp hm)
      exact ⟨hkey, (ih m ((hmem m).mp hm)).mpr hval⟩

/-- Sorting the members keeps the strings. -/
theorem encodableStrings_sorted_iff {v : PyVal} (hv : v.IsJson) :
    v.sorted.EncodableStrings ↔ v.EncodableStrings :=
  forall_sorted_iff (fun _ => encodableItems_iff) (fun _ => encodableStrings_ofMembers_iff) hv

/-- The floats of an object, member by member. -/
theorem finiteFloats_ofMembers_iff {ms : List (Text × PyVal)} :
    (ofMembers ms).FiniteFloats ↔ ∀ m ∈ ms, True ∧ m.2.FiniteFloats := by
  rw [ofMembers, FiniteFloats, finiteEntries_iff]
  constructor
  · exact fun h m hm => ⟨trivial, (h (.str m.1) m.2 (List.mem_map.mpr ⟨m, hm, rfl⟩)).2⟩
  · intro h k v hkv
    obtain ⟨m, hm, heq⟩ := List.mem_map.mp hkv
    cases heq
    exact ⟨trivial, (h m hm).2⟩

/-- Sorting the members keeps the floats. -/
theorem finiteFloats_sorted_iff {v : PyVal} (hv : v.IsJson) :
    v.sorted.FiniteFloats ↔ v.FiniteFloats :=
  forall_sorted_iff (K := fun _ => True) (fun _ => finiteItems_iff)
    (fun _ => finiteFloats_ofMembers_iff) hv

end PyVal

namespace Jcs

/-! ## The order of keys -/

/-- The code units determine a string that can be encoded. -/
theorem utf16_injOn {s t : Text} (hs : s.Encodable) (ht : t.Encodable) (h : utf16 s = utf16 t) :
    s = t := by
  have hne : ∀ (c : CodePoint) (u : Text), utf16 (c :: u) ≠ [] := by
    intro c u
    simp only [utf16, List.flatMap_cons]
    split <;> simp
  induction s generalizing t with
  | nil =>
    cases t with
    | nil => rfl
    | cons d t => exact absurd h.symm (hne d t)
  | cons c s ih =>
    cases t with
    | nil => exact absurd h (hne c s)
    | cons d t =>
      rw [Text.encodable_cons] at hs ht
      have hc := hs.1
      have hd := ht.1
      simp only [CodePoint.IsSurrogate, not_and] at hc hd
      simp only [utf16, List.flatMap_cons] at h
      have hcval := c.isLt
      have hdval := d.isLt
      -- a unit of a surrogate pair is not the unit of a character
      have hstep : c.val = d.val ∧ utf16 s = utf16 t := by
        split_ifs at h
        · simp only [List.cons_append, List.nil_append, List.cons.injEq] at h
          exact h
        · simp only [List.cons_append, List.nil_append, List.cons.injEq] at h
          omega
        · simp only [List.cons_append, List.nil_append, List.cons.injEq] at h
          omega
        · simp only [List.cons_append, List.nil_append, List.cons.injEq] at h
          exact ⟨by omega, h.2.2⟩
      rw [Fin.ext hstep.1, ih hs.2 ht.2 hstep.2]

/-- The members of an object in the order of their keys. -/
def sortMembers {α : Type} (ms : List (Text × α)) : List (Text × α) :=
  ms.insertionSort fun a b => utf16 a.1 ≤ utf16 b.1

/-- The order of members is fixed by keys that can be encoded. -/
theorem sortMembers_perm {α : Type} {ms ns : List (Text × α)} (hperm : ms.Perm ns)
    (hkeys : (Dict.keys ms).Nodup) (hencodable : ∀ m ∈ ms, m.1.Encodable) :
    sortMembers ms = sortMembers ns := by
  have hsorted : ∀ l : List (Text × α),
      (sortMembers l).Pairwise (fun a b => utf16 a.1 ≤ utf16 b.1) :=
    fun l => List.pairwise_insertionSort (fun a b : Text × α => utf16 a.1 ≤ utf16 b.1) l
  have hsort : ∀ l : List (Text × α), (sortMembers l).Perm l := fun l =>
    List.perm_insertionSort _ l
  have hperm' := (hsort ms).trans (hperm.trans (hsort ns).symm)
  refine hperm'.eq_of_pairwise (fun a b ha hb hab hba => ?_) (hsorted ms) (hsorted ns)
  have ha' : a ∈ ms := (hsort ms).mem_iff.mp ha
  have hb' : b ∈ ms := hperm.mem_iff.mpr ((hsort ns).mem_iff.mp hb)
  refine List.inj_on_of_nodup_map hkeys ha' hb' ?_
  exact utf16_injOn (hencodable a ha') (hencodable b hb') (le_antisymm hab hba)

/-! ## The canonical text -/

/-- Elements with the same texts make the same list of texts. -/
theorem serializeItems_congr {f : PyVal → PyVal} {xs : List PyVal}
    (h : ∀ x ∈ xs, serialize (f x) = serialize x) :
    serializeItems (xs.map f) = serializeItems xs := by
  induction xs with
  | nil => rfl
  | cons x xs ih =>
    rw [List.map_cons, serializeItems, serializeItems, h x (List.mem_cons_self ..),
      ih fun y hy => h y (List.mem_cons_of_mem _ hy)]

/-- The texts of members whose values have texts. -/
private theorem serializeMembers_map {α : Type} {key : α → Text} {val : α → PyVal}
    {item : α → Text} {l : List α} (h : ∀ a ∈ l, serialize (val a) = .ok (item a)) :
    serializeMembers (l.map fun a => (.str (key a), val a)) =
      .ok (l.map fun a => (key a, item a)) := by
  induction l with
  | nil => rfl
  | cons a l ih =>
    have ha := h a (List.mem_cons_self ..)
    have hl := ih fun b hb => h b (List.mem_cons_of_mem _ hb)
    rw [List.map_cons, serializeMembers, ha, hl]
    rfl

/-- The canonical text of an object whose members have canonical texts. -/
theorem serialize_ofMembers {ms : List (Text × PyVal)} {val : Text × PyVal → PyVal}
    {item : Text × PyVal → Text} (h : ∀ m ∈ ms, serialize (val m) = .ok (item m)) :
    serialize (.ofMembers (ms.map fun m => (m.1, val m))) =
      .ok (text "\x7b" ++ (text ",").intercalate
        ((sortMembers (ms.map fun m => (m.1, item m))).map fun m => string m.1 ++ text ":" ++ m.2)
        ++ text "\x7d") := by
  rw [PyVal.ofMembers, List.map_map, serialize]
  have hmembers : serializeMembers
      (ms.map ((fun m => (.str m.1, m.2)) ∘ fun m : Text × PyVal => (m.1, val m))) =
        .ok (ms.map fun m => (m.1, item m)) := serializeMembers_map h
  rw [hmembers]
  rfl

/-- The canonical text of an object sorts its members, so they may be given in any order. -/
theorem serialize_ofMembers_congr {ms ns : List (Text × PyVal)} {f : PyVal → PyVal}
    (hperm : ns.Perm ms) (hkeys : (Dict.keys ms).Nodup) (hencodable : ∀ m ∈ ms, m.1.Encodable)
    (h : ∀ m ∈ ms, m.2.IsJson ∧ m.2.FiniteFloats)
    (hf : ∀ m ∈ ms, serialize (f m.2) = serialize m.2) :
    serialize (.ofMembers (ns.map fun m => (m.1, f m.2))) = serialize (.ofMembers ms) := by
  have hexists : ∀ m ∈ ms, ∃ t, serialize m.2 = .ok t := fun m hm => by
    obtain ⟨t, ht, -⟩ := serialize_spec (h m hm).1 (h m hm).2
    exact ⟨t, ht⟩
  choose! item hitem using hexists
  have hgiven := serialize_ofMembers hitem
  rw [List.map_id'' fun _ => rfl] at hgiven
  have hmem : ∀ m ∈ ns, m ∈ ms := fun m hm => hperm.mem_iff.mp hm
  have hmapped : ∀ m ∈ ns, serialize (f m.2) = .ok (item m) := fun m hm => by
    rw [hf m (hmem m hm)]
    exact hitem m (hmem m hm)
  have hkeys' : (Dict.keys (ns.map fun m => (m.1, item m))).Nodup := by
    rw [Dict.keys, List.map_map]
    exact (hperm.map Prod.fst).nodup_iff.mpr hkeys
  -- members with different keys are sorted in one way
  have horder := sortMembers_perm (hperm.map fun m => (m.1, item m)) hkeys'
    (List.forall_mem_map.mpr fun m hm => hencodable m (hmem m hm))
  rw [serialize_ofMembers hmapped, hgiven, horder]

/-- Members may be given in any order: the canonical text is that of the value with its members in
order. -/
theorem serialize_sorted {v : PyVal} (hv : v.IsJson) (hfinite : v.FiniteFloats)
    (hencodable : v.EncodableStrings) : serialize v.sorted = serialize v := by
  induction v, hv using PyVal.isJson_induct with
  | none | bool b | int z | float x | str s => rfl
  | list xs h ih =>
    rw [PyVal.sorted, PyVal.sortedItems_eq, serialize, serialize, serializeItems_congr fun x hx =>
      ih x hx (PyVal.finiteItems_iff.mp hfinite x hx) (PyVal.encodableItems_iff.mp hencodable x hx)]
  | obj ms hkeys h ih =>
    have hparts := PyVal.encodableStrings_ofMembers_iff.mp hencodable
    have hfiniteParts : ∀ m ∈ ms, m.2.FiniteFloats := fun m hm =>
      (PyVal.finiteFloats_ofMembers_iff.mp hfinite m hm).2
    rw [PyVal.sorted_ofMembers]
    exact serialize_ofMembers_congr (perm_orderMembers _ ms) hkeys (fun m hm => (hparts m hm).1)
      (fun m hm => ⟨h m hm, hfiniteParts m hm⟩)
      fun m hm => ih m hm (hfiniteParts m hm) (hparts m hm).2

/-- Values with the same data have the same canonical bytes. -/
theorem canonicalize_congr {v w : PyVal} (hv : v.IsJson) (hw : w.IsJson) (hfinite : v.FiniteFloats)
    (hencodable : v.EncodableStrings) (h : v.SameData w) : canonicalize v = canonicalize w := by
  have hfiniteSorted := (PyVal.finiteFloats_sorted_iff hv).mpr hfinite
  have hencodableSorted := (PyVal.encodableStrings_sorted_iff hv).mpr hencodable
  rw [show v.sorted = w.sorted from h] at hfiniteSorted hencodableSorted
  have hfinite' := (PyVal.finiteFloats_sorted_iff hw).mp hfiniteSorted
  have hencodable' := (PyVal.encodableStrings_sorted_iff hw).mp hencodableSorted
  rw [canonicalize, canonicalize, ← serialize_sorted hv hfinite hencodable,
    show v.sorted = w.sorted from h, serialize_sorted hw hfinite' hencodable']

end Jcs
