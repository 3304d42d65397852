import CcsVerifier.L1.Canonical
import CcsVerifier.L1.Receipt
import CcsVerifier.L1.TamperEvidence
import CcsVerifier.Python.JcsReload
import CcsVerifier.Transport.Frame

/-!
# Canonical JSON made canonical again

A value that has been parsed from its canonical bytes has these canonical bytes again, unless a
float in it was printed as an integer that is out of the safe range.

* `Binary64.IsLargeIntegral`: the floats that are printed so.
* `Externals.JcsConforms`: what is relied on of `jcs`.
* `Externals.recanonicalizes_iff`: when canonicalization is idempotent.
* `Externals.float_not_recanonicalized`: a float for which it is not.
-/

/-- An integral float of at least `2 ^ 53` that is printed without an exponent. -/
def Binary64.IsLargeIntegral (x : Binary64) : Prop :=
  ∃ z : ℤ, x.toRat? = some (z : ℚ) ∧ 2 ^ 53 ≤ |z| ∧ |z| < 10 ^ 21

instance : DecidablePred Binary64.IsLargeIntegral := fun x =>
  decidable_of_iff (∃ q ∈ x.toRat?, q.den = 1 ∧ 2 ^ 53 ≤ |q.num| ∧ |q.num| < 10 ^ 21) (by
    constructor
    · rintro ⟨q, hq, hden, hle, hlt⟩
      refine ⟨q.num, ?_, hle, hlt⟩
      rw [Rat.coe_int_num_of_den_eq_one hden]
      exact hq
    · rintro ⟨z, hz, hle, hlt⟩
      exact ⟨z, hz, Rat.den_intCast z, by rwa [Rat.num_intCast], by rwa [Rat.num_intCast]⟩)

/-! ## Numbers -/

namespace Jcs

/-- Unless it is printed as a large integer, a finite float comes back as a safe number with the
same text. -/
theorem rereadFloat_of_not_large {x : Binary64} (hx : x.isFinite = true)
    (hnot : ¬x.IsLargeIntegral) :
    (rereadFloat x).Safe ∧ serialize (rereadFloat x).toVal = serialize (.float x) := by
  rcases x with _ | _ | _ | x
  · cases hx
  · cases hx
  · exact ⟨⟨by decide, by decide⟩, rfl⟩
  show (rereadNumber x).Safe ∧ serialize (rereadNumber x).toVal = .ok (number x)
  -- the text of an integral float is read as that integer, which is below `2 ^ 53`
  obtain ⟨z, w, hz, hlt, hw, hsmall, -, hreread⟩ | ⟨-, -, hreread⟩ := rereadNumber_cases x
  · have habs : |z| < 2 ^ 53 := not_le.mp fun hle => hnot ⟨z, congrArg some hz, hle, hlt⟩
    have hbounds := abs_lt.mp habs
    rw [hreread, hsmall habs]
    refine ⟨⟨?_, ?_⟩, ?_⟩
    · unfold minSafeInteger
      omega
    · unfold maxSafeInteger
      omega
    · rw [hw, hsmall habs]
      rfl
  · rw [hreread]
    exact ⟨rfl, rfl⟩

/-- A float that is printed as a large integer comes back as one that is not safe. -/
theorem rereadFloat_of_large {x : Binary64} (hlarge : x.IsLargeIntegral) :
    ¬(rereadFloat x).Safe := by
  obtain ⟨z', hz', hle, hlt'⟩ := hlarge
  rcases x with _ | _ | _ | x
  · cases hz'
  · cases hz'
  · have hzero : z' = 0 := by exact_mod_cast (Option.some.inj hz').symm
    rw [hzero] at hle
    norm_num at hle
  show ¬(rereadNumber x).Safe
  -- below `10 ^ 21` the text has no exponent and is read as an integer
  obtain ⟨z, w, hz, -, -, -, hw53, hreread⟩ | ⟨-, hfloat, -⟩ := rereadNumber_cases x
  · have heq : z = z' := by exact_mod_cast hz.symm.trans (Option.some.inj hz')
    have hw := hw53 (heq ▸ hle)
    rw [hreread]
    rintro ⟨hmin, hmax⟩
    unfold minSafeInteger at hmin
    unfold maxSafeInteger at hmax
    exact absurd hw (not_le.mpr (abs_lt.mpr ⟨by omega, by omega⟩))
  · exact absurd hlt' (not_lt.mpr (hfloat z' (Option.some.inj hz')))

end Jcs

/-! ## Values -/

namespace PyVal

/-- What comes back from a canonical text is a JSON value. -/
theorem isJson_reread {v : PyVal} (hv : v.IsJson) : v.reread.IsJson := by
  induction v, hv using isJson_induct with
  | none => exact .none
  | bool b => exact .bool b
  | int z => exact .int z
  | float x =>
    show ((Jcs.rereadFloat x).toVal).IsJson
    cases Jcs.rereadFloat x with
    | int z => exact .int z
    | float y => exact .float y
  | str s => exact .str s
  | list xs h ih =>
    rw [reread, rereadItems_eq]
    exact .list (List.forall_mem_map.mpr ih)
  | obj ms hkeys h ih =>
    rw [reread_ofMembers]
    -- sorting the members keeps the keys different
    refine isJson_ofMembers ?_ fun k w hkw => ?_
    · rw [List.map_map]
      exact ((List.perm_insertionSort _ ms).map Prod.fst).nodup_iff.mpr hkeys
    · obtain ⟨m, hm, heq⟩ := List.mem_map.mp hkw
      cases heq
      exact ih m (Jcs.mem_sortMembers.mp hm)

/-- The numbers that come back are safe exactly when no float was printed as a large integer. -/
theorem safeNumbers_reread_iff {v : PyVal} (hv : v.IsJson) (hsafe : v.SafeNumbers) :
    v.reread.SafeNumbers ↔ ∀ x ∈ v.floats, ¬x.IsLargeIntegral := by
  induction v, hv using isJson_induct with
  | none | bool b | str s => exact iff_of_true trivial (by simp [floats])
  | int z => exact iff_of_true hsafe (by simp [floats])
  | float x =>
    -- only a float can change its type
    have htoVal : (PyVal.float x).reread.SafeNumbers ↔ (Jcs.rereadFloat x).Safe := by
      show ((Jcs.rereadFloat x).toVal).SafeNumbers ↔ _
      cases Jcs.rereadFloat x <;> exact Iff.rfl
    rw [htoVal, floats, List.forall_mem_singleton]
    exact ⟨fun h hlarge => Jcs.rereadFloat_of_large hlarge h,
      fun h => (Jcs.rereadFloat_of_not_large hsafe h).1⟩
  | list xs h ih =>
    have hitems := safeItems_iff.mp hsafe
    rw [reread, rereadItems_eq, SafeNumbers, safeItems_iff, List.forall_mem_map]
    simp only [mem_floats_list, forall_exists_index, and_imp]
    rw [forall₂_congr fun x hx => ih x hx (hitems x hx)]
    exact ⟨fun h x v hv hx => h v hv x hx, fun h v hv x hx => h x v hv hx⟩
  | obj ms hkeys h ih =>
    have hvals := safeNumbers_ofMembers_iff.mp hsafe
    rw [reread_ofMembers, safeNumbers_ofMembers_iff, List.forall_mem_map]
    simp only [mem_floats_ofMembers, Jcs.mem_sortMembers, forall_exists_index, and_imp]
    rw [forall₂_congr fun m hm => ih m hm (hvals m hm)]
    exact ⟨fun h x m hm hx => h m hm x hx, fun h m hm x hx => h x m hm hx⟩

end PyVal

/-- What comes back has the same canonical text when no float was printed as a large integer. -/
theorem Jcs.serialize_reread {v : PyVal} (hv : v.IsJson) (hcanonical : v.Canonical)
    (hfloats : ∀ x ∈ v.floats, ¬x.IsLargeIntegral) : serialize v.reread = serialize v := by
  induction v, hv using PyVal.isJson_induct with
  | none | bool b | int z | str s => rfl
  | float x =>
    have hnot := hfloats x (List.mem_singleton_self x)
    exact (rereadFloat_of_not_large hcanonical.safeNumbers hnot).2
  | list xs h ih =>
    have hitems := PyVal.canonical_list_iff.mp hcanonical
    rw [PyVal.reread, PyVal.rereadItems_eq, serialize, serialize, serializeItems_congr fun x hx =>
      ih x hx (hitems x hx) fun y hy => hfloats y (PyVal.mem_floats_list.mpr ⟨x, hx, hy⟩)]
  | obj ms hkeys h ih =>
    have hparts := PyVal.canonical_ofMembers_iff.mp hcanonical
    rw [PyVal.reread_ofMembers]
    exact serialize_ofMembers_congr (List.perm_insertionSort _ ms) hkeys (fun m hm => (hparts m hm).1)
      (fun m hm => ⟨h m hm, (hparts m hm).2.safeNumbers.finiteFloats⟩)
      fun m hm => ih m hm (hparts m hm).2 fun y hy =>
        hfloats y (PyVal.mem_floats_ofMembers.mpr ⟨m, hm, hy⟩)

namespace Externals

variable {X : Externals}

/-- On JSON values with safe numbers `jcs` writes what RFC 8785 asks for. -/
def JcsConforms (X : Externals) : Prop :=
  ∀ v : PyVal, v.IsJson → v.SafeNumbers → ∀ b, X.jcs v = .ok b ↔ Jcs.canonicalize v = .ok b

/-- Conformance fixes which values are accepted. -/
theorem JcsConforms.accepts (hjcs : X.JcsConforms) : X.JcsAccepts := by
  intro v hv hsafe
  simp only [hjcs v hv hsafe]
  exact Jcs.canonicalize_isOk_iff hv hsafe.finiteFloats

/-- The canonical bytes of a value, with the value that they are parsed to. -/
theorem parsePayload_canonicalJson (hjcs : X.JcsConforms) {v : PyVal} (hv : v.IsJson) {b : Bytes}
    (hb : X.canonicalJson v = .ok b) :
    v.Canonical ∧ Jcs.canonicalize v = .ok b ∧
      MessageFrame.parsePayload b = .ok v.reread := by
  have hcanonical := (canonicalJson_isOk_iff hjcs.accepts hv).mp ⟨b, hb⟩
  simp only [canonicalJson, Except.bind_eq_ok_iff] at hb
  obtain ⟨-, -, hb⟩ := hb
  have hbytes := (hjcs v hv hcanonical.safeNumbers b).mp hb
  refine ⟨hcanonical, hbytes, ?_⟩
  obtain ⟨t, ht, hencode⟩ := Except.bind_eq_ok_iff.mp hbytes
  rw [MessageFrame.parsePayload, decodeText_of_encode hencode]
  exact Jcs.loads_serialize hv hcanonical.safeNumbers.finiteFloats ht

/-- The canonical bytes of a JSON value are parsed to a value that has the same canonical bytes,
exactly when the value holds no integral float from `2 ^ 53` up to `10 ^ 21`. -/
theorem recanonicalizes_iff (hjcs : X.JcsConforms) {v : PyVal} (hv : v.IsJson) {b : Bytes}
    (hb : X.canonicalJson v = .ok b) :
    (∃ w, MessageFrame.parsePayload b = .ok w ∧ X.canonicalJson w = .ok b) ↔
      ∀ x ∈ v.floats, ¬x.IsLargeIntegral := by
  obtain ⟨hcanonical, hbytes, hparse⟩ := parsePayload_canonicalJson hjcs hv hb
  rw [← PyVal.safeNumbers_reread_iff hv hcanonical.safeNumbers]
  constructor
  -- what is accepted again has safe numbers only
  · rintro ⟨w, hw, hagain⟩
    obtain rfl : v.reread = w := Except.ok.inj (hparse.symm.trans hw)
    exact ((canonicalJson_isOk_iff hjcs.accepts (PyVal.isJson_reread hv)).mp
      ⟨b, hagain⟩).safeNumbers
  · intro hsafe
    have hfloats := (PyVal.safeNumbers_reread_iff hv hcanonical.safeNumbers).mp hsafe
    -- the value that is read prints as the one that was printed
    have hsame : Jcs.canonicalize v.reread = .ok b := by
      rw [Jcs.canonicalize, Jcs.serialize_reread hv hcanonical hfloats, ← Jcs.canonicalize, hbytes]
    refine ⟨v.reread, hparse, ?_⟩
    simp only [canonicalJson, Except.bind_eq_ok_iff]
    exact ⟨(), (validateSafeIntegers_eq_ok_iff _).mpr hsafe,
      (hjcs _ (PyVal.isJson_reread hv) hsafe b).mpr hsame⟩

/-! ## Samples -/

/-- The concrete parameters write RFC 8785. -/
theorem jcsConforms_externals (r : SignatureRecord) : r.externals.JcsConforms :=
  fun _ _ _ _ => Iff.rfl

/-- One half is a double. -/
theorem representable_half : Representable (1 / 2) :=
  ⟨1, -1, by norm_num, by norm_num, by norm_num, by norm_num⟩

theorem representable_tenPow20 : Representable (10 ^ 20) :=
  ⟨5 ^ 20, 20, by norm_num, by norm_num, by norm_num, by norm_num⟩

/-- An object with a fraction, an integral float and a very large one. -/
def sampleFloats : PyVal :=
  .ofMembers [(text "x", .list [.float (.fin ⟨1 / 2, representable_half⟩),
    L1Receipt.seconds 1893456000 abs_referenceTime_lt,
    .float (.fin ⟨10 ^ 21, representable_tenPow21⟩)])]

/-- The sample is JSON. -/
theorem isJson_sampleFloats : sampleFloats.IsJson := by
  refine PyVal.isJson_ofMembers (List.nodup_singleton (text "x")) fun k v hkv => ?_
  obtain ⟨-, rfl⟩ := Prod.mk.inj (List.mem_singleton.mp hkv)
  refine .list fun x hx => ?_
  simp only [List.mem_cons, List.not_mem_nil, or_false] at hx
  rcases hx with rfl | rfl | rfl <;> exact .float _

/-- The floats of the object come back with the same text. -/
theorem recanonicalizes_iff_sample : ∃ b w,
    L1Receipt.referenceX.canonicalJson sampleFloats = .ok b ∧
      MessageFrame.parsePayload b = .ok w ∧ L1Receipt.referenceX.canonicalJson w = .ok b := by
  have hjcs := jcsConforms_externals .reference
  have hcanonical : sampleFloats.Canonical := by
    refine PyVal.canonical_ofMembers_iff.mpr fun m hm => ?_
    rw [List.mem_singleton.mp hm]
    refine ⟨by decide, PyVal.canonical_list_iff.mpr fun x hx => ?_⟩
    simp only [List.mem_cons, List.not_mem_nil, or_false] at hx
    rcases hx with rfl | rfl | rfl <;> exact PyVal.canonical_float.mpr rfl
  obtain ⟨b, hb⟩ := (canonicalJson_isOk_iff hjcs.accepts isJson_sampleFloats).mpr hcanonical
  obtain ⟨w, hw, hagain⟩ := (recanonicalizes_iff hjcs isJson_sampleFloats hb).mpr
    (by decide +kernel)
  exact ⟨b, w, hb, hw, hagain⟩

/-- An object with the float `1e20`. -/
def sampleLarge : PyVal := .ofMembers [(text "x", .float (.fin ⟨10 ^ 20, representable_tenPow20⟩))]

/-- The float is printed as an integer, which is out of range when it comes back. -/
theorem float_not_recanonicalized : sampleLarge.IsJson ∧ ∃ b w e,
    L1Receipt.referenceX.canonicalJson sampleLarge = .ok b ∧
    MessageFrame.parsePayload b = .ok w ∧ L1Receipt.referenceX.canonicalJson w = .error e := by
  have hjcs := jcsConforms_externals .reference
  have hjson : sampleLarge.IsJson := by
    refine PyVal.isJson_ofMembers (List.nodup_singleton (text "x")) fun k v hkv => ?_
    obtain ⟨-, rfl⟩ := Prod.mk.inj (List.mem_singleton.mp hkv)
    exact .float _
  have hcanonical : sampleLarge.Canonical := by
    refine PyVal.canonical_ofMembers_iff.mpr fun m hm => ?_
    rw [List.mem_singleton.mp hm]
    exact ⟨by decide, PyVal.canonical_float.mpr rfl⟩
  obtain ⟨b, hb⟩ := (canonicalJson_isOk_iff hjcs.accepts hjson).mpr hcanonical
  obtain ⟨-, -, hparse⟩ := parsePayload_canonicalJson hjcs hjson hb
  refine ⟨hjson, b, sampleLarge.reread, ?_⟩
  -- if it were accepted, its number would be safe
  cases hagain : L1Receipt.referenceX.canonicalJson sampleLarge.reread with
  | error e => exact ⟨e, hb, hparse, rfl⟩
  | ok b' =>
    have hsafe := ((canonicalJson_isOk_iff hjcs.accepts (PyVal.isJson_reread hjson)).mp
      ⟨b', hagain⟩).safeNumbers
    have hfloats := (PyVal.safeNumbers_reread_iff hjson hcanonical.safeNumbers).mp hsafe
    exact absurd hfloats (by decide +kernel)

end Externals
