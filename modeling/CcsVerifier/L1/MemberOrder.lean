import CcsVerifier.L1.Builder
import CcsVerifier.Python.JcsOrder

/-!
# The order of members in what is signed

A dictionary that has crossed the connection comes back with its members in the order of their keys.
Hashes and signatures are made of canonical JSON, so they stay the same.

* `Externals.JcsIgnoresOrder`: what is relied on of `jcs`.
* `Externals.computeHash_congr`: values with the same data have the same hash.
* `L1Receipt.signL1Receipt_congr`: receipts with the same data get the same signature.
-/

namespace PyVal

/-- Whether a value has a canonical form does not depend on the order of members. -/
theorem canonical_sorted_iff {v : PyVal} (hv : v.IsJson) : v.sorted.Canonical ↔ v.Canonical :=
  forall_sorted_iff (fun _ => canonical_list_iff) (fun _ => canonical_ofMembers_iff) hv

/-- Whether a value has a canonical form does not depend on the order of members. -/
theorem SameData.canonical_iff {v w : PyVal} (h : v.SameData w) (hv : v.IsJson) (hw : w.IsJson) :
    v.Canonical ↔ w.Canonical := by
  rw [← canonical_sorted_iff hv, ← canonical_sorted_iff hw, show v.sorted = w.sorted from h]

end PyVal

namespace Externals

variable {X : Externals} {v w : PyVal}

/-- `jcs` gives JSON values that differ in the order of members the same bytes. -/
def JcsIgnoresOrder (X : Externals) : Prop :=
  ∀ v w : PyVal, v.IsJson → w.IsJson → v.Canonical → v.SameData w → X.jcs v = X.jcs w

/-- Neither do the canonical bytes. -/
theorem canonicalJson_congr (hjcs : X.JcsAccepts) (horder : X.JcsIgnoresOrder) (hv : v.IsJson)
    (hw : w.IsJson) (h : v.SameData w) {b : Bytes} (hb : X.canonicalJson v = .ok b) :
    X.canonicalJson w = .ok b := by
  have hcanonical := (canonicalJson_isOk_iff hjcs hv).mp ⟨b, hb⟩
  have hcanonical' := (h.canonical_iff hv hw).mp hcanonical
  simp only [canonicalJson, Except.bind_eq_ok_iff] at hb ⊢
  obtain ⟨⟨⟩, -, hb⟩ := hb
  refine ⟨(), (validateSafeIntegers_eq_ok_iff w).mpr hcanonical'.safeNumbers, ?_⟩
  rw [← horder v w hv hw hcanonical h, hb]

/-- Values with the same data have the same hash. -/
theorem computeHash_congr (hjcs : X.JcsAccepts) (horder : X.JcsIgnoresOrder) (hv : v.IsJson)
    (hw : w.IsJson) (h : v.SameData w) {t : Text} (ht : X.computeHash v = .ok t) :
    X.computeHash w = .ok t := by
  by_cases hstr : ∃ s, v = .str s
  · obtain ⟨s, rfl⟩ := hstr
    rwa [h.eq_str hw]
  · rw [not_exists] at hstr
    have hstr' : ∀ s, w ≠ .str s := by
      rintro s rfl
      exact hstr s (h.symm.eq_str hv)
    rw [computeHash, hashInput_of_ne_str hv hstr] at ht
    rw [computeHash, hashInput_of_ne_str hw hstr']
    simp only [Except.bind_eq_ok_iff] at ht ⊢
    obtain ⟨raw, hraw, ht⟩ := ht
    exact ⟨raw, canonicalJson_congr hjcs horder hv hw h hraw, ht⟩

end Externals

/-- The parameters around a recorded signature compute canonical JSON. -/
theorem SignatureRecord.jcsIgnoresOrder (record : SignatureRecord) :
    record.externals.JcsIgnoresOrder := fun _ _ hv hw hcanonical h =>
  Jcs.canonicalize_congr hv hw hcanonical.safeNumbers.finiteFloats hcanonical.encodableStrings h

namespace L1Receipt

variable {X : Externals} {r r' s : L1Receipt} {seed : Bytes}

/-- Two receipts hold the same JSON data in every field. -/
structure SameData (r r' : L1Receipt) : Prop where
  /-- The fields of the first are JSON values. -/
  isJson : ∀ f, (r.attr f).IsJson
  /-- So are those of the second. -/
  isJson' : ∀ f, (r'.attr f).IsJson
  /-- They are equal up to the order of members. -/
  same : ∀ f, (r.attr f).SameData (r'.attr f)

/-- The relation is symmetric. -/
theorem SameData.symm (h : r.SameData r') : r'.SameData r :=
  ⟨h.isJson', h.isJson, fun f => (h.same f).symm⟩

/-- Filling in a field keeps the data of two receipts the same. -/
theorem SameData.set (h : r.SameData r') (f : ReceiptField) {v : PyVal} (hv : v.IsJson) :
    (r.set f v).SameData (r'.set f v) := by
  have hfield : ∀ (P : PyVal → PyVal → Prop), P v v → (∀ g, P (r.attr g) (r'.attr g)) →
      ∀ g, P ((r.set f v).attr g) ((r'.set f v).attr g) := by
    intro P hself hkept g
    by_cases hg : g = f
    · subst hg
      rwa [attr_set_self, attr_set_self]
    · rw [attr_set_of_ne hg, attr_set_of_ne hg]
      exact hkept g
  exact ⟨hfield (fun x _ => x.IsJson) hv h.isJson, hfield (fun _ y => y.IsJson) hv h.isJson',
    hfield PyVal.SameData rfl h.same⟩

/-- Aligning the timestamps keeps it. -/
theorem SameData.aligned (h : r.SameData r') (issued timestamp : Binary64) :
    (r.aligned issued timestamp).SameData (r'.aligned issued timestamp) := by
  unfold L1Receipt.aligned
  split
  · exact (h.set .timestamp (.float issued)).set .verifiedAt (.float issued)
  · exact h

/-- So does signing. -/
theorem SameData.signedWith (h : r.SameData r') (sig : Bytes) :
    (r.signedWith X seed sig).SameData (r'.signedWith X seed sig) := by
  have hfield : ∀ (P : PyVal → PyVal → Prop), (∀ t, P (.str t) (.str t)) →
      (∀ g, P (r.attr g) (r'.attr g)) →
      ∀ g, P ((r.signedWith X seed sig).attr g) ((r'.signedWith X seed sig).attr g) := by
    intro P hstr hkept g
    cases hg : g.isSignature with
    | false =>
      rw [attr_signedWith_of_not_isSignature hg, attr_signedWith_of_not_isSignature hg]
      exact hkept g
    | true => cases g <;> first | exact hstr _ | cases hg
  exact ⟨hfield (fun x _ => x.IsJson) .str h.isJson, hfield (fun _ y => y.IsJson) .str h.isJson',
    hfield PyVal.SameData (fun _ => rfl) h.same⟩

/-- The signed data of two such receipts is the same. -/
theorem SameData.signingData (h : r.SameData r') : r.signingData.SameData r'.signingData := by
  refine PyVal.SameData.ofMembers fun f _ => ?_
  rw [(h.isJson f).plain, (h.isJson' f).plain]
  exact h.same f

/-- The signed object is JSON when the fields are. -/
theorem isJson_signingData (h : ∀ f, (r.attr f).IsJson) : r.signingData.IsJson := by
  refine PyVal.isJson_ofMembers ?_ fun k v hkv => ?_
  · rw [List.map_map]
    exact ReceiptField.nodup_signed_names
  · obtain ⟨f, -, heq⟩ := List.mem_map.mp hkv
    cases heq
    rw [(h f).plain]
    exact h f

/-- Receipts with the same data get the same signature. -/
theorem signL1Receipt_congr (hjcs : X.JcsAccepts) (horder : X.JcsIgnoresOrder) (h : r.SameData r')
    (hsign : signL1Receipt X r seed = .ok s) :
    ∃ s', signL1Receipt X r' seed = .ok s' ∧ s.SameData s' := by
  obtain ⟨hseed, payload, hpayload, hs⟩ := signL1Receipt_eq_ok_iff.mp hsign
  have hsigned : (r.signedWith X seed (X.ed25519.sign seed payload)).SameData
      (r'.signedWith X seed (X.ed25519.sign seed payload)) := h.signedWith _
  rw [hs] at hpayload
  refine ⟨_, signL1Receipt_eq_ok_iff.mpr ⟨hseed, payload, ?_, rfl⟩, hs ▸ hsigned⟩
  exact Externals.canonicalJson_congr hjcs horder (isJson_signingData hsigned.isJson)
    (isJson_signingData hsigned.isJson') hsigned.signingData hpayload

/-- The dictionaries of two such receipts hold the same data. -/
theorem SameData.toDict (h : r.SameData r') : r.toDict.SameData r'.toDict :=
  PyVal.SameData.ofMembers fun f _ => h.same f

/-- Building checks nothing that depends on the order of members. -/
theorem build_congr (hjcs : X.JcsAccepts) (horder : X.JcsIgnoresOrder) (h : r.SameData r')
    {issued timestamp expires : Binary64}
    (hissued : r.attr .issuedAt = .float issued) (htimestamp : r.attr .timestamp = .float timestamp)
    (hexpires : r.attr .expiresAt = .float expires)
    (hissued' : r'.attr .issuedAt = .float issued)
    (htimestamp' : r'.attr .timestamp = .float timestamp)
    (hexpires' : r'.attr .expiresAt = .float expires)
    (hbuild : L1ReceiptBuilder.build X ⟨r⟩ (some seed) = .ok s) :
    ∃ s', L1ReceiptBuilder.build X ⟨r'⟩ (some seed) = .ok s' ∧ s.SameData s' := by
  -- which fields are empty does not depend on the order of members
  have htruthy : ∀ f, (r'.attr f).truthy = (r.attr f).truthy := fun f =>
    (h.same f).symm.congr (fun _ hx => PyVal.truthy_sorted hx) (h.isJson' f) (h.isJson f)
  obtain ⟨htime, hissuer, haudience, haction, hexpiry, hsign⟩ :=
    (L1ReceiptBuilder.build_eq_ok_iff hissued htimestamp hexpires).mp hbuild
  obtain ⟨s', hsign', hsame⟩ := signL1Receipt_congr hjcs horder (h.aligned issued timestamp) hsign
  refine ⟨s', (L1ReceiptBuilder.build_eq_ok_iff hissued' htimestamp' hexpires').mpr ?_, hsame⟩
  rw [htruthy, htruthy, htruthy]
  exact ⟨htime, hissuer, haudience, haction, hexpiry, hsign'⟩

end L1Receipt
