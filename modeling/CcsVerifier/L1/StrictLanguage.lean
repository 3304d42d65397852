import CcsVerifier.L1.FromDict

/-!
# The language of the strict parser

What `L1Receipt.from_dict` accepts in strict mode, what it raises, and how this compares with the
mode that is not strict.

* `fromMembers_raises`: whatever is wrong with a dictionary is a `ValueError`.
* `Accepts.lenient`: what strict mode accepts, the other mode accepts.
* `fromDict_strict_language`: the two together, with the values of the receipts.
-/

/-- Every failure is a `ValueError`. -/
abbrev Except.RaisesValueError {α : Type} (x : Except PyExc α) : Prop :=
  x.Raises fun e => e.isValueError = true

/-- A `ValueError` is one. -/
theorem PyExc.raises_value {α : Type} (message : Text) :
    (PyExc.value message : Except PyExc α).RaisesValueError :=
  Except.raises_error rfl

namespace FromDict

variable {X : Externals} {d data : Dict Text PyVal}

/-- The strict checks raise no other error. -/
theorem checkStrict_raises (strict : Bool) : (checkStrict X d strict).RaisesValueError := by
  have hunknown : (checkUnknown X d).RaisesValueError := by
    rw [checkUnknown]
    split
    · exact Except.raises_ok ()
    · exact PyExc.raises_value _
  have hversion : (checkVersion X d).RaisesValueError := by
    rw [checkVersion]
    split
    · exact Except.raises_ok ()
    · split
      · exact Except.raises_ok ()
      · exact PyExc.raises_value _
  rw [checkStrict]
  split
  · exact hunknown.bind fun _ _ => hversion
  · exact Except.raises_ok ()

/-- Neither does the check of the trace identifier. -/
theorem checkTraceId_raises : (checkTraceId d).RaisesValueError := by
  rw [checkTraceId]
  split
  · exact PyExc.raises_value _
  · exact PyExc.raises_value _
  · split
    · exact PyExc.raises_value _
    · exact Except.raises_ok ()
  · exact PyExc.raises_value _

/-- The loop raises a `ValueError` at the first entry that it refuses. -/
theorem checkValues_raises : (checkValues d).RaisesValueError := by
  induction d with
  | nil => exact Except.raises_ok []
  | cons m d ih =>
    obtain ⟨k, v⟩ := m
    -- an entry that is kept raises only what the rest raises
    have hkeep : (do let rest ← checkValues d; return (k, v) :: rest :
        Except PyExc (Dict Text PyVal)).RaisesValueError :=
      ih.bind fun rest _ => Except.raises_ok ((k, v) :: rest)
    cases v with
    | none =>
      rw [checkValues]
      split
      · exact PyExc.raises_value _
      · exact ih
    | str s =>
      rw [checkValues]
      split
      · exact PyExc.raises_value _
      · exact hkeep
    | _ => exact hkeep

/-- Nor that of a field that is not to be empty. -/
theorem checkNotEmpty_raises (f : ReceiptField) (message : Text) :
    (checkNotEmpty d f message).RaisesValueError := by
  rw [checkNotEmpty]
  split
  · exact Except.raises_ok ()
  · split
    · exact Except.raises_ok ()
    · exact PyExc.raises_value _

/-- Whatever decoding an embedded key raises, it is handed on as a `ValueError`. -/
theorem checkPublicKey_raises : (checkPublicKey X d).RaisesValueError := by
  rw [checkPublicKey]
  split
  · split
    · split
      · exact Except.raises_ok ()
      · next e _ =>
        -- the error goes through unchanged only if it is a `ValueError` already
        split
        · next h => exact Except.raises_error (Bool.and_eq_true_iff.mp h).1
        · split
          · next h => exact Except.raises_error (Bool.and_eq_true_iff.mp h).1
          · exact PyExc.raises_value _
    · exact Except.raises_ok ()
  · exact Except.raises_ok ()

/-- Nor that of unsigned receipts. -/
theorem checkUnsigned_raises (strict : Bool) : (checkUnsigned d strict).RaisesValueError := by
  rw [checkUnsigned]
  split
  · exact PyExc.raises_value _
  · exact Except.raises_ok ()

/-- The keyword arguments that are left have the only field without a default. -/
theorem ofKeywords_isOk {env : ReceiptDefaults} {kept : Dict Text PyVal}
    (htrace : checkTraceId d = .ok ()) (hvalues : checkValues d = .ok kept) :
    ∃ r, L1Receipt.ofKeywords env kept = .ok r := by
  obtain ⟨s, -, hs⟩ := checkTraceId_eq_ok_iff.mp htrace
  obtain ⟨-, rfl⟩ := checkValues_eq_ok_iff.mp hvalues
  have hmem : (ReceiptField.traceId.name, PyVal.str s) ∈ d.filter fun m => !m.2.isNone :=
    List.mem_filter.mpr ⟨Dict.mem_of_lookup_eq_some hs, rfl⟩
  rw [L1Receipt.ofKeywords]
  split
  · next hnone => exact absurd (List.mem_map_of_mem hmem) (Dict.lookup_eq_none_iff.mp hnone)
  · exact ⟨_, rfl⟩

/-- In both modes every failure is a `ValueError`. -/
theorem fromMembers_raises (env : ReceiptDefaults) (data : Dict Text PyVal) (strict : Bool) :
    (fromMembers X env data strict).RaisesValueError := by
  rw [fromMembers]
  apply (checkStrict_raises strict).bind
  intro _ _
  apply checkTraceId_raises.bind
  intro _ htrace
  apply checkValues_raises.bind
  intro kept hkept
  apply (checkNotEmpty_raises _ _).bind
  intro _ _
  apply (checkNotEmpty_raises _ _).bind
  intro _ _
  apply (checkNotEmpty_raises _ _).bind
  intro _ _
  apply checkPublicKey_raises.bind
  intro _ _
  apply (checkUnsigned_raises strict).bind
  intro _ _
  -- the constructor gets the trace identifier, the only argument that it needs
  obtain ⟨r, hr⟩ : ∃ r, L1Receipt.ofKeywords env kept = .ok r := ofKeywords_isOk htrace hkept
  rw [hr]
  exact Except.raises_ok r

/-- Strict mode only adds checks. -/
theorem Accepts.lenient {strict : Bool} (h : Accepts data strict) : Accepts data false where
  known := nofun
  version := nofun
  traceId := h.traceId
  critical := h.critical
  length := h.length
  signature := h.signature
  fingerprint := h.fingerprint
  publicKey := h.publicKey
  decodes := h.decodes
  unsigned := nofun

/-- A renamed field has the same default in every receipt. -/
theorem default?_of_legacyName? {f : ReceiptField} {old : Text} (h : f.legacyName? = some old)
    (env env' : ReceiptDefaults) : f.default? env = f.default? env' := by
  have hclock : ReceiptField.timestamp.legacyName? = none ∧ ReceiptField.nonce.legacyName? = none ∧
      ReceiptField.verifiedAt.legacyName? = none := by decide +kernel
  cases f with
  | timestamp =>
    rw [hclock.1] at h
    cases h
  | nonce =>
    rw [hclock.2.1] at h
    cases h
  | verifiedAt =>
    rw [hclock.2.2] at h
    cases h
  | _ => rfl

/-- A receipt has what the dictionary gives for a field, unless that is `None`. -/
theorem attr_receiptOf_of_given {env : ReceiptDefaults} {f : ReceiptField} {v : PyVal}
    (hgiven : given? data f = some v) (hne : v ≠ .none) : (receiptOf env data).attr f = v := by
  have hkept : v.isNone = false := by
    rw [← Bool.not_eq_true, PyVal.isNone_iff]
    exact hne
  simp [receiptOf, hgiven, Option.filter, hkept]

/-- A field that is set under one of its names has the same value in the receipts made at any two
times. -/
theorem attr_receiptOf_of_set {f : ReceiptField} {k : Text} {v : PyVal}
    (hk : f.name = k ∨ f.legacyName? = some k) (hv : data.lookup k = some v) (hne : v ≠ .none)
    (env env' : ReceiptDefaults) :
    (receiptOf env data).attr f = (receiptOf env' data).attr f := by
  obtain rfl | hold := hk
  · -- the value under the current name is taken
    have hgiven : given? data f = some v := by
      rw [given?, hv]
      rfl
    rw [attr_receiptOf_of_given hgiven hne, attr_receiptOf_of_given hgiven hne]
  · -- the current name may be there too, with any value
    simp only [receiptOf, default?_of_legacyName? hold env env']

end FromDict

namespace L1Receipt

/-- `self.allowed` -/
def allowed (r : L1Receipt) : Bool := (r.attr .verdict).eqStr (text "allow")

/-- A receipt that strict mode returns is signed or does not allow. -/
theorem signature_truthy_of_allowed {env : ReceiptDefaults} {data : Dict Text PyVal}
    (h : FromDict.Accepts data true) (hallowed : (FromDict.receiptOf env data).allowed = true) :
    ((FromDict.receiptOf env data).attr .signature).truthy = true := by
  obtain ⟨sig, hsig⟩ | ⟨v, hv, hne⟩ := h.unsigned rfl
  · have htruthy := h.signature sig hsig
    have hnone : sig ≠ .none := by
      rintro rfl
      cases htruthy
    rwa [FromDict.attr_receiptOf_of_given hsig hnone]
  · have hnone : v ≠ .none := by
      rintro rfl
      exact h.critical .verdict rfl hv
    rw [allowed, FromDict.attr_receiptOf_of_given hv hnone, PyVal.eqStr_iff] at hallowed
    exact absurd hallowed hne

/-- In strict mode `from_dict` returns exactly on the dictionaries that meet `FromDict.Accepts`, and
raises a `ValueError` on every other one. The mode that is not strict accepts them too, at any other
time, with the same value for every field that is set, under either name, to anything but `None`. A
receipt returned in strict mode is signed or does not allow. -/
theorem fromDict_strict_language (X : Externals) {data : Dict Text PyVal} (hdata : data.keys.Nodup)
    (env env' : ReceiptDefaults) :
    ((∃ r, fromDict X env (.ofMembers data) true = .ok r) ↔ FromDict.Accepts data true) ∧
    (∀ e, fromDict X env (.ofMembers data) true = .error e → e.isValueError = true) ∧
    ∀ r, fromDict X env (.ofMembers data) true = .ok r →
      (∃ r', fromDict X env' (.ofMembers data) false = .ok r' ∧
        ∀ f k v, f.name = k ∨ f.legacyName? = some k → data.lookup k = some v → v ≠ .none →
          r'.attr f = r.attr f) ∧
      (r.allowed = true → (r.attr .signature).truthy = true) := by
  refine ⟨?_, ?_, ?_⟩
  · simp only [fromDict_ofMembers_eq_ok_iff hdata, exists_and_left, exists_eq, and_true]
  · rw [fromDict, PyVal.members?_ofMembers]
    exact FromDict.fromMembers_raises env data true
  · intro r hr
    obtain ⟨haccepts, rfl⟩ := (fromDict_ofMembers_eq_ok_iff hdata).mp hr
    refine ⟨⟨_, (fromDict_ofMembers_eq_ok_iff hdata).mpr ⟨haccepts.lenient, rfl⟩, ?_⟩,
      signature_truthy_of_allowed haccepts⟩
    intro f k v hk hv hne
    exact FromDict.attr_receiptOf_of_set hk hv hne env' env

/-- The sample dictionary, with a legacy name and a `None`, is in the language. -/
theorem fromDict_strict_language_sample : FromDict.Accepts sampleData true ∧
    ∃ r, fromDict referenceX sampleDefaults (.ofMembers sampleData) false = .ok r := by
  have hok : (fromDict referenceX sampleDefaults (.ofMembers sampleData) true).isOk = true := by
    decide +kernel
  have hdata : Dict.keys sampleData |>.Nodup := by decide +kernel
  obtain ⟨hlanguage, -, hreturned⟩ := fromDict_strict_language referenceX hdata sampleDefaults
    sampleDefaults
  cases hr : fromDict referenceX sampleDefaults (.ofMembers sampleData) true with
  | error e =>
    rw [hr] at hok
    cases hok
  | ok r =>
    obtain ⟨⟨r', hr', -⟩, -⟩ := hreturned r hr
    exact ⟨hlanguage.mp ⟨r, hr⟩, r', hr'⟩

end L1Receipt
