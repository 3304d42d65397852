import CcsVerifier.L1.Verification

/-!
# The numbers of a preimage

No unsafe number is signed or verified, however deep in a field it is and whether it is a value or a
key of an object.

* `PyVal.Within`, `PyVal.HoldsUnsafe`: what occurs inside a value.
* `PyVal.safeNumbers_iff`: the recursive check passes the values that hold no unsafe number.
* `L1Receipt.preimage_safe`: which fields of a receipt hold no unsafe number when it is signed, and
  when it verifies.
* `L1Receipt.replaced_field_not_checked`: signing does not look at the fields that it fills in.
-/

namespace PyVal

/-! ## Occurrences -/

/-- A value occurs inside another one: as that value, or inside of an element, a key or a value. -/
inductive Within (x : PyVal) : PyVal → Prop
  | self : Within x x
  | list {y : PyVal} {xs : List PyVal} : y ∈ xs → Within x y → Within x (.list xs)
  | tuple {y : PyVal} {xs : List PyVal} : y ∈ xs → Within x y → Within x (.tuple xs)
  | key {k v : PyVal} {entries : List (PyVal × PyVal)} :
      (k, v) ∈ entries → Within x k → Within x (.dict entries)
  | value {k v : PyVal} {entries : List (PyVal × PyVal)} :
      (k, v) ∈ entries → Within x v → Within x (.dict entries)

/-- The numbers that must not enter a preimage: integers outside `±(2 ^ 53 - 1)`, infinities and
NaNs. Booleans are neither. -/
inductive IsUnsafe : PyVal → Prop
  | int {z : ℤ} : 2 ^ 53 - 1 < |z| → IsUnsafe (.int z)
  | float {x : Binary64} : x.isFinite = false → IsUnsafe (.float x)

/-- An unsafe number occurs inside the value. -/
def HoldsUnsafe (v : PyVal) : Prop := ∃ x : PyVal, x.Within v ∧ x.IsUnsafe

/-- The numbers of an object, entry by entry. -/
theorem safeEntries_iff {entries : List (PyVal × PyVal)} :
    SafeEntries entries ↔ ∀ k v, (k, v) ∈ entries → k.SafeNumbers ∧ v.SafeNumbers := by
  induction entries with
  | nil => simp [SafeEntries]
  | cons entry rest ih =>
    obtain ⟨k, v⟩ := entry
    rw [SafeEntries, ih]
    constructor
    · rintro ⟨hentry, hrest⟩ k' v' hmem
      rcases List.mem_cons.mp hmem with heq | hmem
      · cases heq
        exact hentry
      · exact hrest k' v' hmem
    · intro h
      exact ⟨h k v List.mem_cons_self, fun k' v' hmem => h k' v' (List.mem_cons_of_mem _ hmem)⟩

/-- What occurs inside a value with safe numbers has safe numbers. -/
theorem Within.safeNumbers {x v : PyVal} (h : x.Within v) (hv : v.SafeNumbers) :
    x.SafeNumbers := by
  induction h with
  | self => exact hv
  | list hy _ ih => exact ih (safeItems_iff.mp hv _ hy)
  | tuple hy _ ih => exact ih (safeItems_iff.mp hv _ hy)
  | key hmem _ ih => exact ih (safeEntries_iff.mp hv _ _ hmem).1
  | value hmem _ ih => exact ih (safeEntries_iff.mp hv _ _ hmem).2

/-- A value has safe numbers exactly when no unsafe number occurs inside it. -/
theorem safeNumbers_iff {v : PyVal} : v.SafeNumbers ↔ ¬v.HoldsUnsafe := by
  constructor
  · rintro hv ⟨x, hx, hunsafe⟩
    have hsafe := hx.safeNumbers hv
    cases hunsafe with
    | @int z hz =>
      obtain ⟨hmin, hmax⟩ : minSafeInteger ≤ z ∧ z ≤ maxSafeInteger := hsafe
      rw [minSafeInteger] at hmin
      rw [maxSafeInteger] at hmax
      rw [lt_abs] at hz
      omega
    | float hinfinite =>
      rw [SafeNumbers, hinfinite] at hsafe
      cases hsafe
  · intro h
    -- by induction on the value: a part of a part is a part
    induction v using PyVal.induct with
    | int z =>
      by_contra hz
      refine h ⟨.int z, .self, .int ?_⟩
      rw [SafeNumbers, minSafeInteger, maxSafeInteger] at hz
      rw [lt_abs]
      omega
    | float x =>
      by_contra hx
      exact h ⟨.float x, .self, .float (Bool.not_eq_true _ ▸ hx)⟩
    | list xs ih =>
      refine safeItems_iff.mpr fun y hy => ih y hy ?_
      rintro ⟨x, hx, hunsafe⟩
      exact h ⟨x, .list hy hx, hunsafe⟩
    | tuple xs ih =>
      refine safeItems_iff.mpr fun y hy => ih y hy ?_
      rintro ⟨x, hx, hunsafe⟩
      exact h ⟨x, .tuple hy hx, hunsafe⟩
    | dict entries ih =>
      refine safeEntries_iff.mpr fun k v hmem => ⟨(ih k v hmem).1 ?_, (ih k v hmem).2 ?_⟩
      · rintro ⟨x, hx, hunsafe⟩
        exact h ⟨x, .key hmem hx, hunsafe⟩
      · rintro ⟨x, hx, hunsafe⟩
        exact h ⟨x, .value hmem hx, hunsafe⟩
    | _ => trivial

end PyVal

/-! ## The check -/

/-- The check raises a `ValueError`, wherever it stops. -/
theorem validateSafeIntegers_raises (v : PyVal) :
    (validateSafeIntegers v).Raises fun e => e.kind = .valueError := by
  have hitems : ∀ xs : List PyVal,
      (∀ x ∈ xs, (validateSafeIntegers x).Raises fun e => e.kind = .valueError) →
        (validateItems xs).Raises fun e => e.kind = .valueError := by
    intro xs ih
    induction xs with
    | nil => exact Except.raises_ok ()
    | cons x xs ihxs =>
      obtain ⟨hx, hxs⟩ := List.forall_mem_cons.mp ih
      exact hx.bind fun _ _ => ihxs hxs
  induction v using PyVal.induct with
  | int z =>
    rw [validateSafeIntegers]
    split
    · exact Except.raises_error rfl
    · exact Except.raises_ok ()
  | float x =>
    rw [validateSafeIntegers]
    split
    · exact Except.raises_ok ()
    · exact Except.raises_error rfl
  | list xs ih => exact hitems xs ih
  | tuple xs ih => exact hitems xs ih
  | dict entries ih =>
    rw [validateSafeIntegers]
    -- the keys are visited as well as the values
    induction entries with
    | nil => exact Except.raises_ok ()
    | cons entry rest ihrest =>
      obtain ⟨k, v⟩ := entry
      obtain ⟨hk, hv⟩ := ih k v List.mem_cons_self
      refine hk.bind fun _ _ => hv.bind fun _ _ => ?_
      exact ihrest fun k v hmem => ih k v (List.mem_cons_of_mem _ hmem)
  | _ => exact Except.raises_ok ()

/-- Canonical JSON is made of values that hold no unsafe number. -/
theorem not_holdsUnsafe_of_canonicalJson {X : Externals} {v : PyVal} {b : Bytes}
    (h : X.canonicalJson v = .ok b) : ¬v.HoldsUnsafe := by
  obtain ⟨u, hvalid, -⟩ := Except.bind_eq_ok_iff.mp h
  exact PyVal.safeNumbers_iff.mp ((validateSafeIntegers_eq_ok_iff v).mp hvalid)

/-- A value that holds an unsafe number is refused with a `ValueError`. -/
theorem canonicalJson_of_holdsUnsafe {X : Externals} {v : PyVal} (h : v.HoldsUnsafe) :
    ∃ e, X.canonicalJson v = .error e ∧ e.kind = .valueError := by
  cases hvalid : validateSafeIntegers v with
  | ok u =>
    have hsafe := (validateSafeIntegers_eq_ok_iff v).mp hvalid
    exact absurd h (PyVal.safeNumbers_iff.mp hsafe)
  | error e =>
    refine ⟨e, ?_, validateSafeIntegers_raises v e hvalid⟩
    rw [Externals.canonicalJson, hvalid]
    rfl

/-! ## Receipts -/

namespace L1Receipt

variable {X : Externals} {r s : L1Receipt}

/-- The signed data holds an unsafe number when a field other than the signature does. -/
theorem holdsUnsafe_signingData_iff :
    r.signingData.HoldsUnsafe ↔ ∃ f, f ≠ .signature ∧ (r.attr f).plain.HoldsUnsafe := by
  rw [← not_iff_not, ← PyVal.safeNumbers_iff, signingData, PyVal.safeNumbers_ofMembers_iff,
    List.forall_mem_map]
  simp only [ReceiptField.mem_signed, PyVal.safeNumbers_iff, not_exists, not_and]

/-- A receipt that has a payload holds no unsafe number. -/
theorem not_holdsUnsafe_of_signingPayload {payload : Bytes}
    (h : r.signingPayload X = .ok payload) {f : ReceiptField} (hf : f ≠ .signature) :
    ¬(r.attr f).plain.HoldsUnsafe := fun hunsafe =>
  not_holdsUnsafe_of_canonicalJson h (holdsUnsafe_signingData_iff.mpr ⟨f, hf, hunsafe⟩)

/-- What is signed of a receipt is free of unsafe numbers: every field of the result other than the
signature, and every field of the receipt that signing keeps. What verifies is free of them in every
field other than the signature. A receipt with an unsafe number in such a field has no payload, and
verification answers that with `false`. -/
theorem preimage_safe (X : Externals) (r : L1Receipt) :
    (∀ seed s, signL1Receipt X r seed = .ok s →
      (∀ f, f ≠ .signature → ¬(s.attr f).plain.HoldsUnsafe) ∧
      ∀ f, f.isSignature = false → ¬(r.attr f).plain.HoldsUnsafe) ∧
    (∀ key, r.verifySignature X key = true →
      ∀ f, f ≠ .signature → ¬(r.attr f).plain.HoldsUnsafe) ∧
    ((∃ f, f ≠ .signature ∧ (r.attr f).plain.HoldsUnsafe) →
      (∃ e, r.signingPayload X = .error e ∧ e.kind = .valueError) ∧
      ∀ key, r.verifySignature X key = false) := by
  have hverified : ∀ key, r.verifySignature X key = true →
      ∀ f, f ≠ .signature → ¬(r.attr f).plain.HoldsUnsafe := by
    intro key hverify f hf
    obtain ⟨k, sig, payload, -, hverifies⟩ := verifySignature_eq_true_iff.mp hverify
    exact not_holdsUnsafe_of_signingPayload hverifies.signingPayload hf
  refine ⟨fun seed s hsign => ?_, hverified, fun hunsafe => ⟨?_, fun key => ?_⟩⟩
  · obtain ⟨-, payload, hpayload, -⟩ := signL1Receipt_eq_ok_iff.mp hsign
    -- the signed receipt has the preimage that the signature is made of
    have hsigned : ∀ f, f ≠ .signature → ¬(s.attr f).plain.HoldsUnsafe := fun f hf =>
      not_holdsUnsafe_of_signingPayload hpayload hf
    refine ⟨hsigned, fun f hf => ?_⟩
    have hne : f ≠ .signature := by
      rintro rfl
      cases hf
    exact attr_of_signL1Receipt hsign hf ▸ hsigned f hne
  · exact canonicalJson_of_holdsUnsafe (holdsUnsafe_signingData_iff.mpr hunsafe)
  · rw [Bool.eq_false_iff]
    intro hverify
    obtain ⟨f, hf, hheld⟩ := hunsafe
    exact hverified key hverify f hf hheld

/-- Signing replaces the embedded key, so the one that a receipt had before may be any value: an
integer that is not safe stands in the receipt that is signed. -/
theorem replaced_field_not_checked : ¬∀ (r s : L1Receipt) (seed : Bytes),
    signL1Receipt referenceX r seed = .ok s →
      ∀ f, f ≠ .signature → ¬(r.attr f).plain.HoldsUnsafe := by
  intro h
  have hsign : signL1Receipt referenceX (reference.set .publicKey (.int (2 ^ 53)))
      SignatureRecord.reference.seed = .ok referenceSigned := by
    rw [← signL1Receipt_reference]
    refine signL1Receipt_of_same_fields (fun f hf => attr_set_of_ne ?_ _ _) _
    rintro rfl
    cases hf
  refine h _ _ _ hsign .publicKey (by decide) ⟨.int (2 ^ 53), ?_, .int (by norm_num)⟩
  rw [attr_set_self]
  exact .self

end L1Receipt
