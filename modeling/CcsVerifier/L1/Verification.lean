import CcsVerifier.L1.TamperEvidence

/-!
# Signing against verification

What the two ways to verify a receipt have in common with each other, and with signing.

* `signatureGate_canonical`: the gate before the key is used lets through the standard encodings
  and nothing else.
* `signL1Receipt_complete`: what was signed verifies, under no other fingerprint, and of several
  signatures only the last one leaves a trace.
* `agreesOn_iff`: when verification under an explicit key is verification under the embedded one.
-/

/-! ## The gate -/

namespace Externals

variable {X : Externals}

/-- The normal form of a Base64 text is the encoding of what it decodes to. -/
theorem canonicalBase64_eq_ok_iff {v : PyVal} {t : Text} :
    X.canonicalBase64 v = .ok t ↔ ∃ b, X.b64decode v = .ok b ∧ t = b64encode b := by
  simp only [canonicalBase64, Except.bind_eq_ok_iff, pure, Except.pure, Except.ok.injEq,
    eq_comm (a := t)]

/-- The texts in normal form are the standard encodings. -/
theorem canonicalBase64_self_iff {s : Text} :
    X.canonicalBase64 (.str s) = .ok s ↔ ∃ b, s = b64encode b := by
  constructor
  · intro h
    obtain ⟨b, -, hs⟩ := canonicalBase64_eq_ok_iff.mp h
    exact ⟨b, hs⟩
  · rintro ⟨b, rfl⟩
    exact X.canonicalBase64_b64encode b

end Externals

namespace L1Receipt

/-- For every string, the gate lets it through exactly when it is the standard encoding of a byte
string. That byte string is unique, so two strings that are let through and decode to the same bytes
are equal. Normal forms are normal, and the strings in normal form are those that are let through. -/
theorem signatureGate_canonical (X : Externals) (s : Text) :
    ((signatureBytes X (.str s)).isSome = true ↔ ∃! b, s = b64encode b) ∧
    (∀ b, signatureBytes X (.str s) = some b ↔ s = b64encode b) ∧
    (∀ t, (signatureBytes X (.str s)).isSome = true → (signatureBytes X (.str t)).isSome = true →
      X.b64decode (.str s) = X.b64decode (.str t) → s = t) ∧
    (∀ t, X.canonicalBase64 (.str s) = .ok t → X.canonicalBase64 (.str t) = .ok t) ∧
    (X.canonicalBase64 (.str s) = .ok s ↔ (signatureBytes X (.str s)).isSome = true) := by
  -- the gate encodes what it has decoded and compares
  have hgate : ∀ t b, signatureBytes X (.str t) = some b ↔ t = b64encode b := fun t b => by
    rw [signatureBytes_eq_some_iff, PyVal.str.injEq]
  have hsome : ∀ t, (signatureBytes X (.str t)).isSome = true ↔ ∃ b, t = b64encode b := fun t => by
    simp only [Option.isSome_iff_exists, hgate]
  refine ⟨?_, hgate s, ?_, ?_, ?_⟩
  · rw [hsome]
    constructor
    · rintro ⟨b, rfl⟩
      exact ⟨b, rfl, fun c hc => (b64encode_injective hc).symm⟩
    · exact ExistsUnique.exists
  · intro t hs ht hbytes
    obtain ⟨b, rfl⟩ := (hsome s).mp hs
    obtain ⟨c, rfl⟩ := (hsome t).mp ht
    rw [X.b64decode_b64encode, X.b64decode_b64encode, Except.ok.injEq] at hbytes
    rw [hbytes]
  · intro t ht
    obtain ⟨b, -, rfl⟩ := Externals.canonicalBase64_eq_ok_iff.mp ht
    exact X.canonicalBase64_b64encode b
  · rw [hsome]
    exact Externals.canonicalBase64_self_iff

/-- Of the two texts that decode to the byte 0, the gate lets one through. -/
example : (signatureBytes referenceX (.str (text "AA=="))).isSome = true ∧
    referenceX.b64decode (.str (text "AB==")) = .ok [0] ∧
    signatureBytes referenceX (.str (text "AB==")) = none ∧
    signatureBytes referenceX (.str (text "AA==\n")) = none := by
  decide +kernel

/-! ## Signing -/

variable {X : Externals} {r s : L1Receipt} {key seed seed' payload payload' : Bytes}

/-- A completed receipt depends on the fields that signing keeps only. -/
theorem withSignature_congr (h : ∀ f, f.isSignature = false → s.attr f = r.attr f)
    (signature fingerprint publicKey : Text) :
    s.withSignature signature fingerprint publicKey =
      r.withSignature signature fingerprint publicKey := by
  unfold withSignature
  congr 1
  funext f
  -- the four signature fields are the same on both sides, the others are kept
  cases f <;> first | rfl | exact h _ rfl

/-- Signing a receipt depends on the fields that it keeps only. -/
theorem signL1Receipt_of_same_fields (h : ∀ f, f.isSignature = false → s.attr f = r.attr f)
    (seed : Bytes) : signL1Receipt X s seed = signL1Receipt X r seed := by
  simp only [signL1Receipt, withSignature_congr h]

/-- A key with another fingerprint than that in a receipt is refused. -/
theorem verifySignature_of_fingerprint_ne {fp : Text}
    (hfp : r.attr .publicKeyFingerprint = .str fp) (hne : X.publicKeyFingerprint key ≠ fp) :
    r.verifySignature X (some key) = false := by
  rw [Bool.eq_false_iff, ne_eq, verifySignature_eq_true_iff]
  rintro ⟨k, sig, payload, hk, hverifies⟩
  obtain rfl : key = k := Option.some.inj hk
  have hsame := hfp.symm.trans hverifies.fingerprint
  exact hne (PyVal.str.inj hsame).symm

/-- A receipt whose signed data has a canonical form is signed. The result verifies for the key that
it embeds and for the key of the seed, for no key with another fingerprint, and has every field that
is not filled in by signing. An earlier signature by another key leaves no trace. -/
theorem signL1Receipt_complete (hseed : seed.length = 32) (hseed' : seed'.length = 32)
    (hpayload : (r.signedWith X seed []).signingPayload X = .ok payload)
    (hpayload' : (r.signedWith X seed' []).signingPayload X = .ok payload')
    (hsigns : X.ed25519.SignsCorrectly seed payload) :
    ∃ key s, getPublicKey X seed = .ok key ∧ signL1Receipt X r seed = .ok s ∧
      s.verifySignature X none = true ∧ s.verifySignature X (some key) = true ∧
      (∀ k, X.publicKeyFingerprint k ≠ X.publicKeyFingerprint key →
        s.verifySignature X (some k) = false) ∧
      (∀ f, f.isSignature = false → s.attr f = r.attr f) ∧
      ∃ s', signL1Receipt X r seed' = .ok s' ∧ signL1Receipt X s' seed = .ok s := by
  -- the signed data does not depend on the signature
  have hsign : ∀ {k p : Bytes}, k.length = 32 → (r.signedWith X k []).signingPayload X = .ok p →
      signL1Receipt X r k = .ok (r.signedWith X k (X.ed25519.sign k p)) := fun hk hp =>
    signL1Receipt_eq_ok_iff.mpr ⟨hk, _, hp, rfl⟩
  have hs := hsign hseed hpayload
  have hs' := hsign hseed' hpayload'
  obtain ⟨hnone, hsome⟩ := verifySignature_of_signL1Receipt hs fun p hp => by
    cases hpayload.symm.trans hp
    exact hsigns
  have hkept : ∀ k p f, f.isSignature = false → (r.signedWith X k p).attr f = r.attr f :=
    fun k p f hf => attr_signedWith_of_not_isSignature hf r k p
  refine ⟨X.ed25519.publicKey seed, _, if_pos hseed, hs, hnone, hsome, ?_, hkept _ _, _, hs', ?_⟩
  · intro k hk
    exact verifySignature_of_fingerprint_ne rfl hk
  · rw [signL1Receipt_of_same_fields (hkept _ _), hs]

/-- The hypotheses are met by the reference receipt, its seed and another seed. -/
theorem signL1Receipt_complete_sample : ∃ key s,
    getPublicKey referenceX SignatureRecord.reference.seed = .ok key ∧
      signL1Receipt referenceX reference SignatureRecord.reference.seed = .ok s ∧
      s.verifySignature referenceX (some key) = true := by
  have hother : ((reference.signedWith referenceX (List.replicate 32 7) []).signingPayload
      referenceX).isOk = true := by decide +kernel
  -- the other key can sign the receipt as well
  cases hpayload' : (reference.signedWith referenceX (List.replicate 32 7) []).signingPayload
      referenceX with
  | error e =>
    rw [hpayload'] at hother
    cases hother
  | ok payload' =>
    have hpayload : (reference.signedWith referenceX SignatureRecord.reference.seed
        []).signingPayload referenceX = .ok SignatureRecord.reference.message := by
      rw [← signingPayload_referenceSigned, signingPayload, signingPayload, referenceSigned,
        signedWith, signedWith, signingData_withSignature reference (b64encode []) (b64encode _)]
    obtain ⟨key, s, hkey, hsign, -, hverify, -⟩ := signL1Receipt_complete (by decide +kernel)
      List.length_replicate hpayload hpayload' (SignatureRecord.signsCorrectly _)
    exact ⟨key, s, hkey, hsign, hverify⟩

/-! ## The explicit and the embedded key -/

/-- Verification under a key is verification under the embedded key together with the embedding of
that key. -/
def AgreesOn (X : Externals) (r : L1Receipt) (key : Bytes) : Prop :=
  r.verifySignature X (some key) = true ↔
    r.verifySignature X none = true ∧ X.b64decode (r.attr .publicKey) = .ok key

/-- A receipt that verifies under the key that it embeds verifies under that key when it is given. -/
theorem verifySignature_some_of_none (hnone : r.verifySignature X none = true)
    (hdecode : X.b64decode (r.attr .publicKey) = .ok key) :
    r.verifySignature X (some key) = true := by
  obtain ⟨k, sig, payload, hembedded, hverifies⟩ := verifySignature_none_eq_true_iff.mp hnone
  obtain ⟨-, hk, -⟩ := embeddedKey_eq_some_iff.mp hembedded
  cases hdecode.symm.trans hk
  exact verifySignature_eq_true_iff.mpr ⟨key, sig, payload, rfl, hverifies⟩

/-- A receipt that verifies under a given key verifies without it when it embeds that key. -/
theorem verifySignature_none_of_some (hlength : X.ed25519.isPublicKey key = true → key.length = 32)
    (htruthy : (r.attr .publicKey).truthy = true)
    (hdecode : X.b64decode (r.attr .publicKey) = .ok key)
    (hsome : r.verifySignature X (some key) = true) : r.verifySignature X none = true := by
  obtain ⟨k, sig, payload, hk, hverifies⟩ := verifySignature_eq_true_iff.mp hsome
  cases hk
  have hembedded : r.embeddedKey X = some key := embeddedKey_eq_some_iff.mpr
    ⟨htruthy, hdecode, hlength hverifies.isPublicKey, fun _ => hverifies.fingerprint⟩
  exact verifySignature_none_eq_true_iff.mpr ⟨key, sig, payload, hembedded, hverifies⟩

/-- For a receipt with a key in it, the two ways to verify agree on a key exactly when the receipt
embeds that key, or carries no signature by it. -/
theorem agreesOn_iff (hlength : X.ed25519.isPublicKey key = true → key.length = 32)
    (htruthy : (r.attr .publicKey).truthy = true) :
    r.AgreesOn X key ↔ X.b64decode (r.attr .publicKey) = .ok key ∨
      ¬∃ sig payload, r.VerifiesWith X key sig payload := by
  -- with a key at hand the embedded one is not looked at
  have hsome : r.verifySignature X (some key) = true ↔
      ∃ sig payload, r.VerifiesWith X key sig payload := by
    rw [verifySignature_eq_true_iff]
    constructor
    · rintro ⟨k, sig, payload, hk, hverifies⟩
      cases hk
      exact ⟨sig, payload, hverifies⟩
    · rintro ⟨sig, payload, hverifies⟩
      exact ⟨key, sig, payload, rfl, hverifies⟩
  rw [← hsome]
  constructor
  · intro hagrees
    by_cases hverify : r.verifySignature X (some key) = true
    · exact .inl (hagrees.mp hverify).2
    · exact .inr hverify
  · intro h
    refine ⟨fun hverify => ?_, fun hboth => verifySignature_some_of_none hboth.1 hboth.2⟩
    obtain hdecode | hinvalid := h
    · exact ⟨verifySignature_none_of_some hlength htruthy hdecode hverify, hdecode⟩
    · exact absurd hverify hinvalid

/-- The reference receipt agrees on its own key. -/
theorem agreesOn_iff_sample :
    referenceSigned.AgreesOn referenceX SignatureRecord.reference.publicKey := by
  refine (agreesOn_iff (fun h => ?_) ?_).mpr (.inl ?_)
  · exact beq_iff_eq.mp h
  · rw [referenceSigned_eq]
    rfl
  · rw [referenceSigned_eq]
    decide +kernel

/-- The reference receipt with the key of somebody else in its `public_key`. -/
def foreignKey : L1Receipt :=
  referenceSigned.set .publicKey (.str (text "11qYAYKxCrfVS/7TyWQHOg7hcvPapiMlrwIaaPcHURo="))

/-- A signature on that receipt by the reference key. -/
def foreignKeyRecord : SignatureRecord where
  seed := SignatureRecord.reference.seed
  publicKey := SignatureRecord.reference.publicKey
  message := (Jcs.canonicalize foreignKey.signingData).toOption.getD []
  signature := bytesOfHex
    (text "a96427b3afe8d701e55ed05e0eb1de2cd26d636bd4fb19c1437aaf850ac2c18a"
    ++ text "d125c13b5f69bdaeeabd1e3d095fc5b767e1732d039d7bfba5cb08faddac7300")
  length_publicKey := SignatureRecord.reference.length_publicKey
  length_signature := by decide +kernel

/-- The signed receipt with somebody else's key. -/
def foreignKeySigned : L1Receipt :=
  foreignKey.set .signature (.str (b64encode foreignKeyRecord.signature))

/-- A receipt verifies under a given key, and embeds another one under which it does not verify. -/
theorem foreign_key_verifies :
    (foreignKeySigned.attr .publicKey).truthy = true ∧
      foreignKeySigned.verifySignature foreignKeyRecord.externals
        (some foreignKeyRecord.publicKey) = true ∧
      foreignKeySigned.verifySignature foreignKeyRecord.externals none = false ∧
      ¬foreignKeySigned.AgreesOn foreignKeyRecord.externals foreignKeyRecord.publicKey := by
  have hsome : foreignKeySigned.verifySignature foreignKeyRecord.externals
      (some foreignKeyRecord.publicKey) = true := by decide +kernel
  have hnone : foreignKeySigned.verifySignature foreignKeyRecord.externals none = false := by
    decide +kernel
  refine ⟨rfl, hsome, hnone, fun hagrees => ?_⟩
  rw [(hagrees.mp hsome).1] at hnone
  cases hnone

end L1Receipt
