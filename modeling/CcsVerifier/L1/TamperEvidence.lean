import CcsVerifier.L1.Receipt

/-!
# Tamper evidence of signed receipts

Two receipts with one signature: when does the signature of the first verify for the second?

* `sameJson_signingData_iff`: the signed data agrees exactly when every signed field does.
* `verifySignature_signed_iff`: the signature verifies exactly for the receipts that have the
  very same signature, algorithm and fingerprint strings and the same JSON value in every other
  field.
* `enum_algorithm_not_verified`: an `Enum` member in place of the algorithm string is refused.
* `L1Receipt.reference`: the reference receipt that ships with the conformance vectors.
-/

namespace L1Receipt

/-- The signed data of two receipts is the same JSON value exactly when every signed field is. -/
theorem sameJson_signingData_iff (r s : L1Receipt) :
    r.signingData.SameJson s.signingData ↔
      ∀ f ≠ ReceiptField.signature, (r.attr f).plain.SameJson (s.attr f).plain := by
  rw [signingData, signingData, PyVal.sameJson_ofMembers_iff ReceiptField.nodup_signed_names]
  simp only [ReceiptField.mem_signed]

end L1Receipt

/-- `jcs` gives two values the same bytes exactly when they are the same JSON value. -/
def Externals.JcsCanonicalOn (X : Externals) (p q : PyVal) : Prop :=
  ∀ b c, X.jcs p = .ok b → X.jcs q = .ok c → (b = c ↔ p.SameJson q)

namespace L1Receipt

variable {X : Externals}

/-- The payload is what `jcs` makes of the signed object. -/
theorem jcs_of_signingPayload {r : L1Receipt} {b : Bytes} (h : r.signingPayload X = .ok b) :
    X.jcs r.signingData = .ok b := by
  simp only [signingPayload, Externals.canonicalJson, Except.bind_eq_ok_iff] at h
  obtain ⟨-, -, h⟩ := h
  exact h

/-- The receipt with another value in one field. -/
def set (r : L1Receipt) (f : ReceiptField) (v : PyVal) : L1Receipt where
  attr := Function.update r.attr f v

/-- The field has the new value. -/
@[simp]
theorem attr_set_self (r : L1Receipt) (f : ReceiptField) (v : PyVal) : (r.set f v).attr f = v :=
  Function.update_self ..

/-- Other fields keep theirs. -/
@[simp]
theorem attr_set_of_ne {f g : ReceiptField} (h : g ≠ f) (r : L1Receipt) (v : PyVal) :
    (r.set f v).attr g = r.attr g :=
  Function.update_of_ne h ..

/-- A value equal as a JSON value leaves every field equal. -/
theorem sameJson_set {r : L1Receipt} {f : ReceiptField} {v : PyVal}
    (hself : ∀ g, (r.attr g).plain.SameJson (r.attr g).plain)
    (hv : v.plain.SameJson (r.attr f).plain) (g : ReceiptField) :
    ((r.set f v).attr g).plain.SameJson (r.attr g).plain := by
  by_cases hg : g = f
  · subst hg
    rwa [attr_set_self]
  · rw [attr_set_of_ne hg]
    exact hself g

/-! ## The reference receipt -/

/-- A time in whole seconds. -/
def seconds (z : ℤ) (h : |z| < 2 ^ 53) : PyVal := .float (Binary64.ofSmallInt z h)

/-- The fields of the reference receipt, before signing. -/
def reference : L1Receipt where
  attr
    | .traceId => .str (text "ref-vector-001")
    | .receiptVersion => .str L1.receiptVersion
    | .verdict => .str (text "allow")
    | .timestamp => seconds 1893456000 abs_referenceTime_lt
    | .tool => .str (text "shell")
    | .paramsHash => .str (text "refvec001")
    | .argsDigest =>
      .str (text "a1c9b7564045c6893986ae6f97c75aa76b4b8029afde8024bc830b041f99657e")
    | .ruleSummary => .str (text "reference_vector")
    | .ruleVersion => .str (text "1.1.20")
    | .requestHash =>
      .str (text "63bbd4df19da053007154e7c045cee72705d54fefb0cc7f3c97d809ac085b2a2")
    | .responseHash =>
      .str (text "4062edaf750fb8074e7e83e0c9028c94e32468a8b6f1614774328ef045150f93")
    | .runtimeContextHash =>
      .str (text "035ff4bdcdebc67e8b5ec271ae554941f4df6a923e2e7ce686d5ce3c4dfcf793")
    | .configHash =>
      .str (text "658e4d30ac87fee0d1b29fcb8452480309c690d7fc7624d5f852af9590370830")
    | .verifierSourceClass => .str (text "VerifierServer")
    | .deploymentMode => .str (text "in-process")
    | .issuer => .str (text "ccs-verifier/reference")
    | .audience => .str (text "public")
    | .nonce => .str (text "reference-nonce-001")
    | .sequence => .int 0
    | .issuedAt => seconds 1893456000 abs_referenceTime_lt
    | .expiresAt => seconds 1893456300 abs_referenceExpiry_lt
    | .maxClockSkew => .float Binary64.zero
    | .action => .str (text "shell.execute")
    | .signingAlgorithm => .str L1.signingAlgorithm
    | .verifiedAt => seconds 1893456000 abs_referenceTime_lt
    | .latencyUs => .int 0
    | .toolCallId | .signature | .publicKeyFingerprint | .publicKey => .str []

/-- The parameters around the reference signature. -/
abbrev referenceX : Externals := SignatureRecord.reference.externals

/-- The reference receipt with the reference signature. -/
def referenceSigned : L1Receipt :=
  reference.signedWith referenceX SignatureRecord.reference.seed SignatureRecord.reference.signature

/-- The key and the fingerprint that the reference signature fills in. -/
theorem referenceSigned_eq : referenceSigned =
    reference.withSignature (b64encode SignatureRecord.reference.signature)
      (text "889d3f5bd86f5ff2") (text "v63J4PdpUTeDVUuGMgpayNc5ex/ufTmrW+9oKyybbCw=") := by
  have hkey : referenceX.ed25519.publicKey SignatureRecord.reference.seed =
      SignatureRecord.reference.publicKey := SignatureRecord.publicKey_scheme _
  have hfp : referenceX.publicKeyFingerprint SignatureRecord.reference.publicKey =
      text "889d3f5bd86f5ff2" := by decide +kernel
  have hpk : b64encode SignatureRecord.reference.publicKey =
      text "v63J4PdpUTeDVUuGMgpayNc5ex/ufTmrW+9oKyybbCw=" := by decide +kernel
  rw [referenceSigned, signedWith, hkey, hfp, hpk]

/-- The canonical payload of a receipt from the canonical text of its signed data. -/
theorem signingPayload_of_serialize {t : L1Receipt} {record : SignatureRecord} {canonical : Text}
    (hascii : canonical.IsAscii) (hvalid : validateSafeIntegers t.signingData = .ok ())
    (htext : Jcs.serialize t.signingData = .ok canonical) :
    t.signingPayload record.externals = .ok canonical.asciiBytes := by
  have hencode : canonical.encode = .ok canonical.asciiBytes := by
    rw [Text.encode, Text.encodeUtf8_of_isAscii hascii]
  have hjcs : record.externals.jcs t.signingData = Jcs.canonicalize t.signingData := rfl
  simp only [signingPayload, Externals.canonicalJson, hvalid, hjcs, Jcs.canonicalize, htext,
    hencode, bind, Except.bind]

theorem referenceText_isAscii : referenceText.IsAscii := by decide +kernel

/-- The reference signature is on the canonical payload of the reference receipt. -/
theorem signingPayload_referenceSigned :
    referenceSigned.signingPayload referenceX = .ok SignatureRecord.reference.message := by
  rw [referenceSigned_eq]
  exact signingPayload_of_serialize referenceText_isAscii (by decide +kernel) (by decide +kernel)

/-- Signing the reference receipt gives the reference signature. -/
theorem signL1Receipt_reference :
    signL1Receipt referenceX reference SignatureRecord.reference.seed = .ok referenceSigned := by
  have hsign : referenceX.ed25519.sign SignatureRecord.reference.seed
      SignatureRecord.reference.message = SignatureRecord.reference.signature :=
    SignatureRecord.sign_scheme _
  refine signL1Receipt_eq_ok_iff.mpr ⟨by decide +kernel, _, signingPayload_referenceSigned, ?_⟩
  rw [hsign, referenceSigned]

/-- Every field of the reference receipt is a JSON value. -/
theorem sameJson_referenceSigned (f : ReceiptField) :
    (referenceSigned.attr f).plain.SameJson (referenceSigned.attr f).plain := by
  cases f <;> exact ⟨_, rfl, rfl⟩

/-- A receipt with the signed data of the reference receipt, up to the spelling of numbers, meets
the assumptions on `jcs`. -/
theorem jcsCanonicalOn_of_signingPayload {t : L1Receipt}
    (hpayload : t.signingPayload referenceX = .ok SignatureRecord.reference.message)
    (hsame : t.signingData.SameJson referenceSigned.signingData) :
    referenceX.JcsCanonicalOn t.signingData referenceSigned.signingData := by
  intro b c hb hc
  rw [jcs_of_signingPayload hpayload] at hb
  rw [jcs_of_signingPayload signingPayload_referenceSigned] at hc
  exact ⟨fun _ => hsame, fun _ => Except.ok.inj (hb.symm.trans hc)⟩

/-! ## What a signature verifies for -/

/-- The signature on one receipt verifies for another, whose signature decodes to nothing else,
exactly when the two have the same signature, algorithm and fingerprint strings and the same JSON
value in every other field. -/
theorem verifySignature_signed_iff {r s t : L1Receipt} {seed : Bytes}
    (hsign : signL1Receipt X r seed = .ok s) (haccepts : ∃ b, t.signingPayload X = .ok b)
    (hdecode : ∀ b c, X.b64decode (t.attr .signature) = .ok b →
      X.b64decode (s.attr .signature) = .ok c → b = c)
    (hjcs : X.JcsCanonicalOn t.signingData s.signingData)
    (hsigns : ∀ p, s.signingPayload X = .ok p → X.ed25519.SignsCorrectly seed p)
    (hbinds : ∀ p, s.signingPayload X = .ok p →
      X.ed25519.BindsMessage (X.ed25519.publicKey seed) (X.ed25519.sign seed p)) :
    t.verifySignature X (some (X.ed25519.publicKey seed)) = true ↔
      t.attr .signature = s.attr .signature ∧
        t.attr .signingAlgorithm = s.attr .signingAlgorithm ∧
        t.attr .publicKeyFingerprint = s.attr .publicKeyFingerprint ∧
        ∀ f ≠ ReceiptField.signature, (t.attr f).plain.SameJson (s.attr f).plain := by
  obtain ⟨-, payload, hpayload, hs⟩ := signL1Receipt_eq_ok_iff.mp hsign
  obtain ⟨data, hdata⟩ := haccepts
  have hverifies : s.VerifiesWith X (X.ed25519.publicKey seed) (X.ed25519.sign seed payload)
      payload := by
    rw [hs] at hpayload ⊢
    exact signedWith_verifiesWith hpayload (hsigns payload (hs ▸ hpayload))
  -- the two payloads are equal exactly when the fields agree as JSON
  have hfields := hjcs data payload (jcs_of_signingPayload hdata) (jcs_of_signingPayload hpayload)
  rw [sameJson_signingData_iff] at hfields
  rw [verifySignature_eq_true_iff, ← hfields]
  constructor
  · -- the signature binds the message that it was made for
    rintro ⟨key, sig, message, hkey, ht⟩
    cases hkey
    have hsig : sig = X.ed25519.sign seed payload := by
      refine hdecode _ _ ?_ ?_
      · rw [ht.signature, Externals.b64decode_b64encode]
      · rw [hverifies.signature, Externals.b64decode_b64encode]
    subst hsig
    have hmessage : message = data := by
      have := ht.signingPayload
      rw [hdata] at this
      exact (Except.ok.inj this).symm
    subst hmessage
    exact ⟨ht.signature.trans hverifies.signature.symm,
      ht.algorithm.trans hverifies.algorithm.symm,
      ht.fingerprint.trans hverifies.fingerprint.symm,
      hbinds payload hpayload _ _ ht.verify hverifies.verify⟩
  · rintro ⟨hsignature, halgorithm, hfingerprint, rfl⟩
    exact ⟨_, _, _, rfl, hsignature ▸ hverifies.truthy, halgorithm.trans hverifies.algorithm,
      hsignature.trans hverifies.signature, hverifies.isPublicKey,
      hfingerprint.trans hverifies.fingerprint, hdata, hverifies.verify⟩

/-- The reference receipt with its latency spelled as a float still verifies. -/
theorem verifySignature_signed_iff_sample :
    (referenceSigned.set .latencyUs (.float Binary64.zero)).verifySignature referenceX
      (some (referenceX.ed25519.publicKey SignatureRecord.reference.seed)) = true := by
  have hsame := sameJson_set (f := .latencyUs) (v := .float Binary64.zero)
    sameJson_referenceSigned ⟨.num 0, rfl, rfl⟩
  -- the float `0.0` prints as the integer that it replaces
  have hpayload : (referenceSigned.set .latencyUs (.float Binary64.zero)).signingPayload
      referenceX = .ok SignatureRecord.reference.message := by
    rw [referenceSigned_eq]
    exact signingPayload_of_serialize referenceText_isAscii (by decide +kernel) (by decide +kernel)
  refine (verifySignature_signed_iff signL1Receipt_reference ⟨_, hpayload⟩ ?_ ?_ ?_ ?_).mpr
    ⟨rfl, rfl, rfl, fun f _ => hsame f⟩
  · intro b c hb hc
    exact Except.ok.inj (hb.symm.trans hc)
  · exact jcsCanonicalOn_of_signingPayload hpayload
      ((sameJson_signingData_iff _ _).mpr fun f _ => hsame f)
  · intro p hp
    rw [signingPayload_referenceSigned] at hp
    cases hp
    exact SignatureRecord.signsCorrectly _
  · exact fun _ _ => SignatureRecord.bindsMessage _ _ _

/-- A copy of the reference receipt with an `Enum` member as its algorithm. -/
def referenceEnum : L1Receipt :=
  referenceSigned.set .signingAlgorithm
    (.enum (text "Algorithm") (text "ED25519") (.str L1.signingAlgorithm))

/-- An `Enum` member that stands for the algorithm is refused, although every field agrees as a
JSON value and the signature is the very same string. -/
theorem enum_algorithm_not_verified :
    signL1Receipt referenceX reference SignatureRecord.reference.seed = .ok referenceSigned ∧
      (∃ b, referenceEnum.signingPayload referenceX = .ok b) ∧
      referenceX.JcsCanonicalOn referenceEnum.signingData referenceSigned.signingData ∧
      (∀ key sig, referenceX.ed25519.BindsMessage key sig) ∧
      referenceEnum.attr .signature = referenceSigned.attr .signature ∧
      (∀ f, (referenceEnum.attr f).plain.SameJson (referenceSigned.attr f).plain) ∧
      referenceEnum.verifySignature referenceX
        (some (referenceX.ed25519.publicKey SignatureRecord.reference.seed)) = false := by
  have hdata : referenceEnum.signingData = referenceSigned.signingData := rfl
  have hpayload : referenceEnum.signingPayload referenceX =
      .ok SignatureRecord.reference.message := by
    rw [signingPayload, hdata]
    exact signingPayload_referenceSigned
  have hsame : ∀ f, (referenceEnum.attr f).plain.SameJson (referenceSigned.attr f).plain :=
    sameJson_set sameJson_referenceSigned (sameJson_referenceSigned .signingAlgorithm)
  refine ⟨signL1Receipt_reference, ⟨_, hpayload⟩,
    jcsCanonicalOn_of_signingPayload hpayload
      ((sameJson_signingData_iff _ _).mpr fun f _ => hsame f),
    SignatureRecord.bindsMessage _, rfl, hsame, ?_⟩
  -- the algorithm is compared with a string before anything is verified
  rw [Bool.eq_false_iff, ne_eq, verifySignature_eq_true_iff]
  rintro ⟨key, sig, payload, -, h⟩
  cases h.algorithm

end L1Receipt
