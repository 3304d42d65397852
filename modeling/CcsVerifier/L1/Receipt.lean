import CcsVerifier.L1.Canonical

/-!
# L1 receipts

The 30-field receipt, its signed payload, signing and verification. A receipt maps every field
to a value, since dataclass annotations are not enforced.

* `L1Receipt.signingData`: what is signed, namely every field but the signature.
* `verifySignature_eq_true_iff`: everything that an accepted signature has passed.
* `signL1Receipt_eq_ok_iff`: what signing returns.
-/

/-- `RECEIPT_VERSION` -/
def L1.receiptVersion : Text := text "1.1"

/-- `SIGNING_ALGORITHM` -/
def L1.signingAlgorithm : Text := text "Ed25519"

/-- The fields of a receipt, in the order of their declaration. -/
inductive ReceiptField where
  | traceId
  | receiptVersion
  | verdict
  | timestamp
  | tool
  | toolCallId
  | paramsHash
  | argsDigest
  | ruleSummary
  | ruleVersion
  | requestHash
  | responseHash
  | runtimeContextHash
  | configHash
  | verifierSourceClass
  | deploymentMode
  | issuer
  | audience
  | nonce
  | sequence
  | issuedAt
  | expiresAt
  | maxClockSkew
  | action
  | signature
  | signingAlgorithm
  | publicKeyFingerprint
  | publicKey
  | verifiedAt
  | latencyUs
deriving DecidableEq

namespace ReceiptField

/-- All fields in order. -/
def all : List ReceiptField :=
  [.traceId, .receiptVersion, .verdict, .timestamp, .tool, .toolCallId, .paramsHash, .argsDigest,
    .ruleSummary, .ruleVersion, .requestHash, .responseHash, .runtimeContextHash, .configHash,
    .verifierSourceClass, .deploymentMode, .issuer, .audience, .nonce, .sequence, .issuedAt,
    .expiresAt, .maxClockSkew, .action, .signature, .signingAlgorithm, .publicKeyFingerprint,
    .publicKey, .verifiedAt, .latencyUs]

/-- The name of a field. -/
def name : ReceiptField → Text
  | .traceId => text "trace_id"
  | .receiptVersion => text "receipt_version"
  | .verdict => text "verdict"
  | .timestamp => text "timestamp"
  | .tool => text "tool"
  | .toolCallId => text "tool_call_id"
  | .paramsHash => text "params_hash"
  | .argsDigest => text "args_digest"
  | .ruleSummary => text "rule_summary"
  | .ruleVersion => text "rule_version"
  | .requestHash => text "request_hash"
  | .responseHash => text "response_hash"
  | .runtimeContextHash => text "runtime_context_hash"
  | .configHash => text "config_hash"
  | .verifierSourceClass => text "verifier_source_class"
  | .deploymentMode => text "deployment_mode"
  | .issuer => text "issuer"
  | .audience => text "audience"
  | .nonce => text "nonce"
  | .sequence => text "sequence"
  | .issuedAt => text "issued_at"
  | .expiresAt => text "expires_at"
  | .maxClockSkew => text "max_clock_skew"
  | .action => text "action"
  | .signature => text "signature"
  | .signingAlgorithm => text "signing_algorithm"
  | .publicKeyFingerprint => text "public_key_fingerprint"
  | .publicKey => text "public_key"
  | .verifiedAt => text "verified_at"
  | .latencyUs => text "latency_us"

/-- The list holds every field. -/
@[simp]
theorem mem_all (f : ReceiptField) : f ∈ all := by
  cases f <;> decide

/-- No two fields share a name. -/
theorem nodup_names : (all.map name).Nodup := by
  decide +kernel

/-- No two fields have one name. -/
theorem name_injective : Function.Injective name := fun f g h =>
  List.inj_on_of_nodup_map nodup_names (mem_all f) (mem_all g) h

/-- The field with this name. -/
def ofName? (t : Text) : Option ReceiptField := all.find? (·.name == t)

/-- A field is found under its name only. -/
@[simp]
theorem ofName?_eq_some_iff {t : Text} {f : ReceiptField} : ofName? t = some f ↔ f.name = t := by
  constructor
  · intro h
    simpa using List.find?_some h
  · rintro rfl
    cases hfind : ofName? f.name with
    | none =>
      have := List.find?_eq_none.mp hfind f (mem_all f)
      simp at this
    | some g =>
      have hg : g.name = f.name := by simpa using List.find?_some hfind
      rw [name_injective hg]

/-- The fields that are signed. -/
def signed : List ReceiptField := all.filter (· ≠ .signature)

/-- All fields but the signature are signed. -/
theorem mem_signed {f : ReceiptField} : f ∈ signed ↔ f ≠ .signature := by
  simp [signed]

/-- Their names are different. -/
theorem nodup_signed_names : (signed.map name).Nodup :=
  nodup_names.sublist ((List.filter_sublist (l := all)).map name)

end ReceiptField

/-- An L1 receipt. -/
structure L1Receipt where
  /-- The value of each field. -/
  attr : ReceiptField → PyVal

namespace PyVal

/-- The value of an `Enum` member, and any other value itself. -/
def plain : PyVal → PyVal
  | .enum _ _ value => value
  | v => v

@[simp]
theorem plain_str (s : Text) : (PyVal.str s).plain = .str s := rfl

@[simp]
theorem plain_int (z : ℤ) : (PyVal.int z).plain = .int z := rfl

@[simp]
theorem plain_float (x : Binary64) : (PyVal.float x).plain = .float x := rfl

/-- A JSON value holds no `Enum` member. -/
theorem IsJson.plain {v : PyVal} (h : v.IsJson) : v.plain = v := by
  cases h <;> rfl

/-- Neither does a number. -/
@[simp]
theorem plain_toVal (n : PyNum) : n.toVal.plain = n.toVal := by
  cases n <;> rfl

end PyVal

/-- A string, an integer or a float. -/
def PyVal.IsScalar (v : PyVal) : Prop :=
  (∃ s, v = .str s) ∨ (∃ z, v = .int z) ∨ ∃ x, v = .float x

namespace PyVal.IsScalar

/-- A number is a scalar. -/
theorem toVal (n : PyNum) : n.toVal.IsScalar := by
  cases n with
  | int z => exact .inr (.inl ⟨z, rfl⟩)
  | float x => exact .inr (.inr ⟨x, rfl⟩)

variable {v : PyVal} (h : v.IsScalar)

include h

/-- A scalar is no `Enum` member. -/
theorem plain : v.plain = v := by
  rcases h with ⟨s, rfl⟩ | ⟨z, rfl⟩ | ⟨x, rfl⟩ <;> rfl

/-- A scalar is JSON. -/
theorem isJson : v.IsJson := by
  rcases h with ⟨s, rfl⟩ | ⟨z, rfl⟩ | ⟨x, rfl⟩
  · exact .str s
  · exact .int z
  · exact .float x

/-- It is not `None`. -/
theorem ne_none : v ≠ .none := by
  rcases h with ⟨s, rfl⟩ | ⟨z, rfl⟩ | ⟨x, rfl⟩ <;> exact nofun

end PyVal.IsScalar

namespace Externals

variable (X : Externals)

/-- `public_key_fingerprint(public_key_bytes)` -/
def publicKeyFingerprint (key : Bytes) : Text := (Text.hex (X.sha256 key)).take 16

/-- `_canonical_base64(b64_str)` -/
def canonicalBase64 (v : PyVal) : Except PyExc Text := do
  let raw ← X.b64decode v
  return b64encode raw

/-- An encoding is canonical Base64. -/
@[simp]
theorem canonicalBase64_b64encode (b : Bytes) :
    X.canonicalBase64 (.str (b64encode b)) = .ok (b64encode b) := by
  simp [canonicalBase64, bind, Except.bind, pure, Except.pure]

end Externals

/-- Whether a string matches `^[A-Za-z0-9+/]*={0,2}$`, where `$` also matches before a final
line feed. -/
def matchesBase64Pattern (s : Text) : Bool :=
  let body := if s.getLast? = some 0x0a then s.dropLast else s
  let tail := body.dropWhile fun c =>
    decide (c.val < 128) && (Base64.sextetValue? (UInt8.ofNat c.val)).isSome
  decide (tail.length ≤ 2) && tail.all (· = 0x3d)

namespace L1Receipt

/-- `asdict(self)` -/
def asdict (r : L1Receipt) : List (Text × PyVal) := ReceiptField.all.map fun f => (f.name, r.attr f)

/-- `self.to_dict()` -/
def toDict (r : L1Receipt) : PyVal := .ofMembers r.asdict

/-- The dictionary that `signing_payload` canonicalizes. -/
def signingData (r : L1Receipt) : PyVal :=
  .ofMembers (ReceiptField.signed.map fun f => (f.name, (r.attr f).plain))

variable (X : Externals)

/-- `self.signing_payload()` -/
def signingPayload (r : L1Receipt) : Except PyExc Bytes := X.canonicalJson r.signingData

/-- The key embedded in a receipt, if it decodes to 32 bytes that agree with the fingerprint. -/
def embeddedKey (r : L1Receipt) : Option Bytes :=
  if !(r.attr .publicKey).truthy then none
  else
    match X.b64decode (r.attr .publicKey) with
    | .error _ => none
    | .ok key =>
      if key.length ≠ 32 then none
      else if (r.attr .publicKeyFingerprint).truthy
          && !(r.attr .publicKeyFingerprint).eqStr (X.publicKeyFingerprint key) then none
      else some key

/-- The bytes of a signature that is a canonical Base64 string. -/
def signatureBytes (v : PyVal) : Option Bytes :=
  match v with
  | .str s =>
    if !matchesBase64Pattern s then none
    else if s.length % 4 ≠ 0 then none
    else
      match X.b64decode (.str s) with
      | .error _ => none
      | .ok bytes => if b64encode bytes = s then some bytes else none
  | _ => none

/-- `self.verify_signature(public_key_bytes)` -/
def verifySignature (r : L1Receipt) (publicKeyBytes : Option Bytes) : Bool :=
  if !(r.attr .signature).truthy then false
  else
    match publicKeyBytes <|> r.embeddedKey X with
    | none => false
    | some key =>
      if !(r.attr .signingAlgorithm).eqStr L1.signingAlgorithm then false
      else
        match signatureBytes X (r.attr .signature) with
        | none => false
        | some sig =>
          if !X.ed25519.isPublicKey key then false
          else if !(r.attr .publicKeyFingerprint).eqStr (X.publicKeyFingerprint key) then false
          else
            match r.signingPayload X with
            | .error _ => false
            | .ok payload => X.ed25519.verify key sig payload

/-- The receipt with its four signature fields filled in. -/
def withSignature (r : L1Receipt) (signature fingerprint publicKey : Text) : L1Receipt where
  attr
    | .signature => .str signature
    | .signingAlgorithm => .str L1.signingAlgorithm
    | .publicKeyFingerprint => .str fingerprint
    | .publicKey => .str publicKey
    | f => r.attr f

end L1Receipt

/-- `get_public_key(private_key_seed)` -/
def getPublicKey (X : Externals) (seed : Bytes) : Except PyExc Bytes :=
  if seed.length = 32 then .ok (X.ed25519.publicKey seed)
  else PyExc.value (text "An Ed25519 private key is 32 bytes long")

/-- `sign_l1_receipt(receipt, private_key_seed)` -/
def signL1Receipt (X : Externals) (r : L1Receipt) (seed : Bytes) : Except PyExc L1Receipt := do
  let publicKeyBytes ← getPublicKey X seed
  let fp := X.publicKeyFingerprint publicKeyBytes
  let pk ← X.canonicalBase64 (.str (b64encode publicKeyBytes))
  let payload ← (r.withSignature [] fp pk).signingPayload X
  let sig ← X.canonicalBase64 (.str (b64encode (X.ed25519.sign seed payload)))
  return r.withSignature sig fp pk

/-! ## The signature gate -/

/-- A byte is the code point that it stands for. -/
private theorem val_ofNat_toNat (c : UInt8) : (Fin.ofNat 0x110000 c.toNat).val = c.toNat := by
  have hlt := c.toNat_lt
  simp only [Fin.val_ofNat]
  omega

/-- An encoding matches the pattern. -/
theorem matchesBase64Pattern_b64encode (b : Bytes) : matchesBase64Pattern (b64encode b) = true := by
  obtain ⟨digits, k, heq, hk, hdigits⟩ := Base64.encode_shape b
  have hascii : ∀ c ∈ Base64.encode b, c.toNat < 128 := fun c => Base64.lt_of_mem_encode
  have hpads : b64encode b = Text.ofAscii digits ++ List.replicate k 0x3d := by
    rw [b64encode, heq, Text.ofAscii, List.map_append, List.map_replicate]
    rfl
  have hdigit : ∀ c ∈ Text.ofAscii digits, (decide (c.val < 128) &&
      (Base64.sextetValue? (UInt8.ofNat c.val)).isSome) = true := by
    intro c hc
    obtain ⟨d, hd, rfl⟩ := List.mem_map.mp hc
    have hlt := hascii d (heq ▸ List.mem_append_left _ hd)
    rw [val_ofNat_toNat, UInt8.ofNat_toNat, hdigits d hd]
    simpa using hlt
  -- the pattern of the source would allow a newline at the end
  have hlast : (b64encode b).getLast? ≠ some 0x0a := by
    intro hlast
    have hmem := List.mem_of_getLast? hlast
    rw [hpads] at hmem
    rcases List.mem_append.mp hmem with hd | hp
    · exact absurd (hdigit _ hd) (by decide)
    · exact absurd (List.eq_of_mem_replicate hp) (by decide)
  have htail : (b64encode b).dropWhile (fun c => decide (c.val < 128) &&
      (Base64.sextetValue? (UInt8.ofNat c.val)).isSome) = List.replicate k 0x3d := by
    rw [hpads, List.dropWhile_append_of_pos hdigit]
    cases k with
    | zero => rfl
    | succ k => rw [List.replicate_succ, List.dropWhile_cons_of_neg (by decide)]
  simp only [matchesBase64Pattern, if_neg hlast, htail]
  simp [hk]

/-- The gate lets through exactly the standard encodings. -/
theorem L1Receipt.signatureBytes_eq_some_iff {X : Externals} {v : PyVal} {b : Bytes} :
    L1Receipt.signatureBytes X v = some b ↔ v = .str (b64encode b) := by
  constructor
  · intro h
    unfold signatureBytes at h
    split at h
    · next s =>
      split at h
      · cases h
      · split at h
        · cases h
        · split at h
          · cases h
          · next bytes hbytes =>
            split at h
            · next hcanon => cases h; rw [hcanon]
            · cases h
    · cases h
  · rintro rfl
    -- an encoding passes the three checks before it is decoded
    have hlength : (b64encode b).length % 4 = 0 := by
      rw [length_b64encode]
      omega
    simp only [signatureBytes, matchesBase64Pattern_b64encode, Bool.not_true, Bool.false_eq_true,
      ↓reduceIte, hlength, ne_eq, not_true_eq_false, Externals.b64decode_b64encode]

namespace L1Receipt

variable {X : Externals}

/-- The signature of a receipt verifies for a key. -/
structure VerifiesWith (X : Externals) (r : L1Receipt) (key sig payload : Bytes) : Prop where
  /-- The signature is not empty. -/
  truthy : (r.attr .signature).truthy = true
  /-- The algorithm is the expected string. -/
  algorithm : r.attr .signingAlgorithm = .str L1.signingAlgorithm
  /-- The signature is the standard encoding of `sig`. -/
  signature : r.attr .signature = .str (b64encode sig)
  /-- The key is accepted. -/
  isPublicKey : X.ed25519.isPublicKey key = true
  /-- The fingerprint is that of the key. -/
  fingerprint : r.attr .publicKeyFingerprint = .str (X.publicKeyFingerprint key)
  /-- The signed data has the canonical form `payload`. -/
  signingPayload : r.signingPayload X = .ok payload
  /-- The signature verifies. -/
  verify : X.ed25519.verify key sig payload = true

/-- What an accepted signature has passed. -/
theorem verifySignature_eq_true_iff {r : L1Receipt} {k : Option Bytes} :
    r.verifySignature X k = true ↔
      ∃ key sig payload, (k <|> r.embeddedKey X) = some key ∧ r.VerifiesWith X key sig payload := by
  unfold verifySignature
  constructor
  · -- the checks in the order of the source, each of which refuses
    intro h
    split at h
    · cases h
    next htruthy =>
    split at h
    · cases h
    next key hkey =>
    split at h
    · cases h
    next halg =>
    split at h
    · cases h
    next sig hsig =>
    split at h
    · cases h
    next hpub =>
    split at h
    · cases h
    next hfp =>
    split at h
    · cases h
    next payload hpayload =>
    exact ⟨key, sig, payload, hkey, by simpa using htruthy, by simpa using halg,
      signatureBytes_eq_some_iff.mp hsig, by simpa using hpub, by simpa using hfp, hpayload, h⟩
  · rintro ⟨key, sig, payload, hkey, h⟩
    have hsig := signatureBytes_eq_some_iff (X := X).mpr h.signature
    simp [h.truthy, hkey, h.algorithm, hsig, h.isPublicKey, h.fingerprint,
      h.signingPayload, h.verify, PyVal.eqStr]

/-- What a receipt has passed that verifies for its own key. -/
theorem verifySignature_none_eq_true_iff {r : L1Receipt} : r.verifySignature X none = true ↔
    ∃ key sig payload, r.embeddedKey X = some key ∧ r.VerifiesWith X key sig payload :=
  verifySignature_eq_true_iff

/-- The embedded key is decoded from a non-empty field and agrees with the fingerprint, if any. -/
theorem embeddedKey_eq_some_iff {r : L1Receipt} {key : Bytes} :
    r.embeddedKey X = some key ↔
      (r.attr .publicKey).truthy = true ∧ X.b64decode (r.attr .publicKey) = .ok key ∧
        key.length = 32 ∧ ((r.attr .publicKeyFingerprint).truthy = true →
          r.attr .publicKeyFingerprint = .str (X.publicKeyFingerprint key)) := by
  unfold embeddedKey
  cases htruthy : (r.attr .publicKey).truthy
  · simp
  cases hdecode : X.b64decode (r.attr .publicKey) with
  | error e => simp
  | ok bytes =>
    by_cases hlen : bytes.length = 32
    · cases hfp : (r.attr .publicKeyFingerprint).truthy
      · simp only [Bool.not_true, Bool.false_eq_true, ↓reduceIte, hlen, ne_eq, not_true_eq_false,
          Bool.false_and, Option.some.injEq, true_and, Except.ok.injEq, false_imp_iff, and_true]
        exact ⟨fun h => ⟨h, h ▸ hlen⟩, fun h => h.1⟩
      · -- a fingerprint that is given has to be the one of the key
        by_cases heq : r.attr .publicKeyFingerprint = .str (X.publicKeyFingerprint bytes)
        · simp only [Bool.not_true, Bool.false_eq_true, ↓reduceIte, hlen, ne_eq, not_true_eq_false,
            PyVal.eqStr_iff.mpr heq, Bool.and_false, Option.some.injEq, true_and, Except.ok.injEq,
            forall_const]
          exact ⟨fun h => h ▸ ⟨rfl, hlen, heq⟩, fun h => h.1⟩
        · simp only [Bool.not_true, Bool.false_eq_true, ↓reduceIte, hlen, ne_eq, not_true_eq_false,
            PyVal.eqStr_eq_false_iff.mpr heq, Bool.not_false, Bool.and_self, reduceCtorEq,
            Except.ok.injEq, true_and, forall_const, false_iff, not_and]
          rintro rfl - h
          exact heq h
    · simp only [Bool.not_true, Bool.false_eq_true, ↓reduceIte, ne_eq, hlen, not_false_eq_true,
        reduceCtorEq, Except.ok.injEq, true_and, false_iff, not_and]
      rintro rfl h
      exact absurd h hlen

/-! ## What signing returns -/

/-- The signed data does not depend on the signature. -/
theorem signingData_withSignature (r : L1Receipt) (s t fp pk : Text) :
    (r.withSignature s fp pk).signingData = (r.withSignature t fp pk).signingData := rfl

end L1Receipt

/-- The receipt as signing with a seed completes it, for a signature of given bytes. -/
def L1Receipt.signedWith (X : Externals) (r : L1Receipt) (seed sig : Bytes) : L1Receipt :=
  r.withSignature (b64encode sig) (X.publicKeyFingerprint (X.ed25519.publicKey seed))
    (b64encode (X.ed25519.publicKey seed))

/-- Signing returns the completed receipt, with the signature on its own canonical payload. -/
theorem signL1Receipt_eq_ok_iff {X : Externals} {r s : L1Receipt} {seed : Bytes} :
    signL1Receipt X r seed = .ok s ↔
      seed.length = 32 ∧ ∃ payload, s.signingPayload X = .ok payload ∧
        s = r.signedWith X seed (X.ed25519.sign seed payload) := by
  unfold signL1Receipt getPublicKey
  by_cases hseed : seed.length = 32
  -- the payload is computed before the signature is set, which is not part of it
  · simp only [hseed, ↓reduceIte, Except.bind_eq_ok_iff, Except.ok.injEq, exists_eq_left',
      Externals.canonicalBase64_b64encode, pure, Except.pure, true_and]
    constructor
    · rintro ⟨payload, hpayload, rfl⟩
      refine ⟨payload, ?_, rfl⟩
      rwa [L1Receipt.signingPayload, L1Receipt.signingData_withSignature r _ []]
    · rintro ⟨payload, hpayload, rfl⟩
      refine ⟨payload, ?_, rfl⟩
      rwa [L1Receipt.signedWith, L1Receipt.signingPayload,
        L1Receipt.signingData_withSignature r _ []] at hpayload
  · simp [hseed, PyExc.value, bind, Except.bind]

/-- The fields that signing fills in. -/
def ReceiptField.isSignature : ReceiptField → Bool
  | .signature | .signingAlgorithm | .publicKeyFingerprint | .publicKey => true
  | _ => false

namespace L1Receipt

variable {X : Externals}

/-- Signing sets the signature fields only. -/
theorem attr_signedWith_of_not_isSignature {f : ReceiptField} (hf : f.isSignature = false)
    (r : L1Receipt) (seed sig : Bytes) : (r.signedWith X seed sig).attr f = r.attr f := by
  cases f <;> first | rfl | cases hf

/-- Signing keeps the fields that it does not fill in. -/
theorem attr_of_signL1Receipt {r s : L1Receipt} {seed : Bytes}
    (hsign : signL1Receipt X r seed = .ok s) {f : ReceiptField} (hf : f.isSignature = false) :
    s.attr f = r.attr f := by
  obtain ⟨-, payload, -, rfl⟩ := signL1Receipt_eq_ok_iff.mp hsign
  exact attr_signedWith_of_not_isSignature hf r seed _

/-- Signing fills in strings that can be encoded. -/
theorem attr_signedWith_of_isSignature {f : ReceiptField} (hf : f.isSignature = true)
    (r : L1Receipt) (seed sig : Bytes) :
    ∃ t : Text, (r.signedWith X seed sig).attr f = .str t ∧ t.Encodable := by
  cases f <;> first
    | cases hf; done
    | exact ⟨_, rfl, (Text.IsAscii.encodable (by decide) : L1.signingAlgorithm.Encodable)⟩
    | exact ⟨_, rfl, Text.Encodable.take (Text.hex_isAscii _).encodable _⟩
    | exact ⟨_, rfl, b64encode_encodable _⟩

/-- Signing with a key of the right length succeeds exactly when the fields that it keeps are
canonical. -/
theorem signL1Receipt_isOk_iff (hjcs : X.JcsAccepts) {r : L1Receipt} {seed : Bytes}
    (hseed : seed.length = 32) (hjson : ∀ f, f.isSignature = false → (r.attr f).plain.IsJson) :
    (∃ s, signL1Receipt X r seed = .ok s) ↔
      ∀ f, f.isSignature = false → (r.attr f).plain.Canonical := by
  -- the signed data does not depend on the signature
  have hdata : ∀ sig, (r.signedWith X seed sig).signingData = (r.signedWith X seed []).signingData :=
    fun sig => signingData_withSignature r _ _ _ _
  have hok : (∃ s, signL1Receipt X r seed = .ok s) ↔
      ∃ b, X.canonicalJson (r.signedWith X seed []).signingData = .ok b := by
    constructor
    · rintro ⟨s, hs⟩
      obtain ⟨-, payload, hpayload, hsigned⟩ := signL1Receipt_eq_ok_iff.mp hs
      rw [hsigned, signingPayload, hdata] at hpayload
      exact ⟨payload, hpayload⟩
    · rintro ⟨payload, hpayload⟩
      refine ⟨_, signL1Receipt_eq_ok_iff.mpr ⟨hseed, payload, ?_, rfl⟩⟩
      rw [signingPayload, hdata, hpayload]
  have hmember : ∀ f, f ≠ .signature → (((r.signedWith X seed []).attr f).plain.IsJson ∧
      (((r.signedWith X seed []).attr f).plain.Canonical ↔
        (f.isSignature = false → (r.attr f).plain.Canonical))) := by
    intro f hne
    cases hf : f.isSignature with
    | false =>
      rw [attr_signedWith_of_not_isSignature hf]
      exact ⟨hjson f hf, by simp⟩
    | true =>
      obtain ⟨s, hs, hencodable⟩ := attr_signedWith_of_isSignature (X := X) hf r seed []
      rw [hs]
      exact ⟨.str s, by simpa [PyVal.plain] using hencodable⟩
  have hname : ∀ f : ReceiptField, f.name.Encodable := fun f => by cases f <;> decide +kernel
  rw [hok, Externals.canonicalJson_isOk_iff hjcs ?_, signingData, PyVal.canonical_ofMembers_iff]
  · constructor
    · intro h f hf
      have hne : f ≠ .signature := by
        rintro rfl
        cases hf
      have hmem := h _ (List.mem_map_of_mem (ReceiptField.mem_signed.mpr hne))
      exact (hmember f hne).2.mp hmem.2 hf
    · intro h m hm
      obtain ⟨f, hf, rfl⟩ := List.mem_map.mp hm
      exact ⟨hname f, (hmember f (ReceiptField.mem_signed.mp hf)).2.mpr (h f)⟩
  · refine PyVal.isJson_ofMembers ?_ ?_
    · rw [List.map_map]
      exact ReceiptField.nodup_signed_names
    · intro k v hkv
      obtain ⟨f, hf, heq⟩ := List.mem_map.mp hkv
      cases heq
      exact (hmember f (ReceiptField.mem_signed.mp hf)).1

/-- Of a receipt with JSON values, signing returns JSON values whose strings can be encoded. -/
theorem isJson_of_signL1Receipt (hjcs : X.JcsAccepts) {r s : L1Receipt} {seed : Bytes}
    (hsign : signL1Receipt X r seed = .ok s)
    (hjson : ∀ f, f.isSignature = false → (r.attr f).IsJson) (f : ReceiptField) :
    (s.attr f).IsJson ∧ (s.attr f).EncodableStrings := by
  obtain ⟨hseed, payload, -, hs⟩ := signL1Receipt_eq_ok_iff.mp hsign
  -- signing sets four fields to strings and leaves the others as they were
  cases hf : f.isSignature with
  | false =>
    have hplain : ∀ g, g.isSignature = false → (r.attr g).plain.IsJson := fun g hg => by
      rw [(hjson g hg).plain]
      exact hjson g hg
    have hcanonical := (signL1Receipt_isOk_iff hjcs hseed hplain).mp ⟨s, hsign⟩ f hf
    rw [(hjson f hf).plain] at hcanonical
    rw [attr_of_signL1Receipt hsign hf]
    exact ⟨hjson f hf, hcanonical.encodableStrings⟩
  | true =>
    obtain ⟨t, ht, hencodable⟩ := attr_signedWith_of_isSignature (X := X) hf r seed _
    rw [hs, ht]
    exact ⟨.str t, hencodable⟩

/-- A signed receipt verifies for the key of its seed. -/
theorem signedWith_verifiesWith {r : L1Receipt} {seed payload : Bytes}
    (hpayload : (r.signedWith X seed (X.ed25519.sign seed payload)).signingPayload X = .ok payload)
    (hsigns : X.ed25519.SignsCorrectly seed payload) :
    (r.signedWith X seed (X.ed25519.sign seed payload)).VerifiesWith X (X.ed25519.publicKey seed)
      (X.ed25519.sign seed payload) payload where
  truthy := by
    -- a signature has 64 bytes
    have hne : b64encode (X.ed25519.sign seed payload) ≠ [] := by
      intro h
      have hlength := congrArg List.length h
      rw [length_b64encode, X.ed25519.length_sign] at hlength
      cases hlength
    change (!List.isEmpty _) = true
    simpa using hne
  algorithm := rfl
  signature := rfl
  isPublicKey := X.ed25519.isPublicKey_publicKey seed
  fingerprint := rfl
  signingPayload := hpayload
  verify := hsigns

/-- The key that a signed receipt embeds is the key of its seed. -/
theorem embeddedKey_signedWith (r : L1Receipt) (seed sig : Bytes) :
    (r.signedWith X seed sig).embeddedKey X = some (X.ed25519.publicKey seed) := by
  rw [embeddedKey_eq_some_iff]
  refine ⟨?_, X.b64decode_b64encode _, X.ed25519.length_publicKey seed, fun _ => rfl⟩
  have hne : b64encode (X.ed25519.publicKey seed) ≠ [] := by
    intro h
    have hlength := congrArg List.length h
    rw [length_b64encode, X.ed25519.length_publicKey] at hlength
    cases hlength
  change (!List.isEmpty _) = true
  simpa using hne

/-- A receipt that was signed verifies, for its own key and for the key of the seed. -/
theorem verifySignature_of_signL1Receipt {r s : L1Receipt} {seed : Bytes}
    (hsign : signL1Receipt X r seed = .ok s)
    (hsigns : ∀ p, s.signingPayload X = .ok p → X.ed25519.SignsCorrectly seed p) :
    s.verifySignature X none = true ∧
      s.verifySignature X (some (X.ed25519.publicKey seed)) = true := by
  obtain ⟨-, payload, hpayload, rfl⟩ := signL1Receipt_eq_ok_iff.mp hsign
  have hverifies := signedWith_verifiesWith hpayload (hsigns payload hpayload)
  exact ⟨verifySignature_none_eq_true_iff.mpr ⟨_, _, _, embeddedKey_signedWith r _ _, hverifies⟩,
    verifySignature_eq_true_iff.mpr ⟨_, _, _, rfl, hverifies⟩⟩

end L1Receipt
