import CcsVerifier.Crypto.Sha256
import CcsVerifier.Externals
import CcsVerifier.Python.Jcs

/-!
# Concrete parameters

Functions that can stand for the parameters of the model on concrete data: SHA-256, HMAC and the
canonical JSON text are computed, and a signature scheme is built around one recorded Ed25519
signature. They show that the hypotheses of the results can be met together.

* `SignatureRecord.scheme`: signs the recorded message with the recorded signature, and verifies
  no other signature.
* `SignatureRecord.externals`: the parameters around such a scheme.
* `SignatureRecord.bindsMessage`, `SignatureRecord.signsCorrectly`: the promises of the scheme.
* `macWithoutCollision_eq_iff`: a message authentication code changed so that no other message has
  the truncated tag of a given one.
-/

/-- One Ed25519 signature: the seed, its public key, a message and the signature on it. -/
structure SignatureRecord where
  /-- The private key seed. -/
  seed : Bytes
  /-- The public key of the seed. -/
  publicKey : Bytes
  /-- The signed message. -/
  message : Bytes
  /-- The signature of the message. -/
  signature : Bytes
  /-- A public key has 32 bytes. -/
  length_publicKey : publicKey.length = 32
  /-- A signature has 64 bytes. -/
  length_signature : signature.length = 64

namespace SignatureRecord

/-- The scheme around a recorded signature. Other seeds and messages get digests in place of keys
and signatures, and these verify for no message. -/
def scheme (r : SignatureRecord) : SignatureScheme where
  publicKey seed := if seed = r.seed then r.publicKey else Sha256.hash seed
  sign seed message :=
    if seed = r.seed ∧ message = r.message then r.signature
    else Sha256.hash seed ++ Sha256.hash message
  isPublicKey key := key.length == 32
  verify key signature message :=
    decide (key = r.publicKey ∧ signature = r.signature ∧ message = r.message)
  length_publicKey seed := by
    split
    · exact r.length_publicKey
    · exact Sha256.length_hash seed
  length_sign seed message := by
    split
    · exact r.length_signature
    · rw [List.length_append, Sha256.length_hash, Sha256.length_hash]
  isPublicKey_publicKey seed := by
    split
    · simp [r.length_publicKey]
    · simp

/-- Concrete parameters around a recorded signature. -/
def externals (r : SignatureRecord) : Externals where
  isPrintable c := decide (0xa1 ≤ c.val ∧ c.val ≠ 0xad ∧ ¬c.IsSurrogate)
  base64Error b :=
    if b.all fun c => c = Base64.pad || (Base64.sextetValue? c).isSome then text "Incorrect padding"
    else text "Only base64 data is allowed"
  sha256 := Sha256.hash
  hmacSha256 := Sha256.hmac
  ed25519 := r.scheme
  jcs := Jcs.canonicalize
  length_sha256 := Sha256.length_hash
  length_hmacSha256 := Sha256.length_hmac

/-- The recorded seed has the recorded public key. -/
@[simp]
theorem publicKey_scheme (r : SignatureRecord) : r.scheme.publicKey r.seed = r.publicKey := by
  simp [scheme]

/-- The recorded message has the recorded signature. -/
@[simp]
theorem sign_scheme (r : SignatureRecord) : r.scheme.sign r.seed r.message = r.signature := by
  simp [scheme]

/-- No signature verifies for two messages. -/
theorem bindsMessage (r : SignatureRecord) (key signature : Bytes) :
    r.scheme.BindsMessage key signature := by
  intro m n hm hn
  simp only [scheme, decide_eq_true_eq] at hm hn
  rw [hm.2.2, hn.2.2]

/-- The recorded signature verifies. -/
theorem signsCorrectly (r : SignatureRecord) : r.scheme.SignsCorrectly r.seed r.message := by
  simp [SignatureScheme.SignsCorrectly, scheme]

end SignatureRecord

/-! ## The reference times -/

/-- The reference time, in seconds, is a float. -/
theorem abs_referenceTime_lt : |(1893456000 : ℤ)| < 2 ^ 53 := by norm_num

/-- Five minutes after the reference time. -/
theorem abs_referenceExpiry_lt : |(1893456300 : ℤ)| < 2 ^ 53 := by norm_num

/-! ## The reference key -/

/-- The bytes that pairs of hexadecimal digits spell. -/
def bytesOfHex : Text → Bytes
  | a :: b :: rest =>
    let digit := fun c : CodePoint => if c.val < 58 then c.val - 48 else c.val - 87
    UInt8.ofNat (digit a * 16 + digit b) :: bytesOfHex rest
  | _ => []

/-- The canonical text of the reference receipt. -/
def referenceText : Text :=
  text "\x7b\"action\":\"shell.execute\","
    ++ text "\"args_digest\":"
    ++ text "\"a1c9b7564045c6893986ae6f97c75aa76b4b8029afde8024bc830b041f99657e\","
    ++ text "\"audience\":\"public\","
    ++ text "\"config_hash\":"
    ++ text "\"658e4d30ac87fee0d1b29fcb8452480309c690d7fc7624d5f852af9590370830\","
    ++ text "\"deployment_mode\":\"in-process\",\"expires_at\":1893456300,\"issued_at\":1893456000,"
    ++ text "\"issuer\":\"ccs-verifier/reference\",\"latency_us\":0,\"max_clock_skew\":0,"
    ++ text "\"nonce\":\"reference-nonce-001\",\"params_hash\":\"refvec001\","
    ++ text "\"public_key\":\"v63J4PdpUTeDVUuGMgpayNc5ex/ufTmrW+9oKyybbCw=\","
    ++ text "\"public_key_fingerprint\":\"889d3f5bd86f5ff2\",\"receipt_version\":\"1.1\","
    ++ text "\"request_hash\":"
    ++ text "\"63bbd4df19da053007154e7c045cee72705d54fefb0cc7f3c97d809ac085b2a2\","
    ++ text "\"response_hash\":"
    ++ text "\"4062edaf750fb8074e7e83e0c9028c94e32468a8b6f1614774328ef045150f93\","
    ++ text "\"rule_summary\":\"reference_vector\",\"rule_version\":\"1.1.20\","
    ++ text "\"runtime_context_hash\":"
    ++ text "\"035ff4bdcdebc67e8b5ec271ae554941f4df6a923e2e7ce686d5ce3c4dfcf793\","
    ++ text "\"sequence\":0,\"signing_algorithm\":\"Ed25519\",\"timestamp\":1893456000,"
    ++ text "\"tool\":\"shell\",\"tool_call_id\":\"\",\"trace_id\":\"ref-vector-001\","
    ++ text "\"verdict\":\"allow\",\"verified_at\":1893456000,"
    ++ text "\"verifier_source_class\":\"VerifierServer\"\x7d"

/-- The reference key of `reference_issuer.json` with the reference receipt: the canonical text
that was signed and the signature on it. -/
def SignatureRecord.reference : SignatureRecord where
  seed := bytesOfHex (text "61f8411a9852fc0175451deb6731d5bb9b5b002e20bfcca4c2f883129cb10fa8")
  publicKey := bytesOfHex (text "bfadc9e0f769513783554b86320a5ac8d7397b1fee7d39ab5bef682b2c9b6c2c")
  message := referenceText.asciiBytes
  signature := bytesOfHex (text "f2ad21a285321a43afe5f99554008db0f3af6ec2c2be19f011b14dd5d34d80ff"
    ++ text "66f97a9562f5d627f416f7c4a2a2f8710e70472662d19010adad6e00cef23801")
  length_publicKey := by decide +kernel
  length_signature := by decide +kernel

/-! ## Tags without collisions -/

namespace Text

/-- Different numbers below sixteen have different digits. -/
theorem hexDigit_injective {m n : ℕ} (hm : m < 16) (hn : n < 16) (h : hexDigit m = hexDigit n) :
    m = n := by
  have hval : ∀ k < 16, (hexDigit k).val = if k < 10 then 48 + k else 87 + k := fun k hk => by
    unfold hexDigit
    split <;> simp only [Fin.val_ofNat] <;> omega
  have heq := congrArg Fin.val h
  rw [hval m hm, hval n hn] at heq
  split_ifs at heq <;> omega

/-- The first `2 * n` digits are those of the first `n` bytes. -/
theorem hex_take (b : Bytes) (n : ℕ) : (hex b).take (2 * n) = hex (b.take n) := by
  induction b generalizing n with
  | nil => simp [hex]
  | cons x b ih =>
    cases n with
    | zero => simp [hex]
    | succ n =>
      have hrest := ih n
      simp only [hex, List.flatMap_cons, List.take_succ_cons] at hrest ⊢
      rw [← hrest]
      rfl

/-- The digits determine the bytes. -/
theorem hex_injective {a b : Bytes} (h : hex a = hex b) : a = b := by
  induction a generalizing b with
  | nil =>
    cases b with
    | nil => rfl
    | cons y b => simp [hex] at h
  | cons x a ih =>
    cases b with
    | nil => simp [hex] at h
    | cons y b =>
      have hx := x.toNat_lt
      have hy := y.toNat_lt
      simp only [hex, List.flatMap_cons, List.cons_append, List.nil_append, List.cons.injEq] at h
      -- a byte is known from its two digits
      obtain ⟨hhigh, hlow, hrest⟩ := h
      have hhigh := hexDigit_injective (by omega) (by omega) hhigh
      have hlow := hexDigit_injective (by omega) (by omega) hlow
      rw [UInt8.toNat.inj (show x.toNat = y.toNat by omega), ih hrest]

end Text

/-- The code `mac` for a key, changed on the messages that share the first 16 bytes of their tag
with `message`. -/
def macWithoutCollision (mac : Bytes → Bytes → Bytes) (message key m : Bytes) : Bytes :=
  if m ≠ message ∧ (mac key m).take 16 = (mac key message).take 16 then
    List.replicate 32 ((mac key message).headD 0 + 1)
  else mac key m

/-- No other message has the first 16 bytes of the tag of `message`. -/
theorem macWithoutCollision_eq_iff {mac : Bytes → Bytes → Bytes} {message key m : Bytes}
    (hlength : (mac key message).length = 32) :
    (macWithoutCollision mac message key m).take 16 =
      (macWithoutCollision mac message key message).take 16 ↔ m = message := by
  refine ⟨fun h => by_contra fun hne => ?_, fun h => by rw [h]⟩
  have hself : macWithoutCollision mac message key message = mac key message := by
    simp [macWithoutCollision]
  rw [hself, macWithoutCollision] at h
  split at h
  · -- the replaced tag starts with another byte
    cases htag : mac key message with
    | nil => simp [htag] at hlength
    | cons x tag =>
      rw [htag] at h
      simp only [List.headD_cons, List.take_succ_cons, List.replicate_succ, List.cons.injEq] at h
      have hbyte := congrArg UInt8.toNat h.1
      rw [UInt8.toNat_add, UInt8.toNat_one] at hbyte
      omega
  · next hcond => exact hcond ⟨hne, h⟩

/-- The parameters with the message authentication code changed so that no other message has the
truncated tag of `message`. -/
def Externals.withUniqueTag (X : Externals) (message : Bytes) : Externals where
  isPrintable := X.isPrintable
  base64Error := X.base64Error
  sha256 := X.sha256
  hmacSha256 := macWithoutCollision X.hmacSha256 message
  ed25519 := X.ed25519
  jcs := X.jcs
  length_sha256 := X.length_sha256
  length_hmacSha256 key m := by
    unfold macWithoutCollision
    split
    · exact List.length_replicate
    · exact X.length_hmacSha256 key m
