import CcsVerifier.Python.Format

/-!
# Functions from outside the repository

The model takes as parameters what the verifier imports and does not implement: the
cryptographic primitives, the `jcs` package and the texts that belong to the Python runtime.
The fields with proofs state what the documentation of these promises for every input; what a
single result needs beyond that is a named hypothesis of the result.

* `Externals`: the parameters.
* `SignsCorrectly`, `BindsMessage`: what Ed25519 promises about one signature.
* `Externals.b64decode`, `Externals.b64encode`: `base64` with `validate=True`.
-/

/-- A signature scheme with deterministic signing, as Ed25519 is. -/
structure SignatureScheme where
  /-- The public key of a private key seed. -/
  publicKey : Bytes → Bytes
  /-- The signature of a message under a private key seed. -/
  sign : Bytes → Bytes → Bytes
  /-- Whether a byte string is accepted as a public key. -/
  isPublicKey : Bytes → Bool
  /-- Whether a signature verifies for a public key and a message. -/
  verify : Bytes → Bytes → Bytes → Bool
  /-- A public key has 32 bytes. -/
  length_publicKey : ∀ seed, (publicKey seed).length = 32
  /-- A signature has 64 bytes. -/
  length_sign : ∀ seed message, (sign seed message).length = 64
  /-- The public key of a seed is accepted. -/
  isPublicKey_publicKey : ∀ seed, isPublicKey (publicKey seed) = true

namespace SignatureScheme

variable (S : SignatureScheme)

/-- The signature of `message` under `seed` verifies for the public key of `seed`. -/
def SignsCorrectly (seed message : Bytes) : Prop :=
  S.verify (S.publicKey seed) (S.sign seed message) message = true

/-- At most one message verifies for this public key and signature. -/
def BindsMessage (key signature : Bytes) : Prop :=
  ∀ m n, S.verify key signature m = true → S.verify key signature n = true → m = n

end SignatureScheme

/-- The functions that the verifier calls and does not implement. -/
structure Externals where
  /-- `str.isprintable` of a non-ASCII character. -/
  isPrintable : CodePoint → Bool
  /-- The text of the error that decoding this Base64 text raises. -/
  base64Error : Bytes → Text
  /-- SHA-256. -/
  sha256 : Bytes → Bytes
  /-- HMAC-SHA256 of a key and a message. -/
  hmacSha256 : Bytes → Bytes → Bytes
  /-- Ed25519. -/
  ed25519 : SignatureScheme
  /-- `jcs.canonicalize`. -/
  jcs : PyVal → Except PyExc Bytes
  /-- A SHA-256 digest has 32 bytes. -/
  length_sha256 : ∀ b, (sha256 b).length = 32
  /-- An HMAC-SHA256 tag has 32 bytes. -/
  length_hmacSha256 : ∀ key message, (hmacSha256 key message).length = 32

/-! ## Base64 -/

/-- `base64.b64encode(b).decode("ascii")`. -/
def b64encode (b : Bytes) : Text := Text.ofAscii (Base64.encode b)

namespace Externals

variable (X : Externals)

/-- Strict decoding of Base64 bytes. -/
def b64decodeBytes (b : Bytes) : Except PyExc Bytes :=
  match Base64.decode b with
  | some bytes => .ok bytes
  | none => .error ⟨.binasciiError, X.base64Error b⟩

/-- `base64.b64decode(v, validate=True)`. -/
def b64decode : PyVal → Except PyExc Bytes
  | .str s =>
    match s.encodeAscii with
    | some b => X.b64decodeBytes b
    | none => PyExc.value (text "string argument should contain only ASCII characters")
  | .bytes b => X.b64decodeBytes b
  | v => PyExc.type (text "argument should be a bytes-like object or ASCII string, not '"
      ++ v.typeName ++ text "'")

/-- The ASCII bytes of an ASCII text. -/
private theorem encodeAscii_ofAscii {b : Bytes} (h : ∀ c ∈ b, c.toNat < 128) :
    (Text.ofAscii b).encodeAscii = some b := by
  -- a byte below 128 is the code point of its character
  have hval : ∀ c ∈ b, (Fin.ofNat 0x110000 c.toNat).val = c.toNat := fun c hc => by
    have := h c hc
    simp only [Fin.val_ofNat]
    omega
  have hascii : (Text.ofAscii b).IsAscii := by
    intro d hd
    obtain ⟨c, hc, rfl⟩ := List.mem_map.mp hd
    rw [hval c hc]
    exact h c hc
  rw [Text.encodeAscii, if_pos hascii, Text.asciiBytes, Text.ofAscii, List.map_map]
  congr 1
  conv_rhs => rw [← List.map_id b]
  refine List.map_congr_left fun c hc => ?_
  simp only [Function.comp_apply, hval c hc, id_eq, UInt8.ofNat_toNat]

/-- Decoding gives the encoded bytes back. -/
@[simp]
theorem b64decode_b64encode (b : Bytes) : X.b64decode (.str (b64encode b)) = .ok b := by
  simp only [b64decode, b64encode, encodeAscii_ofAscii fun c => Base64.lt_of_mem_encode,
    b64decodeBytes, Base64.decode_encode]

end Externals

/-- The encoding determines the bytes. -/
theorem b64encode_injective {a b : Bytes} (h : b64encode a = b64encode b) : a = b :=
  Base64.encode_injective (Text.ofAscii_injective h)

/-- An encoding is ASCII, so that it can be encoded as UTF-8. -/
theorem b64encode_encodable (b : Bytes) : (b64encode b).Encodable := Text.ofAscii_encodable _

/-- Three bytes, or fewer at the end, become four characters. -/
@[simp]
theorem length_b64encode (b : Bytes) : (b64encode b).length = 4 * ((b.length + 2) / 3) := by
  rw [b64encode, Text.ofAscii, List.length_map, Base64.length_encode]
