import CcsVerifier.Encoding.Text

/-!
# SHA-256 and HMAC

The hash function on byte lists, with 32-bit words as natural numbers below `2 ^ 32`, and the
message authentication code built on it. Every word is evaluated before it is used, so that a
digest of a concrete message is computed by the kernel.

* `length_hash`: a digest has 32 bytes.
* `length_pad`: a padded message is made of whole blocks.
* `hmac`: the code for a key and a message.
-/

namespace Sha256

/-- `f n`, with `n` evaluated first. -/
def force {α : Type} (n : ℕ) (f : ℕ → α) : α :=
  match n with
  | 0 => f 0
  | k + 1 => f (k + 1)

/-- Evaluating an argument first does not change the result. -/
@[simp]
theorem force_eq {α : Type} (n : ℕ) (f : ℕ → α) : force n f = f n := by
  cases n <;> rfl

/-- Rotation of a word to the right. -/
def rotr (x n : ℕ) : ℕ := (x >>> n ||| x <<< (32 - n)) % 2 ^ 32

/-- The initial hash value. -/
def initial : List ℕ :=
  [0x6a09e667, 0xbb67ae85, 0x3c6ef372, 0xa54ff53a, 0x510e527f, 0x9b05688c, 0x1f83d9ab, 0x5be0cd19]

/-- The round constants. -/
def roundConstants : List ℕ :=
  [0x428a2f98, 0x71374491, 0xb5c0fbcf, 0xe9b5dba5, 0x3956c25b, 0x59f111f1, 0x923f82a4, 0xab1c5ed5,
   0xd807aa98, 0x12835b01, 0x243185be, 0x550c7dc3, 0x72be5d74, 0x80deb1fe, 0x9bdc06a7, 0xc19bf174,
   0xe49b69c1, 0xefbe4786, 0x0fc19dc6, 0x240ca1cc, 0x2de92c6f, 0x4a7484aa, 0x5cb0a9dc, 0x76f988da,
   0x983e5152, 0xa831c66d, 0xb00327c8, 0xbf597fc7, 0xc6e00bf3, 0xd5a79147, 0x06ca6351, 0x14292967,
   0x27b70a85, 0x2e1b2138, 0x4d2c6dfc, 0x53380d13, 0x650a7354, 0x766a0abb, 0x81c2c92e, 0x92722c85,
   0xa2bfe8a1, 0xa81a664b, 0xc24b8b70, 0xc76c51a3, 0xd192e819, 0xd6990624, 0xf40e3585, 0x106aa070,
   0x19a4c116, 0x1e376c08, 0x2748774c, 0x34b0bcb5, 0x391c0cb3, 0x4ed8aa4a, 0x5b9cca4f, 0x682e6ff3,
   0x748f82ee, 0x78a5636f, 0x84c87814, 0x8cc70208, 0x90befffa, 0xa4506ceb, 0xbef9a3f7, 0xc67178f2]

/-- The word that follows a window of sixteen words of the message schedule. -/
def nextWord (window : List ℕ) : ℕ :=
  let w := fun i => window.getD i 0
  let s0 := rotr (w 1) 7 ^^^ rotr (w 1) 18 ^^^ w 1 >>> 3
  let s1 := rotr (w 14) 17 ^^^ rotr (w 14) 19 ^^^ w 14 >>> 10
  (w 0 + s0 + w 9 + s1) % 2 ^ 32

/-- The next `n` words of the message schedule. -/
def schedule : ℕ → List ℕ → List ℕ
  | 0, _ => []
  | n + 1, window =>
    force (nextWord window) fun w => window.headD 0 :: schedule n (window.tail ++ [w])

/-- The eight working variables after all rounds of a list of constants and schedule words. -/
def rounds : List (ℕ × ℕ) → ℕ → ℕ → ℕ → ℕ → ℕ → ℕ → ℕ → ℕ → List ℕ
  | [], a, b, c, d, e, f, g, h => [a, b, c, d, e, f, g, h]
  | (k, w) :: rest, a, b, c, d, e, f, g, h =>
    let s1 := rotr e 6 ^^^ rotr e 11 ^^^ rotr e 25
    let ch := e &&& f ^^^ (e ^^^ (2 ^ 32 - 1)) &&& g
    let s0 := rotr a 2 ^^^ rotr a 13 ^^^ rotr a 22
    let maj := a &&& b ^^^ a &&& c ^^^ b &&& c
    force (h + s1 + ch + k + w) fun t =>
      force ((t + s0 + maj) % 2 ^ 32) fun a' =>
        force ((d + t) % 2 ^ 32) fun e' => rounds rest a' a b c e' e f g

/-- The big-endian number of a list of bytes. -/
def ofBytes (b : Bytes) : ℕ := b.foldl (fun n x => n * 256 + x.toNat) 0

/-- The words of a block. -/
def blockWords : ℕ → Bytes → List ℕ
  | 0, _ => []
  | n + 1, b => force (ofBytes (b.take 4)) fun w => w :: blockWords n (b.drop 4)

/-- The hash value after one more block. -/
def compress (state : List ℕ) (block : Bytes) : List ℕ :=
  let words := schedule 64 (blockWords 16 block)
  let s := fun i => state.getD i 0
  let result := rounds (roundConstants.zip words) (s 0) (s 1) (s 2) (s 3) (s 4) (s 5) (s 6) (s 7)
  List.zipWith (fun x y => (x + y) % 2 ^ 32) state result

/-- The hash value after the first `n` blocks of a padded message. -/
def process : ℕ → List ℕ → Bytes → List ℕ
  | 0, state, _ => state
  | n + 1, state, b => process n (compress state (b.take 64)) (b.drop 64)

/-- The big-endian bytes of a number, `width` of them. -/
def toBytes : ℕ → ℕ → Bytes
  | 0, _ => []
  | width + 1, n => toBytes width (n / 256) ++ [UInt8.ofNat n]

/-- The message with its padding. -/
def pad (b : Bytes) : Bytes :=
  b ++ 0x80 :: (List.replicate ((119 - b.length % 64) % 64) 0 ++ toBytes 8 (8 * b.length))

/-- The SHA-256 digest. -/
def hash (b : Bytes) : Bytes :=
  (process ((pad b).length / 64) initial (pad b)).flatMap (toBytes 4)

/-- A word has as many bytes as its width. -/
@[simp]
theorem length_toBytes (width n : ℕ) : (toBytes width n).length = width := by
  induction width generalizing n with
  | zero => rfl
  | succ width ih => rw [toBytes, List.length_append, ih, List.length_singleton]

/-- A padded message is made of whole blocks. -/
theorem length_pad (b : Bytes) : (pad b).length % 64 = 0 := by
  simp only [pad, List.length_append, List.length_cons, List.length_replicate, length_toBytes]
  omega

/-- The rounds keep the eight working variables. -/
theorem length_rounds (l : List (ℕ × ℕ)) (a b c d e f g h : ℕ) :
    (rounds l a b c d e f g h).length = 8 := by
  induction l generalizing a b c d e f g h with
  | nil => rfl
  | cons kw l ih => simp only [rounds, force_eq, ih]

/-- Compressing a block keeps the eight words of the state. -/
theorem length_compress {state : List ℕ} (h : state.length = 8) (block : Bytes) :
    (compress state block).length = 8 := by
  rw [compress, List.length_zipWith, length_rounds, h, Nat.min_self]

/-- So does processing all blocks. -/
theorem length_process (n : ℕ) {state : List ℕ} (h : state.length = 8) (b : Bytes) :
    (process n state b).length = 8 := by
  induction n generalizing state b with
  | zero => exact h
  | succ n ih => exact ih (length_compress h _) _

/-- A digest has 32 bytes. -/
@[simp]
theorem length_hash (b : Bytes) : (hash b).length = 32 := by
  have hstate := length_process ((pad b).length / 64) (rfl : initial.length = 8) (pad b)
  rw [hash, List.length_flatMap]
  generalize process ((pad b).length / 64) initial (pad b) = state at hstate ⊢
  simp [hstate]

example : Text.hex (hash []) =
    text "e3b0c44298fc1c149afbf4c8996fb92427ae41e4649b934ca495991b7852b855" := by decide +kernel

/-- The key of the code, shortened to a digest if it is long and filled up to a block. -/
def hmacKey (key : Bytes) : Bytes :=
  let k := if 64 < key.length then hash key else key
  k ++ List.replicate (64 - k.length) 0

/-- HMAC-SHA256. -/
def hmac (key message : Bytes) : Bytes :=
  hash ((hmacKey key).map (· ^^^ 0x5c) ++ hash ((hmacKey key).map (· ^^^ 0x36) ++ message))

/-- A tag has 32 bytes. -/
@[simp]
theorem length_hmac (key message : Bytes) : (hmac key message).length = 32 := length_hash _

end Sha256
