import CcsVerifier.Encoding.Text

/-!
# Base64

The standard encoding of RFC 4648 §4 and its strict decoder: only characters of the
alphabet, padding only at the end and exactly as long as needed. The decoder does not look at
the unused bits of a padded group, so several texts may decode to the same bytes.

* `decode_encode`: decoding inverts encoding.
* `encode_shape`: an encoding is characters of the alphabet followed by at most two pads.
* `length_encode`: an encoding is made of groups of four characters.
-/

namespace Base64

/-- The padding character `=`. -/
def pad : UInt8 := 61

/-- The character of a sextet: `A`–`Z`, `a`–`z`, `0`–`9`, `+`, `/`. -/
def sextetChar (n : ℕ) : UInt8 :=
  if n < 26 then UInt8.ofNat (65 + n)
  else if n < 52 then UInt8.ofNat (71 + n)
  else if n < 62 then UInt8.ofNat (n - 4)
  else if n = 62 then 43 else 47

/-- The sextet of a character of the alphabet. -/
def sextetValue? (c : UInt8) : Option ℕ :=
  if 65 ≤ c.toNat ∧ c.toNat ≤ 90 then some (c.toNat - 65)
  else if 97 ≤ c.toNat ∧ c.toNat ≤ 122 then some (c.toNat - 71)
  else if 48 ≤ c.toNat ∧ c.toNat ≤ 57 then some (c.toNat + 4)
  else if c.toNat = 43 then some 62
  else if c.toNat = 47 then some 63
  else none

/-- The first, second, … sextet of a group of three bytes. -/
def sextets (a b c : UInt8) : List UInt8 :=
  let n := a.toNat * 65536 + b.toNat * 256 + c.toNat
  [sextetChar (n / 262144), sextetChar (n / 4096 % 64), sextetChar (n / 64 % 64),
    sextetChar (n % 64)]

/-- The standard Base64 encoding. -/
def encode : Bytes → Bytes
  | [] => []
  | [a] => (sextets a 0 0).take 2 ++ [pad, pad]
  | [a, b] => (sextets a b 0).take 3 ++ [pad]
  | a :: b :: c :: rest => sextets a b c ++ encode rest

/-- The three bytes of a group of four characters. -/
def decodeQuad (w x y z : UInt8) : Option Bytes := do
  let a ← sextetValue? w
  let b ← sextetValue? x
  let c ← sextetValue? y
  let d ← sextetValue? z
  let n := a * 262144 + b * 4096 + c * 64 + d
  return [UInt8.ofNat (n / 65536), UInt8.ofNat (n / 256), UInt8.ofNat n]

/-- The strict decoder: the last group may be padded, and nothing may follow the padding. The
unused bits of a padded group are ignored. -/
def decode : Bytes → Option Bytes
  | [] => some []
  | w :: x :: y :: z :: rest =>
    if rest = [] ∧ z = pad then
      if y = pad then (decodeQuad w x 65 65).map (·.take 1)
      else (decodeQuad w x y 65).map (·.take 2)
    else do
      let group ← decodeQuad w x y z
      let tail ← decode rest
      return group ++ tail
  | _ => none

/-- A character of the alphabet gives its sextet back. -/
theorem sextetValue?_sextetChar {n : ℕ} (h : n < 64) : sextetValue? (sextetChar n) = some n := by
  have hall : ∀ k : Fin 64, sextetValue? (sextetChar k) = some k.val := by decide
  exact hall ⟨n, h⟩

theorem sextetValue?_pad : sextetValue? pad = none := by decide

/-- The padding is no character of the alphabet. -/
theorem sextetChar_ne_pad {n : ℕ} (h : n < 64) : sextetChar n ≠ pad := by
  intro heq
  have := sextetValue?_sextetChar h
  rw [heq, sextetValue?_pad] at this
  cases this

/-- The alphabet is ASCII. -/
theorem sextetValue?_lt {c : UInt8} {n : ℕ} (h : sextetValue? c = some n) : c.toNat < 128 := by
  unfold sextetValue? at h
  split_ifs at h <;> omega

/-- Decoding the four characters of a group returns its three bytes. -/
theorem decodeQuad_sextets (a b c : UInt8) :
    ∃ w x y z, sextets a b c = [w, x, y, z] ∧ decodeQuad w x y z = some [a, b, c] ∧
      y ≠ pad ∧ z ≠ pad := by
  have ha := a.toNat_lt
  have hb := b.toNat_lt
  have hc := c.toNat_lt
  refine ⟨_, _, _, _, rfl, ?_, sextetChar_ne_pad (by omega), sextetChar_ne_pad (by omega)⟩
  generalize hn : a.toNat * 65536 + b.toNat * 256 + c.toNat = n
  simp only [decodeQuad, sextetValue?_sextetChar (show n / 262144 < 64 by omega),
    sextetValue?_sextetChar (show n / 4096 % 64 < 64 by omega),
    sextetValue?_sextetChar (show n / 64 % 64 < 64 by omega),
    sextetValue?_sextetChar (show n % 64 < 64 by omega), Option.bind_eq_bind, Option.bind_some,
    Option.pure_def, Option.some.injEq, List.cons.injEq, and_true]
  refine ⟨?_, ?_, ?_⟩ <;> apply UInt8.toNat.inj <;> simp only [UInt8.toNat_ofNat'] <;> omega

/-- The sextets past the bytes of a padded group are zero, so `A` stands for them. -/
theorem sextets_zero_right (a b : UInt8) : (sextets a b 0)[3]? = some 65 := by
  have hzero : (a.toNat * 65536 + b.toNat * 256 + (0 : UInt8).toNat) % 64 = 0 := by
    simp only [UInt8.toNat_zero]
    omega
  change some (sextetChar _) = some 65
  rw [hzero]
  rfl

theorem sextets_zero_zero_right (a : UInt8) : (sextets a 0 0)[2]? = some 65 := by
  have hzero : (a.toNat * 65536 + (0 : UInt8).toNat * 256 + (0 : UInt8).toNat) / 64 % 64 = 0 := by
    simp only [UInt8.toNat_zero]
    omega
  change some (sextetChar _) = some 65
  rw [hzero]
  rfl

/-- Decoding inverts encoding. -/
@[simp]
theorem decode_encode (b : Bytes) : decode (encode b) = some b := by
  induction b using encode.induct with
  | case1 => rfl
  -- one byte gives two digits and two characters of padding
  | case2 a =>
    obtain ⟨w, x, y, z, hs, hq, -, -⟩ := decodeQuad_sextets a 0 0
    have hy : y = 65 := by simpa [hs] using sextets_zero_zero_right a
    have hz : z = 65 := by simpa [hs] using sextets_zero_right a 0
    subst hy hz
    simp [encode, hs, decode, hq]
  -- two bytes give three digits and one character of padding
  | case3 a b =>
    obtain ⟨w, x, y, z, hs, hq, hy, -⟩ := decodeQuad_sextets a b 0
    have hz : z = 65 := by simpa [hs] using sextets_zero_right a b
    subst hz
    simp [encode, hs, decode, hq, hy]
  | case4 a b c rest ih =>
    obtain ⟨w, x, y, z, hs, hq, -, hz⟩ := decodeQuad_sextets a b c
    simp [encode, hs, decode, hq, hz, ih]

/-- Two encodings with the same bytes are the same text. -/
theorem encode_injective {a b : Bytes} (h : encode a = encode b) : a = b := by
  have hdecode := congrArg decode h
  simpa using hdecode

/-- Encoding produces groups of four characters. -/
theorem length_encode (b : Bytes) : (encode b).length = 4 * ((b.length + 2) / 3) := by
  induction b using encode.induct with
  | case1 => rfl
  | case2 a => simp [encode, sextets]
  | case3 a b => simp [encode, sextets]
  | case4 a b c rest ih =>
    simp only [encode, sextets, List.length_append, List.length_cons, List.length_nil, ih]
    omega

/-- Three bytes are spelled by characters of the alphabet. -/
theorem sextetValue?_isSome_of_mem_sextets {a b c d : UInt8} (h : d ∈ sextets a b c) :
    (sextetValue? d).isSome := by
  have ha := a.toNat_lt
  have hb := b.toNat_lt
  have hc := c.toNat_lt
  simp only [sextets, List.mem_cons, List.not_mem_nil, or_false] at h
  rcases h with rfl | rfl | rfl | rfl <;> rw [sextetValue?_sextetChar (by omega)] <;> rfl

/-- An encoding is characters of the alphabet, then at most two pads. -/
theorem encode_shape (b : Bytes) :
    ∃ digits k, encode b = digits ++ List.replicate k pad ∧ k ≤ 2 ∧
      ∀ d ∈ digits, (sextetValue? d).isSome := by
  induction b using encode.induct with
  | case1 => exact ⟨[], 0, rfl, by omega, by simp⟩
  | case2 a =>
    exact ⟨(sextets a 0 0).take 2, 2, rfl, le_rfl, fun d hd =>
      sextetValue?_isSome_of_mem_sextets (List.mem_of_mem_take hd)⟩
  | case3 a b =>
    exact ⟨(sextets a b 0).take 3, 1, rfl, by omega, fun d hd =>
      sextetValue?_isSome_of_mem_sextets (List.mem_of_mem_take hd)⟩
  | case4 a b c rest ih =>
    obtain ⟨digits, k, hrest, hk, hdigits⟩ := ih
    refine ⟨sextets a b c ++ digits, k, by rw [encode, hrest, List.append_assoc], hk, ?_⟩
    intro d hd
    rcases List.mem_append.mp hd with hd | hd
    · exact sextetValue?_isSome_of_mem_sextets hd
    · exact hdigits d hd

/-- An encoding is an ASCII text. -/
theorem lt_of_mem_encode {b : Bytes} {c : UInt8} (h : c ∈ encode b) : c.toNat < 128 := by
  obtain ⟨digits, k, heq, -, hdigits⟩ := encode_shape b
  rw [heq] at h
  rcases List.mem_append.mp h with hd | hp
  · obtain ⟨n, hn⟩ := Option.isSome_iff_exists.mp (hdigits c hd)
    exact sextetValue?_lt hn
  · rw [List.eq_of_mem_replicate hp]
    decide

end Base64
