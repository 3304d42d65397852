import CcsVerifier.Server.Sequence

/-!
# What an argument digest binds

`compute_hash` digests a string as its UTF-8 bytes and any other JSON value as its canonical form,
without a mark for which of the two it was. A string that spells a canonical form has the digest
of the value it spells.

* `Externals.Spells`: the string is, byte for byte, the canonical form of the other value.
* `Externals.computeHash_binds_iff`: equal hashes mean equal JSON values exactly when neither value
  spells the other.
* `VerifierServer.argsDigest_binds_iff`: the same for the `args_digest` of two L1 receipts and the
  parameters of their commands.
-/

namespace PyVal

/-- A string is the same JSON value only as itself. -/
theorem eq_str_of_sameJson {s : Text} {v : PyVal} (hv : v.IsJson) (h : (str s).SameJson v) :
    v = str s := by
  obtain ⟨j, hj, hvalue⟩ := h
  obtain rfl : JsonValue.str s = j := Option.some.inj hj
  -- a value of another type is another JSON value
  cases hv with
  | str t => exact congrArg str (JsonValue.str.inj (Option.some.inj hvalue))
  | float x =>
    obtain ⟨q, -, hq⟩ := Option.map_eq_some_iff.mp hvalue
    cases hq
  | list h =>
    obtain ⟨js, -, hjs⟩ := Option.map_eq_some_iff.mp hvalue
    cases hjs
  | dict hkeys hnodup h =>
    obtain ⟨ms, -, hms⟩ := Option.map_eq_some_iff.mp hvalue
    cases hms
  | _ => cases hvalue

/-- Being the same JSON value is symmetric. -/
theorem sameJson_comm {a b : PyVal} : a.SameJson b ↔ b.SameJson a :=
  exists_congr fun _ => and_comm

end PyVal

/-! ## Hashes of JSON values -/

namespace Externals

/-- The first value is a string and spells, byte for byte, the canonical form of the second, which
is not a string. -/
def Spells (X : Externals) (a b : PyVal) : Prop :=
  ∃ s raw, a = .str s ∧ s.encode = .ok raw ∧ (∀ t, b ≠ .str t) ∧ X.canonicalJson b = .ok raw

/-- What is digested of the two values is no collision of SHA-256. -/
def Sha256Separates (X : Externals) (a b : PyVal) : Prop :=
  ∀ p q, X.hashInput a = .ok p → X.hashInput b = .ok q → X.sha256 p = X.sha256 q → p = q

/-- `jcs` gives the two values the same bytes only if they are the same JSON value. -/
def JcsSeparates (X : Externals) (a b : PyVal) : Prop :=
  ∀ p, X.jcs a = .ok p → X.jcs b = .ok p → a.SameJson b

variable {X : Externals} {a b : PyVal}

/-- The canonical bytes are those of `jcs`. -/
theorem jcs_of_canonicalJson {p : Bytes} (h : X.canonicalJson a = .ok p) : X.jcs a = .ok p := by
  simp only [canonicalJson, Except.bind_eq_ok_iff] at h
  obtain ⟨-, -, h⟩ := h
  exact h

/-- A value and the string that spells it are digested alike. -/
theorem Spells.hashInput_eq (hb : b.IsJson) (h : X.Spells a b) : X.hashInput a = X.hashInput b := by
  obtain ⟨s, raw, rfl, hraw, hne, hcanonical⟩ := h
  rw [hashInput_of_ne_str hb hne, hcanonical]
  exact hraw

/-- They are not the same JSON value. -/
theorem Spells.not_sameJson (hb : b.IsJson) (h : X.Spells a b) : ¬a.SameJson b := by
  obtain ⟨s, raw, rfl, -, hne, -⟩ := h
  exact fun hsame => hne s (PyVal.eq_str_of_sameJson hb hsame)

/-- Values that are digested alike are the same JSON value, unless one spells the other. -/
theorem sameJson_of_hashInput_eq (ha : a.IsJson) (hb : b.IsJson) (hjcs : X.JcsSeparates a b)
    {p : Bytes} (hp : X.hashInput a = .ok p) (hq : X.hashInput b = .ok p)
    (hab : ¬X.Spells a b) (hba : ¬X.Spells b a) : a.SameJson b := by
  -- a string is hashed as it is; against any other value it would spell the canonical form
  by_cases hsa : ∃ s, a = .str s
  · obtain ⟨s, rfl⟩ := hsa
    by_cases hsb : ∃ t, b = .str t
    · obtain ⟨t, rfl⟩ := hsb
      obtain rfl : s = t := Text.encode_injective hp hq
      exact ⟨.str s, rfl, rfl⟩
    · rw [not_exists] at hsb
      rw [hashInput_of_ne_str hb hsb] at hq
      exact absurd ⟨s, p, rfl, hp, hsb, hq⟩ hab
  · rw [not_exists] at hsa
    rw [hashInput_of_ne_str ha hsa] at hp
    by_cases hsb : ∃ t, b = .str t
    · obtain ⟨t, rfl⟩ := hsb
      exact absurd ⟨t, p, rfl, hq, hsa, hp⟩ hba
    · rw [not_exists] at hsb
      rw [hashInput_of_ne_str hb hsb] at hq
      exact hjcs p (jcs_of_canonicalJson hp) (jcs_of_canonicalJson hq)

/-- Two hashes are equal exactly when the same bytes were digested. -/
theorem computeHash_eq_iff (hsha : X.Sha256Separates a b) {t u : Text}
    (ht : X.computeHash a = .ok t) (hu : X.computeHash b = .ok u) :
    t = u ↔ ∃ p, X.hashInput a = .ok p ∧ X.hashInput b = .ok p := by
  simp only [computeHash, Except.bind_eq_ok_iff, pure, Except.pure, Except.ok.injEq] at ht hu
  obtain ⟨p, hp, rfl⟩ := ht
  obtain ⟨q, hq, rfl⟩ := hu
  constructor
  · intro h
    obtain rfl : p = q := hsha p q hp hq (Text.hex_injective h)
    exact ⟨p, hp, hq⟩
  · rintro ⟨r, hr, hr'⟩
    obtain rfl : p = r := Except.ok.inj (hp.symm.trans hr)
    obtain rfl : q = p := Except.ok.inj (hq.symm.trans hr')
    rfl

/-- Equal hashes mean equal JSON values exactly when neither value spells the other. -/
theorem computeHash_binds_iff (ha : a.IsJson) (hb : b.IsJson) (hsha : X.Sha256Separates a b)
    (hjcs : X.JcsSeparates a b) {t u : Text} (ht : X.computeHash a = .ok t)
    (hu : X.computeHash b = .ok u) :
    (t = u → a.SameJson b) ↔ ¬X.Spells a b ∧ ¬X.Spells b a := by
  rw [computeHash_eq_iff hsha ht hu]
  constructor
  · intro h
    obtain ⟨p, hp, -⟩ := Except.bind_eq_ok_iff.mp ht
    obtain ⟨q, hq, -⟩ := Except.bind_eq_ok_iff.mp hu
    refine ⟨fun hspells => ?_, fun hspells => ?_⟩
    -- a spelled form has the hash of what it spells
    · apply hspells.not_sameJson hb
      exact h ⟨p, hp, hspells.hashInput_eq hb ▸ hp⟩
    · apply hspells.not_sameJson ha
      exact PyVal.sameJson_comm.mp (h ⟨q, hspells.hashInput_eq ha ▸ hq, hq⟩)
  · rintro ⟨hab, hba⟩ ⟨p, hp, hq⟩
    exact sameJson_of_hashInput_eq ha hb hjcs hp hq hab hba

end Externals

/-! ## Argument digests of receipts -/

namespace VerifierServer

variable {X : Externals}

/-- A receipt carries the hash of the parameters of its command. -/
theorem l1Field_argsDigest {srv : VerifierServer X} (hl1 : srv.l1Enabled = true)
    {call : CallReadings} {c : Command} {s s' : ServerState} {v : VerificationResult}
    (hverify : srv.verify call c s = (.ok v, s')) :
    ∃ t, X.computeHash c.params = .ok t ∧ v.l1Field .argsDigest = some (.str t) := by
  obtain ⟨key, hkey⟩ := Option.isSome_iff_exists.mp hl1
  obtain ⟨loop, paramsHash, parts, r, hreceipt, hissued⟩ := exists_issued_of_verify hkey hverify
  exact ⟨parts.argsDigest, hissued.hasParts.argsDigest,
    hissued.l1Field hreceipt rfl (by decide) (by decide)⟩

/-- Whatever JSON values two commands have as parameters: equal hashes of the two, and equal
argument digests in any L1 receipts for them, mean equal parameters exactly when neither value is a
string that spells the canonical form of the other. -/
theorem argsDigest_binds_iff {a b : PyVal} (ha : a.IsJson) (hb : b.IsJson)
    (hsha : X.Sha256Separates a b) (hjcs : X.JcsSeparates a b) :
    (∀ t u, X.computeHash a = .ok t → X.computeHash b = .ok u →
      ((t = u → a.SameJson b) ↔ ¬X.Spells a b ∧ ¬X.Spells b a)) ∧
    ∀ (srv₁ srv₂ : VerifierServer X) (call₁ call₂ : CallReadings) (c₁ c₂ : Command)
      (s₁ s₂ s₁' s₂' : ServerState) (v₁ v₂ : VerificationResult),
      srv₁.l1Enabled = true → srv₂.l1Enabled = true → c₁.params = a → c₂.params = b →
      srv₁.verify call₁ c₁ s₁ = (.ok v₁, s₁') → srv₂.verify call₂ c₂ s₂ = (.ok v₂, s₂') →
      ((v₁.l1Field .argsDigest = v₂.l1Field .argsDigest → c₁.params.SameJson c₂.params) ↔
        ¬X.Spells a b ∧ ¬X.Spells b a) := by
  have hhash : ∀ t u, X.computeHash a = .ok t → X.computeHash b = .ok u →
      ((t = u → a.SameJson b) ↔ ¬X.Spells a b ∧ ¬X.Spells b a) := fun t u ht hu =>
    Externals.computeHash_binds_iff ha hb hsha hjcs ht hu
  refine ⟨hhash, ?_⟩
  -- the digest in a receipt is the hash of the parameters
  rintro srv₁ srv₂ call₁ call₂ c₁ c₂ s₁ s₂ s₁' s₂' v₁ v₂ hl1₁ hl1₂ rfl rfl hverify₁ hverify₂
  obtain ⟨t, ht, hdigest₁⟩ := l1Field_argsDigest hl1₁ hverify₁
  obtain ⟨u, hu, hdigest₂⟩ := l1Field_argsDigest hl1₂ hverify₂
  rw [← hhash t u ht hu, hdigest₁, hdigest₂, Option.some.injEq, PyVal.str.injEq]

/-- A command for the shell with the given parameters. -/
def commandWith (params : PyVal) : Command :=
  { commandFor (text "shell") (text "t1") with params := params }

/-- The empty object is JSON. -/
theorem isJson_ofMembers_nil : (PyVal.ofMembers []).IsJson :=
  PyVal.isJson_ofMembers List.nodup_nil fun _ _ hkv => absurd hkv List.not_mem_nil

/-- Its canonical bytes are two braces. -/
theorem canonicalJson_ofMembers_nil :
    deniedRecord.externals.canonicalJson (.ofMembers []) = .ok [123, 125] := by decide +kernel

theorem jcs_ofMembers_nil : deniedRecord.externals.jcs (.ofMembers []) = .ok [123, 125] :=
  Externals.jcs_of_canonicalJson canonicalJson_ofMembers_nil

/-- The denying server answers with an L1 receipt when the parameters have a canonical form. -/
theorem verify_commandWith {params : PyVal} (hjson : params.IsJson) (hparams : params.Canonical) :
    ∃ v s', denyingServerL1.verify readingsInTime (commandWith params) .init = (.ok v, s') := by
  obtain ⟨v, s', -, hverify, -⟩ := verify_denyingServerL1_params hjson hparams
    (by decide : (text "shell").Encodable) (by decide : (text "t1").Encodable)
    (by decide : ServerState.init.sequence < maxSafeInteger)
  exact ⟨v, s', hverify⟩

/-- The empty object and a string that does not spell it have different argument digests. -/
theorem argsDigest_binds_iff_sample : ∃ v₁ s₁ v₂ s₂,
    denyingServerL1.verify readingsInTime (commandWith (.ofMembers [])) .init = (.ok v₁, s₁) ∧
    denyingServerL1.verify readingsInTime (commandWith (.str (text "ls"))) .init = (.ok v₂, s₂) ∧
    v₁.l1Field .argsDigest ≠ v₂.l1Field .argsDigest := by
  have hls : (PyVal.str (text "ls")).Canonical := PyVal.canonical_str.mpr (by decide)
  obtain ⟨v₁, s₁, hverify₁⟩ := verify_commandWith isJson_ofMembers_nil canonical_ofMembers_nil
  obtain ⟨v₂, s₂, hverify₂⟩ := verify_commandWith (.str (text "ls")) hls
  have hstring : (text "ls").encode = .ok [108, 115] := by decide +kernel
  have hjcsString : deniedRecord.externals.jcs (.str (text "ls")) = .ok [34, 108, 115, 34] := by
    decide +kernel
  have hsha : deniedRecord.externals.Sha256Separates (.ofMembers []) (.str (text "ls")) := by
    intro p q hp hq
    obtain rfl : [123, 125] = p := Except.ok.inj (canonicalJson_ofMembers_nil.symm.trans hp)
    obtain rfl : [108, 115] = q := Except.ok.inj (hstring.symm.trans hq)
    exact fun h => absurd h (by decide +kernel)
  have hjcs : deniedRecord.externals.JcsSeparates (.ofMembers []) (.str (text "ls")) := by
    intro p hp hq
    rw [jcs_ofMembers_nil] at hp
    rw [hjcsString, ← hp] at hq
    exact absurd (Except.ok.inj hq) (by decide)
  have hbinds := (argsDigest_binds_iff isJson_ofMembers_nil (.str (text "ls")) hsha hjcs).2
    _ _ _ _ _ _ _ _ _ _ v₁ v₂ rfl rfl rfl rfl hverify₁ hverify₂
  -- neither spells the other: the object is no string, and the string is another one
  have hab : ¬deniedRecord.externals.Spells (.ofMembers []) (.str (text "ls")) := by
    rintro ⟨s, raw, hs, -⟩
    cases hs
  have hba : ¬deniedRecord.externals.Spells (.str (text "ls")) (.ofMembers []) := by
    rintro ⟨s, raw, hs, hraw, -, hcanonical⟩
    cases hs
    rw [canonicalJson_ofMembers_nil] at hcanonical
    rw [hstring, ← hcanonical] at hraw
    exact absurd (Except.ok.inj hraw) (by decide)
  refine ⟨v₁, s₁, v₂, s₂, hverify₁, hverify₂, fun h => ?_⟩
  obtain ⟨j, hj, hj'⟩ := hbinds.mpr ⟨hab, hba⟩ h
  cases hj
  cases hj'

/-- A string that spells the empty object has its hash, and the receipts for the two have the same
argument digest. -/
theorem string_spells_object :
    deniedRecord.externals.Sha256Separates (.str (text "\x7b\x7d")) (.ofMembers []) ∧
    deniedRecord.externals.JcsSeparates (.str (text "\x7b\x7d")) (.ofMembers []) ∧
    ¬(PyVal.str (text "\x7b\x7d")).SameJson (.ofMembers []) ∧
    (∃ t, deniedRecord.externals.computeHash (.str (text "\x7b\x7d")) = .ok t ∧
      deniedRecord.externals.computeHash (.ofMembers []) = .ok t) ∧
    ∃ v₁ s₁ v₂ s₂,
      denyingServerL1.verify readingsInTime (commandWith (.str (text "\x7b\x7d"))) .init =
        (.ok v₁, s₁) ∧
      denyingServerL1.verify readingsInTime (commandWith (.ofMembers [])) .init = (.ok v₂, s₂) ∧
      v₁.l1Field .argsDigest = v₂.l1Field .argsDigest := by
  have hspells : deniedRecord.externals.Spells (.str (text "\x7b\x7d")) (.ofMembers []) :=
    ⟨text "\x7b\x7d", [123, 125], rfl, by decide +kernel, fun t => PyVal.noConfusion,
      canonicalJson_ofMembers_nil⟩
  have hinput := hspells.hashInput_eq isJson_ofMembers_nil
  -- a string is hashed as its own bytes, an object as the bytes of its canonical JSON
  have hhash : deniedRecord.externals.computeHash (.str (text "\x7b\x7d")) =
      deniedRecord.externals.computeHash (.ofMembers []) := by
    rw [Externals.computeHash, Externals.computeHash, hinput]
  obtain ⟨v₁, s₁, hverify₁⟩ := verify_commandWith (.str (text "\x7b\x7d"))
    (PyVal.canonical_str.mpr (by decide))
  obtain ⟨v₂, s₂, hverify₂⟩ := verify_commandWith isJson_ofMembers_nil canonical_ofMembers_nil
  obtain ⟨t, ht, hdigest₁⟩ := l1Field_argsDigest rfl hverify₁
  obtain ⟨u, hu, hdigest₂⟩ := l1Field_argsDigest rfl hverify₂
  obtain rfl : t = u := Except.ok.inj (ht.symm.trans (hhash.trans hu))
  refine ⟨?_, ?_, hspells.not_sameJson isJson_ofMembers_nil, ⟨t, ht, hu⟩, v₁, s₁, v₂, s₂, hverify₁,
    hverify₂, hdigest₁.trans hdigest₂.symm⟩
  · intro p q hp hq _
    exact Except.ok.inj (hp.symm.trans (hinput.trans hq))
  · -- the canonical JSON of the string has its quotes
    intro p hp hq
    rw [jcs_ofMembers_nil] at hq
    rw [show deniedRecord.externals.jcs (.str (text "\x7b\x7d")) = .ok [34, 123, 125, 34] by
      decide +kernel, ← hq] at hp
    exact absurd (Except.ok.inj hp) (by decide)

end VerifierServer
