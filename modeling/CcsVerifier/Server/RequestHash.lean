import CcsVerifier.L1.Recanonical
import CcsVerifier.Python.JcsDumps
import CcsVerifier.Server.ArgsDigest

/-!
# What a request hash can be recomputed from

The `request_hash` of an L1 receipt digests the canonical JSON of the request, while
`Command.canonical_bytes` dumps the same data with `json.dumps`.

* `Command.SerializedAlike`: the commands whose two serializations are the same.
* `Command.canonicalBytes_eq_iff`: there are no others.
* `VerifierServer.requestHash_recomputes_iff`: for these commands, and no others, the request hash
  is the digest of `canonical_bytes`.
-/

namespace Command

/-- The values of the fields. -/
def values (c : Command) : List PyVal := [c.agentId, c.tool, c.params, c.timestamp, c.traceId]

/-- At any depth of the fields all strings and keys are below U+007F and all floats are printed
alike. -/
structure SerializedAlike (c : Command) : Prop where
  /-- The strings are escaped alike, and as keys they come in the same order. -/
  strings : ∀ v ∈ c.values, ∀ s ∈ v.strings, s.BelowDelete
  /-- The floats are printed alike. -/
  floats : ∀ v ∈ c.values, ∀ x ∈ v.floats, x.PrintsAlike

/-- Both writers spell the data alike when they do so with each string and float. -/
theorem serializedAlike_iff {c : Command} : c.SerializedAlike ↔
    (∀ s ∈ c.canonicalData.strings, s.BelowDelete) ∧
      ∀ x ∈ c.canonicalData.floats, x.PrintsAlike := by
  have hkeys : (text "agent_id").BelowDelete ∧ (text "tool").BelowDelete ∧
      (text "params").BelowDelete ∧ (text "timestamp").BelowDelete ∧
      (text "trace_id").BelowDelete := by decide
  have hstrings : (∀ s ∈ c.canonicalData.strings, s.BelowDelete) ↔
      ∀ v ∈ c.values, ∀ s ∈ v.strings, s.BelowDelete := by
    simp only [canonicalData, values, PyVal.forall_mem_strings_ofMembers, List.forall_mem_cons,
      hkeys, true_and, List.not_mem_nil, false_imp_iff, implies_true]
  have hfloats : (∀ x ∈ c.canonicalData.floats, x.PrintsAlike) ↔
      ∀ v ∈ c.values, ∀ x ∈ v.floats, x.PrintsAlike := by
    simp only [canonicalData, values, PyVal.forall_mem_floats_ofMembers, List.forall_mem_cons,
      List.not_mem_nil, false_imp_iff, implies_true]
  rw [hstrings, hfloats]
  exact ⟨fun h => ⟨h.strings, h.floats⟩, fun h => ⟨h.1, h.2⟩⟩

/-- The dump of a command is its canonical JSON exactly when the two are written alike. -/
theorem canonicalBytes_eq_iff {c : Command} (hc : c.IsJson) (hfinite : c.canonicalData.FiniteFloats)
    {p q : Bytes} (hp : c.canonicalBytes = .ok p) (hq : Jcs.canonicalize c.canonicalData = .ok q) :
    p = q ↔ c.SerializedAlike := by
  have hjson : c.canonicalData.IsJson := VerifierServer.requestData_isJson hc
  rw [serializedAlike_iff, ← Jcs.serialize_eq_dumps_iff hjson hfinite]
  obtain ⟨dumped, hdumped, hencode⟩ := Except.bind_eq_ok_iff.mp hp
  obtain ⟨canonical, hcanonical, hencode'⟩ := Except.bind_eq_ok_iff.mp hq
  constructor
  · rintro rfl
    obtain rfl := Text.encode_injective hencode hencode'
    exact ⟨dumped, hdumped, hcanonical⟩
  · rintro ⟨t, ht, ht'⟩
    obtain rfl := Except.ok.inj (ht.symm.trans hdumped)
    obtain rfl := Except.ok.inj (ht'.symm.trans hcanonical)
    exact Except.ok.inj (hencode.symm.trans hencode')

/-- A command of JSON values has canonical bytes. -/
theorem canonicalBytes_isOk {c : Command} (hc : c.IsJson) : ∃ p, c.canonicalBytes = .ok p := by
  obtain ⟨dumped, hdumped⟩ := dumps_isOk_of_isJson .compact (VerifierServer.requestData_isJson hc)
  obtain ⟨p, hp⟩ := Text.encode_isOk_iff.mpr (dumps_compact_isPlain hdumped).isAscii.encodable
  exact ⟨p, Except.bind_eq_ok_iff.mpr ⟨dumped, hdumped, hp⟩⟩

end Command

namespace VerifierServer

variable {X : Externals}

/-- The two serializations of a command are no collision of SHA-256. -/
def SerializationsSeparated (X : Externals) (c : Command) : Prop :=
  ∀ p q, c.canonicalBytes = .ok p → X.canonicalJson (requestData c) = .ok q →
    X.sha256 p = X.sha256 q → p = q

/-- A receipt carries the hash of its request. -/
theorem l1Field_requestHash {srv : VerifierServer X} (hl1 : srv.l1Enabled = true)
    {call : CallReadings} {c : Command} {s s' : ServerState} {v : VerificationResult}
    (hverify : srv.verify call c s = (.ok v, s')) :
    ∃ t, X.computeHash (requestData c) = .ok t ∧ v.l1Field .requestHash = some (.str t) := by
  obtain ⟨key, hkey⟩ := Option.isSome_iff_exists.mp hl1
  obtain ⟨loop, paramsHash, parts, r, hreceipt, hissued⟩ := exists_issued_of_verify hkey hverify
  exact ⟨parts.requestHash, hissued.hasParts.requestHash,
    hissued.l1Field hreceipt rfl (by decide) (by decide)⟩

/-- The request hash of a receipt is the SHA-256 digest of the canonical bytes of the command
exactly when at any depth of the command all strings and keys are below U+007F and all floats are
printed alike. -/
theorem requestHash_recomputes_iff (hjcs : X.JcsConforms) {c : Command} (hc : c.IsJson)
    (hsha : SerializationsSeparated X c) {srv : VerifierServer X} (hl1 : srv.l1Enabled = true)
    {call : CallReadings} {s s' : ServerState} {v : VerificationResult}
    (hverify : srv.verify call c s = (.ok v, s')) :
    (∃ p, c.canonicalBytes = .ok p ∧
      v.l1Field .requestHash = some (.str (Text.hex (X.sha256 p)))) ↔ c.SerializedAlike := by
  obtain ⟨t, ht, hfield⟩ := l1Field_requestHash hl1 hverify
  obtain ⟨p, hp⟩ := Command.canonicalBytes_isOk hc
  simp only [Externals.computeHash, Except.bind_eq_ok_iff, pure, Except.pure,
    Except.ok.injEq] at ht
  obtain ⟨q, hq, rfl⟩ := ht
  obtain ⟨hcanonical, hbytes, -⟩ :=
    Externals.parsePayload_canonicalJson hjcs (requestData_isJson hc) hq
  -- both serializations exist, so the question is whether they are the same bytes
  rw [← Command.canonicalBytes_eq_iff hc hcanonical.safeNumbers.finiteFloats hp hbytes, hfield]
  constructor
  · rintro ⟨p', hp', hdigest⟩
    -- equal digests of these two texts are digests of one text, by the collision hypothesis
    obtain rfl := Except.ok.inj (hp.symm.trans hp')
    exact hsha p q hp hq (Text.hex_injective (PyVal.str.inj (Option.some.inj hdigest))).symm
  · rintro rfl
    exact ⟨p, hp, rfl⟩

/-! ## Samples -/

/-- Parameters with a fraction and strings of ASCII characters. -/
def plainParams : PyVal :=
  .ofMembers [(text "args",
    .list [.str (text "ls"), .float (.fin ⟨1 / 2, Externals.representable_half⟩)])]

/-- Parameters with the letter U+00E9. -/
def accentedParams : PyVal := .ofMembers [(text "city", .str [0xe9])]

/-- The plain parameters are JSON. -/
theorem isJson_plainParams : plainParams.IsJson := by
  refine PyVal.isJson_ofMembers (List.nodup_singleton (text "args")) fun k v hkv => ?_
  obtain ⟨-, rfl⟩ := Prod.mk.inj (List.mem_singleton.mp hkv)
  refine .list fun x hx => ?_
  simp only [List.mem_cons, List.not_mem_nil, or_false] at hx
  rcases hx with rfl | rfl
  · exact .str _
  · exact .float _

/-- So are the accented ones. -/
theorem isJson_accentedParams : accentedParams.IsJson := by
  refine PyVal.isJson_ofMembers (List.nodup_singleton (text "city")) fun k v hkv => ?_
  obtain ⟨-, rfl⟩ := Prod.mk.inj (List.mem_singleton.mp hkv)
  exact .str _

/-- The plain parameters have a canonical form. -/
theorem canonical_plainParams : plainParams.Canonical := by
  refine PyVal.canonical_ofMembers_iff.mpr fun m hm => ?_
  rw [List.mem_singleton.mp hm]
  refine ⟨by decide, PyVal.canonical_list_iff.mpr fun x hx => ?_⟩
  simp only [List.mem_cons, List.not_mem_nil, or_false] at hx
  rcases hx with rfl | rfl
  · exact PyVal.canonical_str.mpr (by decide)
  · exact PyVal.canonical_float.mpr rfl

/-- So have the accented ones. -/
theorem canonical_accentedParams : accentedParams.Canonical := by
  refine PyVal.canonical_ofMembers_iff.mpr fun m hm => ?_
  rw [List.mem_singleton.mp hm]
  exact ⟨by decide, PyVal.canonical_str.mpr (by decide)⟩

/-- A command with JSON parameters is made of JSON values. -/
theorem isJson_commandWith {params : PyVal} (h : params.IsJson) : (commandWith params).IsJson :=
  ⟨.str _, .str _, h, .int 0, .str _⟩

/-- The request hash is recomputed from the command. -/
theorem requestHash_recomputes_iff_sample : ∃ v s' p,
    denyingServerL1.verify readingsInTime (commandWith plainParams) .init = (.ok v, s') ∧
      (commandWith plainParams).canonicalBytes = .ok p ∧
      v.l1Field .requestHash = some (.str (Text.hex (Sha256.hash p))) := by
  obtain ⟨v, s', hverify⟩ := verify_commandWith isJson_plainParams canonical_plainParams
  have hsame : (commandWith plainParams).canonicalBytes =
      deniedRecord.externals.canonicalJson (requestData (commandWith plainParams)) := by
    decide +kernel
  obtain ⟨p, hp, hfield⟩ := (requestHash_recomputes_iff
    (Externals.jcsConforms_externals deniedRecord) (isJson_commandWith isJson_plainParams)
    (fun p q hp hq _ => Except.ok.inj (hp.symm.trans (hsame.trans hq))) rfl hverify).mpr
      ⟨by decide +kernel, by decide +kernel⟩
  exact ⟨v, s', p, hverify, hp, hfield⟩

/-- The letter is escaped in the one text and not in the other, and the request hash is not the
digest of the canonical bytes. -/
theorem accented_request_not_recomputed : (commandWith accentedParams).IsJson ∧
    SerializationsSeparated deniedRecord.externals (commandWith accentedParams) ∧ ∃ v s' d p,
      denyingServerL1.verify readingsInTime (commandWith accentedParams) .init = (.ok v, s') ∧
        v.l1Field .requestHash = some (.str d) ∧
        (commandWith accentedParams).canonicalBytes = .ok p ∧ d ≠ Text.hex (Sha256.hash p) := by
  have hjson := isJson_commandWith isJson_accentedParams
  obtain ⟨v, s', hverify⟩ := verify_commandWith isJson_accentedParams canonical_accentedParams
  obtain ⟨t, ht, hfield⟩ := l1Field_requestHash rfl hverify
  obtain ⟨p, hp⟩ := Command.canonicalBytes_isOk hjson
  have hrequest : deniedRecord.externals.computeHash (requestData (commandWith accentedParams)) =
      .ok (text "8a0e36ae4a9b19dd564b9fd5eac9b11746eea0f5901fdb057a16213c904b74a3") :=
    (deniedRecord.computeHash_externals .reference _).trans (by decide +kernel)
  have hdigest : (commandWith accentedParams).canonicalBytes.map
      (fun p => Text.hex (Sha256.hash p)) =
      .ok (text "6f04161a20926ef7b43835d62b3f4e6ee576e6c9303eef5a1558e7bbe85d65ac") := by
    decide +kernel
  obtain rfl := Except.ok.inj (ht.symm.trans hrequest)
  rw [hp, Except.map, Except.ok.injEq] at hdigest
  have hne : text "8a0e36ae4a9b19dd564b9fd5eac9b11746eea0f5901fdb057a16213c904b74a3" ≠
      Text.hex (Sha256.hash p) := by
    rw [hdigest]
    decide
  refine ⟨hjson, fun p' q hp' hq hsame => ?_, v, s', _, p, hverify, hfield, hp, hne⟩
  -- different digests are no collision
  obtain rfl := Except.ok.inj (hp.symm.trans hp')
  simp only [Externals.computeHash, Except.bind_eq_ok_iff, pure, Except.pure,
    Except.ok.injEq] at hrequest
  obtain ⟨q', hq', hhex⟩ := hrequest
  obtain rfl := Except.ok.inj (hq.symm.trans hq')
  rw [← hsame] at hhex
  exact absurd hhex.symm hne

end VerifierServer
