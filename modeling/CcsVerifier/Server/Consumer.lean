import CcsVerifier.L1.ReadBack
import CcsVerifier.L1.Trust
import CcsVerifier.Server.Audit

/-!
# Consumers of L1 receipts

What a consumer can do with the L1 receipts that the server issues: read them back, verify their
signature and check their trust. The strict parser refuses an empty trace identifier and bounds
the length of strings, which the server does not check.

* `L1Receipt.Usable`: everything that a consumer does with a receipt succeeds.
* `VerifierServer.Readable`: what the strict parser asks of a request and of the server.
* `VerifierServer.usable_iff_readable`: an issued receipt is usable exactly when it is readable.
* `VerifierServer.empty_traceId_not_usable`: a receipt that the strict parser refuses.
-/

/-- What a consumer does with a receipt succeeds. -/
structure L1Receipt.Usable (X : Externals) (publicKey : Bytes) (issuer : Text) (r : L1Receipt) :
    Prop where
  /-- The receipt comes back from its JSON text. -/
  readsBack : r.ReadsBack X
  /-- The signature verifies under the key. -/
  verifies : r.verifySignature X (some publicKey) = true
  /-- From its issue up to its expiry with the clock skew, the receipt is accepted with an anchor
  that pins the key for the issuer. -/
  accepted : ∃ limit, (r.attr .expiresAt).add (r.attr .maxClockSkew) = .ok limit ∧
    ∀ clock anchors a (now : PyNum), anchors.find? (fun a => issuer == a.issuer) = some a →
      a.publicKeyBytes X = .ok publicKey →
      a.publicKeyFingerprint = X.publicKeyFingerprint publicKey →
      (r.attr .issuedAt).le now.toVal = .ok true → now.toVal.le limit = .ok true →
      r.Accepts X clock anchors (some now)

namespace VerifierServer

variable {X : Externals} {srv : VerifierServer X} {call : CallReadings} {c : Command}
  {loop : RuleLoop} {s s' : ServerState} {v : VerificationResult} {key : Bytes} {d : PyVal}
  {r : L1Receipt}

/-! ## Issued receipts -/

/-- A receipt that the server has signed for a request. -/
structure Issued (srv : VerifierServer X) (call : CallReadings) (c : Command) (loop : RuleLoop)
    (key : Bytes) (paramsHash : Text) (sequence : ℕ) (parts : L1Parts) (r : L1Receipt) : Prop where
  /-- The parts were computed from the request. -/
  hasParts : srv.HasParts call c loop parts
  /-- The hash of the parameters. -/
  hasParamsHash : c.paramsHash X = .ok paramsHash
  /-- The expiry is positive. -/
  expiry_pos : PyNum.le (.float (expiry call)) (.int 0) = false
  /-- The draft, with its times aligned, was signed. -/
  signed : signL1Receipt X ((srv.l1Draft call c loop paramsHash sequence parts).aligned
    (srv.issueTime call) (.fin call.defaults.timestamp)) key = .ok r

/-- An L1 receipt that a verification returns was issued for its request. -/
theorem exists_issued (hkey : srv.l1SigningKey = some key)
    (hverify : srv.verify call c s = (.ok v, s'))
    (hloop : evaluateRules call c srv.rules .init = .ok loop)
    (hreceipt : v.l1Receipt = some d) : ∃ paramsHash parts r, d = r.toDict ∧
      srv.Issued call c loop key paramsHash (srv.nextSequence s).sequence parts r := by
  obtain ⟨loop', paramsHash, receipt, l1, hloop', hl0, hl1, rfl, -⟩ := verify_eq_ok_iff.mp hverify
  rw [hloop] at hloop'
  cases hloop'
  obtain rfl : l1 = some d := hreceipt
  simp only [l1ReceiptData, hkey, l1Receipt_eq, Except.bind_eq_ok_iff, pure, Except.pure,
    Except.ok.injEq, Option.some.injEq] at hl1
  obtain ⟨r, ⟨parts, hparts, hbuild⟩, rfl⟩ := hl1
  have hparts := srv.l1Parts_eq_ok_iff.mp hparts
  have htimestamp : (srv.l1Draft call c loop paramsHash (srv.nextSequence s).sequence parts).attr
      .timestamp = .float (.fin call.defaults.timestamp) := rfl
  -- of what `build` checks, the expiry and the signature matter later
  obtain ⟨-, -, -, -, hpos, hsign⟩ :=
    (L1ReceiptBuilder.build_eq_ok_iff hparts.issuedAt htimestamp hparts.expiresAt).mp hbuild
  exact ⟨paramsHash, parts, r, rfl, hparts, paramsHash_of_l0Receipt srv hl0, hpos, hsign⟩

namespace Issued

variable {paramsHash : Text} {sequence : ℕ} {parts : L1Parts}
  (h : srv.Issued call c loop key paramsHash sequence parts r)

include h

/-- Apart from the times and the signature, the receipt holds what the draft holds. -/
theorem attr_eq {f : ReceiptField} (hsignature : f.isSignature = false) (htimestamp : f ≠ .timestamp)
    (hverified : f ≠ .verifiedAt) :
    r.attr f = (srv.l1Draft call c loop paramsHash sequence parts).attr f := by
  rw [L1Receipt.attr_of_signL1Receipt h.signed hsignature,
    L1Receipt.attr_aligned htimestamp hverified]

/-- The receipt is issued at the time of issue. -/
theorem issuedAt : r.attr .issuedAt = .float (srv.issueTime call) := by
  rw [h.attr_eq rfl (by decide) (by decide)]
  exact h.hasParts.issuedAt

/-- It expires five minutes after the call. -/
theorem expiresAt : r.attr .expiresAt = .float (expiry call) := by
  rw [h.attr_eq rfl (by decide) (by decide)]
  exact h.hasParts.expiresAt

/-- It allows for the clock skew of the server. -/
theorem maxClockSkew : r.attr .maxClockSkew = srv.clockSkewBound.toVal :=
  h.attr_eq rfl (by decide) (by decide)

/-- Every field that is signed over is a string, an integer or a float. -/
theorem isScalar (hwire : c.FromWire) (f : ReceiptField) :
    (((srv.l1Draft call c loop paramsHash sequence parts).aligned (srv.issueTime call)
      (.fin call.defaults.timestamp)).attr f).IsScalar := by
  have hissued : (srv.l1Draft call c loop paramsHash sequence parts).attr .issuedAt =
      .float (srv.issueTime call) := h.hasParts.issuedAt
  rcases L1Receipt.attr_aligned_or hissued (.fin call.defaults.timestamp) f with heq | heq <;>
    rw [heq] <;> exact l1Draft_isScalar hwire h.hasParts _

end Issued

/-! ## What the strict parser asks -/

/-- The strings that reach the receipt unbounded are not too long, and there is a trace
identifier. -/
structure Readable (srv : VerifierServer X) (c : Command) (loop : RuleLoop) : Prop where
  /-- The trace identifier is not empty. -/
  traceId_ne : c.traceId ≠ .str []
  /-- The trace identifier is not too long. -/
  traceId : ∀ s, c.traceId = .str s → s.length ≤ maxFieldLen
  /-- The name of the tool is not too long. -/
  tool : ∀ s, c.tool = .str s → s.length ≤ maxFieldLen
  /-- The names of the rules with their verdicts are not too long. -/
  ruleSummary : (ruleSummary X loop.results).length ≤ maxFieldLen
  /-- The source class of the verifier is not too long. -/
  verifierSourceClass : srv.verifierSourceClass.length ≤ maxFieldLen
  /-- The deployment mode is not too long. -/
  deploymentMode : srv.deploymentMode.length ≤ maxFieldLen
  /-- The issuer is not too long. -/
  issuer : srv.issuer.length ≤ maxFieldLen
  /-- The audience is not too long. -/
  audience : ∀ s, srv.audienceOf c = .str s → s.length ≤ maxFieldLen

namespace Issued

variable {paramsHash : Text} {sequence : ℕ} {parts : L1Parts}

/-- The fields that signing fills in are short. -/
theorem length_signature (h : srv.Issued call c loop key paramsHash sequence parts r)
    {f : ReceiptField} (hf : f.isSignature = true) {t : Text} (ht : r.attr f = .str t) :
    t.length ≤ 88 :=
  L1Receipt.length_signature h.signed hf ht

/-- The times of the receipt are floats. -/
theorem times (h : srv.Issued call c loop key paramsHash sequence parts r) {f : ReceiptField}
    (hf : f = .timestamp ∨ f = .verifiedAt) : ∃ x, r.attr f = .float x := by
  have hissued : (srv.l1Draft call c loop paramsHash sequence parts).attr .issuedAt =
      .float (srv.issueTime call) := h.hasParts.issuedAt
  have hsignature : f.isSignature = false := by
    rcases hf with rfl | rfl <;> rfl
  rw [L1Receipt.attr_of_signL1Receipt h.signed hsignature]
  rcases L1Receipt.attr_aligned_or hissued (.fin call.defaults.timestamp) f with heq | heq <;>
    rw [heq]
  · rcases hf with rfl | rfl <;> exact ⟨_, rfl⟩
  · exact ⟨_, hissued⟩

/-- The strict parser asks no more of an issued receipt than `Readable`: every other string is
short. -/
theorem readable_iff (h : srv.Issued call c loop key paramsHash sequence parts r)
    (hwire : c.FromWire) :
    (r.attr .traceId ≠ .str [] ∧ ∀ f t, r.attr f = .str t → t.length ≤ maxFieldLen) ↔
      srv.Readable c loop := by
  have hattr : ∀ f, f.isSignature = false → f ≠ .timestamp → f ≠ .verifiedAt →
      r.attr f = (srv.l1Draft call c loop paramsHash sequence parts).attr f :=
    fun f => h.attr_eq
  constructor
  · -- the fields that the parser looks at are those of the draft
    rintro ⟨hne, hlength⟩
    have hfield : ∀ f t, f.isSignature = false → f ≠ .timestamp → f ≠ .verifiedAt →
        (srv.l1Draft call c loop paramsHash sequence parts).attr f = .str t →
        t.length ≤ maxFieldLen := fun f t hs ht hv heq =>
      hlength f t ((hattr f hs ht hv).trans heq)
    exact {
      traceId_ne := fun heq => hne ((hattr .traceId rfl (by decide) (by decide)).trans heq)
      traceId := fun t ht => hfield .traceId t rfl (by decide) (by decide) ht
      tool := fun t ht => hfield .tool t rfl (by decide) (by decide) ht
      ruleSummary := hfield .ruleSummary _ rfl (by decide) (by decide) rfl
      verifierSourceClass := hfield .verifierSourceClass _ rfl (by decide) (by decide) rfl
      deploymentMode := hfield .deploymentMode _ rfl (by decide) (by decide) rfl
      issuer := hfield .issuer _ rfl (by decide) (by decide) rfl
      audience := fun t ht => hfield .audience t rfl (by decide) (by decide) ht }
  · intro hreadable
    refine ⟨?_, fun f t ht => ?_⟩
    · rw [hattr .traceId rfl (by decide) (by decide)]
      exact hreadable.traceId_ne
    -- what signing fills in is short, and so is every digest
    have hshort : t.length ≤ 88 → t.length ≤ maxFieldLen := fun hle => hle.trans (by decide)
    by_cases hsignature : f.isSignature = true
    · exact hshort (h.length_signature hsignature ht)
    by_cases htime : f = .timestamp ∨ f = .verifiedAt
    · obtain ⟨x, hx⟩ := h.times htime
      rw [hx] at ht
      cases ht
    rw [not_or] at htime
    rw [hattr f (by simpa using hsignature) htime.1 htime.2] at ht
    have hdigest : ∀ {w : PyVal} {u : Text}, X.computeHash w = .ok u → u.length ≤ 88 := fun hu => by
      rw [(Externals.computeHash_eq_ok hu).1]
      norm_num
    -- the other fields one by one, as the server fills them in
    cases f
    case traceId => exact hreadable.traceId t ht
    case tool => exact hreadable.tool t ht
    case audience => exact hreadable.audience t ht
    case ruleSummary => cases ht; exact hreadable.ruleSummary
    case verifierSourceClass => cases ht; exact hreadable.verifierSourceClass
    case deploymentMode => cases ht; exact hreadable.deploymentMode
    case issuer => cases ht; exact hreadable.issuer
    case argsDigest => cases ht; exact hshort (hdigest h.hasParts.argsDigest)
    case requestHash => cases ht; exact hshort (hdigest h.hasParts.requestHash)
    case responseHash => cases ht; exact hshort (hdigest h.hasParts.responseHash)
    case runtimeContextHash => cases ht; exact hshort (hdigest h.hasParts.runtimeContextHash)
    case configHash => cases ht; exact hshort (hdigest h.hasParts.configHash)
    case paramsHash =>
      cases ht
      exact hshort (by rw [(Command.paramsHash_eq_ok X h.hasParamsHash).1]; norm_num)
    case nonce => exact hshort (length_nonce_le hwire h.hasParts.nonce ht)
    case verdict | action => cases ht; cases loop.finalVerdict <;> decide
    case receiptVersion | toolCallId | ruleVersion => cases ht; decide
    case issuedAt => rw [l1Draft, h.hasParts.issuedAt] at ht; cases ht
    case expiresAt => rw [l1Draft, h.hasParts.expiresAt] at ht; cases ht
    case maxClockSkew =>
      have hskew : srv.clockSkewBound.toVal = .str t := ht
      cases hn : srv.clockSkewBound <;> rw [hn] at hskew <;> cases hskew
    case sequence | latencyUs => cases ht
    case timestamp => exact absurd rfl htime.1
    case verifiedAt => exact absurd rfl htime.2
    case signature | signingAlgorithm | publicKeyFingerprint | publicKey =>
      exact absurd rfl hsignature

/-- An issued receipt comes back from its JSON text when the strict parser can read it. -/
theorem readsBack_iff (h : srv.Issued call c loop key paramsHash sequence parts r)
    (hjcs : X.JcsAccepts) (hwire : c.FromWire) : r.ReadsBack X ↔ srv.Readable c loop := by
  rw [← h.readable_iff hwire]
  refine L1Receipt.readsBack_iff hjcs h.signed (fun f _ => h.isScalar hwire f) ?_ ?_ call.defaults
  · rw [L1Receipt.attr_aligned (by decide) (by decide)]
    rfl
  · rw [L1Receipt.attr_aligned (by decide) (by decide)]
    exact hwire.traceId

end Issued

/-! ## Usable receipts -/

/-- A verified receipt that the server has issued is accepted with an anchor that pins its key, up to
the end of its validity. -/
theorem Issued.accepted {paramsHash : Text} {sequence : ℕ} {parts : L1Parts}
    (h : srv.Issued call c loop key paramsHash sequence parts r)
    (hself : r.verifySignature X none = true) : ∃ limit,
      (r.attr .expiresAt).add (r.attr .maxClockSkew) = .ok limit ∧
      ∀ clock anchors a (now : PyNum),
        anchors.find? (fun a => srv.issuer == a.issuer) = some a →
        a.publicKeyBytes X = .ok (X.ed25519.publicKey key) →
        a.publicKeyFingerprint = X.publicKeyFingerprint (X.ed25519.publicKey key) →
        (r.attr .issuedAt).le now.toVal = .ok true → now.toVal.le limit = .ok true →
        r.Accepts X clock anchors (some now) := by
  have hexpires : (r.attr .expiresAt).num? = some (.float (expiry call)) := by
    rw [h.expiresAt]
    rfl
  have hskew : (r.attr .maxClockSkew).num? = some srv.clockSkewBound := by
    rw [h.maxClockSkew, PyVal.num?_toVal]
  -- what verifies holds safe numbers, so the end of the validity is one too
  have hsafe := L1Receipt.safe_of_verifySignature hself (by decide) hexpires
  obtain ⟨n, hn, -⟩ := hsafe.add (L1Receipt.safe_of_verifySignature hself (by decide) hskew)
  have hlimit : (r.attr .expiresAt).add (r.attr .maxClockSkew) = .ok n.toVal :=
    PyVal.arith_eq_ok_iff.mpr ⟨_, _, n, hexpires, hskew, hn, rfl⟩
  have hbounded : (r.attr .expiresAt).gt (.int 0) = .ok true := by
    refine PyVal.compare_eq_ok_iff.mpr ⟨_, .int 0, hexpires, rfl, ?_⟩
    have hpos := h.expiry_pos
    rw [PyNum.le_eq_not_lt (PyNum.isSome_ext_of_isFinite hsafe) rfl] at hpos
    simpa using hpos
  have hmatches : r.matchesAnchor = fun a => srv.issuer == a.issuer := by
    funext a
    rw [L1Receipt.matchesAnchor, h.attr_eq rfl (by decide) (by decide)]
    rfl
  obtain ⟨-, payload, -, hr⟩ := signL1Receipt_eq_ok_iff.mp h.signed
  refine ⟨n.toVal, hlimit, fun clock anchors a now ha hkeyBytes hfp _ hnow => ?_⟩
  rw [← hmatches] at ha
  refine ⟨_, L1Receipt.accepts_of_le hself hbounded hlimit hnow ha ⟨?_, ?_, hkeyBytes⟩, rfl⟩
  · rw [hfp, hr]
    rfl
  · rw [hr]
    exact X.b64decode_b64encode _

/-- An issued receipt is usable exactly when the strict parser can read it. -/
theorem usable_iff_readable (hjcs : X.JcsAccepts) (hwire : c.FromWire)
    (hkey : srv.l1SigningKey = some key) (hverify : srv.verify call c s = (.ok v, s'))
    (hloop : evaluateRules call c srv.rules .init = .ok loop) (hreceipt : v.l1Receipt = some d)
    (hsigns : ∀ r p, d = L1Receipt.toDict r → r.signingPayload X = .ok p →
      X.ed25519.SignsCorrectly key p) :
    (∃ r, d = L1Receipt.toDict r ∧ r.Usable X (X.ed25519.publicKey key) srv.issuer) ↔
      srv.Readable c loop := by
  obtain ⟨paramsHash, parts, r, rfl, h⟩ := exists_issued hkey hverify hloop hreceipt
  -- verification and the checks of a consumer never fail: reading the receipt decides
  have hback := h.readsBack_iff hjcs hwire
  constructor
  · rintro ⟨r', heq, husable⟩
    obtain rfl := L1Receipt.toDict_injective heq
    exact hback.mp husable.readsBack
  · intro hreadable
    obtain ⟨hself, hverifies⟩ :=
      L1Receipt.verifySignature_of_signL1Receipt h.signed fun p hp => hsigns r p rfl hp
    exact ⟨r, rfl, hback.mpr hreadable, hverifies, h.accepted hself⟩

/-! ## A usable receipt -/

/-- Five seconds before the reference time. -/
theorem abs_deniedIssueTime_lt : |(1893455995 : ℤ)| < 2 ^ 53 := by norm_num

/-- The receipt of a denied command for the shell, before it is signed. -/
def deniedReceipt : L1Receipt where
  attr
    | .traceId => .str (text "t1")
    | .receiptVersion => .str L1.receiptVersion
    | .verdict => .str (text "deny")
    | .timestamp => L1Receipt.seconds 1893456000 abs_referenceTime_lt
    | .tool => .str (text "shell")
    | .paramsHash => .str (text "44136fa355b3678a")
    | .argsDigest =>
      .str (text "44136fa355b3678a1146ad16f7e8649e94fb4fc21fe77e8310c060f61caaff8a")
    | .ruleSummary => .str (text "deny_all=deny")
    | .ruleVersion => .str (text "1.1.20")
    | .requestHash =>
      .str (text "1cf7750f5af957212a17c8cbcd906a36cb46c70ff5eb2be53ba9d26511d635a2")
    | .responseHash =>
      .str (text "7f006e54043ae2f64a582c1724958734b6f8fa43e3c3d620c65c9da685ff97a7")
    | .runtimeContextHash =>
      .str (text "ef5bb2f6c474fbb56401eb2b9a1d771217e81b65d540d9ccf3ff95ed69d3ca94")
    | .configHash =>
      .str (text "f1015731df583830603437200a3d14351376715c711a099333fb53b650a0716b")
    | .verifierSourceClass => .str (text "ccs_verifier.server.VerifierServer")
    | .deploymentMode => .str (text "in-process")
    | .issuer => .str (text "ccs-verifier")
    | .audience => .str (text "agent")
    | .nonce => .str (text "t1")
    | .sequence => .int 1
    | .issuedAt => L1Receipt.seconds 1893455995 abs_deniedIssueTime_lt
    | .expiresAt => L1Receipt.seconds 1893456300 abs_referenceExpiry_lt
    | .maxClockSkew => L1Receipt.seconds 5 abs_clockSkewBound_lt
    | .action => .str (text "ccs.verify.deny")
    | .signingAlgorithm => .str L1.signingAlgorithm
    | .verifiedAt => L1Receipt.seconds 1893456000 abs_referenceTime_lt
    | .latencyUs => .float .zero
    | .toolCallId | .signature | .publicKeyFingerprint | .publicKey => .str []

/-- The canonical text of that receipt. -/
def deniedText : Text :=
  text "\x7b\"action\":\"ccs.verify.deny\",\"args_digest\":"
    ++ text "\"44136fa355b3678a1146ad16f7e8649e94fb4fc21fe77e8310c060f61caaff8a\","
    ++ text "\"audience\":\"agent\",\"config_hash\":"
    ++ text "\"f1015731df583830603437200a3d14351376715c711a099333fb53b650a0716b\","
    ++ text "\"deployment_mode\":\"in-process\",\"expires_at\":1893456300,"
    ++ text "\"issued_at\":1893455995,\"issuer\":\"ccs-verifier\",\"latency_us\":0,"
    ++ text "\"max_clock_skew\":5,\"nonce\":\"t1\",\"params_hash\":\"44136fa355b3678a\","
    ++ text "\"public_key\":\"v63J4PdpUTeDVUuGMgpayNc5ex/ufTmrW+9oKyybbCw=\","
    ++ text "\"public_key_fingerprint\":\"889d3f5bd86f5ff2\",\"receipt_version\":\"1.1\","
    ++ text "\"request_hash\":"
    ++ text "\"1cf7750f5af957212a17c8cbcd906a36cb46c70ff5eb2be53ba9d26511d635a2\","
    ++ text "\"response_hash\":"
    ++ text "\"7f006e54043ae2f64a582c1724958734b6f8fa43e3c3d620c65c9da685ff97a7\","
    ++ text "\"rule_summary\":\"deny_all=deny\",\"rule_version\":\"1.1.20\","
    ++ text "\"runtime_context_hash\":"
    ++ text "\"ef5bb2f6c474fbb56401eb2b9a1d771217e81b65d540d9ccf3ff95ed69d3ca94\","
    ++ text "\"sequence\":1,\"signing_algorithm\":\"Ed25519\",\"timestamp\":1893456000,"
    ++ text "\"tool\":\"shell\",\"tool_call_id\":\"\",\"trace_id\":\"t1\","
    ++ text "\"verdict\":\"deny\",\"verified_at\":1893456000,"
    ++ text "\"verifier_source_class\":\"ccs_verifier.server.VerifierServer\"\x7d"

/-- The signature on that receipt under the reference key. -/
def deniedRecord : SignatureRecord where
  seed := SignatureRecord.reference.seed
  publicKey := SignatureRecord.reference.publicKey
  message := deniedText.asciiBytes
  signature := bytesOfHex
    (text "4180354c03b3fa8eb1a5249e0a6598361268cd1bccb2887d486af3bb5c884653"
    ++ text "e61cb38296a5e0303d92984c13222f6c01e594a6fa523d42d954ad161d009603")
  length_publicKey := SignatureRecord.reference.length_publicKey
  length_signature := by decide +kernel

/-- The denying server with the reference key as its L1 key. -/
def denyingServerL1 : VerifierServer deniedRecord.externals :=
  denyingServer deniedRecord (some deniedRecord.seed) length_referenceKey

/-- The time of issue of a call at the reference time. -/
theorem issueTime_denyingServerL1 : denyingServerL1.issueTime readingsInTime =
    .ofSmallInt 1893455995 (by norm_num) := issueTime_sampleServer

/-- The server answers with an L1 receipt, whatever canonical value the parameters are. -/
theorem verify_denyingServerL1_params {params : PyVal} (hjson : params.IsJson)
    (hparams : params.Canonical) {tool traceId : Text} (htool : tool.Encodable)
    (htrace : traceId.Encodable) {s : ServerState} (hs : s.sequence < maxSafeInteger) : ∃ v s' d,
      denyingServerL1.verify readingsInTime { commandFor tool traceId with params := params } s =
        (.ok v, s') ∧ v.l1Receipt = some d := by
  have hwire : Command.FromWire { commandFor tool traceId with params := params } :=
    ⟨⟨_, rfl⟩, ⟨_, rfl⟩, hjson, .int 0, ⟨_, rfl⟩⟩
  obtain ⟨v, hv⟩ := (verify_isOk_iff (SignatureRecord.jcsAccepts _) hwire
    (evaluateRules_denyAll _ _)).mpr (recordable_sampleServer hparams htool htrace
      encodable_ruleNames_deniedLoop (by decide : (text "denied").Encodable) hs)
  obtain ⟨s', hverify⟩ : ∃ s', denyingServerL1.verify readingsInTime
      { commandFor tool traceId with params := params } s = (.ok v, s') := ⟨_, Prod.ext hv rfl⟩
  obtain ⟨r, hr⟩ := exists_l1Receipt rfl hverify
  exact ⟨v, s', r.toDict, hverify, hr⟩

/-- So it does for commands without parameters. -/
theorem verify_denyingServerL1 {tool traceId : Text} (htool : tool.Encodable)
    (htrace : traceId.Encodable) {s : ServerState} (hs : s.sequence < maxSafeInteger) : ∃ v s' d,
      denyingServerL1.verify readingsInTime (commandFor tool traceId) s = (.ok v, s') ∧
        v.l1Receipt = some d :=
  verify_denyingServerL1_params (fromWire_commandFor tool traceId).isJson.params
    canonical_ofMembers_nil htool htrace hs

/-- The parts of the denied receipt. -/
def deniedParts : L1Parts where
  issuedAt := L1Receipt.seconds 1893455995 abs_deniedIssueTime_lt
  expiresAt := L1Receipt.seconds 1893456300 abs_referenceExpiry_lt
  nonce := .str (text "t1")
  argsDigest := text "44136fa355b3678a1146ad16f7e8649e94fb4fc21fe77e8310c060f61caaff8a"
  requestHash := text "1cf7750f5af957212a17c8cbcd906a36cb46c70ff5eb2be53ba9d26511d635a2"
  responseHash := text "7f006e54043ae2f64a582c1724958734b6f8fa43e3c3d620c65c9da685ff97a7"
  runtimeContextHash := text "ef5bb2f6c474fbb56401eb2b9a1d771217e81b65d540d9ccf3ff95ed69d3ca94"
  configHash := text "f1015731df583830603437200a3d14351376715c711a099333fb53b650a0716b"

/-- The parts of its L1 receipt. -/
theorem hasParts_deniedParts : denyingServerL1.HasParts readingsInTime
    (commandFor (text "shell") (text "t1")) deniedLoop deniedParts where
  clockSkewBound := ⟨_, rfl⟩
  issuedAt := by rw [issueTime_denyingServerL1]; rfl
  expiresAt := by rw [expiry_readingsInTime]; rfl
  nonce := rfl
  argsDigest := (deniedRecord.computeHash_externals .reference _).trans (by decide +kernel)
  requestHash := (deniedRecord.computeHash_externals .reference _).trans (by decide +kernel)
  responseHash := (deniedRecord.computeHash_externals .reference _).trans (by decide +kernel)
  runtimeContextHash := (deniedRecord.computeHash_externals .reference _).trans (by decide +kernel)
  configHash := (deniedRecord.computeHash_externals .reference _).trans (by decide +kernel)

/-- Any receipt that the server issues for the command is the denied receipt, signed. -/
theorem Issued.signL1Receipt_deniedReceipt {paramsHash : Text} {parts : L1Parts}
    (h : denyingServerL1.Issued readingsInTime (commandFor (text "shell") (text "t1")) deniedLoop
      deniedRecord.seed paramsHash 1 parts r) :
    signL1Receipt deniedRecord.externals deniedReceipt deniedRecord.seed = .ok r := by
  have hhash : (commandFor (text "shell") (text "t1")).paramsHash deniedRecord.externals =
      .ok (text "44136fa355b3678a") := by decide +kernel
  obtain rfl := Except.ok.inj (h.hasParamsHash.symm.trans hhash)
  obtain rfl : parts = deniedParts := Except.ok.inj
    (((l1Parts_eq_ok_iff _).mpr h.hasParts).symm.trans
      ((l1Parts_eq_ok_iff _).mpr hasParts_deniedParts))
  -- the issue lies five seconds back, so no time is moved
  have hjust : Binary64.justAfter (denyingServerL1.issueTime readingsInTime)
      (.fin readingsInTime.defaults.timestamp) = false := by
    rw [issueTime_denyingServerL1]
    decide +kernel
  have hdraft : denyingServerL1.l1Draft readingsInTime (commandFor (text "shell") (text "t1"))
      deniedLoop (text "44136fa355b3678a") 1 deniedParts = deniedReceipt :=
    congrArg L1Receipt.mk (funext fun f => by cases f <;> rfl)
  have hsigned := h.signed
  rwa [L1Receipt.aligned, hjust, if_neg (by decide), hdraft] at hsigned

/-- The recorded signature is on the denied receipt. -/
theorem signingPayload_deniedReceipt
    (h : signL1Receipt deniedRecord.externals deniedReceipt deniedRecord.seed = .ok r) :
    r.signingPayload deniedRecord.externals = .ok deniedRecord.message := by
  have hkey : deniedRecord.externals.ed25519.publicKey deniedRecord.seed =
      SignatureRecord.reference.publicKey := SignatureRecord.publicKey_scheme _
  have hfp : deniedRecord.externals.publicKeyFingerprint SignatureRecord.reference.publicKey =
      text "889d3f5bd86f5ff2" := by decide +kernel
  have hpk : b64encode SignatureRecord.reference.publicKey =
      text "v63J4PdpUTeDVUuGMgpayNc5ex/ufTmrW+9oKyybbCw=" := by decide +kernel
  obtain ⟨-, payload, -, rfl⟩ := signL1Receipt_eq_ok_iff.mp h
  rw [L1Receipt.signedWith, hkey, hfp, hpk, L1Receipt.signingPayload,
    L1Receipt.signingData_withSignature _ _ [], ← L1Receipt.signingPayload]
  exact L1Receipt.signingPayload_of_serialize (by decide +kernel) (by decide +kernel)
    (by decide +kernel)

/-- The receipt that the server issues for a denied command is usable. -/
theorem usable_iff_readable_sample : ∃ v s' d r,
    denyingServerL1.verify readingsInTime (commandFor (text "shell") (text "t1")) .init =
      (.ok v, s') ∧ v.l1Receipt = some d ∧ d = L1Receipt.toDict r ∧
      r.Usable deniedRecord.externals
        (deniedRecord.externals.ed25519.publicKey deniedRecord.seed) denyingServerL1.issuer := by
  obtain ⟨v, s', d, hverify, hreceipt⟩ := verify_denyingServerL1
    (by decide : (text "shell").Encodable) (by decide : (text "t1").Encodable)
    (by decide : ServerState.init.sequence < maxSafeInteger)
  obtain ⟨paramsHash, parts, r, rfl, h⟩ :=
    exists_issued rfl hverify (evaluateRules_denyAll _ _) hreceipt
  obtain ⟨r', hr', husable⟩ := (usable_iff_readable (SignatureRecord.jcsAccepts _)
    (fromWire_commandFor _ _) rfl hverify (evaluateRules_denyAll _ _) hreceipt
    fun r' p hr' hp => by
      obtain rfl := L1Receipt.toDict_injective hr'
      rw [signingPayload_deniedReceipt h.signL1Receipt_deniedReceipt] at hp
      cases hp
      exact SignatureRecord.signsCorrectly _).mpr {
        traceId_ne := nofun
        traceId := fun s hs => by cases hs; decide
        tool := fun s hs => by cases hs; decide
        ruleSummary := by decide
        verifierSourceClass := by decide
        deploymentMode := by decide
        issuer := by decide
        audience := fun s hs => by cases hs; decide }
  exact ⟨v, s', _, r', hverify, hreceipt, hr', husable⟩

/-! ## A receipt that cannot be read -/

/-- For a command with an empty trace identifier the server issues a receipt that no consumer can
read. -/
theorem empty_traceId_not_usable : (commandFor (text "shell") []).FromWire ∧
    denyingServerL1.issuer ≠ [] ∧ ∃ v s' d,
      denyingServerL1.verify readingsInTime (commandFor (text "shell") []) .init = (.ok v, s') ∧
        v.l1Receipt = some d ∧ ∀ r, d = L1Receipt.toDict r →
          ¬r.Usable deniedRecord.externals
            (deniedRecord.externals.ed25519.publicKey deniedRecord.seed) denyingServerL1.issuer := by
  obtain ⟨v, s', d, hverify, hreceipt⟩ := verify_denyingServerL1
    (by decide : (text "shell").Encodable) (by decide : Text.Encodable [])
    (by decide : ServerState.init.sequence < maxSafeInteger)
  refine ⟨fromWire_commandFor _ _, by decide, v, s', d, hverify, hreceipt, ?_⟩
  rintro r rfl husable
  obtain ⟨paramsHash, parts, r', hr', h⟩ :=
    exists_issued rfl hverify (evaluateRules_denyAll _ _) hreceipt
  obtain rfl := L1Receipt.toDict_injective hr'
  -- if the receipt were read back, its trace identifier would not be empty
  have hreadable := (h.readsBack_iff (SignatureRecord.jcsAccepts _)
    (fromWire_commandFor _ _)).mp husable.readsBack
  exact hreadable.traceId_ne rfl

end VerifierServer
