import CcsVerifier.L1.TamperEvidence
import CcsVerifier.Server.Issue

/-!
# The audit log

A denial is recorded at the end of `verify`, after the receipts have been made. A receipt that
cannot be made therefore keeps the denial out of the audit log.

* `VerifierServer.Recordable`: the requests whose receipts can be made.
* `VerifierServer.verify_isOk_iff`: a verification returns exactly on these.
* `VerifierServer.denialRecorded_iff`: a denial is recorded exactly on these.
* `VerifierServer.surrogate_denial_not_recorded`: a denied command that leaves no trace.
-/

namespace VerifierServer

variable {X : Externals} {srv : VerifierServer X} {call : CallReadings} {c : Command}
  {loop : RuleLoop} {s : ServerState}

/-! ## Recording -/

/-- The most recent entries are kept, so the log ends with the new one. -/
theorem getLast?_record (hmax : 1 ≤ srv.maxAuditLog) (v : VerificationResult) (s : ServerState) :
    (srv.record v s).auditLog.getLast? = some v := by
  have hlast : (s.auditLog ++ [v]).getLast? = some v := List.getLast?_concat ..
  simp only [record, sliceFrom]
  split
  · rw [if_pos (by omega), List.getLast?_drop, if_neg (by omega), hlast]
  · exact hlast

/-- The log never exceeds its bound. -/
theorem length_record_le (hmax : 1 ≤ srv.maxAuditLog) (v : VerificationResult) (s : ServerState) :
    (srv.record v s).auditLog.length ≤ srv.maxAuditLog := by
  simp only [record, sliceFrom]
  split
  · rw [if_pos (by omega), List.length_drop]
    omega
  · omega

/-! ## When a verification returns -/

/-- The requests for which every receipt can be made. -/
structure Recordable (srv : VerifierServer X) (call : CallReadings) (c : Command) (loop : RuleLoop)
    (s : ServerState) : Prop where
  /-- The strings that every receipt holds can be encoded. -/
  request : EncodableRequest c loop
  /-- In L1 mode, the L1 receipt can be issued under the next sequence number. -/
  l1Issuable : srv.l1Enabled = true → srv.L1Issuable call c loop (s.sequence + 1)

/-- The L1 step returns when L1 mode is off or the L1 receipt can be issued. -/
theorem l1ReceiptData_isOk_iff (hjcs : X.JcsAccepts) (hwire : c.FromWire) (hloop : loop.Typed)
    (hrequest : EncodableRequest c loop) {paramsHash : Text} (hhash : paramsHash.IsAscii) :
    (∃ l1, srv.l1ReceiptData call c loop paramsHash (srv.nextSequence s).sequence = .ok l1) ↔
      (srv.l1Enabled = true → srv.L1Issuable call c loop (s.sequence + 1)) := by
  cases hkey : srv.l1SigningKey with
  | none => simp [l1ReceiptData, l1Enabled, hkey]
  | some key =>
    have hlength := srv.length_l1SigningKey key hkey
    rw [← l1Receipt_isOk_iff hjcs hwire hloop hrequest hhash hlength]
    -- with a key the receipt gets the next number
    have hnext := srv.sequence_nextSequence hkey s
    simp only [l1ReceiptData, l1Enabled, hkey, hnext, Except.bind_eq_ok_iff, pure, Except.pure,
      Except.ok.injEq, Option.isSome_some, forall_const]
    constructor
    · rintro ⟨_, r, hr, -⟩
      exact ⟨r, hr⟩
    · rintro ⟨r, hr⟩
      exact ⟨_, r, hr, rfl⟩

/-- A verification whose rule loop ends returns exactly when the receipts can be made. -/
theorem verify_isOk_iff (hjcs : X.JcsAccepts) (hwire : c.FromWire)
    (hloop : evaluateRules call c srv.rules .init = .ok loop) :
    (∃ v, (srv.verify call c s).1 = .ok v) ↔ srv.Recordable call c loop s := by
  -- once the rules have decided, only the two receipts can fail
  have htyped := evaluateRules_typed RuleLoop.typed_init hloop
  constructor
  · rintro ⟨v, hv⟩
    obtain ⟨loop', paramsHash, receipt, l1, hloop', hl0, hl1, -, -⟩ :=
      verify_eq_ok_iff.mp (Prod.ext hv rfl)
    rw [hloop] at hloop'
    cases hloop'
    have hrequest := (l0Receipt_isOk_iff srv hwire htyped).mp ⟨paramsHash, receipt, hl0⟩
    exact ⟨hrequest, (l1ReceiptData_isOk_iff hjcs hwire htyped hrequest
      (Command.paramsHash_eq_ok X (paramsHash_of_l0Receipt srv hl0)).2).mp ⟨l1, hl1⟩⟩
  · rintro ⟨hrequest, hissuable⟩
    obtain ⟨paramsHash, receipt, hl0⟩ := (l0Receipt_isOk_iff srv hwire htyped).mpr hrequest
    obtain ⟨l1, hl1⟩ := (l1ReceiptData_isOk_iff (s := s) hjcs hwire htyped hrequest
      (Command.paramsHash_eq_ok X (paramsHash_of_l0Receipt srv hl0)).2).mpr hissuable
    have hverify := (verify_eq_ok_iff (s := s)).mpr
      ⟨loop, paramsHash, receipt, l1, hloop, hl0, hl1, rfl, rfl⟩
    exact ⟨_, congrArg Prod.fst hverify⟩

/-! ## Denials -/

/-- An entry of the audit log that records the denial of a command. -/
structure IsDenialOf (X : Externals) (c : Command) (v : VerificationResult) : Prop where
  /-- The entry has the trace identifier of the command. -/
  traceId : v.traceId = c.traceId
  /-- The entry names the tool of the command. -/
  tool : v.tool = c.tool
  /-- The entry has the hash of the parameters of the command. -/
  paramsHash : ∃ t, c.paramsHash X = .ok t ∧ v.paramsHash = .str t
  /-- The verdict is a denial. -/
  verdict : v.verdict = .deny

/-- The denial of a command is recorded between two states: the log ends with it and the count of
denials has grown by one. -/
structure DenialRecorded (X : Externals) (c : Command) (s s' : ServerState) : Prop where
  /-- The last entry is the denial. -/
  entry : ∃ v, s'.auditLog.getLast? = some v ∧ IsDenialOf X c v
  /-- The denial is counted. -/
  denyCount : s'.denyCount = s.denyCount + 1

/-- A verification that returns a denial has recorded it. -/
theorem denialRecorded_of_verify_eq_ok (hmax : 1 ≤ srv.maxAuditLog) {v : VerificationResult}
    {s' : ServerState} (hv : srv.verify call c s = (.ok v, s')) (hdeny : v.verdict = .deny) :
    DenialRecorded X c s s' := by
  obtain ⟨loop, paramsHash, receipt, l1, -, hl0, -, rfl, rfl⟩ := verify_eq_ok_iff.mp hv
  refine ⟨⟨_, getLast?_record hmax _ _, rfl, rfl, ⟨paramsHash, ?_, rfl⟩, hdeny⟩, ?_⟩
  · exact paramsHash_of_l0Receipt srv hl0
  · simp only [record, hdeny, ↓reduceIte, (srv.nextSequence_ledger s).2.2]

/-- When the rule loop reaches a denial, it is recorded exactly when the receipts can be made. -/
theorem denialRecorded_iff (hjcs : X.JcsAccepts) (hwire : c.FromWire)
    (hmax : 1 ≤ srv.maxAuditLog) (hloop : evaluateRules call c srv.rules .init = .ok loop)
    (hdeny : loop.finalVerdict = .deny) :
    DenialRecorded X c s (srv.verify call c s).2 ↔ srv.Recordable call c loop s := by
  rw [← verify_isOk_iff hjcs hwire hloop]
  constructor
  · intro h
    cases hv : (srv.verify call c s).1 with
    | error e =>
      -- an exception leaves the count as it was
      have hcount := (verify_error (Prod.ext hv rfl)).2.2
      rw [h.denyCount] at hcount
      omega
    | ok v => exact ⟨v, rfl⟩
  · rintro ⟨v, hv⟩
    refine denialRecorded_of_verify_eq_ok hmax (Prod.ext hv rfl) ?_
    obtain ⟨loop', _, _, _, hloop', -, -, rfl, -⟩ := verify_eq_ok_iff.mp (Prod.ext hv rfl)
    rw [hloop] at hloop'
    cases hloop'
    exact hdeny

/-! ## A denial that is not recorded -/

/-- What a rule of this name says, with the default error code. -/
def fixedResult (name : Text) (verdict : Verdict) (reason : Text) : RuleResult :=
  ⟨.str name, verdict, .str reason, .float .zero, .int (-32000)⟩

/-- A rule that says the same about every command. -/
def fixedRule (name typeName : Text) (verdict : Verdict) (reason : Text) : Rule where
  name := name
  typeName := typeName
  evaluate _ _ := .ok (fixedResult name verdict reason)
  typed h := by
    cases h
    exact ⟨⟨_, rfl⟩, ⟨_, rfl⟩, ⟨_, rfl⟩⟩

/-- A rule that denies every command. -/
def denyAll : Rule := fixedRule (text "deny_all") (text "DenyAll") .deny (text "denied")

/-- The default clock skew bound, in seconds, is a float. -/
theorem abs_clockSkewBound_lt : |(5 : ℤ)| < 2 ^ 53 := by norm_num

/-- A server with the given rules, with or without an L1 key, otherwise as by default. -/
def sampleServer (record : SignatureRecord) (rules : List Rule) (configHash : Text)
    (hconfig : record.externals.computeHash (.ofMembers
      [(text "rules", .list (rules.map fun r => .str r.typeName)),
        (text "version", .str serverVersion)]) = .ok configHash)
    (l1SigningKey : Option Bytes) (hkey : ∀ key ∈ l1SigningKey, key.length = 32) :
    VerifierServer record.externals where
  rules := rules
  signingKey := List.replicate 32 0
  l1SigningKey := l1SigningKey
  maxAuditLog := 100000
  verifierSourceClass := text "ccs_verifier.server.VerifierServer"
  deploymentMode := text "in-process"
  issuer := text "ccs-verifier"
  audience := []
  clockSkewBound := .float (.ofSmallInt 5 abs_clockSkewBound_lt)
  configHash := configHash
  length_l1SigningKey := hkey
  configHash_eq := hconfig

/-- A server with or without an L1 key, otherwise as by default, that denies every command. -/
def denyingServer (record : SignatureRecord) (l1SigningKey : Option Bytes)
    (h : ∀ key ∈ l1SigningKey, key.length = 32) : VerifierServer record.externals :=
  sampleServer record [denyAll]
    (text "5343b02186169d207ecbd81996bccfe92d1873d5dd27c8670d8aff72db2148dc")
    ((record.computeHash_externals .reference _).trans (by decide +kernel)) l1SigningKey h

/-- Without a key there is no length to check. -/
theorem length_noKey : ∀ key ∈ (none : Option Bytes), key.length = 32 := by simp

/-- The reference key has its length. -/
theorem length_referenceKey :
    ∀ key ∈ some SignatureRecord.reference.seed, key.length = 32 := fun key h => by
  cases h
  decide +kernel

/-- The denying server without an L1 key. -/
def denyingServerL0 : VerifierServer L1Receipt.referenceX :=
  denyingServer .reference none length_noKey

/-- The denying server with the reference key as its L1 key. -/
def denyingServerKeyed : VerifierServer L1Receipt.referenceX :=
  denyingServer .reference (some SignatureRecord.reference.seed) length_referenceKey

/-- The readings of a call during which no time passes. -/
def readingsAt (now : FiniteBinary64) : CallReadings where
  world := 0
  ruleLatency _ := ⟨0, Representable.zero⟩
  totalLatency := ⟨0, Representable.zero⟩
  now := now
  defaults := { L1Receipt.sampleDefaults with timestamp := now, verifiedAt := now }

/-- The readings of a call at time zero. -/
def readingsAtZero : CallReadings := readingsAt ⟨0, Representable.zero⟩

/-- The readings of a call at the reference time. -/
def readingsInTime : CallReadings :=
  readingsAt ⟨(1893456000 : ℤ), Representable.intCast (by norm_num)⟩

/-- The expiry of a receipt of such a call. -/
theorem expiry_readingsInTime : expiry readingsInTime = .ofSmallInt 1893456300 (by norm_num) :=
  Binary64.add_ofSmallInt (by norm_num) (by norm_num) (by norm_num) (by norm_num)

/-- A command for a tool, without parameters. -/
def commandFor (tool traceId : Text) : Command where
  agentId := .str (text "agent")
  tool := .str tool
  params := .ofMembers []
  timestamp := .int 0
  traceId := .str traceId

/-- Such a command can come from the wire. -/
theorem fromWire_commandFor (tool traceId : Text) : (commandFor tool traceId).FromWire :=
  ⟨⟨_, rfl⟩, ⟨_, rfl⟩, PyVal.isJson_ofMembers List.nodup_nil (by simp), .int 0, ⟨_, rfl⟩⟩

/-- The empty object has a canonical form. -/
theorem canonical_ofMembers_nil : (PyVal.ofMembers []).Canonical :=
  PyVal.canonical_ofMembers_iff.mpr fun _ hm => absurd hm List.not_mem_nil

section SampleServer

variable {record : SignatureRecord} {rules : List Rule} {configHash : Text}
  {hconfig : record.externals.computeHash (.ofMembers
    [(text "rules", .list (rules.map fun r => .str r.typeName)),
      (text "version", .str serverVersion)]) = .ok configHash}
  {l1SigningKey : Option Bytes} {hkey : ∀ key ∈ l1SigningKey, key.length = 32}

/-- The time of issue of a call at the reference time. -/
theorem issueTime_sampleServer :
    (sampleServer record rules configHash hconfig l1SigningKey hkey).issueTime readingsInTime =
      .ofSmallInt 1893455995 (by norm_num) :=
  Binary64.sub_ofSmallInt (by norm_num) (by norm_num) (by norm_num) (by norm_num) (by norm_num)

/-- The receipts of such a call can be made, whatever the verdicts of the rules are. -/
theorem recordable_sampleServer {params : PyVal} (hparams : params.Canonical) {tool traceId : Text}
    (htool : tool.Encodable) (htrace : traceId.Encodable)
    (hnames : ∀ r ∈ loop.results, r.ruleName.EncodableStrings)
    (hreason : loop.blockReason.EncodableStrings) (hs : s.sequence < maxSafeInteger) :
    (sampleServer record rules configHash hconfig l1SigningKey hkey).Recordable readingsInTime
      { commandFor tool traceId with params := params } loop s := by
  -- the L0 receipt needs texts that can be encoded, the L1 receipt the rest
  refine ⟨⟨htrace, htool, hnames⟩, fun _ => ?_⟩
  exact {
    agentId := (by decide : (text "agent").Encodable)
    params := hparams
    timestamp := ⟨(by decide : minSafeInteger ≤ 0 ∧ 0 ≤ maxSafeInteger), trivial⟩
    blockReason := hreason
    verifierSourceClass := (by decide : (text "ccs_verifier.server.VerifierServer").Encodable)
    deploymentMode := (by decide : (text "in-process").Encodable)
    issuer := (by decide : (text "ccs-verifier").Encodable)
    issuer_ne := (by decide : text "ccs-verifier" ≠ [])
    audience := (by decide : (text "agent").Encodable)
    audience_truthy := rfl
    sequence := by
      push_cast
      omega
    clockSkewBound := rfl
    issueTime_finite := by rw [issueTime_sampleServer]; rfl
    expiry_finite := by rw [expiry_readingsInTime]; rfl
    expiry_pos := by rw [expiry_readingsInTime]; decide +kernel
    inTime := by rw [issueTime_sampleServer]; exact .inr (by decide +kernel) }

end SampleServer

/-- The variables of the rule loop after the denial. -/
def deniedLoop : RuleLoop where
  results := [fixedResult (text "deny_all") .deny (text "denied")]
  finalVerdict := .deny
  blockReason := .str (text "denied")
  errorCode := .int (-32000)

/-- The rule loop ends with the denial. -/
theorem evaluateRules_denyAll (now : FiniteBinary64) (c : Command) :
    evaluateRules (readingsAt now) c [denyAll] .init = .ok deniedLoop := rfl

/-- The names in the denial can be encoded. -/
theorem encodable_ruleNames_deniedLoop :
    ∀ r ∈ deniedLoop.results, r.ruleName.EncodableStrings := by
  have hrule : (text "deny_all").Encodable := by decide
  intro r hr
  rw [List.mem_singleton.mp hr]
  exact hrule

/-- The strings of its receipts can be encoded. -/
theorem encodableRequest_commandFor {tool traceId : Text} (htool : tool.Encodable)
    (htrace : traceId.Encodable) : EncodableRequest (commandFor tool traceId) deniedLoop :=
  ⟨htrace, htool, encodable_ruleNames_deniedLoop⟩

/-- The parameters of a command, with a string and a number in them. -/
def sampleParams : PyVal :=
  .ofMembers [(text "path", .str (text "/etc/passwd")), (text "limit", .int 10)]

/-- They are JSON with a canonical form. -/
theorem sampleParams_canonical : sampleParams.IsJson ∧ sampleParams.Canonical := by
  constructor
  · refine PyVal.isJson_ofMembers (by decide) fun k v hkv => ?_
    simp only [List.mem_cons, List.not_mem_nil, or_false, Prod.mk.injEq] at hkv
    obtain ⟨-, rfl⟩ | ⟨-, rfl⟩ := hkv
    · exact .str _
    · exact .int _
  · refine PyVal.canonical_ofMembers_iff.mpr ?_
    simp only [List.forall_mem_cons, List.not_mem_nil, false_implies, implies_true, and_true]
    exact ⟨⟨by decide, PyVal.canonical_str.mpr (by decide)⟩, by decide,
      PyVal.canonical_int.mpr (by decide)⟩

/-- A command with these parameters. -/
def sampleRequest : Command :=
  { commandFor (text "shell") (text "t1") with params := sampleParams }

/-- The denial of the command is recorded, without an L1 key and with one. -/
theorem denialRecorded_iff_sample : denyingServerKeyed.l1Enabled = true ∧
    DenialRecorded L1Receipt.referenceX sampleRequest .init
      (denyingServerL0.verify readingsInTime sampleRequest .init).2 ∧
    DenialRecorded L1Receipt.referenceX sampleRequest .init
      (denyingServerKeyed.verify readingsInTime sampleRequest .init).2 := by
  have hwire : sampleRequest.FromWire :=
    ⟨⟨_, rfl⟩, ⟨_, rfl⟩, sampleParams_canonical.1, .int 0, ⟨_, rfl⟩⟩
  have hreason : deniedLoop.blockReason.EncodableStrings := (by decide : (text "denied").Encodable)
  refine ⟨rfl, ?_, ?_⟩ <;>
    refine (denialRecorded_iff (SignatureRecord.jcsAccepts _) hwire (by decide)
      (evaluateRules_denyAll _ _) rfl).mpr ?_ <;>
    exact recordable_sampleServer sampleParams_canonical.2 (by decide) (by decide)
      encodable_ruleNames_deniedLoop hreason (by decide)

/-- The denial of a command whose tool is a lone surrogate, as the JSON text `"\ud800"` spells it,
is not recorded. -/
theorem surrogate_denial_not_recorded : (commandFor [0xd800] (text "t1")).FromWire ∧
    1 ≤ denyingServerL0.maxAuditLog ∧
    evaluateRules readingsAtZero (commandFor [0xd800] (text "t1")) denyingServerL0.rules .init =
      .ok deniedLoop ∧
    deniedLoop.finalVerdict = .deny ∧
    ¬DenialRecorded L1Receipt.referenceX (commandFor [0xd800] (text "t1")) .init
      (denyingServerL0.verify readingsAtZero (commandFor [0xd800] (text "t1")) .init).2 := by
  refine ⟨fromWire_commandFor _ _, by decide, evaluateRules_denyAll _ _, rfl, fun h => ?_⟩
  -- no receipt can be made, so the state is the initial one
  cases hv : (denyingServerL0.verify readingsAtZero (commandFor [0xd800] (text "t1")) .init).1 with
  | error e =>
    have hcount := (verify_error (Prod.ext hv rfl)).2.2
    rw [h.denyCount] at hcount
    cases hcount
  | ok v =>
    have hrecordable := (verify_isOk_iff (SignatureRecord.jcsAccepts _) (fromWire_commandFor _ _)
      (evaluateRules_denyAll _ _)).mp ⟨v, hv⟩
    have hencodable : Text.Encodable [0xd800] := hrecordable.request.tool
    exact absurd hencodable (by decide)

end VerifierServer
