import CcsVerifier.L1.Builder
import CcsVerifier.Protocol.Receipt

/-!
# The verification engine

`VerifierServer.verify`: the rule loop, the L0 receipt, the L1 receipt and the audit log.

* `VerifierServer`: the configuration of a server that was constructed.
* `verify_eq_ok_iff`: what a verification returns and leaves behind.
* `verify_error`: a verification that raises changes the sequence number only.
-/

/-- `VERSION` -/
def serverVersion : Text := text "1.1.20"

/-- A server after `__init__`. -/
structure VerifierServer (X : Externals) where
  /-- `rules` -/
  rules : List Rule
  /-- `_signing_key` -/
  signingKey : Bytes
  /-- `_l1_signing_key` -/
  l1SigningKey : Option Bytes
  /-- `_max_audit_log` -/
  maxAuditLog : ℤ
  /-- `_verifier_source_class` -/
  verifierSourceClass : Text
  /-- `_deployment_mode` -/
  deploymentMode : Text
  /-- `_issuer` -/
  issuer : Text
  /-- `_audience` -/
  audience : Text
  /-- `_clock_skew_bound` -/
  clockSkewBound : PyNum
  /-- `_config_hash` -/
  configHash : Text
  /-- `get_public_key` has accepted the L1 key. -/
  length_l1SigningKey : ∀ key ∈ l1SigningKey, key.length = 32
  /-- The configuration hash is over the class names of the rules and the version. -/
  configHash_eq : X.computeHash (.ofMembers
    [(text "rules", .list (rules.map fun r => .str r.typeName)),
      (text "version", .str serverVersion)]) = .ok configHash

/-- The attributes of a server that change from call to call. -/
structure ServerState where
  /-- `_audit_log` -/
  auditLog : List VerificationResult
  /-- `_request_count` -/
  requestCount : ℕ
  /-- `_deny_count` -/
  denyCount : ℕ
  /-- `_sequence` -/
  sequence : ℕ

/-- A new server has recorded nothing. -/
def ServerState.init : ServerState := ⟨[], 0, 0, 0⟩

/-- What one call of `verify` reads from outside. -/
structure CallReadings where
  /-- The state that the rules depend on besides the command. -/
  world : ℕ
  /-- The latency of the rule at each position. -/
  ruleLatency : ℕ → FiniteBinary64
  /-- The latency of the rule loop. -/
  totalLatency : FiniteBinary64
  /-- `time.time()` after the rule loop. -/
  now : FiniteBinary64
  /-- The readings of a new L1 receipt. -/
  defaults : ReceiptDefaults

/-! ## The rule loop -/

/-- The local variables of the rule loop. -/
structure RuleLoop where
  /-- `rule_results` -/
  results : List RuleResult
  /-- `final_verdict` -/
  finalVerdict : Verdict
  /-- `block_reason` -/
  blockReason : PyVal
  /-- `error_code` -/
  errorCode : PyVal

/-- The variables before the loop. -/
def RuleLoop.init : RuleLoop := ⟨[], .allow, .str [], .int DimensionError.default⟩

/-- The loop over the rules: a denial ends it. -/
def evaluateRules (call : CallReadings) (c : Command) :
    List Rule → RuleLoop → Except PyExc RuleLoop
  | [], loop => .ok loop
  | rule :: rules, loop => do
    let evaluated ← rule.evaluate call.world c
    let result : RuleResult :=
      { evaluated with latencyUs := .float (.fin (call.ruleLatency loop.results.length)) }
    let results := loop.results ++ [result]
    match result.verdict with
    | .deny => return ⟨results, .deny, result.reason, result.errorCode⟩
    | .escalate =>
      if loop.finalVerdict ≠ .deny then
        evaluateRules call c rules ⟨results, .escalate, result.reason, loop.errorCode⟩
      else evaluateRules call c rules { loop with results := results }
    | .allow => evaluateRules call c rules { loop with results := results }

/-- The variables have the types of their annotations. -/
structure RuleLoop.Typed (loop : RuleLoop) : Prop where
  /-- So have the results of the rules. -/
  results : ∀ r ∈ loop.results, r.Typed
  /-- The reason is a string. -/
  blockReason : ∃ s, loop.blockReason = .str s
  /-- The error code is an integer. -/
  errorCode : ∃ z, loop.errorCode = .int z

/-- The variables start as strings and numbers. -/
theorem RuleLoop.typed_init : RuleLoop.init.Typed := ⟨by simp [init], ⟨_, rfl⟩, ⟨_, rfl⟩⟩

/-- The names in the results are strings. -/
theorem RuleLoop.Typed.ruleName_str {loop : RuleLoop} (hloop : loop.Typed) :
    ∀ v ∈ loop.results.map RuleResult.ruleName, ∃ s, v = .str s :=
  List.forall_mem_map.mpr fun r hr => (hloop.results r hr).ruleName

/-- What holds of the result, the reason and the error code of every rule holds of the variables of
the loop. -/
theorem evaluateRules_forall {call : CallReadings} {c : Command} {rules : List Rule}
    {P : RuleResult → Prop} {Q R : PyVal → Prop}
    (hrules : ∀ rule ∈ rules, ∀ r, rule.evaluate call.world c = .ok r → ∀ latency,
      P { r with latencyUs := .float (.fin latency) } ∧ Q r.reason ∧ R r.errorCode)
    {loop result : RuleLoop}
    (hloop : (∀ r ∈ loop.results, P r) ∧ Q loop.blockReason ∧ R loop.errorCode)
    (hok : evaluateRules call c rules loop = .ok result) :
    (∀ r ∈ result.results, P r) ∧ Q result.blockReason ∧ R result.errorCode := by
  induction rules generalizing loop with
  | nil =>
    cases hok
    exact hloop
  | cons rule rules ih =>
    have hrest := fun later hmem => hrules later (List.mem_cons_of_mem _ hmem)
    obtain ⟨hresults, hreason, hcode⟩ := hloop
    simp only [evaluateRules, Except.bind_eq_ok_iff] at hok
    obtain ⟨evaluated, heval, hok⟩ := hok
    obtain ⟨hresult, hreason', hcode'⟩ := hrules rule (List.mem_cons_self ..) evaluated heval
      (call.ruleLatency loop.results.length)
    have hresults' : ∀ r ∈ loop.results ++ [{ evaluated with
        latencyUs := PyVal.float (.fin (call.ruleLatency loop.results.length)) }], P r := by
      rw [List.forall_mem_append, List.forall_mem_singleton]
      exact ⟨hresults, hresult⟩
    -- a denial ends the loop; an escalation and an allowance go on
    split at hok
    · cases hok
      exact ⟨hresults', hreason', hcode'⟩
    · split at hok
      · refine ih hrest ?_ hok
        exact ⟨hresults', hreason', hcode⟩
      · refine ih hrest ?_ hok
        exact ⟨hresults', hreason, hcode⟩
    · refine ih hrest ?_ hok
      exact ⟨hresults', hreason, hcode⟩

/-- The loop keeps the types of its variables. -/
theorem evaluateRules_typed {call : CallReadings} {c : Command} {rules : List Rule}
    {loop result : RuleLoop} (hloop : loop.Typed)
    (hok : evaluateRules call c rules loop = .ok result) : result.Typed := by
  obtain ⟨hresults, hreason, hcode⟩ := evaluateRules_forall (P := RuleResult.Typed)
    (Q := fun v => ∃ s, v = .str s) (R := fun v => ∃ z, v = .int z)
    (fun rule _ r hr latency => by
      have htyped := rule.typed hr
      exact ⟨⟨htyped.ruleName, htyped.reason, htyped.errorCode⟩, htyped.reason, htyped.errorCode⟩)
    ⟨hloop.results, hloop.blockReason, hloop.errorCode⟩ hok
  exact ⟨hresults, hreason, hcode⟩

/-- `"|".join(f"{r.rule_name}={r.verdict.value}" for r in rule_results)` -/
def ruleSummary (X : Externals) (results : List RuleResult) : Text :=
  (text "|").intercalate
    (results.map fun r => r.ruleName.format X.isPrintable ++ text "=" ++ r.verdict.value)

/-- A summary can be encoded when every name in it can. -/
theorem ruleSummary_encodable_iff {X : Externals} {results : List RuleResult}
    (h : ∀ r ∈ results, r.Typed) :
    (ruleSummary X results).Encodable ↔ ∀ r ∈ results, r.ruleName.EncodableStrings := by
  have hitem : ∀ r ∈ results, ((r.ruleName.format X.isPrintable ++ text "=" ++
      r.verdict.value).Encodable ↔ r.ruleName.EncodableStrings) := by
    intro r hr
    obtain ⟨s, hs⟩ := (h r hr).ruleName
    have hequals : (text "=").Encodable := by decide
    rw [hs, PyVal.EncodableStrings, Text.encodable_append, Text.encodable_append,
      and_iff_left hequals, and_iff_left r.verdict.value_isAscii.encodable]
    rfl
  rw [ruleSummary, Text.Encodable, Text.forall_mem_intercalate (by decide : (text "|").Encodable)]
  simp only [List.forall_mem_map]
  exact forall₂_congr hitem

/-! ## Receipts -/

/-- `request_data` -/
def requestData (c : Command) : PyVal :=
  .ofMembers [(text "agent_id", c.agentId), (text "tool", c.tool), (text "params", c.params),
    (text "timestamp", c.timestamp), (text "trace_id", c.traceId)]

/-- `response_data` -/
def responseData (loop : RuleLoop) : PyVal :=
  .ofMembers [(text "verdict", .str loop.finalVerdict.value),
    (text "rule_results", .list (loop.results.map RuleResult.ruleName)),
    (text "block_reason", loop.blockReason)]

/-- `v[:n]` -/
def PyVal.sliceTo (n : ℕ) : PyVal → Except PyExc PyVal
  | .str s => .ok (.str (s.take n))
  | .bytes b => .ok (.bytes (b.take n))
  | .list xs => .ok (.list (xs.take n))
  | .tuple xs => .ok (.tuple (xs.take n))
  | .dict _ => PyExc.type (text "unhashable type: 'slice'")
  | v => PyExc.type (text "'" ++ v.typeName ++ text "' object is not subscriptable")

namespace VerifierServer

variable {X : Externals} (srv : VerifierServer X)

/-- `l1_enabled` -/
def l1Enabled : Bool := srv.l1SigningKey.isSome

/-- `runtime_context` -/
def runtimeContext : PyVal :=
  .ofMembers [(text "python_version", .str (text "3.x")), (text "mode", .str srv.deploymentMode)]

/-- `self._audience or command.agent_id` -/
def audienceOf (c : Command) : PyVal :=
  if srv.audience = [] then c.agentId else .str srv.audience

/-- The L0 receipt with the hash of the parameters. -/
def l0Receipt (call : CallReadings) (c : Command) (loop : RuleLoop) : Except PyExc (Text × Text) := do
  let paramsHash ← c.paramsHash X
  let receipt ← signReceipt X c.traceId loop.finalVerdict (.float (.fin call.now)) srv.signingKey
    c.tool (.str paramsHash) (.str (ruleSummary X loop.results))
  return (paramsHash, receipt)

/-- Five minutes are few enough seconds to be a float. -/
theorem abs_fiveMinutes_lt : |(300 : ℤ)| < 2 ^ 53 := by norm_num

/-- The L1 receipt under `key`, built field by field. -/
def l1Receipt (call : CallReadings) (c : Command) (loop : RuleLoop) (paramsHash : Text)
    (sequence : ℕ) (key : Bytes) : Except PyExc L1Receipt := do
  let now : PyVal := .float (.fin call.now)
  let issuanceBound ← now.sub srv.clockSkewBound.toVal
  let expiryBound ← now.add (.float (.ofSmallInt 300 abs_fiveMinutes_lt))
  let b := L1ReceiptBuilder.new call.defaults c.traceId loop.finalVerdict
  let b := (b.tool c.tool).paramsHash (.str paramsHash)
  let b ← b.argsDigest X c.params
  let b := (b.ruleSummary (.str (ruleSummary X loop.results))).ruleVersion (.str serverVersion)
  let b ← b.requestHash X (requestData c)
  let b ← b.responseHash X (responseData loop)
  let b ← b.runtimeContext X srv.runtimeContext
  let b ← b.configHash X (.ofMembers [(text "rules", .str srv.configHash)])
  let b := (b.verifierSourceClass (.str srv.verifierSourceClass)).deploymentMode
    (.str srv.deploymentMode)
  let b := ((b.issuer (.str srv.issuer)).audience (srv.audienceOf c)).sequence (.int sequence)
  let b := b.timeBounds issuanceBound expiryBound srv.clockSkewBound.toVal
  let b := b.action (.str (text "ccs.verify." ++ loop.finalVerdict.value))
  let b := b.latencyUs (.float (.fin call.totalLatency))
  if c.traceId.truthy then
    let nonce ← c.traceId.sliceTo 16
    (b.nonce nonce).build X (some key)
  else b.build X (some key)

/-- The dictionary of the L1 receipt, if L1 mode is enabled. -/
def l1ReceiptData (call : CallReadings) (c : Command) (loop : RuleLoop) (paramsHash : Text)
    (sequence : ℕ) : Except PyExc (Option PyVal) :=
  match srv.l1SigningKey with
  | none => .ok none
  | some key => do
    let receipt ← srv.l1Receipt call c loop paramsHash sequence key
    return some receipt.toDict

/-! ## The audit log -/

/-- `xs[start:]` -/
def sliceFrom {α : Type} (xs : List α) (start : ℤ) : List α :=
  xs.drop (if start < 0 then (xs.length + start).toNat else start.toNat)

/-- The state after a verification has been recorded. -/
def record (v : VerificationResult) (s : ServerState) : ServerState :=
  let log := s.auditLog ++ [v]
  { s with
    auditLog := if (log.length : ℤ) > srv.maxAuditLog then sliceFrom log (-srv.maxAuditLog) else log
    requestCount := s.requestCount + 1
    denyCount := if v.verdict = .deny then s.denyCount + 1 else s.denyCount }

/-- The state after the sequence number has been taken. -/
def nextSequence (s : ServerState) : ServerState :=
  if srv.l1Enabled then { s with sequence := s.sequence + 1 } else s

/-- Taking a sequence number leaves the ledger alone. -/
theorem nextSequence_ledger (s : ServerState) :
    (srv.nextSequence s).auditLog = s.auditLog ∧
      (srv.nextSequence s).requestCount = s.requestCount ∧
      (srv.nextSequence s).denyCount = s.denyCount := by
  unfold nextSequence
  split <;> exact ⟨rfl, rfl, rfl⟩

/-- With an L1 key the number is the next one. -/
theorem sequence_nextSequence {key : Bytes} (hkey : srv.l1SigningKey = some key)
    (s : ServerState) : (srv.nextSequence s).sequence = s.sequence + 1 := by
  simp [nextSequence, l1Enabled, hkey]

/-- The result of a verification. -/
def resultOf (call : CallReadings) (c : Command) (loop : RuleLoop) (paramsHash receipt : Text)
    (l1Receipt : Option PyVal) : VerificationResult where
  traceId := c.traceId
  verdict := loop.finalVerdict
  blockReason := loop.blockReason
  ruleResults := loop.results
  receipt := .str receipt
  verifiedAt := .float (.fin call.now)
  tool := c.tool
  paramsHash := .str paramsHash
  errorCode := loop.errorCode
  l1Receipt := l1Receipt

/-- `await self.verify(command)`: the result or the exception, and the state left behind. -/
def verify (call : CallReadings) (c : Command) (s : ServerState) :
    Except PyExc VerificationResult × ServerState :=
  match evaluateRules call c srv.rules .init with
  | .error e => (.error e, s)
  | .ok loop =>
    match srv.l0Receipt call c loop with
    | .error e => (.error e, s)
    | .ok (paramsHash, receipt) =>
      let s := srv.nextSequence s
      match srv.l1ReceiptData call c loop paramsHash s.sequence with
      | .error e => (.error e, s)
      | .ok l1Receipt =>
        let verification := resultOf call c loop paramsHash receipt l1Receipt
        (.ok verification, srv.record verification s)

/-- What a verification returns, and what it leaves behind. -/
theorem verify_eq_ok_iff {srv : VerifierServer X} {call : CallReadings} {c : Command}
    {s s' : ServerState} {v : VerificationResult} :
    srv.verify call c s = (.ok v, s') ↔ ∃ loop paramsHash receipt l1Receipt,
      evaluateRules call c srv.rules .init = .ok loop ∧
      srv.l0Receipt call c loop = .ok (paramsHash, receipt) ∧
      srv.l1ReceiptData call c loop paramsHash (srv.nextSequence s).sequence = .ok l1Receipt ∧
      v = resultOf call c loop paramsHash receipt l1Receipt ∧
      s' = srv.record v (srv.nextSequence s) := by
  unfold verify
  constructor
  · intro h
    split at h
    · cases h
    -- no rule has raised
    next loop hloop =>
    split at h
    · cases h
    next paramsHash receipt hl0 =>
    dsimp only at h
    split at h
    · cases h
    next l1Receipt hl1 =>
    cases h
    exact ⟨loop, paramsHash, receipt, l1Receipt, hloop, hl0, hl1, rfl, rfl⟩
  · rintro ⟨loop, paramsHash, receipt, l1Receipt, hloop, hl0, hl1, rfl, rfl⟩
    simp only [hloop, hl0, hl1]

/-- With an L1 key every result carries an L1 receipt. -/
theorem exists_l1Receipt {srv : VerifierServer X} {key : Bytes}
    (hkey : srv.l1SigningKey = some key) {call : CallReadings} {c : Command} {s s' : ServerState}
    {v : VerificationResult} (hverify : srv.verify call c s = (.ok v, s')) :
    ∃ r, v.l1Receipt = some (L1Receipt.toDict r) := by
  obtain ⟨_, _, _, _, -, -, hl1, hv, -⟩ := verify_eq_ok_iff.mp hverify
  simp only [l1ReceiptData, hkey, Except.bind_eq_ok_iff, pure, Except.pure, Except.ok.injEq] at hl1
  obtain ⟨r, -, rfl⟩ := hl1
  exact ⟨r, by rw [hv, resultOf]⟩

/-- A verification that raises records nothing. -/
theorem verify_error {srv : VerifierServer X} {call : CallReadings} {c : Command}
    {s s' : ServerState} {e : PyExc} (h : srv.verify call c s = (.error e, s')) :
    s'.auditLog = s.auditLog ∧ s'.requestCount = s.requestCount ∧ s'.denyCount = s.denyCount := by
  unfold verify at h
  split at h
  · cases h
    exact ⟨rfl, rfl, rfl⟩
  split at h
  · cases h
    exact ⟨rfl, rfl, rfl⟩
  dsimp only at h
  split at h
  · cases h
    exact srv.nextSequence_ledger s
  · cases h

end VerifierServer
