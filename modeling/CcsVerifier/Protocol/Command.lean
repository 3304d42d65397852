import CcsVerifier.Externals

/-!
# Commands, rules and results

The data that crosses the process boundary: commands, the verdicts of rules and verification
results. Dataclass annotations are not enforced, so every field that comes off the wire or out
of a rule is an arbitrary value.

* `Command.paramsHash`: the digest that binds a receipt to the parameters.
* `paramsHash_isOk_of_isJson`: parameters decoded from JSON always have one.
-/

/-- The verdict of a rule or of a whole verification. -/
inductive Verdict where
  | allow
  | deny
  | escalate
deriving DecidableEq

namespace Verdict

/-- `verdict.value`. -/
def value : Verdict → Text
  | .allow => text "allow"
  | .deny => text "deny"
  | .escalate => text "escalate"

/-- The three verdicts have different names. -/
theorem value_injective : Function.Injective value := by
  intro v w h
  cases v <;> cases w <;> first | rfl | exact absurd h (by decide)

/-- Their names are ASCII. -/
theorem value_isAscii (v : Verdict) : v.value.IsAscii := by
  cases v <;> decide

/-- `Verdict(v)`: the member with this value. -/
def ofValue (isPrintable : CodePoint → Bool) (v : PyVal) : Except PyExc Verdict :=
  if v.eqStr (text "allow") then .ok .allow
  else if v.eqStr (text "deny") then .ok .deny
  else if v.eqStr (text "escalate") then .ok .escalate
  else PyExc.value (v.repr isPrintable ++ text " is not a valid Verdict")

end Verdict

/-- `DimensionError.default()`, the code of a security denial. -/
def DimensionError.default : ℤ := -32000

/-- A command to be verified. -/
structure Command where
  /-- `agent_id` -/
  agentId : PyVal
  /-- `tool` -/
  tool : PyVal
  /-- `params` -/
  params : PyVal
  /-- `timestamp` -/
  timestamp : PyVal
  /-- `trace_id` -/
  traceId : PyVal

/-- The commands that a JSON message carries whose identifiers are strings. -/
structure Command.FromWire (c : Command) : Prop where
  /-- The agent is named by a string. -/
  agentId : ∃ s, c.agentId = .str s
  /-- The tool is named by a string. -/
  tool : ∃ s, c.tool = .str s
  /-- The parameters are any JSON value. -/
  params : c.params.IsJson
  /-- The time is any JSON value. -/
  timestamp : c.timestamp.IsJson
  /-- The trace is identified by a string. -/
  traceId : ∃ s, c.traceId = .str s

/-- The commands whose fields are JSON values: those that a JSON message carries. -/
structure Command.IsJson (c : Command) : Prop where
  /-- The agent is any JSON value. -/
  agentId : c.agentId.IsJson
  /-- The tool is any JSON value. -/
  tool : c.tool.IsJson
  /-- The parameters are any JSON value. -/
  params : c.params.IsJson
  /-- The time is any JSON value. -/
  timestamp : c.timestamp.IsJson
  /-- The trace identifier is any JSON value. -/
  traceId : c.traceId.IsJson

/-- A command from the wire is made of JSON values. -/
theorem Command.FromWire.isJson {c : Command} (h : c.FromWire) : c.IsJson := by
  obtain ⟨agentId, hagent⟩ := h.agentId
  obtain ⟨tool, htool⟩ := h.tool
  obtain ⟨traceId, htrace⟩ := h.traceId
  exact ⟨hagent ▸ .str _, htool ▸ .str _, h.params, h.timestamp, htrace ▸ .str _⟩

/-- The result of one rule. -/
structure RuleResult where
  /-- `rule_name` -/
  ruleName : PyVal
  /-- `verdict` -/
  verdict : Verdict
  /-- `reason` -/
  reason : PyVal
  /-- `latency_us` -/
  latencyUs : PyVal
  /-- `error_code` -/
  errorCode : PyVal

/-- The result of a verification. -/
structure VerificationResult where
  /-- `trace_id` -/
  traceId : PyVal
  /-- `verdict` -/
  verdict : Verdict
  /-- `block_reason` -/
  blockReason : PyVal
  /-- `rule_results` -/
  ruleResults : List RuleResult
  /-- `receipt` -/
  receipt : PyVal
  /-- `verified_at` -/
  verifiedAt : PyVal
  /-- `tool` -/
  tool : PyVal
  /-- `params_hash` -/
  paramsHash : PyVal
  /-- `error_code` -/
  errorCode : PyVal
  /-- The attribute `l1_receipt`, set only when there is an L1 receipt. -/
  l1Receipt : Option PyVal

/-- The fields of a result have the types of their annotations. -/
structure RuleResult.Typed (r : RuleResult) : Prop where
  /-- The name is a string. -/
  ruleName : ∃ s, r.ruleName = .str s
  /-- The reason is a string. -/
  reason : ∃ s, r.reason = .str s
  /-- The error code is an integer. -/
  errorCode : ∃ z, r.errorCode = .int z

/-- A rule: its name, its class name and its evaluation. Evaluation may depend on state outside
the command, here the number `world` that changes from call to call, and may raise. -/
structure Rule where
  /-- `rule.name` -/
  name : Text
  /-- `type(rule).__name__` -/
  typeName : Text
  /-- `rule.evaluate(command)` -/
  evaluate : ℕ → Command → Except PyExc RuleResult
  /-- Results have the types of their annotations. -/
  typed : ∀ {world c r}, evaluate world c = .ok r → r.Typed

/-! ## Digests of commands -/

namespace Command

variable (X : Externals)

/-- The message that `canonical_bytes` dumps. -/
def canonicalData (c : Command) : PyVal :=
  .ofMembers [(text "agent_id", c.agentId), (text "tool", c.tool), (text "params", c.params),
    (text "timestamp", c.timestamp), (text "trace_id", c.traceId)]

/-- `command.canonical_bytes()`. -/
def canonicalBytes (c : Command) : Except PyExc Bytes := do
  let dumped ← dumps .compact c.canonicalData
  dumped.encode

/-- `command.params_hash()`. -/
def paramsHash (c : Command) : Except PyExc Text := do
  let dumped ← dumps .compact c.params
  let raw ← dumped.encode
  return (Text.hex (X.sha256 raw)).take 16

/-- Parameters that were decoded from JSON have a hash. -/
theorem paramsHash_isOk_of_isJson {c : Command} (h : c.params.IsJson) :
    ∃ t, c.paramsHash X = .ok t := by
  obtain ⟨dumped, hdumped⟩ := dumps_isOk_of_isJson .compact h
  have hascii := dumps_isAscii .compact (by decide) (by decide) hdumped
  obtain ⟨raw, hraw⟩ := Text.encode_isOk_iff.mpr hascii.encodable
  exact ⟨_, by simp only [paramsHash, hdumped, hraw, bind, Except.bind]; rfl⟩

/-- The hash of the parameters has sixteen digits. -/
theorem paramsHash_eq_ok {c : Command} {t : Text} (h : c.paramsHash X = .ok t) :
    t.length = 16 ∧ t.IsAscii := by
  simp only [paramsHash, Except.bind_eq_ok_iff, pure, Except.pure, Except.ok.injEq] at h
  obtain ⟨dumped, -, raw, -, rfl⟩ := h
  refine ⟨?_, fun c hc => Text.hex_isAscii _ c (List.mem_of_mem_take hc)⟩
  rw [List.length_take, Text.length_hex, X.length_sha256]
  rfl

end Command
