import CcsVerifier.Python.Object
import CcsVerifier.Server.Verify
import CcsVerifier.Transport.Frame

/-!
# Messages to the server

The body of the loop in `VerifierServer._handle_connection`: the answer to one message.

* `VerifierServer.respond`: the answer as a value; `VerifierServer.handleMessage`: as a frame.
* `VerifierServer.handleMessage_call`: which messages call `verify`, and with what.
* `VerifierServer.respond_type`: an answer is of the type that belongs to its request.
-/

/-- What handling one message reads from outside. -/
structure MessageReadings where
  /-- What a call of `verify` reads. -/
  call : CallReadings
  /-- `time.time()`, the default for the time of a command -/
  time : FiniteBinary64
  /-- `time.time() - self._started_at` -/
  uptime : FiniteBinary64

/-! ## Answers -/

/-- The command of a `verify` message. -/
def Command.ofMessage (time : FiniteBinary64) (msg : PyVal) : Except PyExc Command := do
  let agentId ← msg.getItem (text "agent_id")
  let tool ← msg.getItem (text "tool")
  let params ← msg.getItem (text "params")
  let timestamp ← msg.get (text "timestamp") (.float (.fin time))
  let traceId ← msg.get (text "trace_id") (.str [])
  return ⟨agentId, tool, params, timestamp, traceId⟩

/-- The command of a JSON message has JSON values as its fields. -/
theorem Command.isJson_of_ofMessage {time : FiniteBinary64} {msg : PyVal} {c : Command}
    (hjson : msg.IsJson) (h : ofMessage time msg = .ok c) : c.IsJson := by
  simp only [ofMessage, Except.bind_eq_ok_iff, pure, Except.pure, Except.ok.injEq] at h
  obtain ⟨agentId, hagent, tool, htool, params, hparams, timestamp, htimestamp, traceId, htrace,
    rfl⟩ := h
  exact ⟨hjson.getItem hagent, hjson.getItem htool, hjson.getItem hparams,
    hjson.get (.float _) htimestamp, hjson.get (.str _) htrace⟩

/-- A rule result in the answer to a `verify` message. -/
def RuleResult.response (r : RuleResult) : Except PyExc PyVal := do
  let latency ← r.latencyUs.round 2
  return .ofMembers [(text "rule_name", r.ruleName), (text "verdict", .str r.verdict.value),
    (text "reason", r.reason), (text "latency_us", latency), (text "error_code", r.errorCode)]

/-- The answer to a `verify` message. -/
def VerificationResult.response (v : VerificationResult) : Except PyExc PyVal := do
  let ruleResults ← v.ruleResults.mapM RuleResult.response
  let members := [(text "type", .str (text "result")), (text "trace_id", v.traceId),
    (text "verdict", .str v.verdict.value), (text "block_reason", v.blockReason),
    (text "rule_results", .list ruleResults), (text "receipt", v.receipt),
    (text "verified_at", v.verifiedAt), (text "tool", v.tool),
    (text "params_hash", v.paramsHash), (text "error_code", v.errorCode)]
  match v.l1Receipt with
  | none => return .ofMembers members
  | some receipt =>
    if receipt.truthy then return .ofMembers (members ++ [(text "l1_receipt", receipt)])
    else return .ofMembers members

namespace VerifierServer

variable {X : Externals} (srv : VerifierServer X)

/-- `_l1_public_key` -/
def l1PublicKey : Option Bytes := srv.l1SigningKey.map X.ed25519.publicKey

/-- `_l1_key_fingerprint` -/
def l1KeyFingerprint : Text :=
  match srv.l1PublicKey with
  | none => []
  | some key => X.publicKeyFingerprint key

/-- The answer to a `health` message. -/
def healthResponse (r : MessageReadings) (s : ServerState) : PyVal :=
  .ofMembers [(text "type", .str (text "health")), (text "status", .str (text "ok")),
    (text "version", .str serverVersion),
    (text "uptime_s", .float ((Binary64.fin r.uptime).roundDecimals 1)),
    (text "rules", .list (srv.rules.map fun rule => .str rule.name)),
    (text "requests", .int s.requestCount), (text "denies", .int s.denyCount),
    (text "l1_enabled", .bool srv.l1Enabled),
    (text "l1_key_fingerprint", .str srv.l1KeyFingerprint)]

/-- The answer to a `list_rules` message. -/
def listRulesResponse : PyVal :=
  .ofMembers [(text "type", .str (text "list_rules")),
    (text "rules", .list (srv.rules.map fun rule =>
      .ofMembers [(text "name", .str rule.name), (text "type", .str rule.typeName)]))]

/-- An answer that reports an error. -/
def errorResponse (message : Text) : PyVal :=
  .ofMembers [(text "type", .str (text "error")), (text "message", .str message)]

/-- The answer to a `get_l1_public_key` message. -/
def publicKeyResponse : PyVal :=
  match srv.l1PublicKey with
  | none => errorResponse (text "L1 mode not enabled")
  | some key =>
    .ofMembers [(text "type", .str (text "l1_public_key")), (text "public_key", .str (Text.hex key)),
      (text "fingerprint", .str srv.l1KeyFingerprint), (text "algorithm", .str (text "Ed25519"))]

/-- A call of `verify` with its outcome. -/
structure Call where
  /-- What was read from outside. -/
  readings : CallReadings
  /-- The command. -/
  command : Command
  /-- What the call returned or raised. -/
  outcome : Except PyExc VerificationResult

/-- What handling one message has done. -/
structure Handled where
  /-- What was read from outside. -/
  readings : MessageReadings
  /-- The message. -/
  message : PyVal
  /-- The frame to be written, or the exception. -/
  frame : Except PyExc Bytes
  /-- The call of `verify` that was made. -/
  call : Option Call

/-- The answer to a message as a value, with the call of `verify` that it made. -/
def respond (r : MessageReadings) (msg : PyVal) (s : ServerState) :
    (Except PyExc PyVal × Option Call) × ServerState :=
  match msg.get (text "type") (.str []) with
  | .error e => ((.error e, none), s)
  | .ok msgType =>
    if msgType.eqStr (text "verify") then
      match Command.ofMessage r.time msg with
      | .error e => ((.error e, none), s)
      | .ok command =>
        let (outcome, s) := srv.verify r.call command s
        ((outcome >>= VerificationResult.response, some ⟨r.call, command, outcome⟩), s)
    else if msgType.eqStr (text "health") then ((.ok (srv.healthResponse r s), none), s)
    else if msgType.eqStr (text "list_rules") then ((.ok srv.listRulesResponse, none), s)
    else if msgType.eqStr (text "get_l1_public_key") then ((.ok srv.publicKeyResponse, none), s)
    else ((.ok (errorResponse (text "Unknown message type: " ++ msgType.format X.isPrintable)),
      none), s)

/-- The body of the loop over messages: the frame of the answer. -/
def handleMessage (r : MessageReadings) (msg : PyVal) (s : ServerState) : Handled × ServerState :=
  let ((response, call), s) := srv.respond r msg s
  (⟨r, msg, response >>= MessageFrame.encode, call⟩, s)

/-- The command that a message asks to verify. -/
def requestedCommand (time : FiniteBinary64) (msg : PyVal) : Option Command :=
  match msg.get (text "type") (.str []) with
  | .error _ => none
  | .ok msgType =>
    if msgType.eqStr (text "verify") then (Command.ofMessage time msg).toOption else none

/-- A JSON message asks to verify a command with JSON values as its fields. -/
theorem isJson_of_requestedCommand {time : FiniteBinary64} {msg : PyVal} {c : Command}
    (hjson : msg.IsJson) (h : requestedCommand time msg = some c) : c.IsJson := by
  unfold requestedCommand at h
  split at h
  · cases h
  · split at h
    · refine Command.isJson_of_ofMessage hjson (?_ : Command.ofMessage time msg = .ok c)
      cases hcommand : Command.ofMessage time msg with
      | error e =>
        rw [hcommand] at h
        cases h
      | ok c' =>
        rw [hcommand] at h
        cases h
        rfl
    · cases h

/-- The answers of a server to a message. -/
inductive Answers (r : MessageReadings) (msg : PyVal) (s : ServerState) : PyVal → Prop
  /-- The result of a verification. -/
  | result {c : Command} {w : VerificationResult} {answer : PyVal}
      (hcommand : requestedCommand r.time msg = some c) (hverify : (srv.verify r.call c s).1 = .ok w)
      (hresponse : w.response = .ok answer) : Answers r msg s answer
  /-- The statistics. -/
  | health : Answers r msg s (srv.healthResponse r s)
  /-- The rules. -/
  | rules : Answers r msg s srv.listRulesResponse
  /-- The public key, or the error that there is none. -/
  | publicKey : Answers r msg s srv.publicKeyResponse
  /-- The error for another type of message. -/
  | error (message : Text) : Answers r msg s (errorResponse message)

/-- What is answered is one of these. -/
theorem answers_of_respond {r : MessageReadings} {msg : PyVal} {s : ServerState} {answer : PyVal}
    (h : (srv.respond r msg s).1.1 = .ok answer) : srv.Answers r msg s answer := by
  unfold respond at h
  split at h
  · cases h
  -- the branches are tried in the order of the source: the type of the message decides
  next msgType htype =>
  split at h
  · next hverify =>
    split at h
    · cases h
    · next c hcommand =>
      obtain ⟨w, hw, hresponse⟩ := Except.bind_eq_ok_iff.mp h
      refine .result ?_ hw hresponse
      simp only [requestedCommand, htype, hverify, if_true, hcommand]
      rfl
  split at h
  · exact Except.ok.inj h ▸ .health
  split at h
  · exact Except.ok.inj h ▸ .rules
  split at h
  · exact Except.ok.inj h ▸ .publicKey
  · exact Except.ok.inj h ▸ .error _

/-- The type of the answer to a message of a type. -/
def responseType (msgType : PyVal) : Text :=
  if msgType.eqStr (text "verify") then text "result"
  else if msgType.eqStr (text "health") then text "health"
  else if msgType.eqStr (text "list_rules") then text "list_rules"
  else if msgType.eqStr (text "get_l1_public_key") then
    if srv.l1Enabled then text "l1_public_key" else text "error"
  else text "error"

/-- A message that asks for a verification makes this call, and no other message makes one. -/
theorem handleMessage_call (r : MessageReadings) (msg : PyVal) (s : ServerState) :
    match requestedCommand r.time msg with
    | some c =>
        (srv.handleMessage r msg s).1.call = some ⟨r.call, c, (srv.verify r.call c s).1⟩ ∧
        (srv.handleMessage r msg s).2 = (srv.verify r.call c s).2
    | none => (srv.handleMessage r msg s).1.call = none ∧ (srv.handleMessage r msg s).2 = s := by
  unfold requestedCommand handleMessage respond
  cases msg.get (text "type") (.str []) with
  | error e => exact ⟨rfl, rfl⟩
  | ok msgType =>
    dsimp only
    by_cases hverify : msgType.eqStr (text "verify") = true
    · rw [if_pos hverify, if_pos hverify]
      cases Command.ofMessage r.time msg <;> exact ⟨rfl, rfl⟩
    · rw [if_neg hverify, if_neg hverify]
      split_ifs <;> exact ⟨rfl, rfl⟩

@[simp]
theorem handleMessage_message (r : MessageReadings) (msg : PyVal) (s : ServerState) :
    (srv.handleMessage r msg s).1.message = msg := rfl

@[simp]
theorem handleMessage_readings (r : MessageReadings) (msg : PyVal) (s : ServerState) :
    (srv.handleMessage r msg s).1.readings = r := rfl

/-- The answer to a verification is a result. -/
theorem response_type {v : VerificationResult} {response : PyVal} (h : v.response = .ok response) :
    response.get (text "type") (.str []) = .ok (.str (text "result")) := by
  simp only [VerificationResult.response, Except.bind_eq_ok_iff] at h
  obtain ⟨ruleResults, -, h⟩ := h
  split at h
  · cases h
    exact PyVal.get_ofMembers _ _ _
  · split at h <;> (cases h; exact PyVal.get_ofMembers _ _ _)

/-- A server without an L1 key answers a request for it with an error. -/
theorem publicKeyResponse_type : srv.publicKeyResponse.get (text "type") (.str []) =
    .ok (.str (if srv.l1Enabled then text "l1_public_key" else text "error")) := by
  unfold publicKeyResponse l1PublicKey l1Enabled
  cases srv.l1SigningKey <;> exact PyVal.get_ofMembers _ _ _

/-- An answer is of the type that belongs to its request. -/
theorem respond_type {r : MessageReadings} {msg : PyVal} {s : ServerState} {response : PyVal}
    (h : (srv.respond r msg s).1.1 = .ok response) :
    ∃ msgType, msg.get (text "type") (.str []) = .ok msgType ∧
      response.get (text "type") (.str []) = .ok (.str (srv.responseType msgType)) := by
  unfold respond at h
  split at h
  · cases h
  next msgType htype =>
  refine ⟨msgType, htype, ?_⟩
  unfold responseType
  split_ifs at h ⊢
  · split at h
    · cases h
    · obtain ⟨v, -, hv⟩ := Except.bind_eq_ok_iff.mp h
      exact response_type hv
  · cases h
    exact PyVal.get_ofMembers _ _ _
  · cases h
    exact PyVal.get_ofMembers _ _ _
  · cases h
    rw [publicKeyResponse_type, if_pos ‹_›]
  · cases h
    rw [publicKeyResponse_type, if_neg ‹_›]
  · cases h
    exact PyVal.get_ofMembers _ _ _

end VerifierServer
