import CcsVerifier.Server.Verify

/-!
# The receipts of a verification

Which requests the server can issue its receipts for, and what the L1 receipt holds.

* `VerifierServer.l0Receipt_isOk_iff`: when the L0 receipt is made.
* `VerifierServer.L1Issuable`: what the L1 receipt asks of a request and of the server.
* `VerifierServer.l1Receipt_isOk_iff`: when the L1 receipt is made.
-/

namespace VerifierServer

variable {X : Externals} (srv : VerifierServer X)

/-! ## What the L1 receipt holds -/

/-- What a verification computes for the L1 receipt. -/
structure L1Parts where
  /-- The time of issue. -/
  issuedAt : PyVal
  /-- The expiry. -/
  expiresAt : PyVal
  /-- The nonce. -/
  nonce : PyVal
  /-- The hash of the parameters. -/
  argsDigest : Text
  /-- The hash of the request. -/
  requestHash : Text
  /-- The hash of the response. -/
  responseHash : Text
  /-- The hash of the runtime context. -/
  runtimeContextHash : Text
  /-- The hash of the configuration. -/
  configHash : Text

/-- The nonce: the start of a trace identifier, or the default. -/
def nonceOf (call : CallReadings) (c : Command) : Except PyExc PyVal :=
  if c.traceId.truthy then c.traceId.sliceTo 16 else .ok (.str call.defaults.nonce)

/-- The parts of the L1 receipt. -/
def l1Parts (call : CallReadings) (c : Command) (loop : RuleLoop) : Except PyExc L1Parts := do
  let now : PyVal := .float (.fin call.now)
  let issuedAt ← now.sub srv.clockSkewBound.toVal
  let expiresAt ← now.add (.float (.ofSmallInt 300 abs_fiveMinutes_lt))
  let argsDigest ← X.computeHash c.params
  let requestHash ← X.computeHash (requestData c)
  let responseHash ← X.computeHash (responseData loop)
  let runtimeContextHash ← X.computeHash srv.runtimeContext
  let configHash ← X.computeHash (.ofMembers [(text "rules", .str srv.configHash)])
  let nonce ← nonceOf call c
  return ⟨issuedAt, expiresAt, nonce, argsDigest, requestHash, responseHash, runtimeContextHash,
    configHash⟩

/-- The L1 receipt before it is built. -/
def l1Draft (call : CallReadings) (c : Command) (loop : RuleLoop) (paramsHash : Text)
    (sequence : ℕ) (parts : L1Parts) : L1Receipt where
  attr
    | .traceId => c.traceId
    | .receiptVersion => .str L1.receiptVersion
    | .verdict => .str loop.finalVerdict.value
    | .timestamp => .float (.fin call.defaults.timestamp)
    | .tool => c.tool
    | .paramsHash => .str paramsHash
    | .argsDigest => .str parts.argsDigest
    | .ruleSummary => .str (ruleSummary X loop.results)
    | .ruleVersion => .str serverVersion
    | .requestHash => .str parts.requestHash
    | .responseHash => .str parts.responseHash
    | .runtimeContextHash => .str parts.runtimeContextHash
    | .configHash => .str parts.configHash
    | .verifierSourceClass => .str srv.verifierSourceClass
    | .deploymentMode => .str srv.deploymentMode
    | .issuer => .str srv.issuer
    | .audience => srv.audienceOf c
    | .nonce => parts.nonce
    | .sequence => .int sequence
    | .issuedAt => parts.issuedAt
    | .expiresAt => parts.expiresAt
    | .maxClockSkew => srv.clockSkewBound.toVal
    | .action => .str (text "ccs.verify." ++ loop.finalVerdict.value)
    | .signingAlgorithm => .str L1.signingAlgorithm
    | .verifiedAt => .float (.fin call.defaults.verifiedAt)
    | .latencyUs => .float (.fin call.totalLatency)
    | .toolCallId | .signature | .publicKeyFingerprint | .publicKey => .str []

/-- The chain of builder calls fills in the draft. -/
theorem l1Receipt_eq (call : CallReadings) (c : Command) (loop : RuleLoop) (paramsHash : Text)
    (sequence : ℕ) (key : Bytes) :
    srv.l1Receipt call c loop paramsHash sequence key = (do
      let parts ← srv.l1Parts call c loop
      L1ReceiptBuilder.build X ⟨srv.l1Draft call c loop paramsHash sequence parts⟩ (some key)) := by
  unfold l1Receipt l1Parts
  simp only [L1ReceiptBuilder.argsDigest, L1ReceiptBuilder.requestHash,
    L1ReceiptBuilder.responseHash, L1ReceiptBuilder.runtimeContext, L1ReceiptBuilder.configHash,
    L1ReceiptBuilder.setHash, bind_assoc, pure_bind]
  refine bind_congr fun issuedAt => bind_congr fun expiresAt => bind_congr fun argsDigest =>
    bind_congr fun requestHash => bind_congr fun responseHash => bind_congr fun runtimeHash =>
    bind_congr fun configHash => ?_
  have hset : ∀ r s : L1Receipt, (∀ f, r.attr f = s.attr f) → r = s := fun r s h => by
    cases r
    cases s
    congr
    exact funext h
  -- a command without a trace identifier keeps the nonce of the new receipt
  unfold nonceOf
  cases c.traceId.truthy with
  | false =>
    refine congrArg (L1ReceiptBuilder.build X · (some key)) (congrArg _ (hset _ _ fun f => ?_))
    cases f <;> rfl
  | true =>
    refine bind_congr fun nonce => ?_
    refine congrArg (L1ReceiptBuilder.build X · (some key)) (congrArg _ (hset _ _ fun f => ?_))
    cases f <;> rfl

/-! ## When the receipts can be issued -/

/-- The time of issue: the reading of the clock, put back by the skew bound. -/
def issueTime (call : CallReadings) : Binary64 :=
  (Binary64.fin call.now).sub srv.clockSkewBound.double

/-- The expiry: five minutes after the reading of the clock. -/
def expiry (call : CallReadings) : Binary64 :=
  (Binary64.fin call.now).add (.ofSmallInt 300 abs_fiveMinutes_lt)

/-- The parts of the receipt as they are computed from the request and the clock. -/
structure HasParts (call : CallReadings) (c : Command) (loop : RuleLoop) (parts : L1Parts) :
    Prop where
  /-- The skew bound is a double. -/
  clockSkewBound : ∃ skew, srv.clockSkewBound.toBinary64 = .ok skew
  /-- The time of issue. -/
  issuedAt : parts.issuedAt = .float (srv.issueTime call)
  /-- The expiry. -/
  expiresAt : parts.expiresAt = .float (expiry call)
  /-- The nonce. -/
  nonce : nonceOf call c = .ok parts.nonce
  /-- The hash of the parameters. -/
  argsDigest : X.computeHash c.params = .ok parts.argsDigest
  /-- The hash of the request. -/
  requestHash : X.computeHash (requestData c) = .ok parts.requestHash
  /-- The hash of the response. -/
  responseHash : X.computeHash (responseData loop) = .ok parts.responseHash
  /-- The hash of the runtime context. -/
  runtimeContextHash : X.computeHash srv.runtimeContext = .ok parts.runtimeContextHash
  /-- The hash of the configuration. -/
  configHash : X.computeHash (.ofMembers [(text "rules", .str srv.configHash)]) =
    .ok parts.configHash

/-- The parts are computed exactly when each of them is. -/
theorem l1Parts_eq_ok_iff {call : CallReadings} {c : Command} {loop : RuleLoop} {parts : L1Parts} :
    srv.l1Parts call c loop = .ok parts ↔ srv.HasParts call c loop parts := by
  have hadd : (PyVal.float (.fin call.now)).add (.float (.ofSmallInt 300 abs_fiveMinutes_lt)) =
    .ok (.float (expiry call)) := rfl
  -- adding the five minutes cannot raise, every other part can
  simp only [l1Parts, Except.bind_eq_ok_iff, PyVal.sub_eq_ok_iff, hadd, Except.ok.injEq, pure,
    Except.pure]
  constructor
  · rintro ⟨_, ⟨hskew, rfl⟩, _, rfl, _, hargs, _, hrequest, _, hresponse, _, hruntime, _, hconfig,
      _, hnonce, rfl⟩
    exact ⟨hskew, rfl, rfl, hnonce, hargs, hrequest, hresponse, hruntime, hconfig⟩
  · intro h
    refine ⟨_, ⟨h.clockSkewBound, rfl⟩, _, rfl, _, h.argsDigest, _, h.requestHash, _,
      h.responseHash, _, h.runtimeContextHash, _, h.configHash, _, h.nonce, ?_⟩
    obtain ⟨issuedAt, expiresAt⟩ := parts
    simp only [L1Parts.mk.injEq, and_true]
    exact ⟨h.issuedAt.symm, h.expiresAt.symm⟩

/-- The strings of a request that every receipt holds can be encoded. -/
structure EncodableRequest (c : Command) (loop : RuleLoop) : Prop where
  /-- The trace identifier can be encoded. -/
  traceId : c.traceId.EncodableStrings
  /-- The name of the tool can be encoded. -/
  tool : c.tool.EncodableStrings
  /-- The names of the rules can be encoded. -/
  ruleNames : ∀ r ∈ loop.results, r.ruleName.EncodableStrings

/-- The L0 receipt is made when the texts in its payload can be encoded. -/
theorem l0Receipt_isOk_iff_of_isJson {call : CallReadings} {c : Command} {loop : RuleLoop}
    (hjson : c.IsJson) :
    (∃ paramsHash receipt, srv.l0Receipt call c loop = .ok (paramsHash, receipt)) ↔
      (c.traceId.format X.isPrintable).Encodable ∧ (c.tool.format X.isPrintable).Encodable ∧
        (ruleSummary X loop.results).Encodable := by
  obtain ⟨paramsHash, hhash⟩ := Command.paramsHash_isOk_of_isJson X hjson.params
  -- the receipt can be signed when its payload can be encoded
  have hreceipt : (∃ paramsHash receipt, srv.l0Receipt call c loop = .ok (paramsHash, receipt)) ↔
      (receiptPayload X c.traceId loop.finalVerdict (.float (.fin call.now)) c.tool
        (.str paramsHash) (.str (ruleSummary X loop.results))).Encodable := by
    rw [← Text.encode_isOk_iff]
    simp only [l0Receipt, hhash, signReceipt, Except.bind_eq_ok_iff, pure, Except.pure,
      Except.ok.injEq, Prod.mk.injEq]
    constructor
    · rintro ⟨_, _, _, rfl, _, ⟨payload, hpayload, -⟩, -⟩
      exact ⟨payload, hpayload⟩
    · rintro ⟨payload, hpayload⟩
      exact ⟨_, _, _, rfl, _, ⟨payload, hpayload, rfl⟩, rfl, rfl⟩
  have hcolon : ¬colon.IsSurrogate := by decide
  have htime := (isPlain_of_floatChars (floatRepr_chars (.fin call.now))).isAscii.encodable
  have hhashText := (Command.paramsHash_eq_ok X hhash).2.encodable
  rw [hreceipt, receiptPayload]
  simp only [Text.encodable_append, Text.encodable_cons, hcolon, not_false_eq_true, true_and,
    loop.finalVerdict.value_isAscii.encodable, and_true, htime, hhashText,
    PyVal.format_str, PyVal.format_float, and_assoc]

/-- The L0 receipt is made when the strings of its payload can be encoded. -/
theorem l0Receipt_isOk_iff {call : CallReadings} {c : Command} {loop : RuleLoop}
    (hwire : c.FromWire) (hloop : loop.Typed) :
    (∃ paramsHash receipt, srv.l0Receipt call c loop = .ok (paramsHash, receipt)) ↔
      EncodableRequest c loop := by
  obtain ⟨traceId, htrace⟩ := hwire.traceId
  obtain ⟨tool, htool⟩ := hwire.tool
  have hrequest : EncodableRequest c loop ↔ c.traceId.EncodableStrings ∧ c.tool.EncodableStrings ∧
      (ruleSummary X loop.results).Encodable := by
    rw [ruleSummary_encodable_iff hloop.results]
    exact ⟨fun h => ⟨h.traceId, h.tool, h.ruleNames⟩, fun h => ⟨h.1, h.2.1, h.2.2⟩⟩
  rw [srv.l0Receipt_isOk_iff_of_isJson hwire.isJson, hrequest, htrace, htool, PyVal.format_str,
    PyVal.format_str]
  rfl

/-- The L0 receipt is on the hash of the parameters. -/
theorem paramsHash_of_l0Receipt {call : CallReadings} {c : Command} {loop : RuleLoop}
    {paramsHash receipt : Text} (h : srv.l0Receipt call c loop = .ok (paramsHash, receipt)) :
    c.paramsHash X = .ok paramsHash := by
  simp only [l0Receipt, Except.bind_eq_ok_iff, pure, Except.pure, Except.ok.injEq,
    Prod.mk.injEq] at h
  obtain ⟨_, hhash, _, -, rfl, -⟩ := h
  exact hhash

/-- What the L1 receipt asks of the request, the server and the clock, beyond what the L0 receipt
asks. -/
structure L1Issuable (call : CallReadings) (c : Command) (loop : RuleLoop) (sequence : ℕ) :
    Prop where
  /-- The name of the agent can be encoded. -/
  agentId : c.agentId.EncodableStrings
  /-- The parameters have safe numbers and encodable strings. -/
  params : c.params.Canonical
  /-- So has the time of the request. -/
  timestamp : c.timestamp.Canonical
  /-- The reason of the verdict can be encoded. -/
  blockReason : loop.blockReason.EncodableStrings
  /-- The source class of the verifier can be encoded. -/
  verifierSourceClass : srv.verifierSourceClass.Encodable
  /-- The deployment mode can be encoded. -/
  deploymentMode : srv.deploymentMode.Encodable
  /-- The issuer can be encoded. -/
  issuer : srv.issuer.Encodable
  /-- The issuer is not empty. -/
  issuer_ne : srv.issuer ≠ []
  /-- The audience can be encoded. -/
  audience : (srv.audienceOf c).EncodableStrings
  /-- The audience is not empty. -/
  audience_truthy : (srv.audienceOf c).truthy = true
  /-- The sequence number is safe. -/
  sequence : sequence ≤ maxSafeInteger
  /-- The skew bound is a safe number. -/
  clockSkewBound : srv.clockSkewBound.Safe
  /-- The time of issue is finite. -/
  issueTime_finite : (srv.issueTime call).isFinite = true
  /-- The expiry is finite. -/
  expiry_finite : (expiry call).isFinite = true
  /-- The expiry is positive. -/
  expiry_pos : PyNum.le (.float (expiry call)) (.int 0) = false
  /-- The receipt is not made before its time of issue. -/
  inTime : Binary64.InTime (srv.issueTime call) (.fin call.defaults.timestamp)

variable {srv} {call : CallReadings} {c : Command} {loop : RuleLoop} {parts : L1Parts}

/-- The request data are JSON. -/
theorem requestData_isJson (hjson : c.IsJson) : (requestData c).IsJson := by
  refine PyVal.isJson_ofMembers (by simp only [List.map]; decide) fun k v hkv => ?_
  simp only [List.mem_cons, Prod.mk.injEq, List.not_mem_nil, or_false] at hkv
  rcases hkv with ⟨-, rfl⟩ | ⟨-, rfl⟩ | ⟨-, rfl⟩ | ⟨-, rfl⟩ | ⟨-, rfl⟩
  · exact hjson.agentId
  · exact hjson.tool
  · exact hjson.params
  · exact hjson.timestamp
  · exact hjson.traceId

/-- They have a canonical form when each value has one. -/
theorem requestData_canonical_iff : (requestData c).Canonical ↔
    c.agentId.Canonical ∧ c.tool.Canonical ∧ c.params.Canonical ∧ c.timestamp.Canonical ∧
      c.traceId.Canonical := by
  have hkeys : (text "agent_id").Encodable ∧ (text "tool").Encodable ∧ (text "params").Encodable ∧
      (text "timestamp").Encodable ∧ (text "trace_id").Encodable := by decide
  simp only [requestData, PyVal.canonical_ofMembers_iff, List.forall_mem_cons, hkeys, true_and,
    List.not_mem_nil, false_imp_iff, implies_true, and_true]

/-- The response data are JSON. -/
theorem responseData_isJson (hloop : loop.Typed) : (responseData loop).IsJson := by
  obtain ⟨reason, hreason⟩ := hloop.blockReason
  refine PyVal.isJson_ofMembers (by simp only [List.map]; decide) fun k v hkv => ?_
  simp only [List.mem_cons, Prod.mk.injEq, List.not_mem_nil, or_false] at hkv
  rcases hkv with ⟨-, rfl⟩ | ⟨-, rfl⟩ | ⟨-, rfl⟩
  · exact .str _
  · refine .list fun v hv => ?_
    obtain ⟨s, rfl⟩ := hloop.ruleName_str v hv
    exact .str s
  · exact hreason ▸ .str _

/-- They have a canonical form when their strings can be encoded. -/
theorem responseData_canonical_iff (hloop : loop.Typed) : (responseData loop).Canonical ↔
    (∀ r ∈ loop.results, r.ruleName.EncodableStrings) ∧ loop.blockReason.EncodableStrings := by
  have hkeys : (text "verdict").Encodable ∧ (text "rule_results").Encodable ∧
      (text "block_reason").Encodable := by decide
  have hverdict := loop.finalVerdict.value_isAscii.encodable
  simp only [responseData, PyVal.canonical_ofMembers_iff, List.forall_mem_cons, hkeys, hverdict,
    true_and, PyVal.canonical_str, PyVal.canonical_list_str_iff hloop.ruleName_str,
    PyVal.canonical_iff_of_str hloop.blockReason, List.forall_mem_map, List.not_mem_nil,
    false_imp_iff, implies_true, and_true]

/-- The nonce is JSON like the trace identifier, and canonical when that is. -/
theorem nonceOf_isJson {v : PyVal} (hjson : c.traceId.IsJson) (hv : nonceOf call c = .ok v) :
    v.IsJson ∧ (c.traceId.Canonical → v.Canonical) := by
  unfold nonceOf at hv
  split at hv
  · generalize c.traceId = traceId at hv hjson ⊢
    -- only strings and lists can be sliced
    cases hjson with
    | str s =>
      cases hv
      exact ⟨.str _, fun h => PyVal.canonical_str.mpr ((PyVal.canonical_str.mp h).take 16)⟩
    | @list xs hxs =>
      cases hv
      refine ⟨.list fun x hx => hxs x (List.mem_of_mem_take hx), fun h => ?_⟩
      exact PyVal.canonical_list_iff.mpr fun x hx =>
        PyVal.canonical_list_iff.mp h x (List.mem_of_mem_take hx)
    | _ => cases hv
  · cases hv
    exact ⟨.str _, fun _ => PyVal.canonical_str.mpr (Text.hex_isAscii _).encodable⟩

/-- A string as the trace identifier gives a string as the nonce. -/
theorem nonceOf_eq_ok (call : CallReadings) (hwire : c.FromWire) :
    ∃ t : Text, nonceOf call c = .ok (.str t) := by
  obtain ⟨s, hs⟩ := hwire.traceId
  unfold nonceOf
  rw [hs]
  cases (PyVal.str s).truthy with
  | false => exact ⟨_, rfl⟩
  | true => exact ⟨_, rfl⟩

/-- The nonce is short, however long the trace identifier is. -/
theorem length_nonce_le (hwire : c.FromWire) {v : PyVal} {t : Text} (hv : nonceOf call c = .ok v)
    (ht : v = .str t) : t.length ≤ 88 := by
  obtain ⟨s, hs⟩ := hwire.traceId
  unfold nonceOf at hv
  rw [hs] at hv
  -- without a trace identifier the nonce is made of 16 random bytes
  cases htruthy : (PyVal.str s).truthy with
  | false =>
    rw [htruthy] at hv
    cases hv
    cases ht
    rw [ReceiptDefaults.nonce, Text.length_hex, call.defaults.length_nonceBytes]
    norm_num
  | true =>
    rw [htruthy] at hv
    cases hv
    cases ht
    rw [List.length_take]
    omega

/-- The runtime context is JSON. -/
theorem runtimeContext_isJson : srv.runtimeContext.IsJson := by
  refine PyVal.isJson_ofMembers (by simp only [List.map]; decide) fun k v hkv => ?_
  simp only [List.mem_cons, Prod.mk.injEq, List.not_mem_nil, or_false] at hkv
  rcases hkv with ⟨-, rfl⟩ | ⟨-, rfl⟩ <;> exact .str _

/-- It has a canonical form when the deployment mode can be encoded. -/
theorem runtimeContext_canonical_iff :
    srv.runtimeContext.Canonical ↔ srv.deploymentMode.Encodable := by
  have hkeys : (text "python_version").Encodable ∧ (text "mode").Encodable ∧
      (text "3.x").Encodable := by decide
  simp only [runtimeContext, PyVal.canonical_ofMembers_iff, List.forall_mem_cons, hkeys, true_and,
    PyVal.canonical_str, List.not_mem_nil, false_imp_iff, implies_true, and_true]

/-- The hash of the configuration can always be hashed again. -/
theorem configHash_isOk (srv : VerifierServer X) (hjcs : X.JcsAccepts) :
    ∃ t, X.computeHash (.ofMembers [(text "rules", .str srv.configHash)]) = .ok t := by
  rw [Externals.computeHash_isOk_iff hjcs]
  · have hkey : (text "rules").Encodable := by decide
    simpa [PyVal.canonical_ofMembers_iff, hkey] using
      (Externals.computeHash_eq_ok srv.configHash_eq).2.encodable
  · refine PyVal.isJson_ofMembers (by simp) fun k v hkv => ?_
    simp only [List.mem_singleton, Prod.mk.injEq] at hkv
    exact hkv.2 ▸ .str _

/-- For a command from the wire the audience is a string. -/
theorem audienceOf_str (srv : VerifierServer X) (hwire : c.FromWire) :
    ∃ s, srv.audienceOf c = .str s := by
  unfold audienceOf
  split
  · exact hwire.agentId
  · exact ⟨_, rfl⟩

/-- It is JSON. -/
theorem audienceOf_isJson (srv : VerifierServer X) (hjson : c.IsJson) :
    (srv.audienceOf c).IsJson := by
  unfold audienceOf
  split
  · exact hjson.agentId
  · exact .str _

/-- It has a canonical form when its strings can be encoded. -/
theorem audienceOf_canonical_iff (srv : VerifierServer X) (hagent : c.agentId.Canonical) :
    (srv.audienceOf c).Canonical ↔ (srv.audienceOf c).EncodableStrings := by
  unfold audienceOf
  split
  · exact ⟨fun h => h.encodableStrings, fun _ => hagent⟩
  · exact PyVal.canonical_iff_of_str ⟨_, rfl⟩

/-- What the L1 receipt asks of a request that is made of JSON values, beyond what the L0 receipt
asks. -/
structure JsonIssuable (srv : VerifierServer X) (call : CallReadings) (c : Command) (loop : RuleLoop)
    (sequence : ℕ) : Prop extends srv.L1Issuable call c loop sequence where
  /-- The contents of the request have safe numbers and encodable strings. -/
  request : (requestData c).Canonical
  /-- The trace identifier can be sliced, unless it is empty. -/
  nonce : ∃ nonce, nonceOf call c = .ok nonce

/-- The parts can be computed when the contents of the request are canonical. -/
theorem exists_hasParts_iff (srv : VerifierServer X) (call : CallReadings) (hjcs : X.JcsAccepts)
    (hjson : c.IsJson) (hloop : loop.Typed) :
    (∃ parts, srv.HasParts call c loop parts) ↔
      (∃ skew, srv.clockSkewBound.toBinary64 = .ok skew) ∧ (∃ nonce, nonceOf call c = .ok nonce) ∧
        c.params.Canonical ∧ (requestData c).Canonical ∧ (responseData loop).Canonical ∧
          srv.runtimeContext.Canonical := by
  rw [← Externals.computeHash_isOk_iff hjcs hjson.params,
    ← Externals.computeHash_isOk_iff hjcs (requestData_isJson hjson),
    ← Externals.computeHash_isOk_iff hjcs (responseData_isJson hloop),
    ← Externals.computeHash_isOk_iff hjcs runtimeContext_isJson]
  constructor
  · rintro ⟨parts, h⟩
    exact ⟨h.clockSkewBound, ⟨_, h.nonce⟩, ⟨_, h.argsDigest⟩, ⟨_, h.requestHash⟩,
      ⟨_, h.responseHash⟩, ⟨_, h.runtimeContextHash⟩⟩
  · rintro ⟨hskew, ⟨_, hnonce⟩, ⟨_, hargs⟩, ⟨_, hrequest⟩, ⟨_, hresponse⟩, ⟨_, hruntime⟩⟩
    -- the configuration always has a canonical text, so its digest asks for nothing
    obtain ⟨_, hconfig⟩ := configHash_isOk srv hjcs
    exact ⟨⟨_, _, _, _, _, _, _, _⟩, hskew, rfl, rfl, hnonce, hargs, hrequest, hresponse, hruntime,
      hconfig⟩

/-! ## The fields of the L1 receipt -/

section Draft

variable {paramsHash : Text} {sequence : ℕ}

/-- Every field of the draft is a string, an integer or a float. -/
theorem l1Draft_isScalar (hwire : c.FromWire) (hparts : srv.HasParts call c loop parts)
    (f : ReceiptField) : ((srv.l1Draft call c loop paramsHash sequence parts).attr f).IsScalar := by
  obtain ⟨traceId, htrace⟩ := hwire.traceId
  obtain ⟨tool, htool⟩ := hwire.tool
  obtain ⟨audience, haudience⟩ := audienceOf_str srv hwire
  obtain ⟨nonce, hnonce⟩ := nonceOf_eq_ok call hwire
  have hnonceVal : parts.nonce = .str nonce := by
    have := hparts.nonce
    rw [hnonce] at this
    exact (Except.ok.inj this).symm
  cases f <;> simp only [l1Draft, hparts.issuedAt, hparts.expiresAt, hnonceVal, htrace, htool,
    haudience] <;> first
    | exact .inl ⟨_, rfl⟩
    | exact .inr (.inl ⟨_, rfl⟩)
    | exact .inr (.inr ⟨_, rfl⟩)
    | exact .toVal _

/-- Every field of the draft of a JSON request is a JSON value. -/
theorem l1Draft_isJson (hjson : c.IsJson) (hparts : srv.HasParts call c loop parts)
    (f : ReceiptField) : ((srv.l1Draft call c loop paramsHash sequence parts).attr f).IsJson := by
  have hnonce := (nonceOf_isJson hjson.traceId hparts.nonce).1
  have haudience := audienceOf_isJson srv hjson
  cases f <;> simp only [l1Draft, hparts.issuedAt, hparts.expiresAt] <;> first
    | exact .str _
    | exact .int _
    | exact .float _
    | exact (PyVal.IsScalar.toVal _).isJson
    | exact hnonce
    | exact haudience
    | exact hjson.traceId
    | exact hjson.tool

/-- The fields of the draft are canonical when those that the server and the clock give are. -/
theorem l1Draft_canonical_iff (hjson : c.IsJson) (hrequest : (requestData c).Canonical)
    (hsummary : (ruleSummary X loop.results).Encodable) (hparts : srv.HasParts call c loop parts)
    (hhash : paramsHash.IsAscii) :
    (∀ f, f.isSignature = false →
        ((srv.l1Draft call c loop paramsHash sequence parts).attr f).plain.Canonical) ↔
      srv.verifierSourceClass.Encodable ∧ srv.deploymentMode.Encodable ∧ srv.issuer.Encodable ∧
        (srv.audienceOf c).EncodableStrings ∧ sequence ≤ maxSafeInteger ∧
        srv.clockSkewBound.Safe ∧ (srv.issueTime call).isFinite = true ∧
        (expiry call).isFinite = true := by
  obtain ⟨hagent, htool, -, -, htrace⟩ := requestData_canonical_iff.mp hrequest
  have hplain : ∀ f, ((srv.l1Draft call c loop paramsHash sequence parts).attr f).plain =
      (srv.l1Draft call c loop paramsHash sequence parts).attr f := fun f =>
    (l1Draft_isJson hjson hparts f).plain
  simp only [hplain]
  rw [← audienceOf_canonical_iff srv hagent]
  constructor
  · intro h
    have hissued := h .issuedAt rfl
    have hexpires := h .expiresAt rfl
    have hbound := h .maxClockSkew rfl
    simp only [l1Draft, hparts.issuedAt, hparts.expiresAt, PyVal.canonical_toVal,
      PyVal.canonical_float] at hissued hexpires hbound
    exact ⟨PyVal.canonical_str.mp (h .verifierSourceClass rfl),
      PyVal.canonical_str.mp (h .deploymentMode rfl), PyVal.canonical_str.mp (h .issuer rfl),
      h .audience rfl, (PyVal.canonical_int.mp (h .sequence rfl)).2, hbound, hissued, hexpires⟩
  · rintro ⟨hsource, hmode, hissuer, haud, hsequence, hbound, hissued, hexpires⟩ f hf
    have hascii : ∀ {s : Text}, s.IsAscii → (PyVal.str s).Canonical := fun h =>
      PyVal.canonical_str.mpr h.encodable
    have hdigest : ∀ {v : PyVal} {t : Text}, X.computeHash v = .ok t → (PyVal.str t).Canonical :=
      fun h => hascii (Externals.computeHash_eq_ok h).2
    -- text that the server writes itself is ASCII, so it is always canonical
    cases f <;> simp only [l1Draft, hparts.issuedAt, hparts.expiresAt, PyVal.canonical_toVal,
      PyVal.canonical_float]
    case signature | signingAlgorithm | publicKeyFingerprint | publicKey => cases hf
    case traceId => exact htrace
    case tool => exact htool
    case receiptVersion | toolCallId | ruleVersion => exact hascii (by decide)
    case verdict => exact hascii loop.finalVerdict.value_isAscii
    case action =>
      exact hascii (Text.isAscii_append.mpr ⟨by decide, loop.finalVerdict.value_isAscii⟩)
    case timestamp | verifiedAt | latencyUs => rfl
    case paramsHash => exact hascii hhash
    case argsDigest => exact hdigest hparts.argsDigest
    case ruleSummary => exact PyVal.canonical_str.mpr hsummary
    case requestHash => exact hdigest hparts.requestHash
    case responseHash => exact hdigest hparts.responseHash
    case runtimeContextHash => exact hdigest hparts.runtimeContextHash
    case configHash => exact hdigest hparts.configHash
    case verifierSourceClass => exact PyVal.canonical_str.mpr hsource
    case deploymentMode => exact PyVal.canonical_str.mpr hmode
    case issuer => exact PyVal.canonical_str.mpr hissuer
    case audience => exact haud
    case nonce => exact (nonceOf_isJson hjson.traceId hparts.nonce).2 htrace
    case sequence =>
      refine PyVal.canonical_int.mpr ⟨?_, hsequence⟩
      unfold minSafeInteger
      omega
    case issuedAt => exact hissued
    case expiresAt => exact hexpires
    case maxClockSkew => exact hbound

/-- The L1 receipt of a JSON request is made when the request, the server and the clock permit. -/
theorem l1Receipt_isOk_iff_of_isJson (hjcs : X.JcsAccepts) (hjson : c.IsJson) (hloop : loop.Typed)
    (hsummary : (ruleSummary X loop.results).Encodable) (hhash : paramsHash.IsAscii) {key : Bytes}
    (hkey : key.length = 32) :
    (∃ r, srv.l1Receipt call c loop paramsHash sequence key = .ok r) ↔
      srv.JsonIssuable call c loop sequence := by
  -- once the parts are there, only `build` can raise
  have hbuild : ∀ parts, srv.HasParts call c loop parts →
      ((∃ r, L1ReceiptBuilder.build X ⟨srv.l1Draft call c loop paramsHash sequence parts⟩
          (some key) = .ok r) ↔
        Binary64.InTime (srv.issueTime call) (.fin call.defaults.timestamp) ∧ srv.issuer ≠ [] ∧
          (srv.audienceOf c).truthy = true ∧
          PyNum.le (.float (expiry call)) (.int 0) = false ∧
          ∀ f, f.isSignature = false →
            ((srv.l1Draft call c loop paramsHash sequence parts).attr f).plain.Canonical) := by
    intro parts hparts
    have haction : text "ccs.verify." ++ loop.finalVerdict.value ≠ [] :=
      List.append_ne_nil_of_left_ne_nil (by decide) _
    have hfields : ∀ f, f.isSignature = false →
        ((srv.l1Draft call c loop paramsHash sequence parts).attr f).plain.IsJson := fun f _ => by
      have hfield : ((srv.l1Draft call c loop paramsHash sequence parts).attr f).IsJson :=
        l1Draft_isJson hjson hparts f
      rw [hfield.plain]
      exact hfield
    rw [L1ReceiptBuilder.build_isOk_iff hjcs hkey hfields hparts.issuedAt rfl rfl rfl rfl
      hparts.expiresAt]
    simp only [l1Draft, PyVal.truthy_str, ne_eq, haction, not_false_eq_true, true_and]
  rw [l1Receipt_eq]
  simp only [Except.bind_eq_ok_iff, l1Parts_eq_ok_iff]
  constructor
  · rintro ⟨r, parts, hparts, hr⟩
    obtain ⟨hinTime, hissuer, haudience, hpos, hfields⟩ := (hbuild parts hparts).mp ⟨r, hr⟩
    obtain ⟨-, hnonce, hparams, hrequest, hresponse, -⟩ :=
      (exists_hasParts_iff srv call hjcs hjson hloop).mp ⟨parts, hparts⟩
    obtain ⟨hsource, hmode, hissuerOk, haudienceOk, hsequence, hskew, hissued, hexpires⟩ :=
      (l1Draft_canonical_iff hjson hrequest hsummary hparts hhash).mp hfields
    obtain ⟨hagent, -, -, htimestamp, -⟩ := requestData_canonical_iff.mp hrequest
    exact {
      agentId := hagent.encodableStrings
      params := hparams
      timestamp := htimestamp
      blockReason := ((responseData_canonical_iff hloop).mp hresponse).2
      verifierSourceClass := hsource
      deploymentMode := hmode
      issuer := hissuerOk
      issuer_ne := hissuer
      audience := haudienceOk
      audience_truthy := haudience
      sequence := hsequence
      clockSkewBound := hskew
      issueTime_finite := hissued
      expiry_finite := hexpires
      expiry_pos := hpos
      inTime := hinTime
      request := hrequest
      nonce := hnonce }
  · intro h
    obtain ⟨skew, hskew, -⟩ := h.clockSkewBound.toBinary64
    -- the reasons and names of the rules are in the hashed response too
    have hnames := (ruleSummary_encodable_iff hloop.results).mp hsummary
    obtain ⟨parts, hparts⟩ := (exists_hasParts_iff srv call hjcs hjson hloop).mpr
      ⟨⟨skew, hskew⟩, h.nonce, h.params, h.request,
        (responseData_canonical_iff hloop).mpr ⟨hnames, h.blockReason⟩,
        runtimeContext_canonical_iff.mpr h.deploymentMode⟩
    obtain ⟨r, hr⟩ := (hbuild parts hparts).mpr ⟨h.inTime, h.issuer_ne, h.audience_truthy,
      h.expiry_pos, (l1Draft_canonical_iff hjson h.request hsummary hparts hhash).mpr
        ⟨h.verifierSourceClass, h.deploymentMode, h.issuer, h.audience, h.sequence,
          h.clockSkewBound, h.issueTime_finite, h.expiry_finite⟩⟩
    exact ⟨r, parts, hparts, hr⟩

/-- The L1 receipt is made when the request, the server and the clock permit. -/
theorem l1Receipt_isOk_iff (hjcs : X.JcsAccepts) (hwire : c.FromWire) (hloop : loop.Typed)
    (hrequest : EncodableRequest c loop) (hhash : paramsHash.IsAscii) {key : Bytes}
    (hkey : key.length = 32) :
    (∃ r, srv.l1Receipt call c loop paramsHash sequence key = .ok r) ↔
      srv.L1Issuable call c loop sequence := by
  have hsummary := (ruleSummary_encodable_iff (X := X) hloop.results).mpr hrequest.ruleNames
  rw [l1Receipt_isOk_iff_of_isJson hjcs hwire.isJson hloop hsummary hhash hkey]
  -- strings are canonical when they can be encoded, and can be sliced
  refine ⟨fun h => h.toL1Issuable, fun h => { h with request := ?_, nonce := ?_ }⟩
  · rw [requestData_canonical_iff, PyVal.canonical_iff_of_str hwire.agentId,
      PyVal.canonical_iff_of_str hwire.tool, PyVal.canonical_iff_of_str hwire.traceId]
    exact ⟨h.agentId, hrequest.tool, h.params, h.timestamp, hrequest.traceId⟩
  · obtain ⟨nonce, hnonce⟩ := nonceOf_eq_ok call hwire
    exact ⟨_, hnonce⟩

end Draft

end VerifierServer
