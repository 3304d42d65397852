import CcsVerifier.Server.Messages

/-!
# Requests and responses of the client

The two translations of `VerifierClient.verify`: a command becomes a request, and the decoded
response a result.

* `Command.request`: the message for a command.
* `VerificationResult.ofResponse`: the result that is read off a response.
* `ofResponse_isOk_iff`: the responses that a result can be read off.
-/

/-- The request of `client.verify(command)`. -/
def Command.request (c : Command) : PyVal :=
  .ofMembers [(text "type", .str (text "verify")), (text "agent_id", c.agentId),
    (text "tool", c.tool), (text "params", c.params), (text "timestamp", c.timestamp),
    (text "trace_id", c.traceId)]

/-- A rule result of a response. -/
def RuleResult.ofResponse (X : Externals) (r : PyVal) : Except PyExc RuleResult := do
  let ruleName ← r.getItem (text "rule_name")
  let value ← r.getItem (text "verdict")
  let verdict ← Verdict.ofValue X.isPrintable value
  let reason ← r.get (text "reason") (.str [])
  let latencyUs ← r.get (text "latency_us") (.float .zero)
  let errorCode ← r.get (text "error_code") (.int DimensionError.default)
  return ⟨ruleName, verdict, reason, latencyUs, errorCode⟩

/-- The result that `client.verify` reads off a response at a time. -/
def VerificationResult.ofResponse (X : Externals) (time : FiniteBinary64) (response : PyVal) :
    Except PyExc VerificationResult := do
  let results ← response.get (text "rule_results") (.list [])
  let items ← results.iter
  let ruleResults ← items.mapM (RuleResult.ofResponse X)
  let traceId ← response.getItem (text "trace_id")
  let value ← response.getItem (text "verdict")
  let verdict ← Verdict.ofValue X.isPrintable value
  let blockReason ← response.get (text "block_reason") (.str [])
  let receipt ← response.get (text "receipt") (.str [])
  let verifiedAt ← response.get (text "verified_at") (.float (.fin time))
  let tool ← response.get (text "tool") (.str [])
  let paramsHash ← response.get (text "params_hash") (.str [])
  let errorCode ← response.get (text "error_code") (.int DimensionError.default)
  -- an absent receipt counts as a falsy one
  let l1Receipt ← response.get (text "l1_receipt") .none
  return ⟨traceId, verdict, blockReason, ruleResults, receipt, verifiedAt, tool, paramsHash,
    errorCode, if l1Receipt.truthy then some l1Receipt else none⟩

/-! ## Which responses can be read -/

/-- A verdict is read off its name only. -/
theorem Verdict.ofValue_eq_ok_iff {isPrintable : CodePoint → Bool} {v : PyVal} {w : Verdict} :
    Verdict.ofValue isPrintable v = .ok w ↔ v = .str w.value := by
  constructor
  · intro h
    unfold Verdict.ofValue at h
    split_ifs at h with hallow hdeny hescalate
    · cases h
      exact PyVal.eqStr_iff.mp hallow
    · cases h
      exact PyVal.eqStr_iff.mp hdeny
    · cases h
      exact PyVal.eqStr_iff.mp hescalate
    · cases h
  · rintro rfl
    cases w <;> rfl

/-- Reading a verdict raises no network error. -/
theorem Verdict.ofValue_raises {isPrintable : CodePoint → Bool} (v : PyVal) :
    (Verdict.ofValue isPrintable v).Raises fun e => e.isNetworkError = false := by
  unfold Verdict.ofValue
  split_ifs
  · exact Except.raises_ok _
  · exact Except.raises_ok _
  · exact Except.raises_ok _
  · exact Except.raises_error rfl

/-- A rule result in a response: an object with a name and a verdict. -/
structure PyVal.IsRuleResult (r : PyVal) : Prop where
  /-- The rule is named. -/
  ruleName : ∃ name, r.getItem (text "rule_name") = .ok name
  /-- The verdict is one of the three. -/
  verdict : ∃ w : Verdict, r.getItem (text "verdict") = .ok (.str w.value)

/-- A response that a result can be read off: an object with a trace identifier and a verdict, whose
rule results, if any are given, can be iterated over and are rule results. -/
structure PyVal.IsResult (response : PyVal) : Prop where
  /-- The trace is identified. -/
  traceId : ∃ t, response.getItem (text "trace_id") = .ok t
  /-- The verdict is one of the three. -/
  verdict : ∃ w : Verdict, response.getItem (text "verdict") = .ok (.str w.value)
  /-- Each rule result can be read. -/
  ruleResults : ∃ results items, response.get (text "rule_results") (.list []) = .ok results ∧
    results.iter = .ok items ∧ ∀ r ∈ items, r.IsRuleResult

variable {X : Externals} {time : FiniteBinary64}

/-- A rule result is read exactly off a value of this kind. -/
theorem RuleResult.ofResponse_isOk_iff {r : PyVal} :
    (∃ result, RuleResult.ofResponse X r = .ok result) ↔ r.IsRuleResult := by
  simp only [RuleResult.ofResponse, Except.bind_eq_ok_iff, pure, Except.pure, Except.ok.injEq,
    Verdict.ofValue_eq_ok_iff]
  constructor
  · rintro ⟨result, ruleName, hname, value, hvalue, w, rfl, -⟩
    exact ⟨⟨ruleName, hname⟩, w, hvalue⟩
  · rintro ⟨⟨ruleName, hname⟩, w, hvalue⟩
    -- with a name it is an object, so the other members have defaults
    obtain ⟨reason, hreason⟩ := PyVal.get_isOk_of_getItem hname (text "reason") (.str [])
    obtain ⟨latency, hlatency⟩ :=
      PyVal.get_isOk_of_getItem hname (text "latency_us") (.float .zero)
    obtain ⟨code, hcode⟩ :=
      PyVal.get_isOk_of_getItem hname (text "error_code") (.int DimensionError.default)
    exact ⟨_, ruleName, hname, _, hvalue, w, rfl, reason, hreason, latency, hlatency, code, hcode,
      rfl⟩

/-- A result can be read exactly off these responses. -/
theorem VerificationResult.ofResponse_isOk_iff {response : PyVal} :
    (∃ v, VerificationResult.ofResponse X time response = .ok v) ↔ response.IsResult := by
  simp only [VerificationResult.ofResponse, Except.bind_eq_ok_iff, pure, Except.pure,
    Except.ok.injEq, Verdict.ofValue_eq_ok_iff]
  have hitems : ∀ items : List PyVal, (∃ rs, items.mapM (RuleResult.ofResponse X) = .ok rs) ↔
      ∀ r ∈ items, r.IsRuleResult := fun items => by
    rw [Except.mapM_isOk_iff]
    exact forall₂_congr fun r _ => RuleResult.ofResponse_isOk_iff
  constructor
  · rintro ⟨v, results, hresults, items, hiter, rs, hrs, traceId, htrace, value, hvalue, w, rfl, -⟩
    exact ⟨⟨traceId, htrace⟩, ⟨w, hvalue⟩, results, items, hresults, hiter,
      (hitems items).mp ⟨rs, hrs⟩⟩
  · rintro ⟨⟨traceId, htrace⟩, ⟨w, hvalue⟩, results, items, hresults, hiter, hall⟩
    obtain ⟨rs, hrs⟩ := (hitems items).mpr hall
    -- an object with a trace identifier gives the other members or their defaults
    have hget := PyVal.get_isOk_of_getItem htrace
    obtain ⟨blockReason, hblock⟩ := hget (text "block_reason") (.str [])
    obtain ⟨receipt, hreceipt⟩ := hget (text "receipt") (.str [])
    obtain ⟨verifiedAt, hverified⟩ := hget (text "verified_at") (.float (.fin time))
    obtain ⟨tool, htool⟩ := hget (text "tool") (.str [])
    obtain ⟨paramsHash, hhash⟩ := hget (text "params_hash") (.str [])
    obtain ⟨errorCode, hcode⟩ := hget (text "error_code") (.int DimensionError.default)
    obtain ⟨l1Receipt, hl1⟩ := hget (text "l1_receipt") .none
    exact ⟨_, results, hresults, items, hiter, rs, hrs, traceId, htrace, _, hvalue, w, rfl,
      blockReason, hblock, receipt, hreceipt, verifiedAt, hverified, tool, htool, paramsHash, hhash,
      errorCode, hcode, l1Receipt, hl1, rfl⟩

/-- A response that cannot be read raises no network error. -/
theorem RuleResult.ofResponse_raises (r : PyVal) :
    (RuleResult.ofResponse X r).Raises fun e => e.isNetworkError = false := by
  refine (r.getItem_raises _).bind fun ruleName _ => (r.getItem_raises _).bind fun value _ => ?_
  refine (Verdict.ofValue_raises value).bind fun verdict _ => ?_
  refine (r.get_raises _ _).bind fun reason _ => (r.get_raises _ _).bind fun latency _ => ?_
  exact (r.get_raises _ _).bind fun errorCode _ => Except.raises_ok _

/-- Reading a result raises no network error. -/
theorem VerificationResult.ofResponse_raises (response : PyVal) :
    (VerificationResult.ofResponse X time response).Raises fun e => e.isNetworkError = false := by
  have hget := response.get_raises
  have hverdict : ∀ value, (Verdict.ofValue X.isPrintable value).Raises fun e =>
      e.isNetworkError = false := Verdict.ofValue_raises
  refine (hget _ _).bind fun results _ => results.iter_raises.bind fun items _ => ?_
  refine (Except.Raises.mapM fun r _ => RuleResult.ofResponse_raises r).bind fun ruleResults _ => ?_
  refine (response.getItem_raises _).bind fun traceId _ => ?_
  refine (response.getItem_raises _).bind fun value _ => (hverdict value).bind fun verdict _ => ?_
  refine (hget _ _).bind fun blockReason _ => (hget _ _).bind fun receipt _ => ?_
  refine (hget _ _).bind fun verifiedAt _ => (hget _ _).bind fun tool _ => ?_
  refine (hget _ _).bind fun paramsHash _ => (hget _ _).bind fun errorCode _ => ?_
  exact (hget _ _).bind fun l1Receipt _ => Except.raises_ok _
