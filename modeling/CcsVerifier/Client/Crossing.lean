import CcsVerifier.Client.Response
import CcsVerifier.Server.SameData

/-!
# Commands and results across the connection

What the two translations make of a command and of a result when the message between them is dumped
and loaded.

* `Command.ofMessage_request`: the command that arrives at the server has its members in order.
* `VerificationResult.Agrees`: a result that the client has read against the one that was sent.
* `VerificationResult.Crosses`: the results that come back.
* `VerificationResult.exists_ofResponse`: the client reads a result that agrees with what was sent.
* `VerifierServer.crosses_of_verify`: the results of the server come back.
-/

/-! ## Commands -/

/-- The commands that a message carries: fields that come back from a compact dump. -/
structure Command.Reloadable (c : Command) : Prop where
  /-- The agent comes back. -/
  agentId : c.agentId.Reloadable
  /-- The tool comes back. -/
  tool : c.tool.Reloadable
  /-- The parameters come back. -/
  params : c.params.Reloadable
  /-- The time comes back. -/
  timestamp : c.timestamp.Reloadable
  /-- The trace identifier comes back. -/
  traceId : c.traceId.Reloadable

namespace Command

variable {c : Command}

/-- The command as it arrives at the server. -/
def arrived (c : Command) : Command :=
  ⟨c.agentId.sorted, c.tool.sorted, c.params.sorted, c.timestamp.sorted, c.traceId.sorted⟩

/-- A command that comes back is made of JSON values. -/
theorem Reloadable.isJson (h : c.Reloadable) : c.IsJson :=
  ⟨h.agentId.isJson, h.tool.isJson, h.params.isJson, h.timestamp.isJson, h.traceId.isJson⟩

/-- It comes back again. -/
theorem Reloadable.arrived (h : c.Reloadable) : c.arrived.Reloadable :=
  ⟨h.agentId.sorted, h.tool.sorted, h.params.sorted, h.timestamp.sorted, h.traceId.sorted⟩

/-- No member of a request is repeated. -/
private theorem nodup_request (c : Command) :
    (Dict.keys [(text "type", PyVal.str (text "verify")), (text "agent_id", c.agentId),
      (text "tool", c.tool), (text "params", c.params), (text "timestamp", c.timestamp),
      (text "trace_id", c.traceId)]).Nodup := by
  simp only [Dict.keys, List.map]
  decide

/-- Their names come back as they are. -/
private theorem joinSurrogates_request (c : Command) :
    ∀ m ∈ [(text "type", PyVal.str (text "verify")), (text "agent_id", c.agentId),
      (text "tool", c.tool), (text "params", c.params), (text "timestamp", c.timestamp),
      (text "trace_id", c.traceId)], m.1.joinSurrogates = m.1 := by
  have hkeys : ∀ k ∈ [text "type", text "agent_id", text "tool", text "params", text "timestamp",
      text "trace_id"], k.joinSurrogates = k := by decide
  exact fun m hm => hkeys m.1 (List.mem_map_of_mem (f := Prod.fst) hm)

/-- The request of such a command comes back. -/
theorem Reloadable.request (h : c.Reloadable) : c.request.Reloadable := by
  refine .obj (nodup_request c) (joinSurrogates_request c) ?_
  have htype : (PyVal.str (text "verify")).Reloadable := .str (by decide)
  simp only [List.forall_mem_cons]
  exact ⟨htype, h.agentId, h.tool, h.params, h.timestamp, h.traceId,
    fun m hm => absurd hm List.not_mem_nil⟩

/-- The server reads the fields of the command off the message. -/
theorem ofMessage_request (time : FiniteBinary64) (c : Command) :
    ofMessage time c.request.sorted = .ok c.arrived := by
  have hkeys := nodup_request c
  have hagent : c.request.sorted.getItem (text "agent_id") = .ok c.agentId.sorted :=
    PyVal.getItem_sorted hkeys rfl
  have htool : c.request.sorted.getItem (text "tool") = .ok c.tool.sorted :=
    PyVal.getItem_sorted hkeys rfl
  have hparams : c.request.sorted.getItem (text "params") = .ok c.params.sorted :=
    PyVal.getItem_sorted hkeys rfl
  have htimestamp : c.request.sorted.get (text "timestamp") (.float (.fin time)) =
      .ok c.timestamp.sorted := PyVal.get_sorted hkeys _ _
  have htrace : c.request.sorted.get (text "trace_id") (.str []) = .ok c.traceId.sorted :=
    PyVal.get_sorted hkeys _ _
  simp only [ofMessage, hagent, htool, hparams, htimestamp, htrace, bind, Except.bind, pure,
    Except.pure, arrived]

/-- The message is one that asks for a verification. -/
theorem get_type_request (c : Command) :
    c.request.sorted.get (text "type") (.str []) = .ok (.str (text "verify")) :=
  PyVal.get_sorted (nodup_request c) _ _

/-- The command whose fields have come back from a compact dump, for any fields. -/
def reloaded (c : Command) : Command :=
  ⟨c.agentId.reload .compact, c.tool.reload .compact, c.params.reload .compact,
    c.timestamp.reload .compact, c.traceId.reload .compact⟩

/-- The server reads the fields of the command off the message, for any fields. -/
theorem ofMessage_reload (time : FiniteBinary64) (c : Command) :
    ofMessage time (c.request.reload .compact) = .ok c.reloaded := by
  have hkeys := nodup_request c
  have hjoin := joinSurrogates_request c
  -- the keys are pure ASCII, so each is found again with its value
  have hagent : (c.request.reload .compact).getItem (text "agent_id") =
      .ok (c.agentId.reload .compact) := PyVal.getItem_reload hkeys hjoin rfl
  have htool : (c.request.reload .compact).getItem (text "tool") = .ok (c.tool.reload .compact) :=
    PyVal.getItem_reload hkeys hjoin rfl
  have hparams : (c.request.reload .compact).getItem (text "params") =
      .ok (c.params.reload .compact) := PyVal.getItem_reload hkeys hjoin rfl
  have htimestamp : (c.request.reload .compact).get (text "timestamp") (.float (.fin time)) =
      .ok (c.timestamp.reload .compact) := PyVal.get_reload hkeys hjoin _ _
  have htrace : (c.request.reload .compact).get (text "trace_id") (.str []) =
      .ok (c.traceId.reload .compact) := PyVal.get_reload hkeys hjoin _ _
  simp only [ofMessage, hagent, htool, hparams, htimestamp, htrace, bind, Except.bind, pure,
    Except.pure, reloaded]

/-- A request arrives with its type. -/
theorem get_type_reload (c : Command) :
    (c.request.reload .compact).get (text "type") (.str []) = .ok (.str (text "verify")) :=
  PyVal.get_reload (nodup_request c) (joinSurrogates_request c) _ _

/-- What arrives is the same data, when the tool and the trace identifier have their members in
order. -/
theorem sameData_arrived (h : c.Reloadable) (htool : c.tool.sorted = c.tool)
    (htrace : c.traceId.sorted = c.traceId) : c.SameData c.arrived where
  isJson := h.isJson
  isJson' := h.arrived.isJson
  agentId := (PyVal.sameData_sorted h.agentId.isJson).symm
  tool := htool.symm
  params := (PyVal.sameData_sorted h.params.isJson).symm
  timestamp := (PyVal.sameData_sorted h.timestamp.isJson).symm
  traceId := htrace.symm

end Command

/-! ## Results -/

/-- The rule result that the client has read agrees with the one that was sent: the latency is
rounded. -/
structure RuleResult.Agrees (r' r : RuleResult) : Prop where
  /-- The name of the rule is the same. -/
  ruleName : r'.ruleName = r.ruleName
  /-- The verdict is the same. -/
  verdict : r'.verdict = r.verdict
  /-- The reason is the same. -/
  reason : r'.reason = r.reason
  /-- The latency is rounded to two decimal places. -/
  latencyUs : r.latencyUs.round 2 = .ok r'.latencyUs
  /-- The error code is the same. -/
  errorCode : r'.errorCode = r.errorCode

/-- The result that the client has read agrees with the one that was sent. -/
structure VerificationResult.Agrees (v' v : VerificationResult) : Prop where
  /-- The trace identifier is the same. -/
  traceId : v'.traceId = v.traceId
  /-- The verdict is the same. -/
  verdict : v'.verdict = v.verdict
  /-- The reason is the same. -/
  blockReason : v'.blockReason = v.blockReason
  /-- The rule results agree, in the same order. -/
  ruleResults : List.Forall₂ RuleResult.Agrees v'.ruleResults v.ruleResults
  /-- The L0 receipt is the same. -/
  receipt : v'.receipt = v.receipt
  /-- The time of verification is the same. -/
  verifiedAt : v'.verifiedAt = v.verifiedAt
  /-- The tool is the same. -/
  tool : v'.tool = v.tool
  /-- The hash of the parameters is the same. -/
  paramsHash : v'.paramsHash = v.paramsHash
  /-- The error code is the same. -/
  errorCode : v'.errorCode = v.errorCode
  /-- The L1 receipt is the same, up to the order of members. -/
  l1Receipt : Option.Rel PyVal.SameData v'.l1Receipt v.l1Receipt

/-- A rule result that comes back. -/
structure RuleResult.Crosses (r : RuleResult) : Prop where
  /-- The name of the rule comes back. -/
  ruleName : r.ruleName.Stable
  /-- The reason comes back. -/
  reason : r.reason.Stable
  /-- The latency is a float. -/
  latencyUs : ∃ x, r.latencyUs = .float x
  /-- The error code comes back. -/
  errorCode : r.errorCode.Stable

/-- A result that comes back. -/
structure VerificationResult.Crosses (v : VerificationResult) : Prop where
  /-- The trace identifier comes back. -/
  traceId : v.traceId.Stable
  /-- The reason comes back. -/
  blockReason : v.blockReason.Stable
  /-- The rule results come back. -/
  ruleResults : ∀ r ∈ v.ruleResults, r.Crosses
  /-- The L0 receipt comes back. -/
  receipt : v.receipt.Stable
  /-- The time of verification comes back. -/
  verifiedAt : v.verifiedAt.Stable
  /-- The tool comes back. -/
  tool : v.tool.Stable
  /-- The hash of the parameters comes back. -/
  paramsHash : v.paramsHash.Stable
  /-- The error code comes back. -/
  errorCode : v.errorCode.Stable
  /-- The L1 receipt is an object that comes back. -/
  l1Receipt : ∀ d ∈ v.l1Receipt, d.Reloadable ∧ d.truthy = true

variable {X : Externals}

/-- A rule result crosses the connection. -/
theorem RuleResult.exists_ofResponse {r : RuleResult} (h : r.Crosses) :
    ∃ response r', r.response = .ok response ∧ response.Reloadable ∧
      RuleResult.ofResponse X response.sorted = .ok r' ∧ r'.Agrees r := by
  obtain ⟨x, hx⟩ := h.latencyUs
  let members : List (Text × PyVal) := [(text "rule_name", r.ruleName),
    (text "verdict", .str r.verdict.value), (text "reason", r.reason),
    (text "latency_us", .float (x.roundDecimals 2)), (text "error_code", r.errorCode)]
  have hkeys : (Dict.keys members).Nodup := by
    simp only [members, Dict.keys, List.map]
    decide
  -- the latency is the one field that the response rounds
  have hround : r.latencyUs.round 2 = .ok (.float (x.roundDecimals 2)) := by
    rw [hx]
    rfl
  have hverdict : (PyVal.str r.verdict.value).Reloadable :=
    .str r.verdict.value_isAscii.encodable.joinSurrogates
  refine ⟨.ofMembers members, ⟨r.ruleName, r.verdict, r.reason, .float (x.roundDecimals 2),
    r.errorCode⟩, ?_, .obj hkeys ?_ ?_, ?_, ⟨rfl, rfl, rfl, hround, rfl⟩⟩
  · simp only [response, hround, bind, Except.bind, pure, Except.pure, members]
  · have hnames : ∀ k ∈ [text "rule_name", text "verdict", text "reason", text "latency_us",
        text "error_code"], k.joinSurrogates = k := by decide
    exact fun m hm => hnames m.1 (List.mem_map_of_mem (f := Prod.fst) hm)
  · simp only [members, List.forall_mem_cons]
    exact ⟨h.ruleName.reloadable, hverdict, h.reason.reloadable, .float _, h.errorCode.reloadable,
      fun m hm => absurd hm List.not_mem_nil⟩
  · have hname : (PyVal.ofMembers members).sorted.getItem (text "rule_name") = .ok r.ruleName := by
      rw [PyVal.getItem_sorted hkeys rfl, h.ruleName.sorted_eq]
    have hvalue : (PyVal.ofMembers members).sorted.getItem (text "verdict") =
        .ok (.str r.verdict.value) := PyVal.getItem_sorted hkeys (v := .str r.verdict.value) rfl
    have hreason : (PyVal.ofMembers members).sorted.get (text "reason") (.str []) = .ok r.reason :=
      (PyVal.get_sorted hkeys _ _).trans (congrArg Except.ok h.reason.sorted_eq)
    have hlatency : (PyVal.ofMembers members).sorted.get (text "latency_us") (.float .zero) =
        .ok (.float (x.roundDecimals 2)) := PyVal.get_sorted hkeys _ _
    have hcode : (PyVal.ofMembers members).sorted.get (text "error_code")
        (.int DimensionError.default) = .ok r.errorCode :=
      (PyVal.get_sorted hkeys _ _).trans (congrArg Except.ok h.errorCode.sorted_eq)
    have hof : Verdict.ofValue X.isPrintable (.str r.verdict.value) = .ok r.verdict :=
      Verdict.ofValue_eq_ok_iff.mpr rfl
    simp only [ofResponse, hname, hvalue, hreason, hlatency, hcode, hof, bind, Except.bind, pure,
      Except.pure]

/-- The rule results cross the connection one by one. -/
theorem RuleResult.exists_ofResponses {rs : List RuleResult} (h : ∀ r ∈ rs, r.Crosses) :
    ∃ responses rs', rs.mapM RuleResult.response = .ok responses ∧
      (∀ response ∈ responses, response.Reloadable) ∧
      (responses.map PyVal.sorted).mapM (RuleResult.ofResponse X) = .ok rs' ∧
      List.Forall₂ RuleResult.Agrees rs' rs := by
  induction rs with
  | nil => exact ⟨[], [], rfl, fun x hx => absurd hx List.not_mem_nil, rfl, .nil⟩
  | cons r rs ih =>
    obtain ⟨response, r', hresponse, hreload, hread, hagrees⟩ :=
      RuleResult.exists_ofResponse (X := X) (h r (List.mem_cons_self ..))
    obtain ⟨responses, rs', hresponses, hreloads, hreads, hagree⟩ :=
      ih fun r hr => h r (List.mem_cons_of_mem _ hr)
    refine ⟨response :: responses, r' :: rs', ?_, List.forall_mem_cons.mpr ⟨hreload, hreloads⟩, ?_,
      .cons hagrees hagree⟩
    · simp only [List.mapM_cons, hresponse, hresponses, bind, Except.bind, pure, Except.pure]
    · simp only [List.map_cons, List.mapM_cons, hread, hreads, bind, Except.bind, pure, Except.pure]

namespace VerificationResult

/-- The members of the answer, with the answers of the rules. -/
def responseMembers (v : VerificationResult) (ruleResults : List PyVal) : List (Text × PyVal) :=
  [(text "type", .str (text "result")), (text "trace_id", v.traceId),
    (text "verdict", .str v.verdict.value), (text "block_reason", v.blockReason),
    (text "rule_results", .list ruleResults), (text "receipt", v.receipt),
    (text "verified_at", v.verifiedAt), (text "tool", v.tool),
    (text "params_hash", v.paramsHash), (text "error_code", v.errorCode)]
    ++ (v.l1Receipt.map fun d => (text "l1_receipt", d)).toList

/-- The answer to a verification. An L1 receipt is sent, if there is one and it is truthy. -/
theorem response_eq_filter {v : VerificationResult} {ruleResults : List PyVal}
    (h : v.ruleResults.mapM RuleResult.response = .ok ruleResults) :
    v.response = .ok (.ofMembers
      ({ v with l1Receipt := v.l1Receipt.filter PyVal.truthy }.responseMembers ruleResults)) := by
  simp only [response, h, bind, Except.bind, responseMembers]
  cases v.l1Receipt with
  | none => rfl
  | some d => cases hd : d.truthy <;> simp [Option.filter, hd, pure, Except.pure]

/-- The response of a result without an empty receipt. -/
theorem response_eq {v : VerificationResult} (hl1 : ∀ d ∈ v.l1Receipt, d.truthy = true)
    {ruleResults : List PyVal} (h : v.ruleResults.mapM RuleResult.response = .ok ruleResults) :
    v.response = .ok (.ofMembers (v.responseMembers ruleResults)) := by
  have hsent : v.l1Receipt.filter PyVal.truthy = v.l1Receipt := by
    cases hd : v.l1Receipt with
    | none => rfl
    | some d => rw [Option.filter_some, if_pos (hl1 d hd)]
  rw [response_eq_filter h, hsent]

/-- No member of a response is repeated. -/
theorem nodup_responseMembers (v : VerificationResult) (ruleResults : List PyVal) :
    (Dict.keys (v.responseMembers ruleResults)).Nodup := by
  unfold responseMembers
  cases v.l1Receipt with
  | none =>
    simp only [Dict.keys, Option.map_none, Option.toList_none, List.append_nil, List.map]
    decide
  | some d =>
    simp only [Dict.keys, Option.map_some, Option.toList_some, List.cons_append, List.nil_append,
      List.map]
    decide

/-- Their names come back as they are. -/
theorem joinSurrogates_responseMembers (v : VerificationResult) (ruleResults : List PyVal) :
    ∀ m ∈ v.responseMembers ruleResults, m.1.joinSurrogates = m.1 := by
  have hnames : ∀ k ∈ [text "type", text "trace_id", text "verdict", text "block_reason",
      text "rule_results", text "receipt", text "verified_at", text "tool", text "params_hash",
      text "error_code"], k.joinSurrogates = k := by decide
  intro m hm
  rcases List.mem_append.mp hm with hm | hm
  · exact hnames m.1 (List.mem_map_of_mem (f := Prod.fst) hm)
  · rw [Option.mem_toList, Option.map_eq_some_iff] at hm
    obtain ⟨d, -, rfl⟩ := hm
    exact (by decide : (text "l1_receipt").joinSurrogates = text "l1_receipt")

/-- The answer to a verification comes back. -/
theorem Crosses.reloadable_response {v : VerificationResult} (h : v.Crosses)
    {ruleResults : List PyVal} (hrules : ∀ r ∈ ruleResults, r.Reloadable) :
    (PyVal.ofMembers (v.responseMembers ruleResults)).Reloadable := by
  have hresult : (PyVal.str (text "result")).Reloadable := .str (by decide)
  have hverdict : (PyVal.str v.verdict.value).Reloadable :=
    .str v.verdict.value_isAscii.encodable.joinSurrogates
  refine .obj (v.nodup_responseMembers ruleResults) (v.joinSurrogates_responseMembers ruleResults)
    ?_
  -- the L1 receipt is the only member that may be missing
  rw [responseMembers, List.forall_mem_append]
  constructor
  · simp only [List.forall_mem_cons]
    exact ⟨hresult, h.traceId.reloadable, hverdict, h.blockReason.reloadable, .list hrules,
      h.receipt.reloadable, h.verifiedAt.reloadable, h.tool.reloadable, h.paramsHash.reloadable,
      h.errorCode.reloadable, fun m hm => absurd hm List.not_mem_nil⟩
  · intro m hm
    rw [Option.mem_toList, Option.map_eq_some_iff] at hm
    obtain ⟨d, hd, rfl⟩ := hm
    exact (h.l1Receipt d hd).1

/-- The answer to a verification carries the trace identifier of the result, for any fields. -/
theorem getItem_traceId_reload {v : VerificationResult} {answer : PyVal}
    (h : v.response = .ok answer) :
    (answer.reload .compact).getItem (text "trace_id") = .ok (v.traceId.reload .compact) := by
  obtain ⟨ruleResults, hresults, -⟩ := Except.bind_eq_ok_iff.mp h
  rw [response_eq_filter hresults] at h
  cases h
  exact PyVal.getItem_reload (nodup_responseMembers _ ruleResults)
    (joinSurrogates_responseMembers _ ruleResults) rfl

/-- The trace identifier of a result is the one of the response. -/
theorem getItem_traceId_of_ofResponse {v : VerificationResult} {time : FiniteBinary64}
    {answer : PyVal} (h : ofResponse X time answer = .ok v) :
    answer.getItem (text "trace_id") = .ok v.traceId := by
  simp only [ofResponse, Except.bind_eq_ok_iff, pure, Except.pure, Except.ok.injEq] at h
  obtain ⟨_, -, _, -, _, -, traceId, htrace, h⟩ := h
  obtain ⟨_, -, _, -, _, -, _, -, _, -, _, -, _, -, _, -, _, -, rfl⟩ := h
  exact htrace

/-- The L1 receipt is read back, if there is one. -/
theorem Crosses.get_l1Receipt {v : VerificationResult} (h : v.Crosses) (ruleResults : List PyVal) :
    ∃ d, (PyVal.ofMembers (v.responseMembers ruleResults)).sorted.get (text "l1_receipt") .none =
        .ok d ∧ (if d.truthy then some d else none) = v.l1Receipt.map PyVal.sorted := by
  rw [PyVal.get_sorted (v.nodup_responseMembers ruleResults)]
  unfold responseMembers
  cases hd : v.l1Receipt with
  | none => exact ⟨_, rfl, rfl⟩
  | some d =>
    obtain ⟨hreload, htruthy⟩ := h.l1Receipt d hd
    refine ⟨d.sorted, rfl, if_pos ?_⟩
    rw [PyVal.truthy_sorted hreload.isJson, htruthy]

/-- The client reads a result that agrees with the one that was sent. -/
theorem exists_ofResponse {v : VerificationResult} (h : v.Crosses) (time : FiniteBinary64) :
    ∃ response v', v.response = .ok response ∧ response.Reloadable ∧
      ofResponse X time response.sorted = .ok v' ∧ v'.Agrees v := by
  obtain ⟨responses, rs', hresponses, hreloads, hreads, hagree⟩ :=
    RuleResult.exists_ofResponses (X := X) h.ruleResults
  let response := PyVal.ofMembers (v.responseMembers responses)
  have hkeys := v.nodup_responseMembers responses
  -- a member that has the same JSON after the reload is read back as it was
  have hget : ∀ (key : Text) {x : PyVal}, Dict.lookup (v.responseMembers responses) key = some x →
      x.Stable → ∀ default, response.sorted.get key default = .ok x := by
    intro key x hlookup hx default
    rw [PyVal.get_sorted hkeys, hlookup, Option.map_some, Option.getD_some, hx.sorted_eq]
  have hresults : response.sorted.get (text "rule_results") (.list []) =
      .ok (.list (responses.map PyVal.sorted)) := by
    rw [PyVal.get_sorted hkeys, show Dict.lookup (v.responseMembers responses)
      (text "rule_results") = some (.list responses) from rfl, Option.map_some, Option.getD_some,
      PyVal.sorted, PyVal.sortedItems_eq]
  have htrace : response.sorted.getItem (text "trace_id") = .ok v.traceId := by
    rw [PyVal.getItem_sorted hkeys (v := v.traceId) rfl, h.traceId.sorted_eq]
  have hvalue : response.sorted.getItem (text "verdict") = .ok (.str v.verdict.value) :=
    PyVal.getItem_sorted hkeys (v := .str v.verdict.value) rfl
  have hverdict : Verdict.ofValue X.isPrintable (.str v.verdict.value) = .ok v.verdict :=
    Verdict.ofValue_eq_ok_iff.mpr rfl
  have hiter : (PyVal.list (responses.map PyVal.sorted)).iter = .ok (responses.map PyVal.sorted) :=
    rfl
  obtain ⟨d, hd, hl1⟩ := h.get_l1Receipt responses
  refine ⟨response, ⟨v.traceId, v.verdict, v.blockReason, rs', v.receipt, v.verifiedAt, v.tool,
    v.paramsHash, v.errorCode, v.l1Receipt.map PyVal.sorted⟩,
    response_eq (fun d hd => (h.l1Receipt d hd).2) hresponses, h.reloadable_response hreloads, ?_,
    ⟨rfl, rfl, rfl, hagree, rfl, rfl, rfl, rfl, rfl, ?_⟩⟩
  · simp only [ofResponse, hresults, hiter, hreads, htrace, hvalue, hverdict,
      hget (text "block_reason") rfl h.blockReason, hget (text "receipt") rfl h.receipt,
      hget (text "verified_at") rfl h.verifiedAt, hget (text "tool") rfl h.tool,
      hget (text "params_hash") rfl h.paramsHash, hget (text "error_code") rfl h.errorCode, bind,
      Except.bind, pure, Except.pure]
    rw [show response.sorted.get (text "l1_receipt") .none = .ok d from hd]
    exact congrArg (fun l1 => Except.ok (⟨v.traceId, v.verdict, v.blockReason, rs', v.receipt,
      v.verifiedAt, v.tool, v.paramsHash, v.errorCode, l1⟩ : VerificationResult)) hl1
  · -- the receipt comes back with its members sorted
    cases hv : v.l1Receipt with
    | none => exact .none
    | some d => exact .some (PyVal.sameData_sorted (h.l1Receipt d hv).1.isJson)

end VerificationResult

/-! ## The results of the server -/

/-- The strings that the rule produces come back. -/
def Rule.Reloads (rule : Rule) : Prop :=
  ∀ world c r, rule.evaluate world c = .ok r → r.ruleName.Reloadable ∧ r.reason.Reloadable

/-- The variables of the rule loop come back. -/
structure RuleLoop.Crosses (loop : RuleLoop) : Prop where
  /-- The results of the rules come back. -/
  results : ∀ r ∈ loop.results, r.Crosses
  /-- The reason comes back. -/
  blockReason : loop.blockReason.Stable
  /-- The error code comes back. -/
  errorCode : loop.errorCode.Stable

/-- The variables of the rule loop start with values that cross. -/
theorem RuleLoop.crosses_init : RuleLoop.init.Crosses :=
  ⟨fun r hr => absurd hr List.not_mem_nil, .str (by decide), .int _⟩

/-- What a rule has returned comes back, with a reading of the clock as its latency. -/
theorem Rule.Reloads.crosses {rule : Rule} (h : rule.Reloads) {world : ℕ} {c : Command}
    {r : RuleResult} (hr : rule.evaluate world c = .ok r) (latency : Binary64) :
    ({ r with latencyUs := .float latency } : RuleResult).Crosses := by
  obtain ⟨hname, hreason⟩ := h world c r hr
  have htyped := rule.typed hr
  obtain ⟨name, hnameStr⟩ := htyped.ruleName
  obtain ⟨reason, hreasonStr⟩ := htyped.reason
  obtain ⟨code, hcode⟩ := htyped.errorCode
  -- sorting changes dictionaries only, and these fields are strings and numbers
  refine ⟨⟨hname, ?_⟩, ⟨hreason, ?_⟩, ⟨_, rfl⟩, ?_⟩
  · show r.ruleName.sorted = r.ruleName
    rw [hnameStr]
    rfl
  · show r.reason.sorted = r.reason
    rw [hreasonStr]
    rfl
  · show r.errorCode.Stable
    rw [hcode]
    exact .int code

/-- The loop keeps what comes back. -/
theorem evaluateRules_crosses {call : CallReadings} {c : Command} {rules : List Rule}
    (hrules : ∀ rule ∈ rules, rule.Reloads) {loop result : RuleLoop} (hloop : loop.Crosses)
    (hok : evaluateRules call c rules loop = .ok result) : result.Crosses := by
  obtain ⟨hresults, hreason, hcode⟩ := evaluateRules_forall (P := RuleResult.Crosses)
    (Q := PyVal.Stable) (R := PyVal.Stable)
    (fun rule hmem r hr latency => by
      have hcrosses := (hrules rule hmem).crosses hr (.fin latency)
      exact ⟨hcrosses, hcrosses.reason, hcrosses.errorCode⟩)
    ⟨hloop.results, hloop.blockReason, hloop.errorCode⟩ hok
  exact ⟨hresults, hreason, hcode⟩

/-- A JSON value whose strings can be encoded comes back. -/
theorem PyVal.IsJson.reloadable {v : PyVal} (hv : v.IsJson) (h : v.EncodableStrings) :
    v.Reloadable := by
  induction v, hv using PyVal.isJson_induct with
  | none => exact .none
  | bool b => exact .bool b
  | int z => exact .int z
  | float x => exact .float x
  | str s => exact .str (Text.Encodable.joinSurrogates h)
  | list xs hxs ih => exact .list fun x hx => ih x hx (PyVal.encodableItems_iff.mp h x hx)
  | obj ms hkeys hms ih =>
    have hparts := PyVal.encodableStrings_ofMembers_iff.mp h
    exact .obj hkeys (fun m hm => (hparts m hm).1.joinSurrogates) fun m hm => ih m hm (hparts m hm).2

namespace VerifierServer

variable {srv : VerifierServer X} {call : CallReadings} {c : Command} {s : ServerState}
  {loop : RuleLoop}

/-- An L1 receipt comes back. -/
theorem reloadable_l1ReceiptData (hjcs : X.JcsAccepts) (hjson : c.IsJson) {paramsHash : Text}
    {sequence : ℕ} {l1 : Option PyVal}
    (h : srv.l1ReceiptData call c loop paramsHash sequence = .ok l1) :
    ∀ d ∈ l1, d.Reloadable ∧ d.truthy = true := by
  rintro d hd
  obtain rfl : l1 = some d := hd
  unfold l1ReceiptData at h
  split at h
  · cases h
  next key hkey =>
  simp only [l1Receipt_eq, Except.bind_eq_ok_iff, l1Parts_eq_ok_iff, pure, Except.pure,
    Except.ok.injEq, Option.some.injEq] at h
  obtain ⟨r, ⟨parts, hparts, hbuild⟩, rfl⟩ := h
  obtain ⟨-, -, -, -, -, hsign⟩ :=
    (L1ReceiptBuilder.build_eq_ok_iff hparts.issuedAt rfl hparts.expiresAt).mp hbuild
  have hdraft : ∀ f, ((srv.l1Draft call c loop paramsHash sequence parts).attr f).IsJson :=
    l1Draft_isJson hjson hparts
  have hissued : (srv.l1Draft call c loop paramsHash sequence parts).attr .issuedAt =
      .float (srv.issueTime call) := hparts.issuedAt
  -- what has been signed has been written as canonical JSON, field by field
  have hfields := L1Receipt.isJson_of_signL1Receipt hjcs hsign fun f _ => by
    rcases L1Receipt.attr_aligned_or hissued (.fin call.defaults.timestamp) f with heq | heq
    · exact heq ▸ hdraft f
    · exact heq ▸ hdraft .issuedAt
  have hnames : ∀ f : ReceiptField, f.name.joinSurrogates = f.name := fun f => by
    cases f <;> decide +kernel
  refine ⟨.obj ?_ ?_ ?_, rfl⟩
  · rw [L1Receipt.asdict, Dict.keys, List.map_map]
    exact ReceiptField.nodup_names
  · exact List.forall_mem_map.mpr fun f _ => hnames f
  · exact List.forall_mem_map.mpr fun f _ => (hfields f).1.reloadable (hfields f).2

/-- The results of the server come back, when the tool and the trace identifier do. -/
theorem crosses_of_verify (hjcs : X.JcsAccepts) (hjson : c.IsJson) (htool : c.tool.Stable)
    (htrace : c.traceId.Stable) (hrules : ∀ rule ∈ srv.rules, rule.Reloads)
    {v : VerificationResult} (hv : (srv.verify call c s).1 = .ok v) : v.Crosses := by
  obtain ⟨loop, paramsHash, receipt, l1, hloop, hl0, hl1, rfl, -⟩ :=
    verify_eq_ok_iff.mp (Prod.ext hv rfl)
  have hcrosses := evaluateRules_crosses hrules RuleLoop.crosses_init hloop
  have hhash := (Command.paramsHash_eq_ok X (paramsHash_of_l0Receipt srv hl0)).2
  -- the receipt is made of the digits of a tag
  have hreceipt : receipt.Encodable := by
    simp only [l0Receipt, signReceipt, Except.bind_eq_ok_iff, pure, Except.pure, Except.ok.injEq,
      Prod.mk.injEq] at hl0
    obtain ⟨_, -, _, ⟨payload, -, rfl⟩, -, rfl⟩ := hl0
    exact Text.Encodable.take (Text.hex_isAscii _).encodable 32
  exact {
    traceId := htrace
    blockReason := hcrosses.blockReason
    ruleResults := hcrosses.results
    receipt := .str hreceipt.joinSurrogates
    verifiedAt := .float _
    tool := htool
    paramsHash := .str hhash.encodable.joinSurrogates
    errorCode := hcrosses.errorCode
    l1Receipt := reloadable_l1ReceiptData hjcs hjson hl1 }

end VerifierServer
