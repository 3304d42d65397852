import CcsVerifier.L1.MemberOrder
import CcsVerifier.Server.Issue

/-!
# Verifying the same data

A verification of a command whose objects have their members in another order. The tool and the
trace identifier are formatted as they are, so they have to be equal; everything else reaches the
result through canonical JSON.

* `Command.SameData`: two commands that differ in the order of members only.
* `Rule.IgnoresOrder`: a rule that is a function of the JSON data of a command.
* `VerifierServer.verify_congr`: the same result, up to the order of members in the L1 receipt.
-/

/-- Two commands made of the same JSON data, with equal tools and equal trace identifiers. -/
structure Command.SameData (c c' : Command) : Prop where
  /-- The first is made of JSON values. -/
  isJson : c.IsJson
  /-- So is the second. -/
  isJson' : c'.IsJson
  /-- The agents are equal up to the order of members. -/
  agentId : c.agentId.SameData c'.agentId
  /-- The tools are equal. -/
  tool : c.tool = c'.tool
  /-- The parameters are equal up to the order of members. -/
  params : c.params.SameData c'.params
  /-- So are the times. -/
  timestamp : c.timestamp.SameData c'.timestamp
  /-- The trace identifiers are equal. -/
  traceId : c.traceId = c'.traceId

/-- The relation is symmetric. -/
theorem Command.SameData.symm {c c' : Command} (h : c.SameData c') : c'.SameData c :=
  ⟨h.isJson', h.isJson, h.agentId.symm, h.tool.symm, h.params.symm, h.timestamp.symm, h.traceId.symm⟩

/-- The rule is a function of the JSON data of a command: it does not see the order of members. -/
def Rule.IgnoresOrder (rule : Rule) : Prop :=
  ∀ world c c', c.SameData c' → rule.evaluate world c = rule.evaluate world c'

/-- Two results that differ only in the order of members in the L1 receipt. -/
structure VerificationResult.SameData (v v' : VerificationResult) : Prop where
  /-- Without the L1 receipts, the results are equal. -/
  eq : v' = { v with l1Receipt := v'.l1Receipt }
  /-- The L1 receipts are equal up to the order of members. -/
  l1Receipt : Option.Rel PyVal.SameData v.l1Receipt v'.l1Receipt

variable {X : Externals} {call : CallReadings} {c c' : Command}

/-- Such rules come to the same results. -/
theorem evaluateRules_congr (h : c.SameData c') {rules : List Rule}
    (hrules : ∀ rule ∈ rules, rule.IgnoresOrder) (loop : RuleLoop) :
    evaluateRules call c rules loop = evaluateRules call c' rules loop := by
  induction rules generalizing loop with
  | nil => rfl
  | cons rule rules ih =>
    have hrule := hrules rule (List.mem_cons_self ..) call.world c c' h
    have hrest := ih fun rule hmem => hrules rule (List.mem_cons_of_mem _ hmem)
    simp only [evaluateRules, hrule, hrest]

/-- The same data have the same hash. -/
theorem Command.SameData.paramsHash_eq (h : c.SameData c') : c.paramsHash X = c'.paramsHash X := by
  have hdumps : dumps .compact c.params = dumps .compact c'.params :=
    h.params.congr (fun _ hx => PyVal.dumps_sorted hx) h.isJson.params h.isJson'.params
  rw [paramsHash, paramsHash, hdumps]

/-- The request data are the same. -/
theorem Command.SameData.requestData (h : c.SameData c') :
    (requestData c).SameData (requestData c') := by
  let field : Text × (Command → PyVal) → Command → PyVal := Prod.snd
  let fields : List (Text × (Command → PyVal)) :=
    [(text "agent_id", Command.agentId), (text "tool", Command.tool),
      (text "params", Command.params), (text "timestamp", Command.timestamp),
      (text "trace_id", Command.traceId)]
  have hfields : ∀ f ∈ fields, (field f c).SameData (field f c') := by
    intro f hf
    simp only [fields, List.mem_cons, List.not_mem_nil, or_false] at hf
    rcases hf with rfl | rfl | rfl | rfl | rfl
    · exact h.agentId
    · exact congrArg PyVal.sorted h.tool
    · exact h.params
    · exact h.timestamp
    · exact congrArg PyVal.sorted h.traceId
  exact @PyVal.SameData.ofMembers _ fields Prod.fst _ _ hfields

namespace VerifierServer

variable {srv : VerifierServer X} {loop : RuleLoop} {parts : L1Parts} {s : ServerState}

/-- The L0 receipt is the same. -/
theorem l0Receipt_congr (h : c.SameData c') :
    srv.l0Receipt call c loop = srv.l0Receipt call c' loop := by
  rw [l0Receipt, l0Receipt, h.paramsHash_eq, h.tool, h.traceId]

/-- The audience is the same data. -/
theorem audienceOf_congr (h : c.SameData c') : (srv.audienceOf c).SameData (srv.audienceOf c') := by
  unfold audienceOf
  split
  · exact h.agentId
  · exact .refl _

/-- The parts of the L1 receipt are the same: the request is hashed. -/
theorem HasParts.congr (hjcs : X.JcsAccepts) (horder : X.JcsIgnoresOrder) (h : c.SameData c')
    (hparts : srv.HasParts call c loop parts) : srv.HasParts call c' loop parts := by
  refine { hparts with nonce := ?_, argsDigest := ?_, requestHash := ?_ }
  · rw [nonceOf, ← h.traceId]
    exact hparts.nonce
  · exact Externals.computeHash_congr hjcs horder h.isJson.params h.isJson'.params h.params
      hparts.argsDigest
  · exact Externals.computeHash_congr hjcs horder (requestData_isJson h.isJson)
      (requestData_isJson h.isJson') h.requestData hparts.requestHash

/-- The drafts differ at most in the audience, which may be the agent. -/
theorem sameData_l1Draft (h : c.SameData c') (hparts : srv.HasParts call c loop parts)
    (hparts' : srv.HasParts call c' loop parts) (paramsHash : Text) (sequence : ℕ) :
    (srv.l1Draft call c loop paramsHash sequence parts).SameData
      (srv.l1Draft call c' loop paramsHash sequence parts) := by
  refine ⟨l1Draft_isJson h.isJson hparts, l1Draft_isJson h.isJson' hparts', fun f => ?_⟩
  cases f with
  | traceId => exact congrArg PyVal.sorted h.traceId
  | tool => exact congrArg PyVal.sorted h.tool
  | audience => exact audienceOf_congr h
  | _ => exact .refl _

/-- The L1 receipts are equal up to the order of members. -/
theorem l1ReceiptData_congr (hjcs : X.JcsAccepts) (horder : X.JcsIgnoresOrder) (h : c.SameData c')
    {paramsHash : Text} {sequence : ℕ} {d : Option PyVal}
    (hd : srv.l1ReceiptData call c loop paramsHash sequence = .ok d) :
    ∃ d', srv.l1ReceiptData call c' loop paramsHash sequence = .ok d' ∧
      Option.Rel PyVal.SameData d d' := by
  unfold l1ReceiptData at hd ⊢
  split at hd
  · cases hd
    exact ⟨none, rfl, .none⟩
  next key hkey =>
  simp only [l1Receipt_eq, Except.bind_eq_ok_iff, l1Parts_eq_ok_iff, pure, Except.pure,
    Except.ok.injEq] at hd ⊢
  obtain ⟨r, ⟨parts, hparts, hbuild⟩, rfl⟩ := hd
  have hparts' := hparts.congr hjcs horder h
  obtain ⟨r', hbuild', hsame⟩ := L1Receipt.build_congr hjcs horder
    (sameData_l1Draft h hparts hparts' paramsHash sequence) hparts.issuedAt rfl hparts.expiresAt
    hparts.issuedAt rfl hparts.expiresAt hbuild
  exact ⟨_, ⟨r', ⟨parts, hparts', hbuild'⟩, rfl⟩, .some hsame.toDict⟩

/-- The same data is verified with the same result, up to the order of members in the L1 receipt. -/
theorem verify_congr (hjcs : X.JcsAccepts) (horder : X.JcsIgnoresOrder) (h : c.SameData c')
    (hrules : ∀ rule ∈ srv.rules, rule.IgnoresOrder) {v : VerificationResult}
    (hv : (srv.verify call c s).1 = .ok v) :
    ∃ v', (srv.verify call c' s).1 = .ok v' ∧ v.SameData v' := by
  obtain ⟨loop, paramsHash, receipt, l1, hloop, hl0, hl1, rfl, -⟩ :=
    verify_eq_ok_iff.mp (Prod.ext hv rfl)
  obtain ⟨l1', hl1', hsame⟩ := l1ReceiptData_congr hjcs horder h hl1
  rw [evaluateRules_congr h hrules] at hloop
  rw [l0Receipt_congr h] at hl0
  have hv' := verify_eq_ok_iff.mpr ⟨loop, paramsHash, receipt, l1', hloop, hl0, hl1', rfl, rfl⟩
  refine ⟨_, congrArg Prod.fst hv', ?_, hsame⟩
  simp only [resultOf, h.traceId, h.tool]

end VerifierServer
