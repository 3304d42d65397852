import Mathlib
import CcsVerifier.Server.Audit

/-!
# The aggregation of verdicts

Verdicts are ordered by their severity, and the verdict of a verification is the join of the
verdicts of all rules, although the rule loop stops at the first denial.

* `Verdict.severity`: the order `allow < escalate < deny`.
* `RuleLoop.Aggregates`: what the rule loop makes of the outcomes of the rules.
* `VerifierServer.verify_aggregates`: what a verification returns, for rules that are pure.
-/

namespace Verdict

/-- How severe a verdict is. -/
def severity : Verdict → ℕ
  | .allow => 0
  | .escalate => 1
  | .deny => 2

/-- No two verdicts are equally severe. -/
theorem severity_injective : Function.Injective severity := by
  intro v w h
  cases v <;> cases w <;> first | rfl | cases h

/-- Verdicts are ordered by their severity. -/
instance : LinearOrder Verdict := LinearOrder.lift' severity severity_injective

/-- Verdicts are compared by severity. -/
theorem le_iff {v w : Verdict} : v ≤ w ↔ v.severity ≤ w.severity := Iff.rfl

/-- Allowing is the least severe verdict. -/
instance : OrderBot Verdict where
  bot := .allow
  bot_le v := by
    rw [le_iff]
    exact Nat.zero_le _

/-- Denying is the most severe verdict. -/
instance : OrderTop Verdict where
  top := .deny
  le_top v := by
    rw [le_iff]
    cases v <;> decide

@[simp]
theorem bot_eq : (⊥ : Verdict) = .allow := rfl

@[simp]
theorem top_eq : (⊤ : Verdict) = .deny := rfl

/-- Nothing is less severe than allowing. -/
theorem allow_le (v : Verdict) : .allow ≤ v := bot_le

/-- Nothing is more severe than denying. -/
theorem le_deny (v : Verdict) : v ≤ .deny := le_top

/-- What is no denial is at most an escalation. -/
theorem le_escalate {v : Verdict} (h : v ≠ .deny) : v ≤ .escalate := by
  rw [le_iff]
  cases v with
  | allow => decide
  | escalate => decide
  | deny => exact absurd rfl h

/-- The most severe of some verdicts. -/
def join (vs : List Verdict) : Verdict := vs.foldr max .allow

@[simp]
theorem join_nil : join [] = .allow := rfl

@[simp]
theorem join_cons (v : Verdict) (vs : List Verdict) : join (v :: vs) = max v (join vs) := rfl

/-- The order of the verdicts does not matter. -/
theorem join_perm {vs ws : List Verdict} (h : vs.Perm ws) : join vs = join ws :=
  h.foldr_eq _

/-- The join allows only if every verdict does. -/
theorem join_eq_allow_iff {vs : List Verdict} : join vs = .allow ↔ ∀ v ∈ vs, v = .allow := by
  induction vs with
  | nil => simp
  | cons v vs ih =>
    rw [join_cons, List.forall_mem_cons, ← ih]
    exact sup_eq_bot_iff

/-- It denies if one verdict does. -/
theorem join_eq_deny_iff {vs : List Verdict} : join vs = .deny ↔ .deny ∈ vs := by
  induction vs with
  | nil => simp
  | cons v vs ih =>
    rw [join_cons, List.mem_cons, ← ih]
    -- in a linear order, one of the two is the maximum
    rcases max_choice v (join vs) with h | h <;> rw [h]
    · refine ⟨fun hv => .inl hv.symm, fun hv => ?_⟩
      obtain rfl | hv := hv
      · rfl
      · rw [hv] at h
        rw [← h]
        exact max_eq_right (le_deny v)
    · refine ⟨.inr, fun hv => ?_⟩
      obtain rfl | hv := hv
      · rw [← h]
        exact max_eq_left (le_deny _)
      · exact hv

end Verdict

/-! ## The outcomes that are evaluated -/

/-- The outcomes up to and including the first denial. -/
def RuleResult.evaluated (outcomes : List RuleResult) : List RuleResult :=
  outcomes.take (outcomes.findIdx (fun r => r.verdict = .deny) + 1)

namespace RuleResult

@[simp]
theorem evaluated_nil : evaluated [] = [] := rfl

/-- Evaluation stops at a denial. -/
theorem evaluated_cons_of_deny {r : RuleResult} (h : r.verdict = .deny) (rs : List RuleResult) :
    evaluated (r :: rs) = [r] := by
  rw [evaluated, List.findIdx_cons]
  simp [h]

/-- It goes on after any other verdict. -/
theorem evaluated_cons_of_ne {r : RuleResult} (h : r.verdict ≠ .deny) (rs : List RuleResult) :
    evaluated (r :: rs) = r :: evaluated rs := by
  rw [evaluated, List.findIdx_cons]
  simp [h, evaluated]

/-- Evaluation stops early only at a denial. -/
theorem evaluated_eq_self {rs : List RuleResult} (h : ∀ r ∈ rs, r.verdict ≠ .deny) :
    evaluated rs = rs := by
  induction rs with
  | nil => rfl
  | cons r rs ih =>
    rw [List.forall_mem_cons] at h
    rw [evaluated_cons_of_ne h.1, ih h.2]

/-- An outcome with the latency of the call that gave it. -/
def timed (call : CallReadings) (i : ℕ) (r : RuleResult) : RuleResult :=
  { r with latencyUs := .float (.fin (call.ruleLatency i)) }

end RuleResult

/-! ## The rule loop -/

/-- What the rule loop makes of its variables and of the outcomes of the rules. -/
structure RuleLoop.Aggregates (call : CallReadings) (outcomes : List RuleResult)
    (loop result : RuleLoop) : Prop where
  /-- The results are extended by the outcomes up to the first denial. -/
  results : result.results = loop.results ++ (RuleResult.evaluated outcomes).mapIdx fun i r =>
    r.timed call (loop.results.length + i)
  /-- The verdict is the most severe one. -/
  verdict : result.finalVerdict =
    max loop.finalVerdict (Verdict.join (outcomes.map RuleResult.verdict))
  /-- The reason is kept, or is that of an outcome with the final verdict. -/
  blockReason : (result.blockReason = loop.blockReason ∧ ∀ r ∈ outcomes, r.verdict = .allow) ∨
    ∃ r ∈ RuleResult.evaluated outcomes, r.verdict ≠ .allow ∧ r.verdict = result.finalVerdict ∧
      r.reason = result.blockReason
  /-- The error code is that of the first denial, or is kept. -/
  errorCode : result.errorCode =
    ((outcomes.find? fun r => r.verdict = .deny).map RuleResult.errorCode).getD loop.errorCode

/-- The results of a loop that goes on after an outcome. -/
theorem RuleLoop.results_cons {call : CallReadings} {r : RuleResult} {rs : List RuleResult}
    {loop next result : RuleLoop} (hne : r.verdict ≠ .deny)
    (hnext : next.results = loop.results ++ [r.timed call loop.results.length])
    (h : next.Aggregates call rs result) :
    result.results = loop.results ++ (RuleResult.evaluated (r :: rs)).mapIdx fun i r =>
      r.timed call (loop.results.length + i) := by
  rw [h.results, hnext, RuleResult.evaluated_cons_of_ne hne, List.mapIdx_cons, List.append_assoc,
    List.length_append, List.length_singleton, List.singleton_append, Nat.add_zero]
  -- the positions of the later outcomes are counted from the next one
  congr 3
  funext i r
  rw [Nat.add_assoc, Nat.add_comm 1 i]

/-- The loop aggregates the outcomes of rules that are pure. -/
theorem evaluateRules_aggregates {call : CallReadings} {c : Command} {outcome : Rule → RuleResult}
    {rules : List Rule} (hpure : ∀ rule ∈ rules, rule.evaluate call.world c = .ok (outcome rule))
    {loop result : RuleLoop} (hrunning : loop.finalVerdict ≠ .deny)
    (hok : evaluateRules call c rules loop = .ok result) :
    loop.Aggregates call (rules.map outcome) result := by
  -- by induction on the rules; until the loop stops, the verdict is not a denial
  induction rules generalizing loop with
  | nil =>
    cases hok
    exact {
      results := by simp
      verdict := (max_eq_left (Verdict.allow_le _)).symm
      blockReason := .inl ⟨rfl, by simp⟩
      errorCode := rfl }
  | cons rule rules ih =>
    rw [List.forall_mem_cons] at hpure
    rw [evaluateRules, hpure.1] at hok
    simp only [bind, Except.bind, pure, Except.pure] at hok
    rw [List.map_cons]
    split at hok
    · next heq =>
      -- the loop stops here
      have hverdict : (outcome rule).verdict = .deny := heq
      cases hok
      refine ⟨?_, ?_, .inr ⟨outcome rule, ?_, ?_, hverdict, rfl⟩, ?_⟩
      · rw [RuleResult.evaluated_cons_of_deny hverdict]
        rfl
      · rw [List.map_cons, Verdict.join_cons, hverdict, max_eq_left (Verdict.le_deny _)]
        exact (max_eq_right (Verdict.le_deny _)).symm
      · rw [RuleResult.evaluated_cons_of_deny hverdict]
        exact List.mem_singleton_self _
      · rw [hverdict]
        decide
      · rw [List.find?_cons_of_pos (by simp [hverdict])]
        rfl
    · next heq =>
      have hverdict : (outcome rule).verdict = .escalate := heq
      have hne : (outcome rule).verdict ≠ .deny := by
        rw [hverdict]
        decide
      rw [if_pos hrunning] at hok
      have hescalate : Verdict.escalate ≠ .deny := by decide
      have h := ih hpure.2 hescalate hok
      refine ⟨RuleLoop.results_cons hne rfl h, ?_, ?_, ?_⟩
      · rw [h.verdict, List.map_cons, Verdict.join_cons, hverdict, ← max_assoc]
        -- before the loop stops the verdict is at most an escalation
        rw [max_eq_right (Verdict.le_escalate hrunning)]
      · right
        obtain ⟨hreason, hallow⟩ | ⟨r, hr, hrv, hfinal, hreason⟩ := h.blockReason
        · -- no later rule has objected, so the reason is that of this rule
          refine ⟨outcome rule, ?_, ?_, ?_, hreason.symm⟩
          · rw [RuleResult.evaluated_cons_of_ne hne]
            exact List.mem_cons_self
          · rw [hverdict]
            decide
          · have hjoin : Verdict.join ((rules.map outcome).map RuleResult.verdict) = .allow :=
              Verdict.join_eq_allow_iff.mpr (List.forall_mem_map.mpr hallow)
            rw [hverdict, h.verdict, hjoin]
            rfl
        · refine ⟨r, ?_, hrv, hfinal, hreason⟩
          rw [RuleResult.evaluated_cons_of_ne hne]
          exact List.mem_cons_of_mem _ hr
      · rw [h.errorCode, List.find?_cons_of_neg (by simp [hverdict])]
    · next heq =>
      have hverdict : (outcome rule).verdict = .allow := heq
      have hne : (outcome rule).verdict ≠ .deny := by
        rw [hverdict]
        decide
      have hrunning' : ∀ results, ({ loop with results := results } : RuleLoop).finalVerdict ≠
          .deny := fun _ => hrunning
      have h := ih hpure.2 (hrunning' _) hok
      refine ⟨RuleLoop.results_cons hne rfl h, ?_, ?_, ?_⟩
      · rw [h.verdict, List.map_cons, Verdict.join_cons, hverdict,
          max_eq_right (Verdict.allow_le _)]
      · obtain ⟨hreason, hallow⟩ | ⟨r, hr, hrv, hfinal, hreason⟩ := h.blockReason
        · exact .inl ⟨hreason, List.forall_mem_cons.mpr ⟨hverdict, hallow⟩⟩
        · refine .inr ⟨r, ?_, hrv, hfinal, hreason⟩
          rw [RuleResult.evaluated_cons_of_ne hne]
          exact List.mem_cons_of_mem _ hr
      · rw [h.errorCode, List.find?_cons_of_neg (by simp [hverdict])]

namespace VerifierServer

variable {X : Externals} {srv : VerifierServer X} {call : CallReadings} {c : Command}
  {s s' : ServerState} {v : VerificationResult} {outcome : Rule → RuleResult}

/-- A verification that returns has aggregated the outcomes of the rules. -/
theorem exists_aggregates
    (hpure : ∀ rule ∈ srv.rules, ∀ world, rule.evaluate world c = .ok (outcome rule))
    (hverify : srv.verify call c s = (.ok v, s')) : ∃ loop,
      RuleLoop.init.Aggregates call (srv.rules.map outcome) loop ∧
      v.verdict = loop.finalVerdict ∧ v.ruleResults = loop.results ∧
      v.blockReason = loop.blockReason ∧ v.errorCode = loop.errorCode := by
  obtain ⟨loop, _, _, _, hloop, -, -, rfl, -⟩ := verify_eq_ok_iff.mp hverify
  have hrunning : RuleLoop.init.finalVerdict ≠ .deny := by decide
  have haggregates :=
    evaluateRules_aggregates (fun rule hrule => hpure rule hrule call.world) hrunning hloop
  exact ⟨loop, haggregates, rfl, rfl, rfl, rfl⟩

/-- The verdict is the most severe one of all rules. -/
theorem verdict_eq_join
    (hpure : ∀ rule ∈ srv.rules, ∀ world, rule.evaluate world c = .ok (outcome rule))
    (hverify : srv.verify call c s = (.ok v, s')) :
    v.verdict = Verdict.join (srv.rules.map fun rule => (outcome rule).verdict) := by
  obtain ⟨loop, h, hverdict, -⟩ := exists_aggregates hpure hverify
  rw [hverdict, h.verdict, List.map_map]
  exact max_eq_right (Verdict.allow_le _)

/-- For rules that are pure, a verification that returns has as its verdict the maximum over all
rules, in whatever order they are registered; it allows a command only if every rule was evaluated
and allows it; its rule results are the outcomes up to the first denial; its reason is empty or that
of a rule with the final verdict; and its error code is the default or that of the first denial. -/
theorem verify_aggregates
    (hpure : ∀ rule ∈ srv.rules, ∀ world, rule.evaluate world c = .ok (outcome rule))
    (hverify : srv.verify call c s = (.ok v, s')) :
    v.verdict = Verdict.join (srv.rules.map fun rule => (outcome rule).verdict) ∧
    (∀ (srv₂ : VerifierServer X) call₂ s₂ s₂' v₂, srv₂.rules.Perm srv.rules →
      srv₂.verify call₂ c s₂ = (.ok v₂, s₂') → v₂.verdict = v.verdict) ∧
    (v.verdict = .allow → v.ruleResults.length = srv.rules.length ∧
      ∀ rule ∈ srv.rules, (outcome rule).verdict = .allow) ∧
    v.ruleResults =
      (RuleResult.evaluated (srv.rules.map outcome)).mapIdx (fun i r => r.timed call i) ∧
    (v.verdict = .allow → v.blockReason = .str []) ∧
    (v.verdict ≠ .allow → ∃ rule ∈ srv.rules, (outcome rule).verdict = v.verdict ∧
      v.blockReason = (outcome rule).reason) ∧
    (v.verdict ≠ .deny → v.errorCode = .int DimensionError.default) ∧
    (v.verdict = .deny → ∃ r, (srv.rules.map outcome).find? (fun r => r.verdict = .deny) = some r ∧
      v.errorCode = r.errorCode) := by
  obtain ⟨loop, h, hverdict, hresults, hreason, hcode⟩ := exists_aggregates hpure hverify
  have hjoin := verdict_eq_join hpure hverify
  have hlist : v.ruleResults =
      (RuleResult.evaluated (srv.rules.map outcome)).mapIdx fun i r => r.timed call i := by
    rw [hresults, h.results]
    simp [RuleLoop.init]
  have hallow : v.verdict = .allow → ∀ rule ∈ srv.rules, (outcome rule).verdict = .allow := by
    intro hv
    rw [hjoin, Verdict.join_eq_allow_iff] at hv
    exact List.forall_mem_map.mp hv
  -- a denial is found exactly when the verdict is one
  have hdeny : v.verdict = .deny ↔
      ∃ r, (srv.rules.map outcome).find? (fun r => r.verdict = .deny) = some r := by
    rw [hjoin, Verdict.join_eq_deny_iff, ← Option.isSome_iff_exists, List.find?_isSome]
    simp [eq_comm]
  refine ⟨hjoin, ?_, fun hv => ⟨?_, hallow hv⟩, hlist, fun hv => ?_, fun hv => ?_, fun hv => ?_,
    fun hv => ?_⟩
  · intro srv₂ call₂ s₂ s₂' v₂ hperm hverify₂
    have hpure₂ : ∀ rule ∈ srv₂.rules, ∀ world, rule.evaluate world c = .ok (outcome rule) :=
      fun rule hrule => hpure rule (hperm.mem_iff.mp hrule)
    rw [verdict_eq_join hpure₂ hverify₂, hjoin]
    exact Verdict.join_perm (hperm.map _)
  · -- without a denial every outcome is evaluated
    have hne : ∀ r ∈ srv.rules.map outcome, r.verdict ≠ .deny := by
      intro r hr
      obtain ⟨rule, hrule, rfl⟩ := List.mem_map.mp hr
      rw [hallow hv rule hrule]
      decide
    rw [hlist, RuleResult.evaluated_eq_self hne, List.length_mapIdx, List.length_map]
  · obtain ⟨hkept, -⟩ | ⟨r, -, hrv, hfinal, -⟩ := h.blockReason
    · rw [hreason, hkept]
      rfl
    · exact absurd (hfinal.trans (hverdict.symm.trans hv)) hrv
  · obtain ⟨-, hall⟩ | ⟨r, hr, -, hfinal, hr'⟩ := h.blockReason
    · refine absurd ?_ hv
      rw [hjoin, Verdict.join_eq_allow_iff]
      exact List.forall_mem_map.mpr (List.forall_mem_map.mp hall)
    · obtain ⟨rule, hrule, rfl⟩ := List.mem_map.mp (List.mem_of_mem_take hr)
      exact ⟨rule, hrule, hfinal.trans hverdict.symm, hreason.trans hr'.symm⟩
  · have hnone : (srv.rules.map outcome).find? (fun r => r.verdict = .deny) = none := by
      rw [Option.eq_none_iff_forall_ne_some]
      exact fun r hr => hv (hdeny.mpr ⟨r, hr⟩)
    rw [hcode, h.errorCode, hnone]
    rfl
  · obtain ⟨r, hr⟩ := hdeny.mp hv
    refine ⟨r, hr, ?_⟩
    rw [hcode, h.errorCode, hr]
    rfl

/-- Rules that escalate, allow and deny every command; the last one comes after the denial. -/
def mixedRules : List Rule :=
  [fixedRule (text "ask_first") (text "EscalateAll") .escalate (text "ask a human"),
    fixedRule (text "allow_all") (text "AllowAll") .allow [],
    denyAll,
    fixedRule (text "ask_again") (text "EscalateAll") .escalate (text "ask again")]

/-- A server with these rules. -/
def mixedServer : VerifierServer L1Receipt.referenceX :=
  sampleServer .reference mixedRules
    (text "5c784f600deb3e95cdc15e423606027d76b74ba22d5a4cf429a6c952dc8e2b31")
    ((SignatureRecord.reference.computeHash_externals .reference _).trans (by decide +kernel))
    none length_noKey

/-- The variables of the rule loop after the denial. -/
def mixedLoop : RuleLoop where
  results :=
    [fixedResult (text "ask_first") .escalate (text "ask a human"),
      fixedResult (text "allow_all") .allow [],
      fixedResult (text "deny_all") .deny (text "denied")]
  finalVerdict := .deny
  blockReason := .str (text "denied")
  errorCode := .int (-32000)

/-- The names in the results can be encoded. -/
theorem encodable_ruleNames_mixedLoop :
    ∀ r ∈ mixedLoop.results, r.ruleName.EncodableStrings := by
  have hnames : (text "ask_first").Encodable ∧ (text "allow_all").Encodable ∧
      (text "deny_all").Encodable := by decide
  simp only [mixedLoop, List.forall_mem_cons, List.not_mem_nil, false_implies, implies_true,
    and_true]
  exact hnames

/-- The outcome of a rule for a command for the shell. -/
def mixedOutcome (rule : Rule) : RuleResult :=
  ((rule.evaluate 0 (commandFor (text "shell") (text "t1"))).toOption).getD
    (fixedResult [] .deny [])

/-- The server denies the command after three of the four rules. -/
theorem verify_aggregates_sample : ∃ v s',
    mixedServer.verify readingsInTime (commandFor (text "shell") (text "t1")) .init =
      (.ok v, s') ∧ v.verdict = Verdict.join [.escalate, .allow, .deny, .escalate] ∧
    v.ruleResults.map RuleResult.verdict = [.escalate, .allow, .deny] := by
  have hloop : evaluateRules readingsInTime (commandFor (text "shell") (text "t1"))
      mixedServer.rules .init = .ok mixedLoop := rfl
  obtain ⟨v, hv⟩ : ∃ v, (mixedServer.verify readingsInTime
      (commandFor (text "shell") (text "t1")) .init).1 = .ok v :=
    (verify_isOk_iff (SignatureRecord.jcsAccepts _) (fromWire_commandFor _ _) hloop).mpr
      (recordable_sampleServer canonical_ofMembers_nil (by decide) (by decide)
        encodable_ruleNames_mixedLoop (by decide : (text "denied").Encodable) (by decide))
  -- the rules say the same in every world
  have hpure : ∀ rule ∈ mixedServer.rules, ∀ world,
      rule.evaluate world (commandFor (text "shell") (text "t1")) = .ok (mixedOutcome rule) := by
    intro rule hrule world
    simp only [mixedServer, sampleServer, mixedRules, List.mem_cons, List.not_mem_nil,
      or_false] at hrule
    obtain rfl | rfl | rfl | rfl := hrule <;> rfl
  obtain ⟨hverdict, -, -, hresults, -⟩ := verify_aggregates hpure (Prod.ext hv rfl)
  refine ⟨v, _, Prod.ext hv rfl, hverdict, ?_⟩
  rw [hresults]
  rfl

end VerifierServer
