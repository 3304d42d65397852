import CcsVerifier.Client.Attempts
import CcsVerifier.Client.PublicKey

/-!
# What a client allows

The client acts on the verdict of the result that `verify` returns. Over a connection on which no
header was lost, a result that allows comes from a verification in which every rule of the server
has allowed a command that this client has sent.

* `VerifierServer.forall_allow_of_evaluateRules`: nothing is allowed that a rule does not allow.
* `VerifierServer.verdict_of_respond`: only the answer to a verification holds a verdict.
* `VerifierClient.allowed_by_every_rule`: the two together, in every session.
-/

open MessageFrame

/-! ## The verdict of the server -/

namespace VerifierServer

variable {X : Externals} {srv : VerifierServer X}

/-- The rule loop ends with an allowance only if every rule has allowed. -/
theorem forall_allow_of_evaluateRules {call : CallReadings} {c : Command} {rules : List Rule}
    {loop result : RuleLoop} (hok : evaluateRules call c rules loop = .ok result)
    (hallow : result.finalVerdict = .allow) :
    loop.finalVerdict = .allow ∧
      ∀ rule ∈ rules, ∃ r, rule.evaluate call.world c = .ok r ∧ r.verdict = .allow := by
  induction rules generalizing loop with
  | nil =>
    cases hok
    exact ⟨hallow, fun rule hmem => absurd hmem List.not_mem_nil⟩
  | cons rule rules ih =>
    simp only [evaluateRules, Except.bind_eq_ok_iff] at hok
    obtain ⟨evaluated, heval, hok⟩ := hok
    -- a denial ends the loop, and an escalation stays
    split at hok
    · cases hok
      cases hallow
    · split at hok
      · obtain ⟨hescalated, -⟩ := ih hok
        cases hescalated
      · next hdenied =>
        obtain ⟨hallowed, -⟩ := ih hok
        exact absurd (fun hdeny => by cases hallowed.symm.trans hdeny) hdenied
    · next hverdict =>
      obtain ⟨hallowed, hrest⟩ := ih hok
      exact ⟨hallowed, List.forall_mem_cons.mpr ⟨⟨evaluated, heval, hverdict⟩, hrest⟩⟩

/-- The answer to a verification carries the verdict of the result. -/
theorem getItem_verdict_response {w : VerificationResult} {answer : PyVal}
    (h : w.response = .ok answer) :
    (answer.reload .compact).getItem (text "verdict") = .ok (.str w.verdict.value) := by
  obtain ⟨ruleResults, hresults, -⟩ := Except.bind_eq_ok_iff.mp h
  rw [VerificationResult.response_eq_filter hresults] at h
  cases h
  rw [PyVal.getItem_reload (VerificationResult.nodup_responseMembers _ ruleResults)
    (VerificationResult.joinSurrogates_responseMembers _ ruleResults) rfl]
  exact congrArg (fun t => Except.ok (PyVal.str t))
    w.verdict.value_isAscii.encodable.joinSurrogates

/-- Only the answer to a verification holds a verdict. -/
theorem verdict_of_respond {r : MessageReadings} {msg : PyVal} {s : ServerState}
    {answer v : PyVal} (h : (srv.respond r msg s).1.1 = .ok answer)
    (hget : (answer.reload .compact).getItem (text "verdict") = .ok v) :
    ∃ c w, requestedCommand r.time msg = some c ∧ (srv.verify r.call c s).1 = .ok w ∧
      v = .str w.verdict.value := by
  -- of all answers, only the result of a verification has a member `verdict`
  cases srv.answers_of_respond h with
  | result hcommand hverify hresponse =>
    exact ⟨_, _, hcommand, hverify,
      Except.ok.inj (hget.symm.trans (getItem_verdict_response hresponse))⟩
  | health => exact absurd hget (getItem_healthResponse_ne (by decide) _ _ _)
  | rules => exact absurd hget (getItem_listRulesResponse_ne (by decide) _)
  | publicKey =>
    cases hkey : srv.l1PublicKey with
    | none =>
      rw [publicKeyResponse, hkey] at hget
      exact absurd hget (getItem_errorResponse_ne (by decide) _ _)
    | some key =>
      rw [publicKeyResponse, hkey] at hget
      exact absurd hget
        (PyVal.getItem_reload_ne_of_keys publicKeyKeys rfl (by decide) (by decide) _)
  | error message => exact absurd hget (getItem_errorResponse_ne (by decide) _ _)

end VerifierServer

/-! ## The verdict of the client -/

/-- A command is read off its request. -/
theorem Command.request_injective : Function.Injective Command.request := by
  intro c c' h
  have hmembers := PyVal.ofMembers_injective h
  simp only [List.cons.injEq, Prod.mk.injEq, true_and, and_true] at hmembers
  obtain ⟨hagent, htool, hparams, htimestamp, htrace⟩ := hmembers
  cases c
  cases c'
  congr

/-- The verdict of a result is the one of the response. -/
theorem VerificationResult.getItem_verdict_of_ofResponse {X : Externals} {v : VerificationResult}
    {time : FiniteBinary64} {answer : PyVal} (h : ofResponse X time answer = .ok v) :
    answer.getItem (text "verdict") = .ok (.str v.verdict.value) := by
  simp only [ofResponse, Except.bind_eq_ok_iff, pure, Except.pure, Except.ok.injEq] at h
  obtain ⟨_, -, _, -, _, -, _, -, value, hvalue, verdict, hverdict, h⟩ := h
  obtain ⟨_, -, _, -, _, -, _, -, _, -, _, -, _, -, rfl⟩ := h
  rw [hvalue, Verdict.ofValue_eq_ok_iff.mp hverdict]

namespace VerifierClient

open Session

variable {X : Externals} {cl : VerifierClient} {srv : VerifierServer X}

/-- The calls that the messages of a connection have made are calls of the session. -/
theorem mem_calls_of_mem_handledOn {run : List Event} {k : ℕ} {h : VerifierServer.Handled}
    {call : VerifierServer.Call} (hmem : h ∈ handledOn k run) (hcall : h.call = some call) :
    call ∈ calls run := by
  obtain ⟨e, he, hhandled⟩ := List.mem_filterMap.mp hmem
  refine List.mem_filterMap.mpr ⟨e, he, ?_⟩
  rw [handledOn_eq_bind] at hhandled
  obtain ⟨done, hdone, hk⟩ := Option.bind_eq_some_iff.mp hhandled
  rw [hdone, Option.bind_some]
  split_ifs at hk
  cases hk
  exact hcall

/-- A result of a verification is the one of a call of the server for a command that the client has
sent on the same connection. -/
theorem exists_call_of_returned {inputs : List Input} {i : Input} {c : Command}
    {v : VerificationResult}
    (hreturned : ((cl.session srv).step (cl.sessionAfter srv inputs) i).1 =
      .returned (.verify c) (.result v))
    (hkept : ∀ link, (cl.sessionAfter srv inputs).link = some link →
      ∀ d ∈ cl.sessionRun srv inputs, ¬LosesHeader link.number d) :
    ∃ link c' call w s, (cl.sessionAfter srv inputs).link = some link ∧
      c'.request ∈ requests link.number (cl.sessionRun srv inputs) ∧
      call ∈ calls (cl.sessionRun srv inputs) ∧ call.command = c'.reloaded ∧
      (srv.verify call.readings call.command s).1 = .ok w ∧ w.verdict = v.verdict ∧
      ((responses link.number (cl.sessionRun srv inputs)).length + 1 =
        (requests link.number (cl.sessionRun srv inputs)).length → c' = c) := by
  obtain ⟨link, request, h, answer, time, hlink, hlast, hanswered, hread⟩ :=
    exists_answered_of_returned hreturned hkept
  obtain ⟨s, hdone, hrespond⟩ := hanswered.respond
  have hresult : VerificationResult.ofResponse X time (answer.reload .compact) = .ok v := by
    obtain ⟨v', hv', heq⟩ := Except.bind_eq_ok_iff.mp hread
    cases heq
    exact hv'
  -- the answer holds a verdict, so the message asks for a verification
  obtain ⟨command, w, hcommand, hverify, hverdict⟩ := VerifierServer.verdict_of_respond hrespond
    (VerificationResult.getItem_verdict_of_ofResponse hresult)
  have hrequest := List.mem_of_getElem? hanswered.requested
  obtain ⟨q, rfl⟩ := exists_call_of_mem_requests hrequest
  rw [hanswered.message, requestedCommand_request] at hcommand
  cases q with
  | verify c' =>
    obtain rfl := Option.some.inj hcommand
    have hcall : h.call = some ⟨h.readings.call, c'.reloaded,
        (srv.verify h.readings.call c'.reloaded s).1⟩ := by
      have heq : h.call = (srv.respond h.readings h.message s).1.2 :=
        (congrArg VerifierServer.Handled.call hdone).symm
      rw [heq, hanswered.message, ClientCall.request, VerifierServer.respond_reload]
    exact ⟨link, c', _, w, s, hlink, hrequest,
      mem_calls_of_mem_handledOn (List.mem_of_getElem? hanswered.handled) hcall, rfl, hverify,
      Verdict.value_injective (PyVal.str.inj hverdict).symm,
      fun hcount => Command.request_injective (Answered.request_eq hlast hanswered hcount)⟩
  | healthCheck => cases hcommand
  | listRules => cases hcommand
  | getL1PublicKey => cases hcommand

/-- If a result that `verify` returns allows, then every rule of the server has allowed a command
that the client has sent on the connection before: the command of this very call, if the response
to each earlier request was decoded. No other answer, no failure and no order of the steps makes
the client allow anything. -/
theorem allowed_by_every_rule (cl : VerifierClient) (srv : VerifierServer X) {inputs : List Input}
    {past later : List Event} {e : Event} {c : Command} {v : VerificationResult}
    (hrun : cl.sessionRun srv inputs = past ++ e :: later)
    (hreturned : e.output = .returned (.verify c) (.result v)) (hallow : v.verdict = .allow)
    (hkept : ∀ link, e.before.link = some link → ∀ d ∈ past, ¬LosesHeader link.number d) :
    ∃ link c', ∃ call ∈ calls past, e.before.link = some link ∧
      c'.request ∈ requests link.number past ∧ call.command = c'.reloaded ∧
      (∀ rule ∈ srv.rules, ∃ r, rule.evaluate call.readings.world call.command = .ok r ∧
        r.verdict = .allow) ∧
      ((responses link.number past).length + 1 = (requests link.number past).length → c' = c) := by
  obtain ⟨before, i, after, -, rfl, rfl, -⟩ := Machine.exists_of_trace_eq_append _ hrun
  obtain ⟨link, c', call, w, s, hlink, hrequest, hcall, hcommand, hverify, hverdict, hown⟩ :=
    exists_call_of_returned hreturned hkept
  obtain ⟨loop, _, _, _, hloop, -, -, rfl, -⟩ :=
    VerifierServer.verify_eq_ok_iff.mp (Prod.ext hverify rfl)
  exact ⟨link, c', call, hcall, hlink, hrequest, hcommand,
    (VerifierServer.forall_allow_of_evaluateRules hloop (hverdict.trans hallow)).2, hown⟩

/-! ## An allowed command -/

/-- A rule that allows every command. -/
def allowAll : Rule := VerifierServer.fixedRule (text "allow_all") (text "AllowAll") .allow []

/-- A rule of another class that has no objection either. -/
def allowShort : Rule := VerifierServer.fixedRule (text "allow_short") (text "AllowShort") .allow []

/-- A server without an L1 key and with these two rules. -/
def allowingServer : VerifierServer L1Receipt.referenceX :=
  VerifierServer.sampleServer .reference [allowAll, allowShort]
    (text "2b5fdd6d5e81eb1a24232bafa6c2c86a7f7079a67e0872a9dcad724c2901b11a")
    ((SignatureRecord.reference.computeHash_externals .reference _).trans (by decide +kernel))
    none VerifierServer.length_noKey

/-- The verdict that `verify` returns in a step. -/
def verdict? : Output → Option Verdict
  | .returned (.verify _) (.result v) => some v.verdict
  | _ => none

/-- A verdict in the list was returned at some step. -/
theorem exists_of_verdict? (run : List Event) (verdict : Verdict)
    (h : verdict ∈ run.filterMap fun e => verdict? e.output) : ∃ past e later c v,
      run = past ++ e :: later ∧ e.output = .returned (.verify c) (.result v) ∧
        v.verdict = verdict := by
  obtain ⟨e, hmem, he⟩ := List.mem_filterMap.mp h
  obtain ⟨past, later, hrun⟩ := List.append_of_mem hmem
  unfold verdict? at he
  split at he
  · next c v hout => exact ⟨past, e, later, c, v, hrun, hout, Option.some.inj he⟩
  · cases he

/-- The command that the client allows was allowed by both rules. -/
theorem allowed_by_every_rule_sample : ∃ past e later call,
    default.sessionRun allowingServer (undisturbedCall sampleCommand) = past ++ e :: later ∧
    call ∈ calls past ∧ ∀ rule ∈ [allowAll, allowShort], ∃ r,
      rule.evaluate call.readings.world call.command = .ok r ∧ r.verdict = .allow := by
  obtain ⟨past, e, later, c, v, hrun, hreturned, hallow⟩ :=
    exists_of_verdict? (default.sessionRun allowingServer (undisturbedCall sampleCommand)) .allow
      (by decide +kernel)
  obtain ⟨link, c', call, hcall, -, -, -, hrules, -⟩ :=
    allowed_by_every_rule default allowingServer hrun hreturned hallow fun link _ d hd =>
      keeps_headers _ _ (by simp [undisturbedCall]) link.number d
        (hrun ▸ List.mem_append_left _ hd)
  exact ⟨past, e, later, call, hrun, hcall, hrules⟩

end VerifierClient
