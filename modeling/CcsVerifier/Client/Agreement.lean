import CcsVerifier.Client.Crossing
import CcsVerifier.Client.Retry
import CcsVerifier.Server.Connection

/-!
# In-process and out-of-process verification

A command that is verified over a connection, and the same command verified by a direct call of the
server in the same state.

* `Exchange`: the client sends its request, the server answers it, and the client reads the answer.
* `Exchange.cases`: the client reads what the server has returned for the command that arrived.
* `VerifierClient.agrees_direct`: the result agrees with the one of a direct call, when the tool and
  the trace identifier have their members in order.
* `VerifierClient.unordered_tool_disagrees`: a tool whose members are not.
-/

open MessageFrame

variable {X : Externals}

/-! ## The two ends of a connection -/

/-- A verification over a connection on which everything before has been answered. -/
structure Exchange (srv : VerifierServer X) (cl : VerifierClient) (c : Command) (r : MessageReadings)
    (s : ServerState) (conn : Connection) (a : Attempt) (cs : ClientState) : Prop where
  /-- The server has the connection open. -/
  isOpen : conn.closed = false
  /-- The request is all that the server has not read yet. -/
  request : encode c.request = .ok conn.unread
  /-- The client has sent it. -/
  drain : a.drain = none
  /-- The client finds the bytes that the server writes, and no others. -/
  answer : ∃ buffer cs', cl.ensureConnected a cs = (.ok buffer, cs') ∧
    (srv.serveConnection r conn s).1.2.written = conn.written ++ (buffer ++ a.arriving)

namespace VerifierServer

variable (srv : VerifierServer X) (r : MessageReadings) (s : ServerState) (c : Command)

/-- The server answers a request with the result for the command that arrived. -/
theorem respond_request : (srv.respond r c.request.sorted s).1.1 =
    (srv.verify r.call c.arrived s).1 >>= VerificationResult.response := by
  unfold respond
  rw [c.get_type_request]
  dsimp only
  rw [if_pos (PyVal.eqStr_iff.mpr rfl), c.ofMessage_request]

/-- The server verifies the command of a request, for any fields. -/
theorem respond_reload : (srv.respond r (c.request.reload .compact) s).1 =
    ((srv.verify r.call c.reloaded s).1 >>= VerificationResult.response,
      some ⟨r.call, c.reloaded, (srv.verify r.call c.reloaded s).1⟩) := by
  unfold respond
  rw [c.get_type_reload]
  dsimp only
  rw [if_pos (PyVal.eqStr_iff.mpr rfl), c.ofMessage_reload]

/-- What the server writes for a request. -/
theorem written_serveConnection {conn : Connection} {c : Command} (hc : c.Reloadable)
    (hopen : conn.closed = false) (hrequest : encode c.request = .ok conn.unread) :
    (srv.serveConnection r conn s).1.2.written = conn.written ++
      (((srv.verify r.call c.arrived s).1 >>= VerificationResult.response >>= encode).toOption).getD
        [] := by
  have hdecode := decodeBytes_encode hrequest []
  rw [List.append_nil, hc.request.reload_compact] at hdecode
  have hwait : awaits conn.unread = false := awaits_of_ok hdecode
  unfold serveConnection
  rw [hopen, hwait, hdecode, Bool.false_and, Bool.or_false, if_neg Bool.false_ne_true]
  dsimp only [handleMessage]
  -- the request has come back sorted, and its answer is the result of the command
  have hframe : ((srv.respond r c.request.sorted s).1.1 >>= encode) =
      ((srv.verify r.call c.arrived s).1 >>= VerificationResult.response >>= encode) := by
    rw [respond_request]
  rw [hframe]
  split
  · next frame h => rw [h]; rfl
  · next e h =>
    rw [h]
    exact (List.append_nil _).symm

end VerifierServer

namespace Attempt

/-- The client reads the message whose frame it finds. -/
theorem receive_of_encode {a : Attempt} {buffer frame : Bytes} {msg : PyVal}
    (h : encode msg = .ok frame) (hframe : buffer ++ a.arriving = frame) :
    a.receive buffer = (.ok (msg.reload .compact), []) := by
  have hdecode := decodeBytes_encode h []
  rw [List.append_nil] at hdecode
  rw [receive, hframe, awaits_of_ok hdecode]
  exact hdecode

/-- Without an answer there is nothing to read. -/
theorem receive_of_nil {a : Attempt} {buffer : Bytes} (h : buffer ++ a.arriving = []) :
    ∃ e, (a.receive buffer).1 = .error e := by
  rw [receive, h]
  cases a.ending with
  | none => exact ⟨_, rfl⟩
  | some failure => exact ⟨failure.exc, rfl⟩

end Attempt

/-! ## What the client returns -/

namespace Exchange

variable {srv : VerifierServer X} {cl : VerifierClient} {c : Command} {r : MessageReadings}
  {s : ServerState} {conn : Connection} {a : Attempt} {cs : ClientState}

/-- The client returns what it reads off the answer of the server. -/
theorem attempt_eq (h : Exchange srv cl c r s conn a cs) (hc : c.Reloadable) :
    ∃ buffer, buffer ++ a.arriving = (((srv.verify r.call c.arrived s).1 >>=
        VerificationResult.response >>= encode).toOption).getD [] ∧
      (cl.attempt X c a cs).1 = (a.receive buffer).1 >>= VerificationResult.ofResponse X a.time := by
  obtain ⟨buffer, cs', hconnected, hwritten⟩ := h.answer
  rw [srv.written_serveConnection r s hc h.isOpen h.request, List.append_cancel_left_eq] at hwritten
  refine ⟨buffer, hwritten.symm, ?_⟩
  simp only [VerifierClient.attempt, hconnected, h.request, h.drain]

/-- The client returns a result that agrees with the one for the command that arrived, and fails
when there is none or its answer is too large. -/
theorem cases (h : Exchange srv cl c r s conn a cs) (hjcs : X.JcsAccepts) (hc : c.Reloadable)
    (hrules : ∀ rule ∈ srv.rules, rule.Reloads) :
    (∃ v v' response frame, (srv.verify r.call c.arrived s).1 = .ok v ∧ v.response = .ok response ∧
      encode response = .ok frame ∧ (cl.attempt X c a cs).1 = .ok v' ∧ v'.Agrees v) ∨
    ((∃ e, (cl.attempt X c a cs).1 = .error e) ∧ ∀ v response frame,
      (srv.verify r.call c.arrived s).1 = .ok v → v.response = .ok response →
        encode response ≠ .ok frame) := by
  obtain ⟨buffer, hbuffer, hattempt⟩ := h.attempt_eq hc
  have hfails : buffer ++ a.arriving = [] → ∃ e, (cl.attempt X c a cs).1 = .error e := by
    intro hnil
    obtain ⟨e, he⟩ := a.receive_of_nil hnil
    exact ⟨e, by rw [hattempt, he]; rfl⟩
  -- where the server gives up it writes no frame, and the attempt gets an error
  cases hverify : (srv.verify r.call c.arrived s).1 with
  | error e =>
    rw [hverify] at hbuffer
    exact .inr ⟨hfails hbuffer, fun v response frame hv => by cases hv⟩
  | ok v =>
    have hcrosses := VerifierServer.crosses_of_verify hjcs hc.arrived.isJson
      hc.tool.stable_sorted hc.traceId.stable_sorted hrules hverify
    obtain ⟨response, v', hresponse, hreload, hread, hagrees⟩ :=
      VerificationResult.exists_ofResponse (X := X) hcrosses a.time
    rw [hverify, show (Except.ok v >>= VerificationResult.response) = .ok response from hresponse]
      at hbuffer
    cases hencode : encode response with
    | error e =>
      rw [show (Except.ok response >>= encode) = .error e from hencode] at hbuffer
      refine .inr ⟨hfails hbuffer, fun w response' frame hw hresponse' => ?_⟩
      cases hw
      rw [hresponse] at hresponse'
      cases hresponse'
      rw [hencode]
      exact fun hok => by cases hok
    | ok frame =>
      rw [show (Except.ok response >>= encode) = .ok frame from hencode] at hbuffer
      refine .inl ⟨v, v', response, frame, rfl, hresponse, hencode, ?_, hagrees⟩
      -- the frame is read back, and its values are those that were dumped
      rw [hattempt, a.receive_of_encode hencode hbuffer, hreload.reload_compact]
      exact hread

end Exchange

/-! ## The same data, in process -/

/-- Messages with the same data have the same frame. -/
theorem MessageFrame.encode_congr {v w : PyVal} (hv : v.IsJson) (hw : w.IsJson)
    (h : v.SameData w) : encode v = encode w := by
  have hdumps : dumps .compact v = dumps .compact w :=
    h.congr (fun _ hx => PyVal.dumps_sorted hx) hv hw
  rw [encode, encode, hdumps]

namespace VerificationResult

variable {v v' w : VerificationResult}

/-- The relation is symmetric. -/
theorem SameData.symm (h : v.SameData v') : v'.SameData v := by
  refine ⟨?_, ?_⟩
  · rw [h.eq]
  · have hl1 := h.l1Receipt
    generalize v.l1Receipt = d at hl1 ⊢
    generalize v'.l1Receipt = d' at hl1 ⊢
    cases hl1 with
    | none => exact .none
    | some hd => exact .some hd.symm

/-- A result that agrees with another agrees with those of the same data. -/
theorem Agrees.congr (h : v.Agrees w) (hw : v'.SameData w) : v.Agrees v' := by
  have hl1 : Option.Rel PyVal.SameData v.l1Receipt v'.l1Receipt := by
    have hleft := h.l1Receipt
    have hright := hw.l1Receipt
    -- the receipts are compared one constructor at a time
    generalize v.l1Receipt = d at hleft ⊢
    generalize v'.l1Receipt = d' at hright ⊢
    generalize w.l1Receipt = e at hleft hright
    cases hleft with
    | none =>
      cases hright
      exact .none
    | some hsame =>
      cases hright with
      | some hsame' => exact .some (hsame.trans hsame'.symm)
  have heq := hw.eq
  rw [heq] at h
  exact ⟨h.traceId, h.verdict, h.blockReason, h.ruleResults, h.receipt, h.verifiedAt, h.tool,
    h.paramsHash, h.errorCode, hl1⟩

/-- Results with the same data have the same answer, up to the order of members. -/
theorem SameData.response (X : Externals) (h : v.SameData v') (hv : v.Crosses) (hv' : v'.Crosses) :
    ∃ response response', v.response = .ok response ∧ v'.response = .ok response' ∧
      encode response = encode response' := by
  obtain ⟨ruleResults, -, hresults, hreloads, -⟩ :=
    RuleResult.exists_ofResponses (X := X) hv.ruleResults
  have heq := h.eq
  have hresults' : v'.ruleResults.mapM RuleResult.response = .ok ruleResults := by
    rw [heq]
    exact hresults
  have hsame : (PyVal.ofMembers (v.responseMembers ruleResults)).SameData
      (PyVal.ofMembers (v'.responseMembers ruleResults)) := by
    rw [PyVal.sameData_ofMembers_iff (v.nodup_responseMembers ruleResults)]
    refine List.Perm.of_eq ?_
    -- only the L1 receipts may differ, in the order of their members
    have hl1 := h.l1Receipt
    rw [heq]
    unfold responseMembers
    rw [List.map_append, List.map_append]
    refine congrArg _ ?_
    generalize v.l1Receipt = d at hl1 ⊢
    generalize v'.l1Receipt = d' at hl1 ⊢
    cases hl1 with
    | none => rfl
    | some hd => exact congrArg (fun x => [(text "l1_receipt", x)]) hd
  exact ⟨_, _, response_eq (fun d hd => (hv.l1Receipt d hd).2) hresults,
    response_eq (fun d hd => (hv'.l1Receipt d hd).2) hresults',
    encode_congr (hv.reloadable_response hreloads).isJson
      (hv'.reloadable_response hreloads).isJson hsame⟩

end VerificationResult

namespace VerifierClient

variable {srv : VerifierServer X} {cl : VerifierClient} {c : Command} {r : MessageReadings}
  {s : ServerState} {conn : Connection} {met : ℕ → Attempt} {cs : ClientState}

/-- A call whose first attempt returns makes no other. -/
theorem verify_of_attempt (hretries : 0 ≤ cl.maxRetries) {v : VerificationResult}
    (h : (cl.attempt X c (met 0) cs).1 = .ok v) :
    (cl.verify X c met cs).outcome = .ok v ∧ (cl.verify X c met cs).attempts = 1 := by
  obtain ⟨n, hn⟩ : ∃ n, (cl.maxRetries + 1).toNat = n + 1 := ⟨cl.maxRetries.toNat, by omega⟩
  obtain ⟨s', hattempt⟩ : ∃ s', cl.attempt X c (met 0) cs = (.ok v, s') := ⟨_, Prod.ext h rfl⟩
  rw [verify, hn, attempts, hattempt]
  exact ⟨rfl, rfl⟩

/-- A call that returns after one attempt returns what that attempt has returned. -/
theorem attempt_of_verify {v : VerificationResult} (h : (cl.verify X c met cs).outcome = .ok v)
    (hone : (cl.verify X c met cs).attempts = 1) : (cl.attempt X c (met 0) cs).1 = .ok v := by
  rw [verify] at h hone
  cases hn : (cl.maxRetries + 1).toNat with
  | zero =>
    rw [hn] at h
    cases h
  | succ n =>
    rw [hn, attempts] at h hone
    obtain ⟨outcome, s', hattempt⟩ : ∃ outcome s', cl.attempt X c (met 0) cs = (outcome, s') :=
      ⟨_, _, rfl⟩
    rw [hattempt] at h hone ⊢
    cases outcome with
    | ok w => exact h
    | error e =>
      dsimp only at h hone
      cases hcaught : cl.caught e with
      | none =>
        rw [hcaught] at h
        cases h
      | some lastError =>
        rw [hcaught] at h hone
        -- no attempt is left, so there is no result
        dsimp only at h hone
        cases n with
        | zero => cases h
        | succ n =>
          exfalso
          rw [attempts] at hone
          split at hone
          · cases hone
          · split at hone <;> simp only [Nat.add_eq_right, Nat.succ_ne_zero] at hone

/-- Over the connection and by a direct call, a command is verified with the same result: tool and
trace identifier have their members in order, and rules are functions of the JSON data of a command
with strings that come back. The call returns whenever the direct one does and the answer is not too
large. -/
theorem agrees_direct (hjcs : X.JcsAccepts) (horder : X.JcsIgnoresOrder) (hc : c.Reloadable)
    (htool : c.tool.sorted = c.tool) (htrace : c.traceId.sorted = c.traceId)
    (hrules : ∀ rule ∈ srv.rules, rule.IgnoresOrder ∧ rule.Reloads) (hretries : 0 ≤ cl.maxRetries)
    (h : Exchange srv cl c r s conn (met 0) cs) :
    (∀ v, (srv.verify r.call c s).1 = .ok v →
      (∀ response, v.response = .ok response → ∃ frame, encode response = .ok frame) →
      ∃ v', (cl.verify X c met cs).outcome = .ok v' ∧ (cl.verify X c met cs).attempts = 1 ∧
        v'.Agrees v) ∧
    (∀ v', (cl.verify X c met cs).outcome = .ok v' → (cl.verify X c met cs).attempts = 1 →
      ∃ v, (srv.verify r.call c s).1 = .ok v ∧ v'.Agrees v) := by
  have hsame := c.sameData_arrived hc htool htrace
  have hignores : ∀ rule ∈ srv.rules, rule.IgnoresOrder := fun rule hmem => (hrules rule hmem).1
  have hreloads : ∀ rule ∈ srv.rules, rule.Reloads := fun rule hmem => (hrules rule hmem).2
  have hcases := h.cases hjcs hc hreloads
  constructor
  · intro v hv hfits
    -- the command that arrives may list its members in another order
    obtain ⟨w, hw, hvw⟩ := VerifierServer.verify_congr hjcs horder hsame hignores hv
    have hcrosses := VerifierServer.crosses_of_verify hjcs hc.isJson ⟨hc.tool, htool⟩
      ⟨hc.traceId, htrace⟩ hreloads hv
    have hcrosses' := VerifierServer.crosses_of_verify hjcs hc.arrived.isJson
      hc.tool.stable_sorted hc.traceId.stable_sorted hreloads hw
    -- both answers have the same text, so the one fits into a frame if the other does
    obtain ⟨response, response', hresponse, hresponse', hencode⟩ :=
      hvw.response X hcrosses hcrosses'
    obtain ⟨frame, hframe⟩ := hfits response hresponse
    rcases hcases with ⟨w', v', _, _, hw', -, -, hattempt, hagrees⟩ | ⟨-, hnone⟩
    · rw [hw] at hw'
      cases hw'
      obtain ⟨houtcome, hone⟩ : (cl.verify X c met cs).outcome = .ok v' ∧
          (cl.verify X c met cs).attempts = 1 := verify_of_attempt hretries hattempt
      exact ⟨v', houtcome, hone, hagrees.congr hvw⟩
    · exact absurd (hencode ▸ hframe) (hnone w response' frame hw hresponse')
  · intro v' hv' hone
    have hattempt := attempt_of_verify hv' hone
    rcases hcases with ⟨w, w', _, _, hw, -, -, hattempt', hagrees⟩ | ⟨⟨e, he⟩, -⟩
    · rw [hattempt] at hattempt'
      cases hattempt'
      obtain ⟨v, hv, hwv⟩ := VerifierServer.verify_congr hjcs horder hsame.symm hignores hw
      exact ⟨v, hv, hagrees.congr hwv.symm⟩
    · rw [hattempt] at he
      cases he

/-! ## Samples -/

/-- A rule that always denies is a function of nothing. -/
theorem ignoresOrder_reloads_denyAll : ∀ rule ∈ [VerifierServer.denyAll],
    rule.IgnoresOrder ∧ rule.Reloads := by
  refine List.forall_mem_singleton.mpr ⟨fun world c c' _ => rfl, fun world c r hr => ?_⟩
  cases hr
  exact ⟨.str (by decide), .str (by decide)⟩

/-- The readings of a message that is handled at time zero. -/
def readingsOfMessage : MessageReadings :=
  ⟨VerifierServer.readingsAtZero, ⟨0, Representable.zero⟩, ⟨0, Representable.zero⟩⟩

/-- The readings of a message that is handled at the reference time. -/
def readingsOfMessageInTime : MessageReadings :=
  ⟨VerifierServer.readingsInTime, ⟨0, Representable.zero⟩, ⟨0, Representable.zero⟩⟩

/-- A connection on which a request has arrived. -/
def requested (frame : Bytes) : Connection := { Connection.init with unread := frame }

/-- A client that connects to a new server and finds its answer. -/
def answeredBy (srv : VerifierServer X) (r : MessageReadings) (frame : Bytes) : Attempt :=
  meets (srv.serveConnection r (requested frame) .init).1.2.written

/-- A client that connects to the denying server and finds its answer. -/
def answered (frame : Bytes) : Attempt :=
  answeredBy VerifierServer.denyingServerL0 readingsOfMessage frame

/-- The exchange of such a request. -/
theorem exchange_requested (srv : VerifierServer X) (r : MessageReadings) {c : Command}
    {frame : Bytes} (h : encode c.request = .ok frame) :
    Exchange srv default c r .init (requested frame) (answeredBy srv r frame) .init :=
  ⟨rfl, h, rfl, [], _, rfl, rfl⟩

/-- What an answer that can be encoded was made of. -/
theorem exists_of_isSome {outcome : Except PyExc VerificationResult}
    (h : (outcome >>= VerificationResult.response >>= encode).toOption.isSome = true) :
    ∃ v response frame, outcome = .ok v ∧ v.response = .ok response ∧
      encode response = .ok frame := by
  cases hframe : outcome >>= VerificationResult.response >>= encode with
  | error e =>
    rw [hframe] at h
    cases h
  | ok frame =>
    simp only [Except.bind_eq_ok_iff] at hframe
    obtain ⟨response, ⟨v, hv, hresponse⟩, hencode⟩ := hframe
    exact ⟨v, response, frame, hv, hresponse, hencode⟩

/-- The request of a command with parameters comes back as it is. -/
theorem reloadable_sampleRequest : VerifierServer.sampleRequest.Reloadable where
  agentId := .str (by decide)
  tool := .str (by decide)
  params := .obj (by decide) (by decide)
    (List.forall_mem_cons.mpr ⟨.str (by decide), List.forall_mem_singleton.mpr (.int 10)⟩)
  timestamp := .int 0
  traceId := .str (by decide)

/-- A command with parameters is verified with the same result over a connection, by a server with
an L1 key. -/
theorem agrees_direct_sample : ∃ frame v v' r,
    encode VerifierServer.sampleRequest.request = .ok frame ∧
    (VerifierServer.denyingServerKeyed.verify VerifierServer.readingsInTime
      VerifierServer.sampleRequest .init).1 = .ok v ∧
    v.l1Receipt = some (L1Receipt.toDict r) ∧
    (default.verify L1Receipt.referenceX VerifierServer.sampleRequest (fun _ =>
      answeredBy VerifierServer.denyingServerKeyed readingsOfMessageInTime frame) .init).outcome =
      .ok v' ∧ v'.Agrees v := by
  have hrequest : (encode VerifierServer.sampleRequest.request).toOption.isSome = true := by
    decide +kernel
  -- the direct call returns a result that fits in a frame
  have hfits : ((VerifierServer.denyingServerKeyed.verify VerifierServer.readingsInTime
      VerifierServer.sampleRequest .init).1 >>= VerificationResult.response >>=
        encode).toOption.isSome = true := by decide +kernel
  obtain ⟨v, response, answer, hv, hresponse, hanswer⟩ := exists_of_isSome hfits
  have hkey : VerifierServer.denyingServerKeyed.l1SigningKey = some SignatureRecord.reference.seed :=
    rfl
  obtain ⟨r, hr⟩ := VerifierServer.exists_l1Receipt hkey (Prod.ext hv rfl)
  cases hframe : encode VerifierServer.sampleRequest.request with
  | error e =>
    rw [hframe] at hrequest
    cases hrequest
  | ok frame =>
  obtain ⟨v', hv', -, hsame⟩ := (@agrees_direct _ _ _ _ _ _ _
    (fun _ => answeredBy VerifierServer.denyingServerKeyed readingsOfMessageInTime frame) _
    (SignatureRecord.jcsAccepts _) (SignatureRecord.jcsIgnoresOrder _) reloadable_sampleRequest rfl
    rfl ignoresOrder_reloads_denyAll (by decide)
    (exchange_requested VerifierServer.denyingServerKeyed readingsOfMessageInTime hframe)).1 v hv
      fun response' hresponse' => by
        rw [hresponse] at hresponse'
        cases hresponse'
        exact ⟨answer, hanswer⟩
  exact ⟨frame, v, v', r, rfl, hv, hr, hv', hsame⟩

/-- A command whose tool is an object with its members out of order. -/
def unorderedCommand : Command :=
  { sampleCommand with tool := .ofMembers [(text "b", .int 1), (text "a", .int 2)] }

/-- The L0 receipt of such a verification. -/
theorem receipt_of_verify {c : Command} {v : VerificationResult}
    (h : (VerifierServer.denyingServerL0.verify VerifierServer.readingsAtZero c .init).1 = .ok v) :
    ∃ hash receipt, VerifierServer.denyingServerL0.l0Receipt VerifierServer.readingsAtZero c
      VerifierServer.deniedLoop = .ok (hash, receipt) ∧ v.receipt = .str receipt := by
  obtain ⟨loop, hash, receipt, _, hloop, hl0, -, rfl, -⟩ :=
    VerifierServer.verify_eq_ok_iff.mp (Prod.ext h rfl)
  have hdenied : evaluateRules VerifierServer.readingsAtZero c VerifierServer.denyingServerL0.rules
      .init = .ok VerifierServer.deniedLoop := VerifierServer.evaluateRules_denyAll _ c
  rw [hdenied] at hloop
  cases hloop
  exact ⟨hash, receipt, hl0, rfl⟩

/-- The L0 receipt covers the text of the tool, so that over the connection the command gets another
receipt than from a direct call. -/
theorem unordered_tool_disagrees : unorderedCommand.Reloadable ∧ ∃ frame v v',
    Exchange VerifierServer.denyingServerL0 default unorderedCommand readingsOfMessage .init
      (requested frame) (answered frame) .init ∧
    (VerifierServer.denyingServerL0.verify VerifierServer.readingsAtZero unorderedCommand .init).1 =
      .ok v ∧
    (default.verify L1Receipt.referenceX unorderedCommand (fun _ => answered frame) .init).outcome =
      .ok v' ∧ v'.receipt ≠ v.receipt := by
  have hc : unorderedCommand.Reloadable := ⟨.str (by decide),
    .obj (by decide) (by decide) (List.forall_mem_cons.mpr ⟨.int 1, List.forall_mem_singleton.mpr
      (.int 2)⟩), .obj List.nodup_nil (fun m hm => absurd hm List.not_mem_nil)
      (fun m hm => absurd hm List.not_mem_nil), .int 0, .str (by decide)⟩
  have hrequest : (encode unorderedCommand.request).toOption.isSome = true := by decide +kernel
  have hdirect : ((VerifierServer.denyingServerL0.verify VerifierServer.readingsAtZero
      unorderedCommand .init).1.toOption).isSome = true := by decide +kernel
  have hfits : ((VerifierServer.denyingServerL0.verify VerifierServer.readingsAtZero
      unorderedCommand.arrived .init).1 >>= VerificationResult.response >>= encode).toOption.isSome =
        true := by decide +kernel
  -- the preimage of the tag holds the dump of the tool, which keeps the order
  have hne : (VerifierServer.denyingServerL0.l0Receipt VerifierServer.readingsAtZero
      unorderedCommand.arrived VerifierServer.deniedLoop).toOption.map Prod.snd ≠
        (VerifierServer.denyingServerL0.l0Receipt VerifierServer.readingsAtZero unorderedCommand
          VerifierServer.deniedLoop).toOption.map Prod.snd := by decide +kernel
  refine ⟨hc, ?_⟩
  cases hframe : encode unorderedCommand.request with
  | error e =>
    rw [hframe] at hrequest
    cases hrequest
  | ok frame =>
  cases hv : (VerifierServer.denyingServerL0.verify VerifierServer.readingsAtZero unorderedCommand
      .init).1 with
  | error e =>
    rw [hv] at hdirect
    cases hdirect
  | ok v =>
  have hexchange := exchange_requested VerifierServer.denyingServerL0 readingsOfMessage hframe
  rcases hexchange.cases (SignatureRecord.jcsAccepts _) hc
    (fun rule hmem => (ignoresOrder_reloads_denyAll rule hmem).2) with
    ⟨w, v', response, answer, hw, -, -, hattempt, hagrees⟩ | ⟨-, hnone⟩
  · refine ⟨frame, v, v', hexchange, rfl,
      (@verify_of_attempt _ _ _ (fun _ => answered frame) _ (by decide) _ hattempt).1,
      fun heq => ?_⟩
    obtain ⟨hash, receipt, hl0, hreceipt⟩ := receipt_of_verify hv
    obtain ⟨hash', receipt', hl0', hreceipt'⟩ := receipt_of_verify hw
    rw [hl0, hl0'] at hne
    rw [hagrees.receipt, hreceipt, hreceipt'] at heq
    exact hne (congrArg some (PyVal.str.inj heq))
  · -- the answer is not too large
    obtain ⟨w, response, answer, hw, hresponse, hanswer⟩ := exists_of_isSome hfits
    exact absurd hanswer (hnone w response answer hw hresponse)

end VerifierClient
