import Mathlib
import CcsVerifier.Server.Audit
import CcsVerifier.Server.Connection

/-!
# The ledger of a server

What the audit log and the two counters say after a run: the most recent results, the number of
calls of `verify` that have returned and the number of denials among them.

* `ServerState.Ledger`: the ledger of a list of results.
* `VerifierServer.ledger_iff`: a server keeps the ledger of its run, unless its log is to hold
  nothing and a call has returned.
* `VerifierServer.empty_log_keeps_result`: a server whose log is to hold nothing.
-/

/-- The result of a call that has returned. -/
def VerifierServer.Call.returned (call : VerifierServer.Call) : Option VerificationResult :=
  call.outcome.toOption

namespace Service

variable {κ : Type*}

/-- The results of the calls that have returned, in the order in which they were returned. -/
def returned (run : List (Event κ)) : List VerificationResult :=
  (calls run).filterMap VerifierServer.Call.returned

/-- The call of one more step comes last. -/
theorem calls_concat (run : List (Event κ)) (e : Event κ) :
    calls (run ++ [e]) = calls run ++ e.output.call.toList := by
  rw [calls, List.filterMap_append, ← calls]
  cases h : e.output.call <;> simp [h]

/-- So does its result. -/
theorem returned_concat (run : List (Event κ)) (e : Event κ) :
    returned (run ++ [e]) =
      returned run ++ (e.output.call.bind VerifierServer.Call.returned).toList := by
  rw [returned, calls_concat, List.filterMap_append, ← returned]
  cases h : e.output.call with
  | none => rfl
  | some call => cases hreturned : call.returned <;> simp [hreturned]

end Service

/-! ## Recording a result -/

/-- The counters of a server that has returned some results. -/
structure ServerState.Counts (results : List VerificationResult) (s : ServerState) : Prop where
  /-- Every result is counted as a request. -/
  requestCount : s.requestCount = results.length
  /-- Every denial is counted. -/
  denyCount : s.denyCount = results.countP fun v => v.verdict = .deny

/-- The ledger of a server that has returned some results. -/
structure ServerState.Ledger (maxAuditLog : ℤ) (results : List VerificationResult)
    (s : ServerState) : Prop extends s.Counts results where
  /-- The audit log holds the most recent results. -/
  auditLog : s.auditLog = results.rtake (min results.length maxAuditLog.toNat)

namespace VerifierServer

variable {X : Externals} {srv : VerifierServer X} {results : List VerificationResult}
  {s : ServerState}

/-- Recording a result counts it. -/
theorem counts_record (h : s.Counts results) (v : VerificationResult) :
    (srv.record v s).Counts (results ++ [v]) where
  requestCount := by
    rw [List.length_append, List.length_singleton, ← h.requestCount]
    rfl
  denyCount := by
    have hcount := h.denyCount
    by_cases hdeny : v.verdict = .deny <;> simp [record, hdeny, hcount, List.countP_append]

/-- A log that keeps the last results keeps them when a result is added. -/
theorem auditLog_record (hmax : 1 ≤ srv.maxAuditLog)
    (h : s.auditLog = results.rtake srv.maxAuditLog.toNat) (v : VerificationResult) :
    (srv.record v s).auditLog = (results ++ [v]).rtake srv.maxAuditLog.toNat := by
  obtain ⟨k, hk⟩ : ∃ k : ℕ, srv.maxAuditLog = k + 1 := ⟨(srv.maxAuditLog - 1).toNat, by omega⟩
  have htoNat : srv.maxAuditLog.toNat = k + 1 := by omega
  rw [htoNat] at h ⊢
  rw [List.rtake_concat_succ]
  simp only [record, sliceFrom, h, hk]
  have hlength : (results.rtake (k + 1) ++ [v]).length = min results.length (k + 1) + 1 := by
    simp only [List.rtake, List.length_append, List.length_drop, List.length_singleton]
    omega
  by_cases hfull : results.length ≤ k
  · -- the log has room for the new result
    have hall : results.rtake (k + 1) = results ∧ results.rtake k = results := by
      constructor <;> rw [List.rtake, Nat.sub_eq_zero_of_le (by omega), List.drop_zero]
    rw [if_neg (by rw [hlength]; omega), hall.1, hall.2]
  · -- the oldest entry is dropped
    have hstart : ((results.rtake (k + 1) ++ [v]).length + -((k : ℤ) + 1)).toNat = 1 := by
      rw [hlength]
      omega
    have hone : 1 ≤ (results.rtake (k + 1)).length := by
      rw [List.rtake, List.length_drop]
      omega
    rw [if_pos (by rw [hlength]; omega), if_pos (by omega), hstart,
      List.drop_append_of_le_length hone, List.rtake, List.rtake, List.drop_drop]
    congr 2
    omega

/-- A log that is to hold nothing keeps everything: the slice `[-0:]` is the whole list. -/
theorem auditLog_record_of_zero (hmax : srv.maxAuditLog = 0) (v : VerificationResult) :
    (srv.record v s).auditLog = s.auditLog ++ [v] := by
  simp only [record, sliceFrom, hmax, neg_zero, lt_irrefl, if_false, Int.toNat_zero, List.drop_zero,
    ite_self]

/-! ## Runs -/

section Runs

variable {κ : Type*} [DecidableEq κ]

variable (srv) in
/-- A step records the result that it returns; without a result it leaves the ledger alone. -/
theorem service_records (st : Service κ) (i : Service.Input κ) :
    (∃ v, (((srv.service κ).step st i).1.call.bind Call.returned) = some v ∧
      ((srv.service κ).step st i).2.server = srv.record v (srv.nextSequence st.server)) ∨
    ((((srv.service κ).step st i).1.call.bind Call.returned) = none ∧
      ((srv.service κ).step st i).2.server.auditLog = st.server.auditLog ∧
      ((srv.service κ).step st i).2.server.requestCount = st.server.requestCount ∧
      ((srv.service κ).step st i).2.server.denyCount = st.server.denyCount) := by
  obtain ⟨call, c, hcall, hserver⟩ | ⟨hcall, hserver⟩ := srv.service_call st i
  · rw [hcall, hserver, Option.bind_some, Call.returned]
    -- only a call that returns is recorded; one that raises can have used a number
    cases houtcome : (srv.verify call c st.server).1 with
    | error e => exact .inr ⟨rfl, verify_error (Prod.ext houtcome rfl)⟩
    | ok v =>
      obtain ⟨_, _, _, _, -, -, -, -, hrecord⟩ := verify_eq_ok_iff.mp (Prod.ext houtcome rfl)
      exact .inl ⟨v, rfl, hrecord⟩
  -- the step was no verify call, so it leaves what is recorded alone
  · rw [hcall, hserver]
    exact .inr ⟨rfl, rfl, rfl, rfl⟩

/-- What recording a result preserves, and what leaving the ledger alone preserves, holds of the
results of every run. -/
theorem ledger_induction {P : List VerificationResult → ServerState → Prop} (nil : P [] .init)
    (record : ∀ results s v, P results s → P (results ++ [v]) (srv.record v (srv.nextSequence s)))
    (congr : ∀ results s s', P results s → s'.auditLog = s.auditLog →
      s'.requestCount = s.requestCount → s'.denyCount = s.denyCount → P results s')
    (inputs : List (Service.Input κ)) :
    P (Service.returned (srv.run inputs)) (srv.after inputs).server := by
  refine Machine.run_induction (s := Service.init κ)
    (P := fun run st => P (Service.returned run) st.server) nil ?_ inputs
  intro past st i hpast
  rw [Service.returned_concat, Machine.event]
  obtain ⟨v, hreturned, hserver⟩ | ⟨hreturned, hlog, hrequests, hdenies⟩ := srv.service_records st i
  · rw [hreturned, hserver]
    exact record _ _ v hpast
  · rw [hreturned, Option.toList_none, List.append_nil]
    exact congr _ _ _ hpast hlog hrequests hdenies

variable (srv) in
/-- The counters count the calls that have returned, in every run. -/
theorem counts_after (inputs : List (Service.Input κ)) :
    (srv.after inputs).server.Counts (Service.returned (srv.run inputs)) := by
  refine ledger_induction (P := fun results s => s.Counts results) ⟨rfl, rfl⟩ ?_ ?_ inputs
  · intro results s v h
    obtain ⟨-, hrequests, hdenies⟩ := srv.nextSequence_ledger s
    exact counts_record ⟨hrequests.trans h.requestCount, hdenies.trans h.denyCount⟩ v
  · intro results s s' h _ hrequests hdenies
    exact ⟨hrequests.trans h.requestCount, hdenies.trans h.denyCount⟩

/-- The log holds the last results, in every run. -/
theorem auditLog_after (hmax : 1 ≤ srv.maxAuditLog) (inputs : List (Service.Input κ)) :
    (srv.after inputs).server.auditLog =
      (Service.returned (srv.run inputs)).rtake srv.maxAuditLog.toNat := by
  refine ledger_induction (P := fun results s => s.auditLog = results.rtake srv.maxAuditLog.toNat)
    (List.rtake_nil _).symm ?_ ?_ inputs
  · intro results s v h
    exact auditLog_record hmax ((srv.nextSequence_ledger s).1.trans h) v
  · intro results s s' h hlog _ _
    exact hlog.trans h

/-- A log that is to hold nothing holds all of them. -/
theorem auditLog_after_of_zero (srv : VerifierServer X) (hmax : srv.maxAuditLog = 0)
    (inputs : List (Service.Input κ)) :
    (srv.after inputs).server.auditLog = Service.returned (srv.run inputs) := by
  refine ledger_induction (P := fun results s => s.auditLog = results) rfl ?_ ?_ inputs
  · intro results s v h
    rw [auditLog_record_of_zero hmax, (srv.nextSequence_ledger s).1, h]
  · intro results s s' h hlog _ _
    exact hlog.trans h

/-- A message that does not ask for a verification leaves the server as it was. -/
theorem server_eq_of_requestedCommand {r : MessageReadings} {msg : PyVal} {h : Handled}
    {s s' : ServerState} (hdone : srv.handleMessage r msg s = (h, s'))
    (hnone : requestedCommand r.time msg = none) : s' = s := by
  have hspec := srv.handleMessage_call r msg s
  rw [hdone, hnone] at hspec
  exact hspec.2

/-- After every run, in whatever order the connections are served, the ledger holds the results
that were returned exactly when the log is to hold an entry or no call has returned; requests for
health and for the list of rules change nothing of the server. -/
theorem ledger_iff (srv : VerifierServer X) (hmax : 0 ≤ srv.maxAuditLog)
    (inputs : List (Service.Input κ)) :
    ((srv.after inputs).server.Ledger srv.maxAuditLog (Service.returned (srv.run inputs)) ↔
      1 ≤ srv.maxAuditLog ∨ Service.returned (srv.run inputs) = []) ∧
    ∀ e ∈ srv.run inputs, ∀ k h, e.output.handledOn k = some h →
      (h.message.get (text "type") (.str []) = .ok (.str (text "health")) ∨
        h.message.get (text "type") (.str []) = .ok (.str (text "list_rules"))) →
      e.after.server = e.before.server := by
  refine ⟨⟨fun h => ?_, fun h => ⟨srv.counts_after inputs, ?_⟩⟩, ?_⟩
  · by_cases hpos : 1 ≤ srv.maxAuditLog
    · exact .inl hpos
    · -- the log has kept everything, and it should have kept nothing
      have hzero : srv.maxAuditLog = 0 := by omega
      have hlog := h.auditLog
      rw [auditLog_after_of_zero srv hzero, hzero, Int.toNat_zero, Nat.min_zero,
        List.rtake_zero] at hlog
      exact .inr hlog
  · obtain hpos | hnone := h
    · rw [auditLog_after hpos, List.rtake, List.rtake]
      congr 1
      omega
    · by_cases hpos : 1 ≤ srv.maxAuditLog
      · rw [auditLog_after hpos, hnone, List.rtake_nil, List.rtake_nil]
      · rw [auditLog_after_of_zero srv (by omega), hnone, List.rtake_nil]
  · refine Machine.forall_mem_trace (fun st i k h hdone htype => ?_) inputs
    -- neither request holds a command
    have hstep := srv.stepOn_step st k i
    rw [show ((srv.service κ).step st i).1.handledOn k = some h from hdone] at hstep
    refine server_eq_of_requestedCommand hstep.handleMessage_eq ?_
    unfold requestedCommand
    obtain htype | htype := htype <;> rw [htype] <;> rfl

end Runs

/-! ## Logs of different sizes -/

/-- The denying server with a bound on its audit log. -/
def boundedServer (maxAuditLog : ℤ) : VerifierServer L1Receipt.referenceX :=
  { denyingServerL0 with maxAuditLog := maxAuditLog }

/-- It returns a result for every call. -/
theorem verify_boundedServer (maxAuditLog : ℤ) {traceId : Text} (htrace : traceId.Encodable)
    (s : ServerState) : ∃ v, ((boundedServer maxAuditLog).verify readingsAtZero
      (commandFor (text "shell") traceId) s).1 = .ok v := by
  have hrequest := encodableRequest_commandFor (by decide : (text "shell").Encodable) htrace
  have hloop : evaluateRules readingsAtZero (commandFor (text "shell") traceId)
      (boundedServer maxAuditLog).rules .init = .ok deniedLoop := evaluateRules_denyAll _ _
  exact (verify_isOk_iff (SignatureRecord.jcsAccepts _) (fromWire_commandFor _ _) hloop).mpr
    ⟨hrequest, nofun⟩

/-- A call of `verify` at time zero. -/
def callAtZero (traceId : Text) : Service.Input Unit :=
  .verify readingsAtZero (commandFor (text "shell") traceId)

/-- The result of one more such call comes last. -/
theorem returned_callAtZero (srv : VerifierServer X) (run : List (Service.Event Unit))
    (st : Service Unit) {traceId : Text} {v : VerificationResult}
    (h : (srv.verify readingsAtZero (commandFor (text "shell") traceId) st.server).1 = .ok v) :
    Service.returned (run ++ [(srv.service Unit).event st (callAtZero traceId)]) =
      Service.returned run ++ [v] := by
  have hcall : ((srv.service Unit).event st (callAtZero traceId)).output.call =
      some ⟨readingsAtZero, commandFor (text "shell") traceId, .ok v⟩ := by
    rw [← h]
    rfl
  rw [Service.returned_concat, hcall]
  rfl

/-- Three calls, for commands that are denied. -/
def threeDenials : List (Service.Input Unit) :=
  [callAtZero (text "t1"), callAtZero (text "t2"), callAtZero (text "t3")]

/-- Of three denials, a log with a bound of two keeps the last two. -/
theorem ledger_iff_sample : ∃ v₁ v₂ v₃,
    Service.returned ((boundedServer 2).run threeDenials) = [v₁, v₂, v₃] ∧
    ((boundedServer 2).after threeDenials).server.auditLog = [v₂, v₃] ∧
    ((boundedServer 2).after threeDenials).server.requestCount = 3 := by
  obtain ⟨v₁, hv₁⟩ := verify_boundedServer 2 (by decide : (text "t1").Encodable)
    (Service.init Unit).server
  obtain ⟨v₂, hv₂⟩ := verify_boundedServer 2 (by decide : (text "t2").Encodable)
    (((boundedServer 2).after [callAtZero (text "t1")]).server)
  obtain ⟨v₃, hv₃⟩ := verify_boundedServer 2 (by decide : (text "t3").Encodable)
    (((boundedServer 2).after [callAtZero (text "t1"), callAtZero (text "t2")]).server)
  have hreturned : Service.returned ((boundedServer 2).run threeDenials) = [v₁, v₂, v₃] := by
    refine (returned_callAtZero _ (((boundedServer 2).run [callAtZero (text "t1"),
      callAtZero (text "t2")])) _ hv₃).trans ?_
    rw [show Service.returned ((boundedServer 2).run [callAtZero (text "t1"),
      callAtZero (text "t2")]) = [v₁, v₂] from
        (returned_callAtZero _ ((boundedServer 2).run [callAtZero (text "t1")]) _ hv₂).trans
          (congrArg (· ++ [v₂]) (returned_callAtZero _ [] _ hv₁))]
    rfl
  have hledger := (ledger_iff (boundedServer 2) (by decide) threeDenials).1.mpr (.inl (by decide))
  rw [hreturned] at hledger
  exact ⟨v₁, v₂, v₃, hreturned, hledger.auditLog, hledger.requestCount⟩

/-- A denying server with `max_audit_log=0`. -/
def emptyLogServer : VerifierServer L1Receipt.referenceX := boundedServer 0

/-- One call of `verify`, for a command that is denied. -/
def oneDenial : List (Service.Input Unit) := [callAtZero (text "t1")]

/-- The call returns its result. -/
theorem returned_oneDenial : ∃ v, Service.returned (emptyLogServer.run oneDenial) = [v] := by
  obtain ⟨v, hv⟩ := verify_boundedServer 0 (by decide : (text "t1").Encodable)
    (Service.init Unit).server
  exact ⟨v, returned_callAtZero emptyLogServer [] (.init Unit) hv⟩

/-- It holds a result where it should hold none. -/
theorem empty_log_keeps_result : emptyLogServer.maxAuditLog = 0 ∧
    (Service.returned (emptyLogServer.run oneDenial)).length = 1 ∧
    (emptyLogServer.after oneDenial).server.auditLog.length = 1 ∧
    ¬(emptyLogServer.after oneDenial).server.Ledger 0
      (Service.returned (emptyLogServer.run oneDenial)) := by
  obtain ⟨v, hv⟩ := returned_oneDenial
  have hlog := auditLog_after_of_zero emptyLogServer rfl oneDenial
  refine ⟨rfl, by rw [hv]; rfl, by rw [hlog, hv]; rfl, fun h => ?_⟩
  have hledger := h.auditLog
  rw [hlog, hv] at hledger
  cases hledger

end VerifierServer
