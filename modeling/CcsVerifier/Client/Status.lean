import CcsVerifier.Client.Verifier
import CcsVerifier.Server.Ledger
import CcsVerifier.Server.Messages

/-!
# What a verifier shows of itself

`health_check`, `audit_log` and the keys of a `Verifier` are read off the client or the server that
it has by then.

* `Verifier.Shows`: what the attributes are after calls that have returned some results in-process.
* `Verifier.shows_after`: every run keeps to it.
* `Verifier.ledger_own_results`: the audit log and the statistics are those of the results that the
  verifier has returned from its own server.
* `Verifier.health_check_iff`: where `health_check` gets its answer after a run, and when it finds
  no verifier.
* `Verifier.keys_after`: when the keys are shown.
-/

/-- `stats`, of a server that was not started. -/
def VerifierServer.stats {X : Externals} (srv : VerifierServer X) (s : ServerState) : PyVal :=
  .ofMembers [(text "version", .str serverVersion), (text "uptime_s", .int 0),
    (text "requests", .int s.requestCount), (text "denies", .int s.denyCount),
    (text "rules", .int srv.rules.length), (text "transport", .str (text "none")),
    (text "l1_enabled", .bool srv.l1Enabled),
    (text "l1_key_fingerprint", .str srv.l1KeyFingerprint)]

namespace Verifier

variable {X : Externals}

/-! ## The attributes that are read -/

/-- What `health_check` comes to. -/
inductive Health where
  /-- The client asks the server that it is connected to. -/
  | asks (client : VerifierClient)
  /-- The statistics of the server of the verifier. -/
  | stats (stats : PyVal)
  /-- It raises. -/
  | raises (e : PyExc)

/-- `RuntimeError("No verifier available")` -/
def noVerifier : PyExc := ⟨.runtimeError, text "No verifier available"⟩

/-- `health_check()` -/
def healthCheck (v : Verifier X) : Health :=
  match v.client, v.oopAvailable with
  | some (cl, _), true => .asks cl
  | _, _ =>
    match v.server with
    | some (srv, s) => .stats (srv.stats s)
    | none => .raises noVerifier

/-- `audit_log` -/
def auditLog (v : Verifier X) : List VerificationResult :=
  match v.server with
  | some (_, s) => s.auditLog
  | none => []

/-- `signing_key` -/
def signingKey (v : Verifier X) : Except PyExc Bytes :=
  match v.server with
  | some (srv, _) => .ok srv.signingKey
  | none => .error ⟨.runtimeError, text "Signing key not available in out-of-process mode"⟩

/-- `l1_enabled` -/
def l1Enabled (v : Verifier X) : Bool :=
  match v.server with
  | some (srv, _) => srv.l1Enabled
  | none => false

/-- `l1_public_key` -/
def l1PublicKey (v : Verifier X) : Option Bytes :=
  match v.server with
  | some (srv, _) => srv.l1PublicKey
  | none => none

/-! ## The results of its own server -/

/-- The result of a call, if the verifier has evaluated the command itself. -/
def Answer.ownResult (a : Answer) : Option VerificationResult :=
  if a.evaluatedBy = some .inProcess then a.outcome.toOption else none

/-- The results that the calls of a run have returned from the server of the verifier. -/
def ownResults (run : List (Event X)) : List VerificationResult :=
  run.filterMap fun e => e.output.ownResult

/-- `max_audit_log` of a server that the verifier constructs. -/
def maxAuditLog : ℕ := 100000

/-- What a verifier has after calls that have returned these results from its own server. -/
structure Shows (args : VerifierArgs) (results : List VerificationResult) (v : Verifier X) :
    Prop where
  /-- The mode changes only when it is resolved. -/
  mode : v.mode = args.mode ∨ args.mode = .auto ∧ v.mode ≠ .other
  /-- A client is there in out-of-process mode only. -/
  client : v.client.isSome = true ↔ v.mode = .outOfProcess
  /-- A server is there in in-process mode only. -/
  server : v.server.isSome = true ↔ v.mode = .inProcess
  /-- The flag tells that the mode was resolved to out-of-process. -/
  oopAvailable : v.oopAvailable = true ↔ args.mode = .auto ∧ v.mode = .outOfProcess
  /-- The configuration of the server. -/
  config : ∀ srv s, v.server = some (srv, s) → srv.rules = args.rules ∧
    srv.l1SigningKey = args.l1SigningKey ∧ srv.maxAuditLog = maxAuditLog
  /-- Its counters and its log are about the results. -/
  ledger : ∀ srv s, v.server = some (srv, s) → s.Counts results ∧
    s.auditLog = results.rtake maxAuditLog
  /-- Without a server there are none. -/
  results_nil : v.server = none → results = []
  /-- The rules and the key of a server to come. -/
  given : v.rules = args.rules ∧ v.l1SigningKey = args.l1SigningKey

/-- A server that is constructed has the given configuration. -/
theorem create_config {rules : List Rule} {signingKey l1SigningKey : Option Bytes} {token : Bytes}
    {srv : VerifierServer X}
    (h : VerifierServer.create X rules signingKey l1SigningKey token = .ok srv) :
    srv.rules = rules ∧ srv.l1SigningKey = l1SigningKey ∧ srv.maxAuditLog = maxAuditLog := by
  unfold VerifierServer.create at h
  split at h
  · split at h
    · cases h
    · cases h
      exact ⟨rfl, rfl, rfl⟩
  · cases h

/-- A new verifier has returned nothing. -/
theorem shows_new {args : VerifierArgs} {token : Bytes} {v : Verifier X}
    (hnew : new X args token = .ok v) : v.Shows args [] := by
  unfold new at hnew
  split at hnew
  case h_1 hmode =>
    split at hnew
    · cases hnew
    · next srv hcreate =>
      cases hnew
      exact {
        mode := .inl hmode.symm
        client := by simp
        server := by simp
        oopAvailable := by simp
        config := fun srv' s h => by
          cases h
          exact create_config hcreate
        ledger := fun srv' s h => by
          cases h
          exact ⟨⟨rfl, rfl⟩, (List.rtake_nil _).symm⟩
        results_nil := fun _ => rfl
        given := ⟨rfl, rfl⟩ }
  -- in the other modes no server is constructed
  all_goals
    next hmode =>
    cases hnew
    exact {
      mode := .inl hmode.symm
      client := by simp
      server := by simp
      oopAvailable := by simp [hmode]
      config := fun _ _ h => by cases h
      ledger := fun _ _ h => by cases h
      results_nil := fun _ => rfl
      given := ⟨rfl, rfl⟩ }

section Steps

variable {args : VerifierArgs} {results : List VerificationResult} {v : Verifier X}

/-- The event loop is not shown. -/
theorem Shows.withLoop (h : v.Shows args results) (loop : Option ℕ) :
    Shows args results { v with loop := loop } :=
  ⟨h.mode, h.client, h.server, h.oopAvailable, h.config, h.ledger, h.results_nil, h.given⟩

/-- A verifier whose mode is unresolved has neither a client nor a server. -/
theorem Shows.of_auto (h : v.Shows args results) (hauto : v.mode = .auto) :
    args.mode = .auto ∧ v.client = none ∧ v.server = none := by
  refine ⟨?_, ?_, ?_⟩
  · exact h.mode.elim (fun hmode => hmode.symm.trans hauto) And.left
  · rw [← Option.not_isSome_iff_eq_none, h.client, hauto]
    exact VerifierMode.noConfusion
  · rw [← Option.not_isSome_iff_eq_none, h.server, hauto]
    exact VerifierMode.noConfusion

/-- Falling back starts a server that has returned nothing. -/
theorem Shows.fallBack (h : v.Shows args results) (hauto : v.mode = .auto)
    (probed : Option (Option PyExc)) (token : Bytes) :
    (v.fallBack probed token).verifier.Shows args results := by
  obtain ⟨hargs, hclient, hserver⟩ := h.of_auto hauto
  unfold Verifier.fallBack
  split
  · exact h
  split
  · exact h
  -- the new server has the configuration of the arguments and has recorded nothing
  · next srv hcreate =>
    rw [h.given.1, h.given.2] at hcreate
    exact {
      mode := .inr ⟨hargs, VerifierMode.noConfusion⟩
      client := by simp [hclient]
      server := by simp
      oopAvailable := by simp
      config := fun srv' s hs => by
        cases hs
        exact create_config hcreate
      ledger := fun srv' s hs => by
        cases hs
        rw [h.results_nil hserver]
        exact ⟨⟨rfl, rfl⟩, (List.rtake_nil _).symm⟩
      results_nil := fun hs => by cases hs
      given := h.given }

/-- Resolving the mode returns no results. -/
theorem Shows.resolveMode (h : v.Shows args results) (call : Call) :
    (v.resolveMode call).verifier.Shows args results := by
  unfold Verifier.resolveMode
  split_ifs with hmode
  · exact h
  rw [not_not] at hmode
  obtain ⟨hargs, hclient, hserver⟩ := h.of_auto hmode
  have hloop := h.withLoop (some (call.loops.getLoop v.loop))
  dsimp only
  -- the loop refuses, the probe fails, or a server answers
  split
  · exact hloop.fallBack hmode _ _
  · split_ifs
    · exact hloop
    · exact hloop.fallBack hmode _ _
  · exact {
      mode := .inr ⟨hargs, VerifierMode.noConfusion⟩
      client := by simp
      server := by simp [hserver]
      oopAvailable := by simp [hargs]
      config := fun srv s hs => by cases hserver.symm.trans hs
      ledger := fun srv s hs => by cases hserver.symm.trans hs
      results_nil := fun _ => h.results_nil hserver
      given := h.given }

/-- One verification by the server of the verifier. -/
theorem ledger_verify {srv : VerifierServer X} {s : ServerState}
    (hmax : srv.maxAuditLog = maxAuditLog) (hcounts : s.Counts results)
    (hlog : s.auditLog = results.rtake maxAuditLog) (readings : CallReadings) (c : Command) :
    (srv.verify readings c s).2.Counts
        (results ++ (srv.verify readings c s).1.toOption.toList) ∧
      (srv.verify readings c s).2.auditLog =
        (results ++ (srv.verify readings c s).1.toOption.toList).rtake maxAuditLog := by
  obtain ⟨outcome, s', hverify⟩ : ∃ o s', srv.verify readings c s = (o, s') := ⟨_, _, rfl⟩
  rw [hverify]
  cases outcome with
  | error e =>
    obtain ⟨hsame, hrequests, hdenies⟩ := VerifierServer.verify_error hverify
    simp only [Except.toOption, Option.toList_none, List.append_nil]
    exact ⟨⟨hrequests.trans hcounts.requestCount, hdenies.trans hcounts.denyCount⟩,
      hsame.trans hlog⟩
  | ok w =>
    obtain ⟨_, _, _, _, -, -, -, -, rfl⟩ := VerifierServer.verify_eq_ok_iff.mp hverify
    obtain ⟨hsame, hrequests, hdenies⟩ := srv.nextSequence_ledger s
    have htoNat : srv.maxAuditLog.toNat = maxAuditLog := by rw [hmax]; rfl
    have hpos : 1 ≤ srv.maxAuditLog := by rw [hmax]; decide
    -- taking a number leaves the ledger, and the record adds the result
    refine ⟨VerifierServer.counts_record
      ⟨hrequests.trans hcounts.requestCount, hdenies.trans hcounts.denyCount⟩ w, ?_⟩
    have hrecord := VerifierServer.auditLog_record hpos
      ((hsame.trans hlog).trans (by rw [htoNat])) w
    rw [htoNat] at hrecord
    exact hrecord

/-- Evaluating a command returns at most one result from the server of the verifier. -/
theorem Shows.evaluate (h : v.Shows args results) (call : Call) (probed : Option (Option PyExc))
    (refusal : Option PyExc) : (v.evaluate call probed refusal).2.Shows args
      (results ++ (v.evaluate call probed refusal).1.ownResult.toList) := by
  unfold Verifier.evaluate
  split
  · next cl s hclient hmode =>
    -- a client does not touch the ledger of the verifier
    split
    · simpa [Answer.ownResult] using h
    · have hstep : Shows args results { v with
          client := some (cl, (cl.verify X call.command call.met s).client)
          client_of_mode := fun _ => rfl } :=
        ⟨h.mode, by simp [hmode], h.server, h.oopAvailable, h.config, h.ledger, h.results_nil,
          h.given⟩
      simpa [Answer.ownResult] using hstep
  · split
    · simpa [Answer.ownResult] using h
    · simpa [Answer.ownResult] using h
    · next srv s hserver =>
      obtain ⟨hcounts, hlog⟩ := h.ledger srv s hserver
      have hconfig := h.config srv s hserver
      have hledger := ledger_verify hconfig.2.2 hcounts hlog call.readings call.command
      have hin : v.mode = .inProcess := h.server.mp (by rw [hserver]; rfl)
      simp only [Answer.ownResult, if_true]
      exact {
        mode := h.mode
        client := h.client
        server := by simp [hin]
        oopAvailable := h.oopAvailable
        config := fun srv' s' hs => by
          cases hs
          exact hconfig
        ledger := fun srv' s' hs => by
          cases hs
          exact hledger
        results_nil := fun hs => by cases hs
        given := h.given }

/-- A call returns at most one result from the server of the verifier. -/
theorem Shows.answer (h : v.Shows args results) (call : Call) :
    (v.answer call).2.Shows args (results ++ (v.answer call).1.ownResult.toList) := by
  have hresolved := h.resolveMode call
  unfold Verifier.answer
  dsimp only
  split
  · simpa [Answer.ownResult] using hresolved
  · unfold Verifier.dispatch
    split
    · exact (hresolved.withLoop _).evaluate call _ _
    · exact hresolved.evaluate call _ _

/-- In in-process mode the statistics are those of its server. -/
theorem Shows.healthCheck_of_inProcess (h : v.Shows args results) (hmode : v.mode = .inProcess) :
    ∃ stats, v.healthCheck = .stats stats := by
  obtain ⟨⟨srv, s⟩, hserver⟩ := Option.isSome_iff_exists.mp (h.server.mpr hmode)
  have hclient : v.client = none := by
    rw [← Option.not_isSome_iff_eq_none, h.client, hmode]
    exact VerifierMode.noConfusion
  exact ⟨srv.stats s, by simp only [healthCheck, hclient, hserver]⟩

/-- After a resolution to out-of-process the client asks. -/
theorem Shows.healthCheck_of_resolved (h : v.Shows args results)
    (hmode : args.mode = .auto ∧ v.mode = .outOfProcess) : ∃ cl, v.healthCheck = .asks cl := by
  obtain ⟨⟨cl, s⟩, hclient⟩ := Option.isSome_iff_exists.mp (h.client.mpr hmode.2)
  exact ⟨cl, by simp only [healthCheck, hclient, h.oopAvailable.mpr hmode]⟩

/-- A client that was asked for is not taken to be available. -/
theorem Shows.healthCheck_of_neither (h : v.Shows args results) (hin : v.mode ≠ .inProcess)
    (hresolved : ¬(args.mode = .auto ∧ v.mode = .outOfProcess)) :
    v.healthCheck = .raises noVerifier := by
  have hserver : v.server = none := by
    rw [← Option.not_isSome_iff_eq_none, h.server]
    exact hin
  have hunavailable : v.oopAvailable = false := by
    rw [← Bool.not_eq_true, h.oopAvailable]
    exact hresolved
  simp only [healthCheck, hserver, hunavailable]
  cases v.client <;> rfl

end Steps

/-! ## Runs -/

/-- A verifier after calls. -/
abbrev after (v : Verifier X) (calls : List Call) : Verifier X := (machine X).final v calls

/-- The result of one more call comes last. -/
theorem ownResults_concat (run : List (Event X)) (e : Event X) :
    ownResults (run ++ [e]) = ownResults run ++ e.output.ownResult.toList := by
  rw [ownResults, List.filterMap_append, ← ownResults]
  cases h : e.output.ownResult <;> simp [h]

section Runs

variable {args : VerifierArgs} {token : Bytes} {v : Verifier X}

/-- Every run keeps to what a verifier shows. -/
theorem shows_after (hnew : new X args token = .ok v) (calls : List Call) :
    (v.after calls).Shows args (ownResults ((machine X).trace v calls)) := by
  refine Machine.run_induction (P := fun run w => Shows args (ownResults run) w) (shows_new hnew)
    (fun past w call h => ?_) calls
  rw [ownResults_concat]
  exact h.answer call

/-- Whatever the mode was at first and however it was resolved, after every run of `verify` and
`averify` the audit log holds the last results that the verifier has returned from its own server,
up to its bound, and statistics, where `health_check` returns any, count these results and the
denials among them. -/
theorem ledger_own_results (hnew : new X args token = .ok v) (calls : List Call) :
    (v.after calls).auditLog = (ownResults ((machine X).trace v calls)).rtake maxAuditLog ∧
    ∀ stats, (v.after calls).healthCheck = .stats stats →
      stats.getItem (text "requests") =
        .ok (.int (ownResults ((machine X).trace v calls)).length) ∧
      stats.getItem (text "denies") = .ok (.int ((ownResults ((machine X).trace v calls)).countP
        fun r => r.verdict = .deny)) := by
  have hshows := shows_after hnew calls
  generalize ownResults ((machine X).trace v calls) = results at hshows ⊢
  generalize v.after calls = w at hshows ⊢
  constructor
  · unfold auditLog
    split
    -- without a server of its own the verifier has recorded nothing
    · next srv s hserver => exact (hshows.ledger srv s hserver).2
    · next hserver => rw [hshows.results_nil hserver, List.rtake_nil]
  · intro stats hstats
    unfold healthCheck at hstats
    split at hstats
    · cases hstats
    · split at hstats
      · next srv s hserver =>
        cases hstats
        obtain ⟨⟨hrequests, hdenies⟩, -⟩ := hshows.ledger srv s hserver
        rw [← hrequests, ← hdenies]
        exact ⟨rfl, rfl⟩
      · cases hstats

/-- No server is up at the first of two calls, and the verifier keeps its own ledger of both. -/
theorem ledger_own_results_sample :
    (sampleVerifier.after [sampleCall .verify none (some ⟨.transportError, text "Cannot connect"⟩),
      sampleCall .verify none none]).auditLog.length = 2 := by
  have hlength : (ownResults ((machine L1Receipt.referenceX).trace sampleVerifier
      [sampleCall .verify none (some ⟨.transportError, text "Cannot connect"⟩),
        sampleCall .verify none none])).length = 2 := by decide +kernel
  have hlog := (ledger_own_results (new_sampleArgs [])
    [sampleCall .verify none (some ⟨.transportError, text "Cannot connect"⟩),
      sampleCall .verify none none]).1
  rw [hlog, List.rtake, List.length_drop, hlength]
  rfl

/-- After every run `health_check` asks the server at the other end when the mode was resolved to
out-of-process, gives statistics in in-process mode, and finds no verifier otherwise: not before the
mode is resolved, and never in an out-of-process mode that was asked for. -/
theorem health_check_iff (hnew : new X args token = .ok v) (calls : List Call) :
    ((∃ cl, (v.after calls).healthCheck = .asks cl) ↔
      args.mode = .auto ∧ (v.after calls).mode = .outOfProcess) ∧
    ((∃ stats, (v.after calls).healthCheck = .stats stats) ↔ (v.after calls).mode = .inProcess) ∧
    ((v.after calls).healthCheck = .raises noVerifier ↔ args.mode = .outOfProcess ∨
      args.mode = .other ∨ (v.after calls).mode = .auto) := by
  have hshows := shows_after hnew calls
  generalize v.after calls = w at hshows ⊢
  -- the modes in which there is neither an available client nor a server
  have hneither : args.mode = .outOfProcess ∨ args.mode = .other ∨ w.mode = .auto ↔
      w.mode ≠ .inProcess ∧ ¬(args.mode = .auto ∧ w.mode = .outOfProcess) := by
    obtain hmode | ⟨hargs, hother⟩ := hshows.mode
    · rw [hmode]
      cases args.mode <;> simp
    · rw [hargs]
      cases hw : w.mode <;> simp_all
  rw [hneither]
  by_cases hin : w.mode = .inProcess
  · obtain ⟨stats, hstats⟩ := hshows.healthCheck_of_inProcess hin
    simp [hstats, hin]
  by_cases hresolved : args.mode = .auto ∧ w.mode = .outOfProcess
  · obtain ⟨cl, hasks⟩ := hshows.healthCheck_of_resolved hresolved
    simp [hasks, hresolved]
  · have hraises := hshows.healthCheck_of_neither hin hresolved
    simp [hraises, hin, hresolved]

/-- A server answers, but the client was asked for: `health_check` does not find it. -/
theorem health_check_iff_sample : ∃ v, new L1Receipt.referenceX
    { sampleArgs with mode := .outOfProcess } [] = .ok v ∧
    (v.after [sampleCall .verify none none]).healthCheck = .raises noVerifier := by
  obtain ⟨v, hnew⟩ : ∃ v, new L1Receipt.referenceX { sampleArgs with mode := .outOfProcess } [] =
    .ok v := ⟨_, rfl⟩
  exact ⟨v, hnew, (health_check_iff hnew _).2.2.mpr (.inl rfl)⟩

/-- Keys are shown in in-process mode only, whatever keys the verifier was given. -/
theorem keys_after (hnew : new X args token = .ok v) (calls : List Call) :
    ((∃ key, (v.after calls).signingKey = .ok key) ↔ (v.after calls).mode = .inProcess) ∧
    ((v.after calls).l1Enabled = true ↔
      (v.after calls).mode = .inProcess ∧ args.l1SigningKey.isSome = true) ∧
    (v.after calls).l1PublicKey =
      if (v.after calls).mode = .inProcess then args.l1SigningKey.map X.ed25519.publicKey
      else none := by
  have hshows := shows_after hnew calls
  generalize v.after calls = w at hshows ⊢
  have hserver := hshows.server
  unfold signingKey l1Enabled l1PublicKey
  -- there is a server exactly in the mode `in_process`
  split
  · next srv s heq =>
    have hkey := (hshows.config srv s heq).2.1
    simp only [heq, Option.isSome_some, true_iff] at hserver
    simp [hserver, VerifierServer.l1Enabled, VerifierServer.l1PublicKey, hkey]
  · next heq =>
    simp only [heq, Option.isSome_none, Bool.false_eq_true, false_iff] at hserver
    simp [hserver]

end Runs

end Verifier
