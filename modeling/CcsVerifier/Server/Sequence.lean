import CcsVerifier.Server.Consumer
import CcsVerifier.Server.Ledger

/-!
# Sequence numbers and nonces

What the L1 receipts of a run say about their place in it. The sequence number is taken before the
L1 receipt is built, so a call that fails in between uses one up; the nonce is the start of the
trace identifier, so two receipts can share it.

* `VerifierServer.KeepsSequence`: the calls that do not use up a number without a receipt.
* `VerifierServer.gapless_iff`: the receipts of a run are numbered without holes exactly when every
  call is of this kind.
* `VerifierServer.nonce_ne_iff`: two receipts have different nonces exactly when their trace
  identifiers differ within the first sixteen characters.
-/

/-- The value of a field of the L1 receipt of a result. -/
def VerificationResult.l1Field (f : ReceiptField) (v : VerificationResult) : Option PyVal :=
  v.l1Receipt.bind fun receipt => (receipt.getItem f.name).toOption

namespace VerifierServer

variable {X : Externals} {srv : VerifierServer X} {call : CallReadings} {c : Command}
  {s s' : ServerState} {v : VerificationResult}

/-- A field of an issued receipt, as the draft has it. -/
theorem Issued.l1Field {loop : RuleLoop} {key : Bytes} {paramsHash : Text} {sequence : ℕ}
    {parts : L1Parts} {r : L1Receipt}
    (h : srv.Issued call c loop key paramsHash sequence parts r) (hreceipt : v.l1Receipt = some r.toDict)
    {f : ReceiptField} (hsignature : f.isSignature = false) (htimestamp : f ≠ .timestamp)
    (hverified : f ≠ .verifiedAt) :
    v.l1Field f = some ((srv.l1Draft call c loop paramsHash sequence parts).attr f) := by
  rw [VerificationResult.l1Field, hreceipt, Option.bind_some, L1Receipt.toDict,
    PyVal.getItem_ofMembers, r.lookup_asdict, ← h.attr_eq hsignature htimestamp hverified]
  rfl

/-! ## Taking a number -/

/-- The calls that do not use up a sequence number without a receipt: whenever the rules have been
evaluated and the L0 receipt can be made, the L1 receipt can be issued under the next number. -/
def KeepsSequence (srv : VerifierServer X) (call : CallReadings) (c : Command) (s : ServerState) :
    Prop :=
  ∀ loop, evaluateRules call c srv.rules .init = .ok loop →
    (c.traceId.format X.isPrintable).Encodable → (c.tool.format X.isPrintable).Encodable →
    (ruleSummary X loop.results).Encodable → srv.JsonIssuable call c loop (s.sequence + 1)

/-- What a call on a server with an L1 key does to the sequence number. -/
inductive Takes (srv : VerifierServer X) (call : CallReadings) (c : Command) (s : ServerState) :
    Except PyExc VerificationResult → ServerState → Prop
  /-- The call fails before it takes a number. -/
  | failsBefore {e : PyExc} (hkeeps : srv.KeepsSequence call c s) : Takes srv call c s (.error e) s
  /-- The call fails after it has taken a number. -/
  | failsAfter {e : PyExc} {s' : ServerState} (hkeeps : ¬srv.KeepsSequence call c s)
      (hsequence : s'.sequence = s.sequence + 1) : Takes srv call c s (.error e) s'
  /-- The call returns an L1 receipt with the number. -/
  | issues {v : VerificationResult} {s' : ServerState} (hkeeps : srv.KeepsSequence call c s)
      (hfield : v.l1Field .sequence = some (.int (s.sequence + 1)))
      (hsequence : s'.sequence = s.sequence + 1) : Takes srv call c s (.ok v) s'

/-- What a call does is one of these. -/
theorem takes_verify (hjcs : X.JcsAccepts) {key : Bytes} (hkey : srv.l1SigningKey = some key)
    (hjson : c.IsJson) (call : CallReadings) (s : ServerState) :
    srv.Takes call c s (srv.verify call c s).1 (srv.verify call c s).2 := by
  have hnext := srv.sequence_nextSequence hkey s
  -- the number is taken after the rules and the L0 receipt
  cases hloop : evaluateRules call c srv.rules .init with
  | error e =>
    simp only [verify, hloop]
    exact .failsBefore fun loop hloop' => by rw [hloop] at hloop'; cases hloop'
  | ok loop =>
  have htyped := evaluateRules_typed RuleLoop.typed_init hloop
  have hl0iff : (∃ paramsHash receipt, srv.l0Receipt call c loop = .ok (paramsHash, receipt)) ↔ _ :=
    srv.l0Receipt_isOk_iff_of_isJson hjson
  cases hl0 : srv.l0Receipt call c loop with
  | error e =>
    simp only [verify, hloop, hl0]
    refine .failsBefore fun loop' hloop' htrace htool hsummary => ?_
    rw [hloop] at hloop'
    cases hloop'
    obtain ⟨_, _, hok⟩ := hl0iff.mpr ⟨htrace, htool, hsummary⟩
    rw [hl0] at hok
    cases hok
  | ok receipts =>
  obtain ⟨paramsHash, receipt⟩ := receipts
  obtain ⟨htrace, htool, hsummary⟩ := hl0iff.mp ⟨_, _, hl0⟩
  have hhash := (Command.paramsHash_eq_ok X (paramsHash_of_l0Receipt srv hl0)).2
  -- from here on only the L1 receipt can raise
  have hkeeps : srv.KeepsSequence call c s ↔
      ∃ r, srv.l1Receipt call c loop paramsHash (s.sequence + 1) key = .ok r := by
    rw [l1Receipt_isOk_iff_of_isJson hjcs hjson htyped hsummary hhash
      (srv.length_l1SigningKey key hkey)]
    refine ⟨fun h => h loop hloop htrace htool hsummary, fun h loop' hloop' _ _ _ => ?_⟩
    rw [hloop] at hloop'
    cases hloop'
    exact h
  cases hl1 : srv.l1ReceiptData call c loop paramsHash (srv.nextSequence s).sequence with
  | error e =>
    simp only [verify, hloop, hl0, hl1]
    refine .failsAfter (fun h => ?_) hnext
    obtain ⟨r, hr⟩ := hkeeps.mp h
    simp only [l1ReceiptData, hkey, hnext, hr] at hl1
    cases hl1
  | ok l1 =>
    have hverify := verify_eq_ok_iff.mpr ⟨loop, paramsHash, receipt, l1, hloop, hl0, hl1, rfl, rfl⟩
    rw [hverify]
    simp only [l1ReceiptData, hkey, hnext, Except.bind_eq_ok_iff, pure, Except.pure,
      Except.ok.injEq] at hl1
    obtain ⟨r, hr, rfl⟩ := hl1
    obtain ⟨_, parts, r', hr', hissued⟩ := exists_issued hkey hverify hloop rfl
    refine .issues (hkeeps.mpr ⟨r, hr⟩) ?_ hnext
    rw [hissued.l1Field (congrArg some hr') rfl (by decide) (by decide), hnext]
    rfl

/-! ## Runs -/

section Runs

variable {κ : Type*} [DecidableEq κ]

/-- The direct calls of a run are for commands that are made of JSON values, like those that come
over the connections. -/
def JsonCalls (inputs : List (Service.Input κ)) : Prop :=
  ∀ call c, Service.Input.verify call c ∈ inputs → c.IsJson

/-- A call of a run is for a command that is made of JSON values. -/
theorem isJson_of_call {st : Service κ} {i : Service.Input κ}
    (hi : ∀ call c, i = .verify call c → c.IsJson) {call : Call}
    (h : ((srv.service κ).step st i).1.call = some call) : call.command.IsJson := by
  cases i with
  | deliver k bytes => cases h
  | finish k => cases h
  | verify readings c =>
    cases h
    exact hi readings c rfl
  | serve k r =>
    have hstep := srv.stepOn_step st k (.serve k r)
    rw [service_serve_handledOn] at hstep
    simp only [service] at h
    cases hdone : (srv.serveConnection r (st.connections k) st.server).1.1 with
    | none =>
      rw [hdone] at h
      cases h
    | some done =>
      rw [hdone] at h hstep
      have hcommand := command_of_handleMessage hstep.handleMessage_eq
      rw [show done.call = some call from h, Option.map_some] at hcommand
      exact isJson_of_requestedCommand hstep.isJson hcommand.symm

/-- Every call of a run takes a number as `Takes` says, and nothing else does. -/
theorem takes_of_mem_run (hjcs : X.JcsAccepts) {key : Bytes} (hkey : srv.l1SigningKey = some key)
    {inputs : List (Service.Input κ)} (hjson : JsonCalls inputs) {e : Service.Event κ}
    (he : e ∈ srv.run inputs) :
    (∃ call, e.output.call = some call ∧
      srv.Takes call.readings call.command e.before.server call.outcome e.after.server) ∨
    (e.output.call = none ∧ e.after.server = e.before.server) := by
  obtain ⟨st, i, hi, rfl⟩ := Machine.exists_of_mem_trace _ he
  obtain ⟨readings, c, hcall, hserver⟩ | hnone := srv.service_call st i
  · have hcommand : c.IsJson :=
      isJson_of_call (fun call c hverify => hjson call c (hverify ▸ hi)) hcall
    refine .inl ⟨_, hcall, ?_⟩
    rw [show ((srv.service κ).event st i).after.server = _ from hserver]
    exact takes_verify hjcs hkey hcommand readings st.server
  · exact .inr hnone

/-- The numbers of the L1 receipts that a run has issued, in order of issue. -/
def issuedSequences (run : List (Service.Event κ)) : List PyVal :=
  (Service.returned run).filterMap (VerificationResult.l1Field .sequence)

/-- The numbering of a run without holes. -/
structure Gapless (run : List (Service.Event κ)) (s : ServerState) : Prop where
  /-- The receipts are numbered one by one, up to the counter. -/
  numbers : issuedSequences run = (List.range' 1 s.sequence).map fun n : ℕ => PyVal.int n
  /-- A call that fails leaves the counter as it was. -/
  failures : ∀ e ∈ run, ∀ call err, e.output.call = some call → call.outcome = .error err →
    e.after.server.sequence = e.before.server.sequence

omit [DecidableEq κ] in
theorem gapless_nil : Gapless ([] : List (Service.Event κ)) .init where
  numbers := rfl
  failures := by simp

omit [DecidableEq κ] in
/-- The number of one more step comes last. -/
theorem issuedSequences_concat (run : List (Service.Event κ)) (e : Service.Event κ) :
    issuedSequences (run ++ [e]) = issuedSequences run ++
      ((e.output.call.bind Call.returned).bind (VerificationResult.l1Field .sequence)).toList := by
  rw [issuedSequences, Service.returned_concat, List.filterMap_append, ← issuedSequences]
  cases e.output.call.bind Call.returned with
  | none => rfl
  | some v => cases h : v.l1Field .sequence <;> simp [h]

omit [DecidableEq κ] in
/-- A call that keeps the sequence extends a numbering without holes by its receipt, if any. -/
theorem Gapless.concat {past : List (Service.Event κ)} {e : Service.Event κ}
    (h : Gapless past e.before.server)
    (htakes : (∃ call, e.output.call = some call ∧
      srv.Takes call.readings call.command e.before.server call.outcome e.after.server ∧
      srv.KeepsSequence call.readings call.command e.before.server) ∨
      (e.output.call = none ∧ e.after.server = e.before.server)) :
    Gapless (past ++ [e]) e.after.server := by
  -- what the step adds to the numbers, and what it does when it fails
  have hstep : (((e.output.call.bind Call.returned).bind
      (VerificationResult.l1Field .sequence)).toList = [] ∧
        e.after.server.sequence = e.before.server.sequence) ∨
      (((e.output.call.bind Call.returned).bind (VerificationResult.l1Field .sequence)).toList =
        [PyVal.int (e.before.server.sequence + 1)] ∧
        e.after.server.sequence = e.before.server.sequence + 1 ∧
        ∀ call err, e.output.call = some call → call.outcome ≠ .error err) := by
    obtain ⟨call, hcall, htakes, hkeeps⟩ | ⟨hcall, hserver⟩ := htakes
    · rw [hcall, Option.bind_some, Call.returned]
      generalize houtcome : call.outcome = outcome at htakes
      generalize e.after.server = s' at htakes ⊢
      cases htakes with
      | failsBefore _ => exact .inl ⟨rfl, rfl⟩
      | failsAfter hnot _ => exact absurd hkeeps hnot
      | issues _ hfield hsequence =>
        refine .inr ⟨?_, hsequence, fun call' err hcall' => ?_⟩
        · rw [Except.toOption, Option.bind_some, hfield]
          rfl
        · cases hcall'
          rw [houtcome]
          exact fun heq => by cases heq
    · rw [hcall, hserver]
      exact .inl ⟨rfl, rfl⟩
  refine ⟨?_, fun e' he' call err hcall herr => ?_⟩
  · rw [issuedSequences_concat, h.numbers]
    obtain ⟨hadd, hsequence⟩ | ⟨hadd, hsequence, -⟩ := hstep
    · rw [hadd, hsequence, List.append_nil]
    · rw [hadd, hsequence, List.range'_1_concat, List.map_append, List.map_singleton]
      congr 3
      omega
  · obtain he' | he' := List.mem_append.mp he'
    · exact h.failures e' he' call err hcall herr
    · obtain rfl := List.mem_singleton.mp he'
      obtain ⟨-, hsequence⟩ | ⟨-, -, hok⟩ := hstep
      · exact hsequence
      · exact absurd herr (hok call err hcall)

/-- In a run of a server with an L1 key, over any connections and with calls that fail, the issued
receipts are numbered one by one and failing calls leave the counter alone exactly when no call
takes a number that it cannot issue a receipt for. -/
theorem gapless_iff (hjcs : X.JcsAccepts) (hl1 : srv.l1Enabled = true)
    (inputs : List (Service.Input κ)) (hjson : JsonCalls inputs) :
    Gapless (srv.run inputs) (srv.after inputs).server ↔
      ∀ e ∈ srv.run inputs, ∀ call, e.output.call = some call →
        srv.KeepsSequence call.readings call.command e.before.server := by
  obtain ⟨key, hkey⟩ := Option.isSome_iff_exists.mp hl1
  have htakes : ∀ e ∈ srv.run inputs, _ := fun e he => takes_of_mem_run hjcs hkey hjson he
  constructor
  · intro h e he call hcall
    obtain ⟨call', hcall', htakes⟩ | ⟨hnone, -⟩ := htakes e he
    · rw [hcall] at hcall'
      cases hcall'
      have hfailure := h.failures e he call
      generalize call.outcome = outcome at htakes hfailure
      generalize e.after.server = s' at htakes hfailure
      -- a call that fails after it has taken a number leaves a hole
      cases htakes with
      | failsBefore hkeeps => exact hkeeps
      | issues hkeeps _ _ => exact hkeeps
      | @failsAfter err _ _ hsequence =>
        have := hfailure err hcall rfl
        omega
    · rw [hcall] at hnone
      cases hnone
  · intro hkeeps
    refine Machine.run_induction_of_guard (s := Service.init κ)
      (P := fun run st => Gapless run st.server)
      (G := fun e => (∃ call, e.output.call = some call ∧
        srv.Takes call.readings call.command e.before.server call.outcome e.after.server ∧
        srv.KeepsSequence call.readings call.command e.before.server) ∨
        (e.output.call = none ∧ e.after.server = e.before.server)) gapless_nil ?_ inputs ?_
    · intro past st i hpast hguard
      exact hpast.concat hguard
    · intro e he
      refine (htakes e he).imp_left fun ⟨call, hcall, htakes⟩ => ?_
      exact ⟨call, hcall, htakes, hkeeps e he call hcall⟩

/-- A call of the denying server at the reference time. -/
def callInTime (c : Command) : Service.Input Unit := .verify readingsInTime c

/-- Such calls are for commands made of JSON values. -/
theorem jsonCalls_callInTime {cs : List Command} (h : ∀ c ∈ cs, c.IsJson) :
    JsonCalls (cs.map callInTime) := by
  intro call c hmem
  obtain ⟨c', hc', heq⟩ := List.mem_map.mp hmem
  cases heq
  exact h c hc'

/-- A call that returns has kept the sequence. -/
theorem Takes.of_eq_ok {outcome : Except PyExc VerificationResult}
    (h : srv.Takes call c s outcome s') (hok : outcome = .ok v) : srv.KeepsSequence call c s ∧
      v.l1Field .sequence = some (.int (s.sequence + 1)) ∧ s'.sequence = s.sequence + 1 := by
  cases h with
  | failsBefore | failsAfter => cases hok
  | issues hkeeps hfield hsequence =>
    cases hok
    exact ⟨hkeeps, hfield, hsequence⟩

/-- The denying server numbers a call for the shell. -/
theorem sequence_callInTime {traceId : Text} (htrace : traceId.Encodable) {s : ServerState}
    (hs : s.sequence < maxSafeInteger) :
    denyingServerL1.KeepsSequence readingsInTime (commandFor (text "shell") traceId) s ∧
      (denyingServerL1.verify readingsInTime (commandFor (text "shell") traceId) s).2.sequence =
        s.sequence + 1 := by
  obtain ⟨v, s', d, hverify, -⟩ :=
    verify_denyingServerL1 (by decide : (text "shell").Encodable) htrace hs
  have htakes : denyingServerL1.Takes readingsInTime (commandFor (text "shell") traceId) s _ _ :=
    takes_verify (SignatureRecord.jcsAccepts _) rfl (fromWire_commandFor _ _).isJson _ _
  obtain ⟨hkeeps, -, hsequence⟩ := htakes.of_eq_ok (congrArg Prod.fst hverify)
  exact ⟨hkeeps, hsequence⟩

/-- A call for a tool whose name is a lone surrogate fails before it takes a number. -/
theorem verify_surrogateTool (traceId : Text) (s : ServerState) :
    denyingServerL1.KeepsSequence readingsInTime (commandFor [0xd800] traceId) s ∧
      ∃ e, denyingServerL1.verify readingsInTime (commandFor [0xd800] traceId) s =
        (.error e, s) := by
  have hwire := fromWire_commandFor [0xd800] traceId
  have hsurrogate : ¬Text.Encodable [0xd800] := by decide
  have hkeeps : denyingServerL1.KeepsSequence readingsInTime (commandFor [0xd800] traceId) s :=
    fun loop _ _ htool _ => absurd htool hsurrogate
  have htakes : denyingServerL1.Takes readingsInTime (commandFor [0xd800] traceId) s _ _ :=
    takes_verify (SignatureRecord.jcsAccepts _) rfl hwire.isJson _ _
  refine ⟨hkeeps, ?_⟩
  obtain ⟨outcome, s', hverify⟩ : ∃ outcome s', denyingServerL1.verify readingsInTime
      (commandFor [0xd800] traceId) s = (outcome, s') := ⟨_, _, rfl⟩
  rw [hverify] at htakes ⊢
  cases htakes with
  | failsBefore => exact ⟨_, rfl⟩
  | failsAfter hnot => exact absurd hkeeps hnot
  | issues =>
    have hrecordable := (verify_isOk_iff (SignatureRecord.jcsAccepts _) hwire
      (evaluateRules_denyAll _ _)).mp ⟨_, congrArg Prod.fst hverify⟩
    exact absurd hrecordable.request.tool hsurrogate

/-- The state that a call at the reference time leaves behind. -/
def stateAfter (srv : VerifierServer X) (c : Command) (s : ServerState) : ServerState :=
  (srv.verify readingsInTime c s).2

/-- The state after three calls. -/
theorem after_callInTime (srv : VerifierServer X) (c₁ c₂ c₃ : Command) :
    (srv.after [callInTime c₁, callInTime c₂, callInTime c₃]).server =
      srv.stateAfter c₃ (srv.stateAfter c₂ (srv.stateAfter c₁ .init)) := rfl

/-- Three calls keep the sequence when each of them does so in its state. -/
theorem forall_keepsSequence_callInTime {c₁ c₂ c₃ : Command}
    (h₁ : srv.KeepsSequence readingsInTime c₁ .init)
    (h₂ : srv.KeepsSequence readingsInTime c₂ (srv.stateAfter c₁ .init))
    (h₃ : srv.KeepsSequence readingsInTime c₃ (srv.stateAfter c₂ (srv.stateAfter c₁ .init))) :
    ∀ e ∈ srv.run [callInTime c₁, callInTime c₂, callInTime c₃], ∀ call,
      e.output.call = some call → srv.KeepsSequence call.readings call.command e.before.server := by
  intro e he call hcall
  obtain rfl | he := List.mem_cons.mp he
  · cases hcall
    exact h₁
  obtain rfl | he := List.mem_cons.mp he
  · cases hcall
    exact h₂
  obtain rfl := List.mem_singleton.mp he
  cases hcall
  exact h₃

/-- A command for the shell, one that is refused before it takes a number, and another one. -/
def commandsWithFailure : List Command :=
  [commandFor (text "shell") (text "t1"), commandFor [0xd800] (text "t2"),
    commandFor (text "shell") (text "t3")]

/-- The denying server numbers the two receipts one by one, and skips the call that fails. -/
theorem gapless_iff_sample :
    Gapless (denyingServerL1.run (commandsWithFailure.map callInTime))
      (denyingServerL1.after (commandsWithFailure.map callInTime)).server ∧
    issuedSequences (denyingServerL1.run (commandsWithFailure.map callInTime)) =
      [.int 1, .int 2] ∧
    ∃ e, denyingServerL1.verify readingsInTime (commandFor [0xd800] (text "t2"))
      (denyingServerL1.stateAfter (commandFor (text "shell") (text "t1")) .init) =
        (.error e, denyingServerL1.stateAfter (commandFor (text "shell") (text "t1")) .init) := by
  obtain ⟨hkeeps₁, hsequence₁⟩ := sequence_callInTime (by decide : (text "t1").Encodable)
    (by decide : ServerState.init.sequence < maxSafeInteger)
  have hone : (denyingServerL1.stateAfter (commandFor (text "shell") (text "t1")) .init).sequence =
      1 := hsequence₁
  obtain ⟨hkeeps₂, e, hfails⟩ := verify_surrogateTool (text "t2")
    (denyingServerL1.stateAfter (commandFor (text "shell") (text "t1")) .init)
  -- the call that fails leaves the state as it was
  have hsame : denyingServerL1.stateAfter (commandFor [0xd800] (text "t2"))
      (denyingServerL1.stateAfter (commandFor (text "shell") (text "t1")) .init) =
      denyingServerL1.stateAfter (commandFor (text "shell") (text "t1")) .init := by
    generalize denyingServerL1.stateAfter (commandFor (text "shell") (text "t1")) .init = s at hfails
    rw [stateAfter, hfails]
  obtain ⟨hkeeps₃, hsequence₃⟩ := sequence_callInTime (by decide : (text "t3").Encodable)
    (s := denyingServerL1.stateAfter (commandFor (text "shell") (text "t1")) .init)
    (by rw [hone]; decide)
  have hjson : JsonCalls (commandsWithFailure.map callInTime) := by
    refine jsonCalls_callInTime fun c hc => ?_
    simp only [commandsWithFailure, List.mem_cons, List.not_mem_nil, or_false] at hc
    obtain rfl | rfl | rfl := hc <;> exact (fromWire_commandFor _ _).isJson
  have hgapless : Gapless (denyingServerL1.run (commandsWithFailure.map callInTime))
      (denyingServerL1.after (commandsWithFailure.map callInTime)).server :=
    (gapless_iff (SignatureRecord.jcsAccepts _) rfl _ hjson).mpr
      (forall_keepsSequence_callInTime hkeeps₁ hkeeps₂ (hsame.symm ▸ hkeeps₃))
  have hafter : (denyingServerL1.after (commandsWithFailure.map callInTime)).server.sequence = 2 := by
    refine (congrArg ServerState.sequence (after_callInTime denyingServerL1 _ _ _)).trans ?_
    rw [hsame, stateAfter, hsequence₃, hone]
  refine ⟨hgapless, ?_, e, hfails⟩
  rw [hgapless.numbers, hafter]
  rfl

/-- A command with a number that no double can hold exactly. -/
def unsafeCommand : Command :=
  { commandFor (text "shell") (text "t0") with
    params := .ofMembers [(text "n", .int (2 ^ 53))] }

/-- The command is made of JSON values all the same. -/
theorem isJson_unsafeCommand : unsafeCommand.IsJson :=
  ⟨.str _, .str _, PyVal.isJson_ofMembers (List.nodup_singleton _) (by
    intro k v h
    rw [List.mem_singleton, Prod.mk.injEq] at h
    exact h.2 ▸ .int _), .int _, .str _⟩

/-- Its call takes a number and issues no receipt. -/
theorem takes_unsafeCommand : ∃ e s', denyingServerL1.verify readingsInTime unsafeCommand .init =
    (.error e, s') ∧ s'.sequence = 1 := by
  have hnot : ¬denyingServerL1.KeepsSequence readingsInTime unsafeCommand .init := by
    intro h
    have hissuable := h deniedLoop (evaluateRules_denyAll _ _) (by decide) (by decide) (by decide)
    have hparams := PyVal.canonical_ofMembers_iff.mp hissuable.params _ List.mem_cons_self
    exact absurd (PyVal.canonical_int.mp hparams.2).2 (by decide)
  have htakes : denyingServerL1.Takes readingsInTime unsafeCommand .init _ _ :=
    takes_verify (SignatureRecord.jcsAccepts _) rfl isJson_unsafeCommand _ _
  obtain ⟨outcome, s', hverify⟩ : ∃ outcome s',
      denyingServerL1.verify readingsInTime unsafeCommand .init = (outcome, s') := ⟨_, _, rfl⟩
  rw [hverify] at htakes
  cases htakes with
  | failsBefore hkeeps => exact absurd hkeeps hnot
  | issues hkeeps => exact absurd hkeeps hnot
  | failsAfter _ hsequence => exact ⟨_, s', hverify, hsequence⟩

/-- The results of two calls. -/
theorem returned_callInTime (srv : VerifierServer X) (c₁ c₂ : Command) :
    Service.returned (srv.run [callInTime c₁, callInTime c₂]) =
      (srv.verify readingsInTime c₁ .init).1.toOption.toList ++
        (srv.verify readingsInTime c₂
          (srv.verify readingsInTime c₁ .init).2).1.toOption.toList := by
  have hrun : srv.run [callInTime c₁, callInTime c₂] =
      ([] ++ [(srv.service Unit).event (.init Unit) (callInTime c₁)]) ++
        [(srv.service Unit).event ⟨(srv.verify readingsInTime c₁ .init).2, fun _ => .init⟩
          (callInTime c₂)] := rfl
  rw [hrun, Service.returned_concat, Service.returned_concat]
  rfl

/-- The receipt of the next call has the number two, and no receipt has the number one. -/
theorem hole_after_unsafe_number : denyingServerL1.l1Enabled = true ∧
    JsonCalls [callInTime unsafeCommand, callInTime (commandFor (text "shell") (text "t1"))] ∧
    issuedSequences (denyingServerL1.run
      [callInTime unsafeCommand, callInTime (commandFor (text "shell") (text "t1"))]) = [.int 2] ∧
    ¬Gapless (denyingServerL1.run
        [callInTime unsafeCommand, callInTime (commandFor (text "shell") (text "t1"))])
      (denyingServerL1.after
        [callInTime unsafeCommand, callInTime (commandFor (text "shell") (text "t1"))]).server := by
  obtain ⟨e, s', hunsafe, hsequence⟩ := takes_unsafeCommand
  have hnext : s'.sequence < maxSafeInteger := by
    rw [hsequence]
    decide
  have hwire := fromWire_commandFor (text "shell") (text "t1")
  obtain ⟨v, s'', d, hverify, -⟩ := verify_denyingServerL1 (by decide : (text "shell").Encodable)
    (by decide : (text "t1").Encodable) hnext
  have htakes : denyingServerL1.Takes readingsInTime (commandFor (text "shell") (text "t1")) s' _ _ :=
    takes_verify (SignatureRecord.jcsAccepts _) rfl hwire.isJson _ _
  obtain ⟨-, hfield, -⟩ := htakes.of_eq_ok (congrArg Prod.fst hverify)
  have hnumbers : issuedSequences (denyingServerL1.run
      [callInTime unsafeCommand, callInTime (commandFor (text "shell") (text "t1"))]) = [.int 2] := by
    rw [issuedSequences, returned_callInTime, hunsafe, hverify]
    show [v].filterMap _ = _
    rw [List.filterMap_cons, hfield, hsequence]
    rfl
  have hjson : ∀ c ∈ [unsafeCommand, commandFor (text "shell") (text "t1")], c.IsJson := by
    simp [isJson_unsafeCommand, hwire.isJson]
  refine ⟨rfl, jsonCalls_callInTime hjson, hnumbers, fun h => ?_⟩
  -- a numbering without holes would start with one
  have hgapless := h.numbers
  rw [hnumbers] at hgapless
  cases hcount : (denyingServerL1.after [callInTime unsafeCommand,
      callInTime (commandFor (text "shell") (text "t1"))]).server.sequence with
  | zero =>
    rw [hcount] at hgapless
    cases hgapless
  | succ n =>
    rw [hcount, List.range'_succ, List.map_cons, List.cons.injEq] at hgapless
    exact absurd (PyVal.int.inj hgapless.1) (by decide)

/-! ## Nonces -/

/-- A result of a server with an L1 key carries an L1 receipt that was issued for its command. -/
theorem exists_issued_of_verify {key : Bytes} (hkey : srv.l1SigningKey = some key)
    (hverify : srv.verify call c s = (.ok v, s')) : ∃ loop paramsHash parts r,
      v.l1Receipt = some (L1Receipt.toDict r) ∧
      srv.Issued call c loop key paramsHash (srv.nextSequence s).sequence parts r := by
  obtain ⟨loop, _, _, _, hloop, -⟩ := verify_eq_ok_iff.mp hverify
  obtain ⟨r, hr⟩ := exists_l1Receipt hkey hverify
  obtain ⟨paramsHash, parts, r', hr', hissued⟩ := exists_issued hkey hverify hloop hr
  exact ⟨loop, paramsHash, parts, r', hr.trans (congrArg some hr'), hissued⟩

/-- The nonce of a receipt is the start of the trace identifier. -/
theorem l1Field_nonce {key : Bytes} (hkey : srv.l1SigningKey = some key)
    (hverify : srv.verify call c s = (.ok v, s')) {t : Text} (htrace : c.traceId = .str t)
    (hne : t ≠ []) : v.l1Field .nonce = some (.str (t.take 16)) ∧
      v.l1Field .issuer = some (.str srv.issuer) := by
  obtain ⟨loop, paramsHash, parts, r, hreceipt, hissued⟩ := exists_issued_of_verify hkey hverify
  have hnonce := hissued.hasParts.nonce
  rw [nonceOf, htrace, if_pos (PyVal.truthy_str.mpr hne)] at hnonce
  have hstart : parts.nonce = .str (t.take 16) := (Except.ok.inj hnonce).symm
  exact ⟨(hissued.l1Field hreceipt rfl (by decide) (by decide)).trans (congrArg some hstart),
    hissued.l1Field hreceipt rfl (by decide) (by decide)⟩

/-- The results that calls of a run have returned, as calls of `verify` in the states of their
times. -/
theorem exists_verify_of_mem_run {inputs : List (Service.Input κ)} {e : Service.Event κ}
    (he : e ∈ srv.run inputs) {call : Call} (hcall : e.output.call = some call)
    (hreturned : call.returned = some v) : srv.verify call.readings call.command e.before.server =
      (.ok v, e.after.server) := by
  obtain ⟨st, i, -, rfl⟩ := Machine.exists_of_mem_trace _ he
  -- a call has returned `v` only if its outcome is `v`
  have houtcome : call.outcome = .ok v := by
    rw [Call.returned] at hreturned
    cases hout : call.outcome with
    | error err =>
      rw [hout] at hreturned
      cases hreturned
    | ok w =>
      rw [hout] at hreturned
      cases hreturned
      rfl
  obtain ⟨readings, c, hcall', hserver⟩ | ⟨hnone, -⟩ := srv.service_call st i
  · have heq : call = ⟨readings, c, (srv.verify readings c st.server).1⟩ :=
      Option.some.inj (hcall.symm.trans hcall')
    subst heq
    exact Prod.ext houtcome hserver.symm
  · have hcontra := hcall.symm.trans hnone
    cases hcontra

/-- In a run of a server with an L1 key, the receipts of two calls with trace identifiers that are
not empty have different nonces, and different entries in a replay cache over issuers and nonces,
exactly when the trace identifiers differ within their first sixteen characters. -/
theorem nonce_ne_iff (hl1 : srv.l1Enabled = true) {inputs : List (Service.Input κ)}
    {e₁ e₂ : Service.Event κ} (he₁ : e₁ ∈ srv.run inputs) (he₂ : e₂ ∈ srv.run inputs)
    {call₁ call₂ : Call} (hcall₁ : e₁.output.call = some call₁)
    (hcall₂ : e₂.output.call = some call₂) {v₁ v₂ : VerificationResult}
    (hv₁ : call₁.returned = some v₁) (hv₂ : call₂.returned = some v₂) {t₁ t₂ : Text}
    (ht₁ : call₁.command.traceId = .str t₁) (ht₂ : call₂.command.traceId = .str t₂)
    (hne₁ : t₁ ≠ []) (hne₂ : t₂ ≠ []) :
    (v₁.l1Field .nonce ≠ v₂.l1Field .nonce ↔ t₁.take 16 ≠ t₂.take 16) ∧
      ((v₁.l1Field .issuer, v₁.l1Field .nonce) ≠ (v₂.l1Field .issuer, v₂.l1Field .nonce) ↔
        t₁.take 16 ≠ t₂.take 16) := by
  obtain ⟨key, hkey⟩ := Option.isSome_iff_exists.mp hl1
  obtain ⟨hnonce₁, hissuer₁⟩ :=
    l1Field_nonce hkey (exists_verify_of_mem_run he₁ hcall₁ hv₁) ht₁ hne₁
  obtain ⟨hnonce₂, hissuer₂⟩ :=
    l1Field_nonce hkey (exists_verify_of_mem_run he₂ hcall₂ hv₂) ht₂ hne₂
  rw [hnonce₁, hnonce₂, hissuer₁, hissuer₂]
  simp

/-- Two calls with trace identifiers. -/
def twoCalls (t₁ t₂ : Text) : List (Service.Input Unit) :=
  [callInTime (commandFor (text "shell") t₁), callInTime (commandFor (text "shell") t₂)]

/-- The calls of such a run, when both return. -/
theorem exists_events_of_twoCalls (srv : VerifierServer X) {t₁ t₂ : Text}
    {v₁ v₂ : VerificationResult}
    (h₁ : (srv.verify readingsInTime (commandFor (text "shell") t₁) .init).1 = .ok v₁)
    (h₂ : (srv.verify readingsInTime (commandFor (text "shell") t₂)
      (srv.verify readingsInTime (commandFor (text "shell") t₁) .init).2).1 = .ok v₂) :
    ∃ e₁ ∈ srv.run (twoCalls t₁ t₂), ∃ e₂ ∈ srv.run (twoCalls t₁ t₂),
      e₁.output.call = some ⟨readingsInTime, commandFor (text "shell") t₁, .ok v₁⟩ ∧
      e₂.output.call = some ⟨readingsInTime, commandFor (text "shell") t₂, .ok v₂⟩ := by
  refine ⟨_, List.mem_cons_self, _, List.mem_cons_of_mem _ List.mem_cons_self, ?_, ?_⟩
  · rw [← h₁]
    rfl
  · rw [← h₂]
    rfl

/-- Both calls return. -/
theorem exists_results_of_twoCalls {t₁ t₂ : Text} (h₁ : t₁.Encodable) (h₂ : t₂.Encodable) :
    ∃ e₁ ∈ denyingServerL1.run (twoCalls t₁ t₂), ∃ e₂ ∈ denyingServerL1.run (twoCalls t₁ t₂),
    ∃ v₁ v₂,
      e₁.output.call = some ⟨readingsInTime, commandFor (text "shell") t₁, .ok v₁⟩ ∧
      e₂.output.call = some ⟨readingsInTime, commandFor (text "shell") t₂, .ok v₂⟩ := by
  obtain ⟨v₁, s', d₁, hverify₁, -⟩ := verify_denyingServerL1 (by decide : (text "shell").Encodable)
    h₁ (by decide : ServerState.init.sequence < maxSafeInteger)
  obtain ⟨-, hsequence⟩ := sequence_callInTime h₁
    (by decide : ServerState.init.sequence < maxSafeInteger)
  obtain ⟨v₂, s'', d₂, hverify₂, -⟩ := verify_denyingServerL1
    (s := (denyingServerL1.verify readingsInTime (commandFor (text "shell") t₁) .init).2)
    (by decide : (text "shell").Encodable) h₂ (by rw [hsequence]; decide)
  obtain ⟨e₁, he₁, e₂, he₂, hcall₁, hcall₂⟩ := exists_events_of_twoCalls denyingServerL1
    (congrArg Prod.fst hverify₁) (congrArg Prod.fst hverify₂)
  exact ⟨e₁, he₁, e₂, he₂, v₁, v₂, hcall₁, hcall₂⟩

/-- Two receipts with different nonces. -/
theorem nonce_ne_iff_sample : ∃ e₁ ∈ denyingServerL1.run (twoCalls (text "t1") (text "t2")),
    ∃ e₂ ∈ denyingServerL1.run (twoCalls (text "t1") (text "t2")), ∃ v₁ v₂,
      e₁.output.call = some ⟨readingsInTime, commandFor (text "shell") (text "t1"), .ok v₁⟩ ∧
      e₂.output.call = some ⟨readingsInTime, commandFor (text "shell") (text "t2"), .ok v₂⟩ ∧
      v₁.l1Field .nonce ≠ v₂.l1Field .nonce := by
  obtain ⟨e₁, he₁, e₂, he₂, v₁, v₂, hcall₁, hcall₂⟩ := exists_results_of_twoCalls
    (by decide : (text "t1").Encodable) (by decide : (text "t2").Encodable)
  exact ⟨e₁, he₁, e₂, he₂, v₁, v₂, hcall₁, hcall₂, (nonce_ne_iff rfl he₁ he₂ hcall₁ hcall₂ rfl rfl
    rfl rfl (by decide) (by decide)).1.mpr (by decide)⟩

/-- Trace identifiers that differ in their eighteenth character give the same nonce, so that a
replay cache refuses the second receipt. -/
theorem nonces_collide : ∃ e₁ ∈ denyingServerL1.run
      (twoCalls (text "0123456789abcdef-1") (text "0123456789abcdef-2")),
    ∃ e₂ ∈ denyingServerL1.run
      (twoCalls (text "0123456789abcdef-1") (text "0123456789abcdef-2")), ∃ v₁ v₂,
      e₁.output.call = some ⟨readingsInTime,
        commandFor (text "shell") (text "0123456789abcdef-1"), .ok v₁⟩ ∧
      e₂.output.call = some ⟨readingsInTime,
        commandFor (text "shell") (text "0123456789abcdef-2"), .ok v₂⟩ ∧
      text "0123456789abcdef-1" ≠ text "0123456789abcdef-2" ∧
      v₁.l1Field .nonce = v₂.l1Field .nonce ∧ v₁.l1Field .issuer = v₂.l1Field .issuer := by
  obtain ⟨e₁, he₁, e₂, he₂, v₁, v₂, hcall₁, hcall₂⟩ := exists_results_of_twoCalls
    (by decide : (text "0123456789abcdef-1").Encodable)
    (by decide : (text "0123456789abcdef-2").Encodable)
  have htrace : ∀ t, (commandFor (text "shell") t).traceId = .str t := fun _ => rfl
  have hverify₁ := exists_verify_of_mem_run he₁ hcall₁ rfl
  have hverify₂ := exists_verify_of_mem_run he₂ hcall₂ rfl
  -- a nonce is the first 16 characters, and the two trace ids differ after them
  obtain ⟨hnonce₁, hissuer₁⟩ := l1Field_nonce rfl hverify₁ (htrace _) (by decide)
  obtain ⟨hnonce₂, hissuer₂⟩ := l1Field_nonce rfl hverify₂ (htrace _) (by decide)
  refine ⟨e₁, he₁, e₂, he₂, v₁, v₂, hcall₁, hcall₂, by decide, ?_, ?_⟩
  · rw [hnonce₁, hnonce₂]
    exact congrArg some (congrArg PyVal.str (by decide))
  · rw [hissuer₁, hissuer₂]

end Runs

end VerifierServer
