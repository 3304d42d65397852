import CcsVerifier.Client.Verifier

/-!
# The fallback of a verifier and its in-process mode

A verifier in auto mode that falls back constructs its server from what it has stored of its
arguments. The HMAC key is not among it, so the L0 receipts are made under a random key.

* `VerifierServer.create_signingKey`: two servers that differ in the HMAC key only.
* `VerifierServer.verify_alike`: their results, which differ in the L0 receipt only.
* `Verifier.sameResults_iff`: a verifier that has fallen back gives the results of one that was
  constructed in-process exactly when no HMAC key was given, when the random key is the given one, or
  when there is no result.
* `Verifier.fallback_loses_key`: a verifier with an HMAC key that falls back.
-/

namespace VerifierServer

variable {X : Externals}

/-! ## Two servers with different HMAC keys -/

/-- The server with another HMAC key. -/
def withSigningKey (srv : VerifierServer X) (key : Bytes) : VerifierServer X :=
  { srv with signingKey := key }

/-- The HMAC key has no part in whether a server can be constructed, nor in its other attributes. -/
theorem create_signingKey {rules : List Rule} {l1SigningKey : Option Bytes}
    {signingKey₁ signingKey₂ : Option Bytes} {token₁ token₂ : Bytes} {srv : VerifierServer X}
    (h : create X rules signingKey₁ l1SigningKey token₁ = .ok srv) :
    create X rules signingKey₂ l1SigningKey token₂ =
      .ok (srv.withSigningKey (signingKeyOr signingKey₂ token₂)) := by
  unfold create at h ⊢
  split at h
  · next hkey =>
    rw [dif_pos hkey]
    split at h
    · cases h
    next hash hhash =>
    cases h
    rfl
  · cases h

/-- The server has the given rules, and the given key or a random one. -/
theorem signingKey_of_create {rules : List Rule} {l1SigningKey signingKey : Option Bytes}
    {token : Bytes} {srv : VerifierServer X}
    (h : create X rules signingKey l1SigningKey token = .ok srv) :
    srv.rules = rules ∧ srv.signingKey = signingKeyOr signingKey token := by
  unfold create at h
  split at h
  · split at h
    · cases h
    · cases h
      exact ⟨rfl, rfl⟩
  · cases h

/-- On every L0 payload of the call, two keys give different receipts. -/
def SignsApart (X : Externals) (rules : List Rule) (key₁ key₂ : Bytes) (call : CallReadings)
    (c : Command) : Prop :=
  ∀ loop paramsHash payload, evaluateRules call c rules .init = .ok loop →
    c.paramsHash X = .ok paramsHash →
    (receiptPayload X c.traceId loop.finalVerdict (.float (.fin call.now)) c.tool (.str paramsHash)
      (.str (ruleSummary X loop.results))).encode = .ok payload →
    receiptTag X key₁ payload ≠ receiptTag X key₂ payload

/-- Two outcomes of which both are results or neither is; two results differ in the L0 receipt only,
and are the same exactly when `same` holds. -/
inductive Alike (same : Prop) : Except PyExc VerificationResult → Except PyExc VerificationResult →
    Prop
  /-- Neither call returns. -/
  | error {e₁ e₂ : PyExc} : Alike same (.error e₁) (.error e₂)
  /-- Both calls return. -/
  | ok {v₁ v₂ : VerificationResult} (hreceipt : v₂ = { v₁ with receipt := v₂.receipt })
      (hsame : v₁ = v₂ ↔ same) : Alike same (.ok v₁) (.ok v₂)

/-- Results that are alike are the same exactly when the receipts are, or when there is none. -/
theorem Alike.toOption_eq_iff {same : Prop} {r₁ r₂ : Except PyExc VerificationResult}
    (h : Alike same r₁ r₂) : r₁.toOption = r₂.toOption ↔ same ∨ r₂.toOption = none := by
  cases h with
  | error => simp [Except.toOption]
  | ok _ hsame => simp [Except.toOption, hsame]

/-- Apart from the receipt they are the same. -/
theorem Alike.upToReceipt {same : Prop} {r₁ r₂ : Except PyExc VerificationResult}
    (h : Alike same r₁ r₂) :
    r₁.toOption.map (fun v => { v with receipt := .none }) =
      r₂.toOption.map (fun v => { v with receipt := .none }) := by
  cases h with
  | error => rfl
  | ok hreceipt _ =>
    simp only [Except.toOption, Option.map_some, Option.some.injEq]
    rw [hreceipt]

/-- The L0 receipts of two servers with different HMAC keys. -/
theorem l0Receipt_withSigningKey (srv : VerifierServer X) (key : Bytes) (call : CallReadings)
    (c : Command) (loop : RuleLoop) :
    (∃ e, srv.l0Receipt call c loop = .error e ∧
      (srv.withSigningKey key).l0Receipt call c loop = .error e) ∨
    ∃ paramsHash payload, c.paramsHash X = .ok paramsHash ∧
      (receiptPayload X c.traceId loop.finalVerdict (.float (.fin call.now)) c.tool (.str paramsHash)
        (.str (ruleSummary X loop.results))).encode = .ok payload ∧
      srv.l0Receipt call c loop = .ok (paramsHash, receiptTag X srv.signingKey payload) ∧
      (srv.withSigningKey key).l0Receipt call c loop = .ok (paramsHash, receiptTag X key payload) := by
  -- the key is used for the tag, and for nothing that can raise
  have hsign : ∀ paramsHash secret, signReceipt X c.traceId loop.finalVerdict
      (.float (.fin call.now)) secret c.tool paramsHash (.str (ruleSummary X loop.results)) =
      (receiptPayload X c.traceId loop.finalVerdict (.float (.fin call.now)) c.tool
        paramsHash (.str (ruleSummary X loop.results))).encode.map (receiptTag X secret) := by
    intro paramsHash secret
    unfold signReceipt
    cases (receiptPayload X c.traceId loop.finalVerdict (.float (.fin call.now)) c.tool
      paramsHash (.str (ruleSummary X loop.results))).encode <;> rfl
  cases hhash : c.paramsHash X with
  | error e =>
    refine .inl ⟨e, ?_, ?_⟩
    · simp only [l0Receipt, hhash, bind, Except.bind]
    · simp only [l0Receipt, hhash, bind, Except.bind]
  | ok paramsHash =>
    cases hpayload : (receiptPayload X c.traceId loop.finalVerdict (.float (.fin call.now)) c.tool
        (.str paramsHash) (.str (ruleSummary X loop.results))).encode with
    | error e =>
      refine .inl ⟨e, ?_, ?_⟩
      · simp only [l0Receipt, hhash, hsign, hpayload, bind, Except.bind, Except.map]
      · simp only [l0Receipt, hhash, hsign, hpayload, bind, Except.bind, Except.map]
    | ok payload =>
      refine .inr ⟨paramsHash, payload, rfl, hpayload, ?_, ?_⟩
      · simp only [l0Receipt, hhash, hsign, hpayload, bind, Except.bind, Except.map, pure,
          Except.pure]
      · simp only [l0Receipt, hhash, hsign, hpayload, bind, Except.bind, Except.map, pure,
          Except.pure]
        rfl

/-- Two servers that differ in the HMAC key only, with the same sequence number, give results that
are the same exactly when the keys are. -/
theorem verify_alike {srv : VerifierServer X} {key : Bytes} {call : CallReadings} {c : Command}
    {s₁ s₂ : ServerState} (hsequence : s₁.sequence = s₂.sequence)
    (hapart : srv.signingKey ≠ key → SignsApart X srv.rules srv.signingKey key call c) :
    Alike (srv.signingKey = key) (srv.verify call c s₁).1
        ((srv.withSigningKey key).verify call c s₂).1 ∧
      (srv.verify call c s₁).2.sequence = ((srv.withSigningKey key).verify call c s₂).2.sequence := by
  -- the key of the HMAC is not looked at before the L0 receipt
  have hnext : (srv.nextSequence s₁).sequence =
      ((srv.withSigningKey key).nextSequence s₂).sequence := by
    unfold nextSequence
    rw [show (srv.withSigningKey key).l1Enabled = srv.l1Enabled from rfl]
    split
    · exact congrArg (· + 1) hsequence
    · exact hsequence
  unfold verify
  rw [show (srv.withSigningKey key).rules = srv.rules from rfl]
  cases hloop : evaluateRules call c srv.rules .init with
  | error e => exact ⟨.error, hsequence⟩
  | ok loop =>
  obtain ⟨e, h₁, h₂⟩ | ⟨paramsHash, payload, hhash, hpayload, h₁, h₂⟩ :=
    l0Receipt_withSigningKey srv key call c loop
  · simp only [h₁, h₂]
    exact ⟨.error, hsequence⟩
  -- nor by the L1 receipt
  have hl1 : ∀ n, (srv.withSigningKey key).l1ReceiptData call c loop paramsHash n =
      srv.l1ReceiptData call c loop paramsHash n := fun n => rfl
  simp only [h₁, h₂, hl1, hnext]
  cases srv.l1ReceiptData call c loop paramsHash
      ((srv.withSigningKey key).nextSequence s₂).sequence with
  | error e => exact ⟨.error, hnext⟩
  | ok l1Receipt =>
    refine ⟨.ok rfl ⟨fun h => ?_, fun h => ?_⟩, hnext⟩
    · -- the receipts in the two results are the same
      have htag : receiptTag X srv.signingKey payload = receiptTag X key payload :=
        PyVal.str.inj (congrArg VerificationResult.receipt h)
      by_contra hne
      exact hapart hne loop paramsHash payload hloop hhash hpayload htag
    · rw [h]

end VerifierServer

namespace Verifier

open VerifierServer

variable {X : Externals}

/-- What the calls of a run return; a call that raises returns nothing. -/
def results (run : List (Event X)) : List (Option VerificationResult) :=
  run.map fun e => e.output.outcome.toOption

/-- The result of the first call comes first. -/
theorem results_cons (v : Verifier X) (call : Call) (calls : List Call) :
    results ((machine X).trace v (call :: calls)) = (v.answer call).1.outcome.toOption ::
      results ((machine X).trace (v.answer call).2 calls) := rfl

/-- Runs with outcomes that are alike give the same results exactly when `same` holds or there is no
result. -/
theorem results_eq_iff {same : Prop} {run₁ run₂ : List (Event X)}
    (h : List.Forall₂ (fun e₁ e₂ => Alike same e₁.output.outcome e₂.output.outcome) run₁ run₂) :
    results run₁ = results run₂ ↔ same ∨ ∀ r ∈ results run₂, r = none := by
  induction h with
  | nil => simp [results]
  | cons halike _ ih =>
    simp only [results, List.map_cons, List.cons.injEq, List.forall_mem_cons] at ih ⊢
    rw [halike.toOption_eq_iff, ih, or_and_left]

/-! ## Two verifiers in in-process mode -/

/-- Two verifiers in in-process mode, the servers of which differ in the HMAC key only. -/
structure SameButKey (rules : List Rule) (key₁ key₂ : Bytes) (v₁ v₂ : Verifier X) : Prop where
  /-- The first is in-process. -/
  mode₁ : v₁.mode = .inProcess
  /-- So is the second. -/
  mode₂ : v₂.mode = .inProcess
  /-- The servers have taken the same number of sequence numbers. -/
  servers : ∃ srv s₁ s₂, v₁.server = some (srv, s₁) ∧
    v₂.server = some (srv.withSigningKey key₂, s₂) ∧ srv.rules = rules ∧ srv.signingKey = key₁ ∧
    s₁.sequence = s₂.sequence

/-- A mode that is not `auto` is left alone. -/
theorem resolveMode_of_ne {v : Verifier X} (h : v.mode ≠ .auto) (call : Call) :
    v.resolveMode call = ⟨none, .ok (), v⟩ := by
  rw [resolveMode, if_pos h]

/-- In in-process mode the server gets the command. -/
theorem evaluate_inProcess {v : Verifier X} (hmode : v.mode = .inProcess) {srv : VerifierServer X}
    {s : ServerState} (hserver : v.server = some (srv, s)) (call : Call)
    (probed : Option (Option PyExc)) :
    v.evaluate call probed none = (⟨probed, some .inProcess,
        (srv.verify call.readings call.command s).1⟩,
      { v with
        server := some (srv, (srv.verify call.readings call.command s).2)
        server_of_mode := fun _ => rfl }) ∧
      ∀ e, v.evaluate call probed (some e) = (⟨probed, none, .error e⟩, v) := by
  have hserves : ∀ refusal, v.evaluate call probed refusal = refusal.elim
      (⟨probed, some .inProcess, (srv.verify call.readings call.command s).1⟩,
        { v with
          server := some (srv, (srv.verify call.readings call.command s).2)
          server_of_mode := fun _ => rfl })
      fun e => (⟨probed, none, .error e⟩, v) := by
    intro refusal
    unfold evaluate
    split
    · -- the mode excludes the client, and the server is there
      next hout =>
      rw [hmode] at hout
      cases hout
    split
    · next hnone =>
      rw [hserver] at hnone
      cases hnone
    · rfl
    · next hsome =>
      rw [hserver] at hsome
      cases hsome
      rfl
  exact ⟨hserves none, fun e => hserves (some e)⟩

/-- Two such verifiers answer alike, and stay such verifiers. -/
theorem SameButKey.answer {rules : List Rule} {key₁ key₂ : Bytes} {v₁ v₂ : Verifier X}
    (h : SameButKey rules key₁ key₂ v₁ v₂) {call : Call}
    (hapart : key₁ ≠ key₂ → SignsApart X rules key₁ key₂ call.readings call.command) :
    Alike (key₁ = key₂) (v₁.answer call).1.outcome (v₂.answer call).1.outcome ∧
      SameButKey rules key₁ key₂ (v₁.answer call).2 (v₂.answer call).2 := by
  obtain ⟨srv, s₁, s₂, hserver₁, hserver₂, rfl, rfl, hsequence⟩ := h.servers
  have hresolve₁ := resolveMode_of_ne (v := v₁) (by rw [h.mode₁]; nofun) call
  have hresolve₂ := resolveMode_of_ne (v := v₂) (by rw [h.mode₂]; nofun) call
  obtain ⟨halike, hsequence'⟩ := verify_alike hsequence hapart
  -- the servers answer, whatever else has become of the verifiers
  have hserves : ∀ w₁ w₂ : Verifier X, w₁.mode = .inProcess → w₂.mode = .inProcess →
      w₁.server = v₁.server → w₂.server = v₂.server →
      ∀ refusal₁ refusal₂ : Option PyExc, (refusal₁ = none ↔ refusal₂ = none) →
      Alike (srv.signingKey = key₂) (w₁.evaluate call none refusal₁).1.outcome
          (w₂.evaluate call none refusal₂).1.outcome ∧
        SameButKey srv.rules srv.signingKey key₂ (w₁.evaluate call none refusal₁).2
          (w₂.evaluate call none refusal₂).2 := by
    intro w₁ w₂ hmode₁ hmode₂ hw₁ hw₂ refusal₁ refusal₂ hiff
    rw [hserver₁] at hw₁
    rw [hserver₂] at hw₂
    obtain ⟨hanswer₁, hrefused₁⟩ := evaluate_inProcess hmode₁ hw₁ call none
    obtain ⟨hanswer₂, hrefused₂⟩ := evaluate_inProcess hmode₂ hw₂ call none
    cases refusal₁ with
    | none =>
      rw [hiff.mp rfl, hanswer₁, hanswer₂]
      exact ⟨halike, hmode₁, hmode₂, srv, _, _, rfl, rfl, rfl, rfl, hsequence'⟩
    | some e₁ =>
      cases refusal₂ with
      | none => exact absurd (hiff.mpr rfl) nofun
      | some e₂ =>
        rw [hrefused₁, hrefused₂]
        exact ⟨.error, hmode₁, hmode₂, srv, _, _, hw₁, hw₂, rfl, rfl, hsequence⟩
  have hanswer : ∀ w : Verifier X, w.resolveMode call = ⟨none, .ok (), w⟩ →
      w.answer call = w.dispatch call none := fun w hw => by
    unfold Verifier.answer
    rw [hw]
  rw [hanswer v₁ hresolve₁, hanswer v₂ hresolve₂]
  unfold dispatch
  cases call.entry with
  | verify =>
    have hrefusal : call.loops.refusal (call.loops.getLoop v₁.loop) = none ↔
        call.loops.refusal (call.loops.getLoop v₂.loop) = none := by
      rw [EventLoops.refusal_eq_none_iff, EventLoops.refusal_eq_none_iff]
    exact hserves { v₁ with loop := some (call.loops.getLoop v₁.loop) }
      { v₂ with loop := some (call.loops.getLoop v₂.loop) } h.mode₁ h.mode₂ rfl rfl _ _ hrefusal
  | averify => exact hserves _ _ h.mode₁ h.mode₂ rfl rfl _ _ Iff.rfl

/-! ## The first call -/

/-- What becomes of a call does not depend on what has been tried before. -/
theorem dispatch_probed (v : Verifier X) (call : Call) (probed : Option (Option PyExc)) :
    (v.dispatch call probed).1.outcome = (v.dispatch call none).1.outcome ∧
      (v.dispatch call probed).2 = (v.dispatch call none).2 := by
  have hevaluate : ∀ (w : Verifier X) (refusal : Option PyExc),
      (w.evaluate call probed refusal).1.outcome = (w.evaluate call none refusal).1.outcome ∧
        (w.evaluate call probed refusal).2 = (w.evaluate call none refusal).2 := by
    intro w refusal
    unfold evaluate
    split
    · split <;> exact ⟨rfl, rfl⟩
    · split <;> exact ⟨rfl, rfl⟩
  unfold dispatch
  split
  · exact hevaluate _ _
  · exact hevaluate _ _

/-- A verifier that falls back answers like the one it becomes. -/
theorem exists_of_fallsBack {v : Verifier X} {call : Call} (hmode : v.mode = .auto)
    (hfalls : (v.answer call).2.mode = .inProcess) :
    ∃ (w : Verifier X) (srv : VerifierServer X), w.mode = .inProcess ∧
      w.server = some (srv, .init) ∧
      VerifierServer.create X v.rules none v.l1SigningKey call.token = .ok srv ∧
      (v.answer call).1.outcome = (w.answer call).1.outcome ∧
      (v.answer call).2 = (w.answer call).2 := by
  have hafter := (answer_mode v call).1.symm.trans hfalls
  have hcases := resolveMode_cases v call
  unfold Verifier.answer
  generalize v.resolveMode call = r at hafter hcases
  -- only a failed probe in the mode `auto` changes the mode
  cases hcases with
  | resolved hresolved => exact absurd hmode hresolved
  | connects _ _ _ hw =>
    rw [hw] at hafter
    cases hafter
  | raises _ hw =>
    rw [hw] at hafter
    cases hafter
  | @fallsBack w srv probed _ _ hcreate hw hserver =>
    have hresolve := resolveMode_of_ne (v := w) (by rw [hw]; nofun) call
    obtain ⟨houtcome, hstate⟩ := dispatch_probed w call probed
    refine ⟨w, srv, hw, hserver, hcreate, ?_, ?_⟩
    · rw [hresolve]
      exact houtcome
    · rw [hresolve]
      exact hstate

/-- When the key is the one that a fallback draws. -/
theorem signingKeyOr_eq_token_iff {signingKey : Option Bytes} {token : Bytes} :
    signingKeyOr signingKey token = token ↔
      signingKey = none ∨ signingKey = some [] ∨ signingKey = some token := by
  match signingKey with
  | none => simp [signingKeyOr]
  | some [] => simp [signingKeyOr]
  | some (b :: key) => simp [signingKeyOr]

/-! ## The two runs -/

section Runs

variable {args : VerifierArgs} {token token₀ : Bytes} {auto inProcess : Verifier X} {first : Call}
  {calls : List Call}

/-- A verifier that falls back at its first call and one that is constructed in-process answer
alike. -/
theorem forall₂_alike (hauto : new X { args with mode := .auto } token₀ = .ok auto)
    (hinProcess : new X { args with mode := .inProcess } token = .ok inProcess)
    (hfalls : (auto.answer first).2.mode = .inProcess) (htoken : first.token = token)
    (hapart : token ≠ signingKeyOr args.signingKey token → ∀ call ∈ first :: calls,
      SignsApart X args.rules token (signingKeyOr args.signingKey token) call.readings call.command) :
    List.Forall₂ (fun e₁ e₂ => Alike (token = signingKeyOr args.signingKey token) e₁.output.outcome
        e₂.output.outcome)
      ((machine X).trace auto (first :: calls)) ((machine X).trace inProcess (first :: calls)) := by
  cases hauto
  obtain ⟨w, srv, hw, hserver, hcreate, houtcome, hstate⟩ := exists_of_fallsBack rfl hfalls
  rw [htoken] at hcreate
  obtain ⟨hrules, hkey⟩ := signingKey_of_create hcreate
  simp only [new, create_signingKey hcreate] at hinProcess
  cases hinProcess
  -- after the fallback the two verifiers differ in the key of the HMAC only
  have hsame : SameButKey args.rules token (signingKeyOr args.signingKey token) w
      ⟨args.rules, .inProcess, args.l1SigningKey, args.requireOop, none,
        some (srv.withSigningKey (signingKeyOr args.signingKey token), .init), none, false,
        fun h => VerifierMode.noConfusion h, fun _ => rfl⟩ :=
    ⟨hw, rfl, srv, .init, .init, hserver, rfl, hrules, hkey, rfl⟩
  have hruns := Machine.forall₂_trace (M := machine X) (N := machine X)
    (Q := fun o₁ o₂ => Alike (token = signingKeyOr args.signingKey token) o₁.outcome o₂.outcome)
    (fun v₁ v₂ call hcall hsame => hsame.answer fun hne => hapart hne call hcall) hsame
  rw [Machine.trace, Machine.trace] at hruns ⊢
  obtain ⟨hfirst, hrest⟩ := List.forall₂_cons.mp hruns
  refine .cons ?_ ?_
  · rw [show ((machine X).event _ first).output.outcome = _ from houtcome]
    exact hfirst
  · rw [show ((machine X).step _ first).2 = _ from hstate]
    exact hrest

/-- A verifier that falls back at its first call gives the results of one that is constructed
in-process exactly when no HMAC key is given, when the key is the random one, or when no call
returns. -/
theorem sameResults_iff (hauto : new X { args with mode := .auto } token₀ = .ok auto)
    (hinProcess : new X { args with mode := .inProcess } token = .ok inProcess)
    (hfalls : (auto.answer first).2.mode = .inProcess) (htoken : first.token = token)
    (hapart : token ≠ signingKeyOr args.signingKey token → ∀ call ∈ first :: calls,
      SignsApart X args.rules token (signingKeyOr args.signingKey token) call.readings call.command) :
    results ((machine X).trace auto (first :: calls)) =
        results ((machine X).trace inProcess (first :: calls)) ↔
      (args.signingKey = none ∨ args.signingKey = some [] ∨ args.signingKey = some token) ∨
        ∀ r ∈ results ((machine X).trace inProcess (first :: calls)), r = none := by
  rw [results_eq_iff (forall₂_alike hauto hinProcess hfalls htoken hapart), eq_comm,
    signingKeyOr_eq_token_iff]

/-- In everything but the L0 receipt the results are the same. -/
theorem sameResults_upToReceipt (hauto : new X { args with mode := .auto } token₀ = .ok auto)
    (hinProcess : new X { args with mode := .inProcess } token = .ok inProcess)
    (hfalls : (auto.answer first).2.mode = .inProcess) (htoken : first.token = token)
    (hapart : token ≠ signingKeyOr args.signingKey token → ∀ call ∈ first :: calls,
      SignsApart X args.rules token (signingKeyOr args.signingKey token) call.readings call.command) :
    (results ((machine X).trace auto (first :: calls))).map
        (Option.map fun v => { v with receipt := .none }) =
      (results ((machine X).trace inProcess (first :: calls))).map
        (Option.map fun v => { v with receipt := .none }) := by
  have hruns := forall₂_alike hauto hinProcess hfalls htoken hapart
  generalize (machine X).trace auto (first :: calls) = run₁ at hruns ⊢
  generalize (machine X).trace inProcess (first :: calls) = run₂ at hruns ⊢
  -- step by step, the results differ in their receipts at most
  induction hruns with
  | nil => rfl
  | cons halike _ ih =>
    simp only [results, List.map_cons, List.cons.injEq] at ih ⊢
    exact ⟨halike.upToReceipt, ih⟩

end Runs

/-! ## One rule and no server -/

/-- A call outside of event loops while no server is up. -/
def unreachableCall : Call :=
  sampleCall .verify none (some ⟨.transportError, text "Cannot connect"⟩)

/-- An in-process verifier can be constructed with each of these keys. -/
theorem exists_new_inProcess (signingKey : Option Bytes) (token : Bytes) :
    ∃ v, new L1Receipt.referenceX
      { sampleArgs with signingKey := signingKey, mode := .inProcess } token = .ok v := by
  have hok : (VerifierServer.create L1Receipt.referenceX [denyAll] none none []).isOk = true := by
    decide +kernel
  -- whether the server can be created does not depend on its signing key
  cases hcreate : VerifierServer.create L1Receipt.referenceX [denyAll] none none [] with
  | error e =>
    rw [hcreate] at hok
    cases hok
  | ok srv =>
    have hkeyed : VerifierServer.create L1Receipt.referenceX [denyAll] signingKey none token = _ :=
      create_signingKey hcreate
    refine ⟨⟨[denyAll], .inProcess, none, false, none,
      some (srv.withSigningKey (signingKeyOr signingKey token), .init), none, false,
      fun h => VerifierMode.noConfusion h, fun _ => rfl⟩, ?_⟩
    simp only [new, sampleArgs, hkeyed]

/-- The call falls back. -/
theorem mode_unreachableCall : (sampleVerifier.answer unreachableCall).2.mode = .inProcess := by
  decide +kernel

/-- The sample call has different L0 receipts under the key and under the random key. -/
theorem signsApart_sample : SignsApart L1Receipt.referenceX [denyAll] (List.replicate 32 1)
    (List.replicate 32 0) readingsAtZero VerifierClient.sampleCommand := by
  intro loop paramsHash payload hloop hhash hpayload
  have hrules := evaluateRules_denyAll ⟨0, Representable.zero⟩ VerifierClient.sampleCommand
  rw [show readingsAtZero = readingsAt ⟨0, Representable.zero⟩ from rfl, hrules,
    Except.ok.injEq] at hloop
  have hparams : VerifierClient.sampleCommand.paramsHash L1Receipt.referenceX =
      .ok (text "44136fa355b3678a") := by decide +kernel
  rw [hparams, Except.ok.injEq] at hhash
  subst hloop hhash
  -- the two tags are computed
  have hne : ((receiptPayload L1Receipt.referenceX VerifierClient.sampleCommand.traceId
      deniedLoop.finalVerdict (.float (.fin readingsAtZero.now)) VerifierClient.sampleCommand.tool
      (.str (text "44136fa355b3678a"))
      (.str (ruleSummary L1Receipt.referenceX deniedLoop.results))).encode.map
        (receiptTag L1Receipt.referenceX (List.replicate 32 1))).toOption ≠
      ((receiptPayload L1Receipt.referenceX VerifierClient.sampleCommand.traceId
      deniedLoop.finalVerdict (.float (.fin readingsAtZero.now)) VerifierClient.sampleCommand.tool
      (.str (text "44136fa355b3678a"))
      (.str (ruleSummary L1Receipt.referenceX deniedLoop.results))).encode.map
        (receiptTag L1Receipt.referenceX (List.replicate 32 0))).toOption := by decide +kernel
  rw [hpayload] at hne
  intro htag
  apply hne
  simp only [Except.map, htag]

/-- The call returns a result, whatever calls follow. -/
theorem returns_unreachableCall (calls : List Call) : ¬∀ r ∈ results
    ((machine L1Receipt.referenceX).trace sampleVerifier (unreachableCall :: calls)), r = none := by
  have hreturns : (sampleVerifier.answer unreachableCall).1.outcome.isOk = true := by
    decide +kernel
  intro hnone
  rw [results_cons] at hnone
  have hfirst := hnone _ List.mem_cons_self
  cases houtcome : (sampleVerifier.answer unreachableCall).1.outcome with
  | error e =>
    rw [houtcome] at hreturns
    cases hreturns
  | ok v =>
    rw [houtcome] at hfirst
    cases hfirst

/-- A verifier falls back at the first of two calls. Without an HMAC key it gives the results of one
that is in-process, and with a key it does not. -/
theorem sameResults_iff_sample : ∃ plain keyed,
    new L1Receipt.referenceX { sampleArgs with mode := .inProcess } (List.replicate 32 1) =
      .ok plain ∧
    new L1Receipt.referenceX
      { sampleArgs with signingKey := some (List.replicate 32 0), mode := .inProcess }
      (List.replicate 32 1) = .ok keyed ∧
    results ((machine L1Receipt.referenceX).trace sampleVerifier
        [unreachableCall, sampleCall .averify (some 0) none]) =
      results ((machine L1Receipt.referenceX).trace plain
        [unreachableCall, sampleCall .averify (some 0) none]) ∧
    results ((machine L1Receipt.referenceX).trace sampleVerifier
        [unreachableCall, sampleCall .averify (some 0) none]) ≠
      results ((machine L1Receipt.referenceX).trace keyed
        [unreachableCall, sampleCall .averify (some 0) none]) := by
  obtain ⟨plain, hplain⟩ := exists_new_inProcess none (List.replicate 32 1)
  obtain ⟨keyed, hkeyed⟩ := exists_new_inProcess (some (List.replicate 32 0)) (List.replicate 32 1)
  refine ⟨plain, keyed, hplain, hkeyed, ?_, fun h => ?_⟩
  · exact (@sameResults_iff _ sampleArgs _ [] _ _ _ _ rfl hplain mode_unreachableCall rfl
      fun hne => absurd rfl hne).mpr (.inl (.inl rfl))
  · have hapart : ∀ call ∈ [unreachableCall, sampleCall .averify (some 0) none],
        SignsApart L1Receipt.referenceX [denyAll] (List.replicate 32 1) (List.replicate 32 0)
          call.readings call.command :=
      List.forall_mem_cons.mpr ⟨signsApart_sample, List.forall_mem_singleton.mpr signsApart_sample⟩
    rcases (@sameResults_iff _ { sampleArgs with signingKey := some (List.replicate 32 0) } _ [] _ _
      _ _ rfl hkeyed mode_unreachableCall rfl fun _ => hapart).mp h with hkey | hnone
    · exact absurd hkey (by decide)
    · -- but the first call returns a result
      exact returns_unreachableCall _ (h ▸ hnone)

/-- No server is up, and the verifier was given an HMAC key: the fallback signs with another. -/
theorem fallback_loses_key : ∃ inProcess,
    new L1Receipt.referenceX { sampleArgs with signingKey := some (List.replicate 32 0) } [] =
      .ok sampleVerifier ∧
    new L1Receipt.referenceX
      { sampleArgs with signingKey := some (List.replicate 32 0), mode := .inProcess }
      (List.replicate 32 1) = .ok inProcess ∧
    (sampleVerifier.answer unreachableCall).1.ProbeFailed ∧
    (sampleVerifier.answer unreachableCall).2.mode = .inProcess ∧
    results ((machine L1Receipt.referenceX).trace sampleVerifier [unreachableCall]) ≠
      results ((machine L1Receipt.referenceX).trace inProcess [unreachableCall]) := by
  obtain ⟨inProcess, hinProcess⟩ :=
    exists_new_inProcess (some (List.replicate 32 0)) (List.replicate 32 1)
  refine ⟨inProcess, rfl, hinProcess,
    ⟨⟨.transportError, text "Cannot connect"⟩, by decide +kernel⟩, mode_unreachableCall,
    fun h => ?_⟩
  have hapart : ∀ call ∈ [unreachableCall], SignsApart L1Receipt.referenceX [denyAll]
      (List.replicate 32 1) (List.replicate 32 0) call.readings call.command := fun call hcall => by
    rw [List.mem_singleton.mp hcall]
    exact signsApart_sample
  have hruns := @forall₂_alike _ { sampleArgs with signingKey := some (List.replicate 32 0) } _ []
    _ _ _ _ rfl hinProcess mode_unreachableCall rfl (fun _ => hapart)
  rcases (results_eq_iff hruns).mp h with hsame | hnone
  · exact absurd hsame (by decide)
  · -- but the call returns a result
    exact returns_unreachableCall _ (h ▸ hnone)

end Verifier
