import CcsVerifier.Client.Agreement

/-!
# The verifier that finds its server

`Verifier` verifies out-of-process or in-process. In auto mode the first call decides which, by
connecting to a server; an event loop that cannot be run counts as a connection that failed.

* `Verifier.answer`: what a call of `verify` or `averify` comes to, and what it leaves behind.
* `Verifier.resolveMode_cases`: how the mode is resolved.
* `Verifier.neverDowngrades`: outside of running event loops a command is evaluated in-process only
  after a connection has failed.
* `Verifier.downgrades_inside_loop`: inside of one it is evaluated so without an attempt.
-/

/-- `mode` -/
inductive VerifierMode where
  | auto
  | outOfProcess
  | inProcess
  /-- Any other string. -/
  | other
deriving DecidableEq

/-- The arguments of `Verifier`. The transport is part of what a connection meets. -/
structure VerifierArgs where
  /-- `rules` -/
  rules : List Rule
  /-- `signing_key` -/
  signingKey : Option Bytes
  /-- `l1_signing_key` -/
  l1SigningKey : Option Bytes
  /-- `mode` -/
  mode : VerifierMode
  /-- `timeout_ms` -/
  timeoutMs : ℤ
  /-- `require_oop` -/
  requireOop : Bool

namespace VerifierServer

/-- `signing_key or secrets.token_bytes(32)` -/
def signingKeyOr (signingKey : Option Bytes) (token : Bytes) : Bytes :=
  match signingKey with
  | none | some [] => token
  | some key => key

/-- `VerifierServer(rules=rules, signing_key=signing_key, l1_signing_key=l1_signing_key)`. -/
def create (X : Externals) (rules : List Rule) (signingKey l1SigningKey : Option Bytes)
    (token : Bytes) : Except PyExc (VerifierServer X) :=
  if hkey : ∀ key ∈ l1SigningKey, key.length = 32 then
    match hhash : X.computeHash (.ofMembers [(text "rules", .list (rules.map fun r =>
        .str r.typeName)), (text "version", .str serverVersion)]) with
    | .error e => .error e
    | .ok configHash => .ok {
        rules := rules
        signingKey := signingKeyOr signingKey token
        l1SigningKey := l1SigningKey
        maxAuditLog := 100000
        verifierSourceClass := text "ccs_verifier.server.VerifierServer"
        deploymentMode := text "in-process"
        issuer := text "ccs-verifier"
        audience := []
        clockSkewBound := .float (.ofSmallInt 5 abs_clockSkewBound_lt)
        configHash := configHash
        length_l1SigningKey := hkey
        configHash_eq := hhash }
  else PyExc.value (text "An Ed25519 private key is 32 bytes long")

end VerifierServer

/-! ## Event loops -/

/-- The event loops of the thread during a call. -/
structure EventLoops where
  /-- The loop that is running, if the call is made inside of one. -/
  running : Option ℕ
  /-- `asyncio.get_event_loop()`, unless it raises a `RuntimeError`. -/
  current : Option ℕ
  /-- `loop.is_closed()` -/
  closed : ℕ → Bool
  /-- `asyncio.new_event_loop()` -/
  fresh : ℕ
  /-- A running loop is the current one. -/
  current_of_running : running.isSome = true → current = running
  /-- A new loop is open. -/
  closed_fresh : closed fresh = false

namespace EventLoops

variable (loops : EventLoops)

/-- The current loop, or a new one when there is none that is open. -/
def currentOrNew : ℕ :=
  match loops.current with
  | some loop => if loops.closed loop then loops.fresh else loop
  | none => loops.fresh

/-- `_get_loop()` of a verifier with the given `_loop`. -/
def getLoop (own : Option ℕ) : ℕ :=
  match own with
  | some loop => if loops.closed loop then loops.currentOrNew else loop
  | none => loops.currentOrNew

/-- The `RuntimeError` of `loop.run_until_complete`, which is raised before anything is run. -/
def refusal (loop : ℕ) : Option PyExc :=
  if loops.running = some loop then
    some ⟨.runtimeError, text "This event loop is already running"⟩
  else if loops.running.isSome then
    some ⟨.runtimeError, text "Cannot run the event loop while another loop is running"⟩
  else none

/-- The loop of a verifier is open, so running it is not refused for being closed. -/
theorem closed_getLoop (own : Option ℕ) : loops.closed (loops.getLoop own) = false := by
  -- a loop that is closed is replaced by a new one at both places
  have hcurrent : loops.closed loops.currentOrNew = false := by
    unfold currentOrNew
    split
    · next loop _ =>
      by_cases hclosed : loops.closed loop = true
      · rw [if_pos hclosed]
        exact loops.closed_fresh
      · rw [if_neg hclosed]
        exact Bool.eq_false_iff.mpr hclosed
    · exact loops.closed_fresh
  unfold getLoop
  split
  · next loop =>
    by_cases hclosed : loops.closed loop = true
    · rw [if_pos hclosed]
      exact hcurrent
    · rw [if_neg hclosed]
      exact Bool.eq_false_iff.mpr hclosed
  · exact hcurrent

/-- A loop is run exactly where no loop is running. -/
theorem refusal_eq_none_iff {loop : ℕ} : loops.refusal loop = none ↔ loops.running = none := by
  unfold refusal
  cases hrunning : loops.running with
  | none => simp
  | some l =>
    split_ifs <;> simp_all

end EventLoops

/-! ## The verifier -/

/-- The attributes of a `Verifier`. -/
structure Verifier (X : Externals) where
  /-- `_rules` -/
  rules : List Rule
  /-- `_mode` -/
  mode : VerifierMode
  /-- `_l1_signing_key` -/
  l1SigningKey : Option Bytes
  /-- `_require_oop` -/
  requireOop : Bool
  /-- `_client` -/
  client : Option (VerifierClient × ClientState)
  /-- `_server` -/
  server : Option (VerifierServer X × ServerState)
  /-- `_loop` -/
  loop : Option ℕ
  /-- `_oop_available` -/
  oopAvailable : Bool
  /-- There is a client in out-of-process mode. -/
  client_of_mode : mode = .outOfProcess → client.isSome = true
  /-- There is a server in in-process mode. -/
  server_of_mode : mode = .inProcess → server.isSome = true

/-- Where a command is evaluated. -/
inductive Evaluator where
  /-- By the server that the client is connected to. -/
  | outOfProcess
  /-- By the server that the verifier has constructed. -/
  | inProcess
deriving DecidableEq

/-- The two entry points. -/
inductive EntryPoint where
  | verify
  | averify
deriving DecidableEq

namespace Verifier

/-- A call of `verify` or `averify`, with what it meets. -/
structure Call where
  /-- The method that is called. -/
  entry : EntryPoint
  /-- `command` -/
  command : Command
  /-- The event loops. -/
  loops : EventLoops
  /-- How connecting to a server fails, if it does. -/
  connect : Option PyExc
  /-- What the attempts of a client meet. -/
  met : ℕ → Attempt
  /-- What a server reads while it verifies. -/
  readings : CallReadings
  /-- `secrets.token_bytes(32)` -/
  token : Bytes

/-- What a call comes to. -/
structure Answer where
  /-- How connecting to a server has ended, if resolving the mode has come to it. -/
  probed : Option (Option PyExc)
  /-- Where the command is evaluated, if it is. -/
  evaluatedBy : Option Evaluator
  /-- What the call returns or raises. -/
  outcome : Except PyExc VerificationResult

/-- A connection to a server was attempted and failed. -/
def Answer.ProbeFailed (a : Answer) : Prop := ∃ e, a.probed = some (some e)

variable {X : Externals}

/-- `Verifier(...)`: a verifier that is in-process has its server at once, one that is
out-of-process its client. -/
def new (X : Externals) (args : VerifierArgs) (token : Bytes) : Except PyExc (Verifier X) :=
  match args.mode with
  | .inProcess =>
    match VerifierServer.create X args.rules args.signingKey args.l1SigningKey token with
    | .error e => .error e
    | .ok srv => .ok ⟨args.rules, .inProcess, args.l1SigningKey, args.requireOop, none,
        some (srv, .init), none, false, nofun, fun _ => rfl⟩
  | .outOfProcess => .ok ⟨args.rules, .outOfProcess, args.l1SigningKey, args.requireOop,
      some (⟨args.timeoutMs, true, 3⟩, .init), none, none, false, fun _ => rfl, nofun⟩
  | .auto => .ok ⟨args.rules, .auto, args.l1SigningKey, args.requireOop, none, none, none, false,
      nofun, nofun⟩
  | .other => .ok ⟨args.rules, .other, args.l1SigningKey, args.requireOop, none, none, none, false,
      nofun, nofun⟩

/-- What `_resolve_mode` comes to. -/
structure Resolution (X : Externals) where
  /-- How connecting to a server has ended, if it was tried. -/
  probed : Option (Option PyExc)
  /-- Whether it raises. -/
  outcome : Except PyExc Unit
  /-- The verifier after it. -/
  verifier : Verifier X

/-- The `except` clause of `_resolve_mode`: fall back to a server in the same process. -/
def fallBack (v : Verifier X) (probed : Option (Option PyExc)) (token : Bytes) : Resolution X :=
  if v.requireOop then
    ⟨probed, .error ⟨.runtimeError,
      text "Out-of-process verifier server not found and require_oop=True. "
        ++ text "Refusing to fall back to in-process verification. "
        ++ text "Start a verifier server or set require_oop=False."⟩, v⟩
  else
    match VerifierServer.create X v.rules none v.l1SigningKey token with
    | .error e => ⟨probed, .error e, v⟩
    | .ok srv => ⟨probed, .ok (), { v with
        server := some (srv, .init)
        oopAvailable := false
        mode := .inProcess
        client_of_mode := nofun
        server_of_mode := fun _ => rfl }⟩

/-- `_resolve_mode()` -/
def resolveMode (v : Verifier X) (call : Call) : Resolution X :=
  if v.mode ≠ .auto then ⟨none, .ok (), v⟩
  else
    let loop := call.loops.getLoop v.loop
    let v := { v with loop := some loop }
    match call.loops.refusal loop, call.connect with
    | some _, _ => v.fallBack none call.token
    | none, some e =>
      -- a cancellation is no `Exception`
      if e.kind = .cancelledError then ⟨some (some e), .error e, v⟩
      else v.fallBack (some (some e)) call.token
    | none, none => ⟨some none, .ok (), { v with
        client := some (⟨1000, true, 3⟩, ⟨true, some []⟩)
        oopAvailable := true
        mode := .outOfProcess
        client_of_mode := fun _ => rfl
        server_of_mode := nofun }⟩

/-- The end of a call: the command goes to the client or to the server, unless the loop refuses to
run them. -/
def evaluate (v : Verifier X) (call : Call) (probed : Option (Option PyExc))
    (refusal : Option PyExc) : Answer × Verifier X :=
  match v.client, v.mode with
  | some (cl, s), .outOfProcess =>
    match refusal with
    | some e => (⟨probed, none, .error e⟩, v)
    | none =>
      let verification := cl.verify X call.command call.met s
      (⟨probed, some .outOfProcess, verification.outcome⟩,
        { v with client := some (cl, verification.client), client_of_mode := fun _ => rfl })
  | _, _ =>
    match v.server, refusal with
    | none, _ => (⟨probed, none, .error ⟨.attributeError,
        text "'NoneType' object has no attribute 'verify'"⟩⟩, v)
    | some _, some e => (⟨probed, none, .error e⟩, v)
    | some (srv, s), none =>
      let (outcome, s) := srv.verify call.readings call.command s
      (⟨probed, some .inProcess, outcome⟩,
        { v with server := some (srv, s), server_of_mode := fun _ => rfl })

/-- The call after the mode has been resolved: `verify` runs its loop, `averify` does not. -/
def dispatch (v : Verifier X) (call : Call) (probed : Option (Option PyExc)) : Answer × Verifier X :=
  match call.entry with
  | .verify =>
    let loop := call.loops.getLoop v.loop
    { v with loop := some loop }.evaluate call probed (call.loops.refusal loop)
  | .averify => v.evaluate call probed none

/-- A call of `verify` or `averify`. -/
def answer (v : Verifier X) (call : Call) : Answer × Verifier X :=
  let resolution := v.resolveMode call
  match resolution.outcome with
  | .error e => (⟨resolution.probed, none, .error e⟩, resolution.verifier)
  | .ok () => resolution.verifier.dispatch call resolution.probed

/-- A verifier and its calls. -/
def machine (X : Externals) : Machine (Verifier X) Call Answer := ⟨answer⟩

/-- A call in a run. -/
abbrev Event (X : Externals) := Machine.Event (Verifier X) Call Answer

/-! ## Resolving the mode -/

/-- How the mode of a verifier is resolved. -/
inductive Resolves (v : Verifier X) (call : Call) : Resolution X → Prop
  /-- The mode has been resolved before. -/
  | resolved (hmode : v.mode ≠ .auto) : Resolves v call ⟨none, .ok (), v⟩
  /-- A connection is made. -/
  | connects {w : Verifier X} (hmode : v.mode = .auto) (hrunning : call.loops.running = none)
      (hconnect : call.connect = none) (hw : w.mode = .outOfProcess) :
      Resolves v call ⟨some none, .ok (), w⟩
  /-- The verifier falls back to a server of its own: a connection was attempted and failed, or a
  loop was running. -/
  | fallsBack {w : Verifier X} {srv : VerifierServer X} {probed : Option (Option PyExc)}
      (hmode : v.mode = .auto)
      (hprobed : call.loops.running ≠ none ∨ ∃ e, probed = some (some e))
      (hcreate : VerifierServer.create X v.rules none v.l1SigningKey call.token = .ok srv)
      (hw : w.mode = .inProcess) (hserver : w.server = some (srv, .init)) :
      Resolves v call ⟨probed, .ok (), w⟩
  /-- The mode stays unresolved. -/
  | raises {w : Verifier X} {probed : Option (Option PyExc)} {e : PyExc} (hmode : v.mode = .auto)
      (hw : w.mode = .auto) : Resolves v call ⟨probed, .error e, w⟩

/-- The fallback of a verifier in auto mode. -/
theorem resolves_fallBack {v w : Verifier X} {call : Call} {probed : Option (Option PyExc)}
    (hmode : v.mode = .auto) (hw : w.mode = .auto) (hrules : w.rules = v.rules)
    (hkey : w.l1SigningKey = v.l1SigningKey)
    (hprobed : call.loops.running ≠ none ∨ ∃ e, probed = some (some e)) :
    Resolves v call (w.fallBack probed call.token) := by
  unfold fallBack
  split
  · exact .raises hmode hw
  rw [hrules, hkey]
  split
  · exact .raises hmode hw
  next srv hcreate =>
  exact .fallsBack hmode hprobed hcreate rfl rfl

/-- What resolving the mode does is one of these. -/
theorem resolveMode_cases (v : Verifier X) (call : Call) :
    Resolves v call (v.resolveMode call) := by
  unfold resolveMode
  split_ifs with hmode
  · exact .resolved hmode
  rw [not_not] at hmode
  dsimp only
  split
  -- the loop refuses, so nothing was tried
  · next refused hrefused =>
    refine resolves_fallBack hmode hmode rfl rfl (.inl fun hnone => ?_)
    rw [(EventLoops.refusal_eq_none_iff _).mpr hnone] at hrefused
    cases hrefused
  -- the connection has failed
  · next e _ hconnect =>
    split_ifs
    · exact .raises hmode hmode
    · exact resolves_fallBack hmode hmode rfl rfl (.inr ⟨e, rfl⟩)
  -- the server is there
  · next hrefused hconnect =>
    exact .connects hmode ((EventLoops.refusal_eq_none_iff _).mp hrefused) hconnect rfl

/-- Evaluating a command leaves the mode alone, and in out-of-process mode the client gets it. -/
theorem evaluate_mode (v : Verifier X) (call : Call) (probed : Option (Option PyExc))
    (refusal : Option PyExc) :
    (v.evaluate call probed refusal).2.mode = v.mode ∧
      (v.evaluate call probed refusal).1.probed = probed ∧
      ((v.evaluate call probed refusal).1.evaluatedBy = some .inProcess → v.mode ≠ .outOfProcess) := by
  unfold evaluate
  split
  · split
    · exact ⟨rfl, rfl, nofun⟩
    · exact ⟨rfl, rfl, nofun⟩
  · next hnone =>
    -- out of process there is a client, which the first branch would have used
    have hmode : v.mode ≠ .outOfProcess := fun h => by
      obtain ⟨⟨cl, s⟩, hclient⟩ := Option.isSome_iff_exists.mp (v.client_of_mode h)
      exact hnone cl s hclient h
    split
    · exact ⟨rfl, rfl, fun _ => hmode⟩
    · exact ⟨rfl, rfl, fun _ => hmode⟩
    · exact ⟨rfl, rfl, fun _ => hmode⟩

/-- Evaluating a command keeps the mode. -/
theorem dispatch_mode (v : Verifier X) (call : Call) (probed : Option (Option PyExc)) :
    (v.dispatch call probed).2.mode = v.mode ∧ (v.dispatch call probed).1.probed = probed ∧
      ((v.dispatch call probed).1.evaluatedBy = some .inProcess → v.mode ≠ .outOfProcess) := by
  unfold dispatch
  split
  · exact evaluate_mode { v with loop := some (call.loops.getLoop v.loop) } call probed _
  · exact evaluate_mode v call probed none

/-- A call leaves the mode as it was resolved, and evaluates the command in-process only if it was
not resolved to out-of-process. -/
theorem answer_mode (v : Verifier X) (call : Call) :
    (v.answer call).2.mode = (v.resolveMode call).verifier.mode ∧
      (v.answer call).1.probed = (v.resolveMode call).probed ∧
      ((v.answer call).1.evaluatedBy = some .inProcess →
        (∃ u, (v.resolveMode call).outcome = .ok u) ∧
          (v.resolveMode call).verifier.mode ≠ .outOfProcess) := by
  unfold answer
  dsimp only
  split
  · exact ⟨rfl, rfl, nofun⟩
  · next hok =>
    obtain ⟨hmode, hprobed, heval⟩ := dispatch_mode (v.resolveMode call).verifier call
      (v.resolveMode call).probed
    exact ⟨hmode, hprobed, fun h => ⟨⟨_, hok⟩, heval h⟩⟩

/-! ## Runs -/

/-- A run without a downgrade. -/
structure NeverDowngrades (run : List (Event X)) : Prop where
  /-- A command is evaluated in-process only if by then a connection was attempted and failed. -/
  attempted : ∀ past e later, run = past ++ e :: later →
    e.output.evaluatedBy = some .inProcess → ∃ p ∈ past ++ [e], p.output.ProbeFailed
  /-- Once the verifier has resolved to out-of-process, no later command is evaluated in-process. -/
  keeps : ∀ past e later, run = past ++ e :: later → e.after.mode = .outOfProcess →
    ∀ p ∈ later, p.output.evaluatedBy ≠ some .inProcess

/-- A call that finds the mode unresolved is made where no event loop is running. -/
def ResolvesOutside (e : Event X) : Prop :=
  e.before.mode = .auto → e.input.loops.running = none

/-- A verifier that is in-process has seen a connection fail. -/
structure ResolvedBy (past : List (Event X)) (v : Verifier X) : Prop where
  /-- The mode is one of the three. -/
  ne_other : v.mode ≠ .other
  /-- In-process mode comes from a failed connection. -/
  probeFailed : v.mode = .inProcess → ∃ p ∈ past, p.output.ProbeFailed

/-- A call outside of running loops resolves to in-process mode only after a connection has
failed. -/
theorem ResolvedBy.step {past : List (Event X)} {v : Verifier X} (h : ResolvedBy past v) (call : Call)
    (houtside : ResolvesOutside ((machine X).event v call)) :
    ResolvedBy (past ++ [(machine X).event v call]) ((machine X).step v call).2 := by
  obtain ⟨hmode, hprobed, -⟩ := answer_mode v call
  have hcases := resolveMode_cases v call
  generalize v.resolveMode call = r at hmode hprobed hcases
  cases hcases with
  | resolved _ =>
    refine ⟨fun hother => h.ne_other (hmode.symm.trans hother), fun hin => ?_⟩
    obtain ⟨p, hp, hfailed⟩ := h.probeFailed (hmode.symm.trans hin)
    exact ⟨p, List.mem_append_left _ hp, hfailed⟩
  | connects _ _ _ hw =>
    have hafter : ((machine X).step v call).2.mode = .outOfProcess := hmode.trans hw
    exact ⟨by rw [hafter]; nofun, by rw [hafter]; nofun⟩
  | fallsBack hauto hfailed _ hw _ =>
    have hafter : ((machine X).step v call).2.mode = .inProcess := hmode.trans hw
    refine ⟨by rw [hafter]; nofun, fun _ => ?_⟩
    -- outside a running loop only a failed connection makes it fall back
    obtain ⟨e, rfl⟩ := hfailed.resolve_left (not_not.mpr (houtside hauto))
    exact ⟨_, List.mem_append_right _ (List.mem_singleton_self _), e, hprobed⟩
  | raises _ hw =>
    have hafter : ((machine X).step v call).2.mode = .auto := hmode.trans hw
    exact ⟨by rw [hafter]; nofun, by rw [hafter]; nofun⟩

/-- A verifier in out-of-process mode stays in it and evaluates nothing in-process. -/
theorem outOfProcess_forever {v : Verifier X} (h : v.mode = .outOfProcess) (calls : List Call) :
    ∀ e ∈ (machine X).trace v calls, e.output.evaluatedBy ≠ some .inProcess := by
  induction calls generalizing v with
  | nil => simp
  | cons call calls ih =>
    have hresolve : v.resolveMode call = ⟨none, .ok (), v⟩ := by
      rw [resolveMode, if_pos (by rw [h]; nofun)]
    obtain ⟨hmode, -, heval⟩ := answer_mode v call
    rw [hresolve] at hmode heval
    exact List.forall_mem_cons.mpr ⟨fun hin => (heval hin).2 h, ih (hmode.trans h)⟩

/-- A verifier in auto mode never downgrades in a run in which the mode is resolved outside of
running event loops. -/
theorem neverDowngrades {args : VerifierArgs} {token : Bytes} {v : Verifier X}
    (hauto : args.mode = .auto) (hnew : new X args token = .ok v) (calls : List Call)
    (houtside : ∀ e ∈ (machine X).trace v calls, ResolvesOutside e) :
    NeverDowngrades ((machine X).trace v calls) := by
  have hv : v.mode = .auto := by
    rw [new, hauto] at hnew
    cases hnew
    rfl
  constructor
  · intro past e later hrun hin
    obtain ⟨xs, call, ys, rfl, rfl, rfl, -⟩ := Machine.exists_of_trace_eq_append _ hrun
    rw [← Machine.trace_concat]
    have hguard : ∀ e ∈ (machine X).trace v (xs ++ [call]), ResolvesOutside e := by
      rw [Machine.trace_concat]
      intro e he
      apply houtside
      rw [hrun]
      exact List.mem_append.mpr ((List.mem_append.mp he).imp_right fun hlast =>
        List.mem_cons.mpr (.inl (List.mem_singleton.mp hlast)))
    have hinit : ResolvedBy [] v := ⟨by rw [hv]; nofun, by rw [hv]; nofun⟩
    have hresolved := Machine.run_induction_of_guard hinit
      (fun past w i h hout => h.step i hout) (xs ++ [call]) hguard
    apply hresolved.probeFailed
    rw [Machine.final_concat]
    -- the command was evaluated, so the mode was resolved, and not to out-of-process
    have hcases := resolveMode_cases ((machine X).final v xs) call
    obtain ⟨hmode, -, heval⟩ := answer_mode ((machine X).final v xs) call
    obtain ⟨⟨u, hok⟩, hne⟩ := heval hin
    have hbefore := Machine.run_induction_of_guard hinit (fun past w i h hout => h.step i hout) xs
      (fun e he => houtside e (by rw [hrun]; exact List.mem_append_left _ he))
    refine hmode.trans ?_
    generalize ((machine X).final v xs).resolveMode call = r at hcases hok hne
    cases hcases with
    | resolved hresolved =>
      cases hfinal : ((machine X).final v xs).mode with
      | auto => exact absurd hfinal hresolved
      | outOfProcess => exact absurd hfinal hne
      | inProcess => rfl
      | other => exact absurd hfinal hbefore.ne_other
    | connects _ _ _ hw => exact absurd hw hne
    | fallsBack _ _ _ hw _ => exact hw
    | raises _ _ => cases hok
  · intro past e later hrun hmode
    obtain ⟨xs, call, ys, -, -, -, rfl⟩ := Machine.exists_of_trace_eq_append _ hrun
    exact outOfProcess_forever hmode ys

/-- The arguments of a verifier in auto mode with one rule. -/
def sampleArgs : VerifierArgs := ⟨[VerifierServer.denyAll], none, none, .auto, 5000, false⟩

/-- That verifier before its first call. -/
def sampleVerifier : Verifier L1Receipt.referenceX :=
  ⟨[VerifierServer.denyAll], .auto, none, false, none, none, none, false, nofun, nofun⟩

/-- The sample is constructed. -/
theorem new_sampleArgs (token : Bytes) : new L1Receipt.referenceX sampleArgs token =
    .ok sampleVerifier := rfl

/-- The event loops of a call that is made outside of any, or inside of the given one. -/
def sampleLoops (running : Option ℕ) : EventLoops where
  running := running
  current := running
  closed _ := false
  fresh := 1
  current_of_running _ := rfl
  closed_fresh := rfl

/-- A call with the sample command. -/
def sampleCall (entry : EntryPoint) (running : Option ℕ) (connect : Option PyExc) : Call where
  entry := entry
  command := VerifierClient.sampleCommand
  loops := sampleLoops running
  connect := connect
  met := VerifierClient.sampleAttempts
  readings := VerifierServer.readingsAtZero
  token := List.replicate 32 1

/-- No server is up at the first of two calls outside of event loops. -/
theorem neverDowngrades_sample : NeverDowngrades ((machine L1Receipt.referenceX).trace sampleVerifier
    [sampleCall .verify none (some ⟨.transportError, text "Cannot connect"⟩),
      sampleCall .verify none none]) := by
  refine neverDowngrades rfl (new_sampleArgs []) _ fun e he _ => ?_
  obtain ⟨w, call, hcall, rfl⟩ := Machine.exists_of_mem_trace _ he
  rcases List.mem_cons.mp hcall with rfl | hcall
  · rfl
  · rw [List.mem_singleton.mp hcall]
    rfl

/-- A server is up, but the first call awaits `averify` inside of a running event loop: the verifier
falls back without an attempt to connect. -/
theorem downgrades_inside_loop :
    new L1Receipt.referenceX sampleArgs [] = .ok sampleVerifier ∧ sampleArgs.mode = .auto ∧
    sampleArgs.requireOop = false ∧ (sampleCall .averify (some 0) none).connect = none ∧
    (sampleVerifier.answer (sampleCall .averify (some 0) none)).1.probed = none ∧
    (sampleVerifier.answer (sampleCall .averify (some 0) none)).1.evaluatedBy = some .inProcess ∧
    (sampleVerifier.answer (sampleCall .averify (some 0) none)).2.mode = .inProcess ∧
    ¬NeverDowngrades ((machine L1Receipt.referenceX).trace sampleVerifier
      [sampleCall .averify (some 0) none]) := by
  have hprobed : (sampleVerifier.answer (sampleCall .averify (some 0) none)).1.probed = none := by
    decide +kernel
  have hin : (sampleVerifier.answer (sampleCall .averify (some 0) none)).1.evaluatedBy =
      some .inProcess := by decide +kernel
  refine ⟨rfl, rfl, rfl, rfl, hprobed, hin, by decide +kernel, fun h => ?_⟩
  -- no connection was tried before the call was evaluated in process
  obtain ⟨p, hp, e, hfailed⟩ := h.attempted [] _ [] rfl hin
  rw [List.nil_append, List.mem_singleton] at hp
  rw [hp] at hfailed
  exact absurd (hprobed.symm.trans hfailed) nofun

end Verifier
