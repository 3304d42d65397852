import CcsVerifier.Client.Recovery

/-!
# How often a command is executed

`verify` writes its request again when an attempt fails, and the server executes every request that
reaches it, also when the answer is never read. A call has a number of attempts in hand when it gets
the lock, and pays one for every request that it writes.

* `Holder.attempts`, `Session.inHand`: the attempts that the call with the lock may still make.
* `Session.Spends`: what a step does to them.
* `VerifierClient.countP_requests_le`: the requests are paid for by the calls.
* `VerifierClient.executes_at_most`: the server executes no command more often than the calls for it
  can account for.
-/

/-- The command of a call, as the server gets it. -/
def ClientCall.command? : ClientCall → Option Command
  | .verify c => some c.reloaded
  | _ => none

/-- The number of requests that the call may still write. -/
def Holder.attempts (h : Holder) : ℕ := if h.phase = .ready then h.left + 1 else h.left

namespace Session

/-- The call that has got the lock in a step. -/
def Output.acquired? : Output → Option ClientCall
  | .acquired q => some q
  | _ => none

/-- The request that a step has written. -/
def Output.request? : Output → Option PyVal
  | .wrote _ request => some request
  | _ => none

/-- The connection that an output is about. -/
def Output.connection? : Output → Option ℕ
  | .wrote k _ | .handled k _ => some k
  | _ => none

/-- A call of the server was made for a message of the connection that the output is about. -/
theorem Output.exists_handledOn {o : Output} {p : VerifierServer.Call → Bool}
    (h : ((o.handled?.bind fun done => done.2.call).map p).getD false = true) :
    ∃ k, o.connection? = some k ∧
      ((o.handledOn k).map fun h => h.call.any p).getD false = true := by
  cases o with
  | handled k done =>
    refine ⟨k, rfl, ?_⟩
    rw [Output.handledOn, if_pos rfl]
    change (done.call.map p).getD false = true at h
    cases hcall : done.call with
    | none =>
      rw [hcall] at h
      cases h
    | some call =>
      rw [hcall] at h
      rw [Option.map_some, hcall]
      exact h
  | _ => cases h

/-- A request on a connection is what the output is about. -/
theorem Output.request_of_requestOn {o : Output} {k : ℕ} {Q : PyVal → Bool}
    (h : ((o.requestOn k).map Q).getD false = true) :
    o.request?.any Q = true ∧ o.connection? = some k := by
  cases o with
  | wrote j request =>
    rw [Output.requestOn] at h
    split_ifs at h with hj
    · exact ⟨h, congrArg some hj⟩
    · cases h
  | _ => cases h

/-- The calls that have got the lock. -/
def acquired (run : List Event) : List ClientCall := run.filterMap fun e => e.output.acquired?

/-- The attempts that the calls of a kind may still make: at most one call has the lock. -/
def inHand (p : ClientCall → Bool) (st : Session) : ℕ :=
  match st.holder with
  | some h => if p h.call then h.attempts else 0
  | none => 0

/-- What a step does to the attempts of the call that has the lock. -/
inductive Spends (cl : VerifierClient) (st : Session) : Output → Option Holder → Prop
  /-- A call gets the lock, and all its attempts. -/
  | acquires (q : ClientCall) (hfree : st.holder = none)
      (hattempts : q.isVerify = true → 0 ≤ cl.maxRetries) :
      Spends cl st (.acquired q) (some ⟨q, cl.attemptsLeft q, .ready⟩)
  /-- It writes its request. -/
  | writes {h : Holder} (hholder : st.holder = some h) (hready : h.phase = .ready) (k : ℕ) :
      Spends cl st (.wrote k h.call.request) (some { h with phase := .draining })
  /-- It gets no new ones. -/
  | keeps {o : Output} {holder : Option Holder} (hacquired : o.acquired? = none)
      (hrequest : o.request? = none)
      (hkeeps : ∀ h' ∈ holder, ∃ h ∈ st.holder, h'.call = h.call ∧ h'.attempts ≤ h.attempts) :
      Spends cl st o holder

/-- A step that concerns no call spends nothing. -/
theorem Spends.refl {cl : VerifierClient} {st : Session} {o : Output}
    (hacquired : o.acquired? = none) (hrequest : o.request? = none) :
    Spends cl st o st.holder :=
  .keeps hacquired hrequest fun h hh => ⟨h, hh, rfl, le_rfl⟩

/-- Giving the lock back gives the attempts up. -/
theorem Spends.release {cl : VerifierClient} {st : Session} {o : Output}
    (hacquired : o.acquired? = none) (hrequest : o.request? = none) :
    Spends cl st o none :=
  .keeps hacquired hrequest fun _ hh => by cases hh

/-- What is written is the request of a call. -/
theorem Spends.exists_call {cl : VerifierClient} {st : Session} {o : Output}
    {holder : Option Holder} (h : Spends cl st o holder) {request : PyVal}
    (hrequest : o.request? = some request) :
    ∃ q, request = ClientCall.request q := by
  cases h with
  | acquires => cases hrequest
  | writes => exact ⟨_, (Option.some.inj hrequest).symm⟩
  | keeps _ hnone =>
    rw [hnone] at hrequest
    cases hrequest

end Session

namespace VerifierClient

open Session

variable {X : Externals} {cl : VerifierClient} {srv : VerifierServer X} {st : Session}

/-! ## What a step spends -/

/-- A failed attempt leaves the ones that were left. -/
theorem spends_fail {h : Holder} (hholder : st.holder = some h) (e : PyExc) (st₁ : Session) :
    Spends cl st (cl.fail h e st₁).1 (cl.fail h e st₁).2.holder := by
  unfold fail
  split
  · exact .release rfl rfl
  · exact .release rfl rfl
  · next left _ hleft =>
    -- the next attempt is one of those that were left
    refine .keeps rfl rfl fun h' hh' => ?_
    obtain rfl := Option.some.inj hh'
    refine ⟨h, hholder, rfl, ?_⟩
    rw [Holder.attempts, if_pos rfl, Holder.attempts, hleft]
    split
    · exact Nat.le_succ _
    · exact le_rfl

/-- An attempt pays for the request that it writes. -/
theorem spends_attemptOn {h : Holder} (hholder : st.holder = some h) (hready : h.phase = .ready)
    (connect : Option NetworkFailure) :
    Spends cl st (cl.attemptOn connect h st).1 (cl.attemptOn connect h st).2.holder := by
  unfold attemptOn
  split
  · exact spends_fail hholder _ _
  · split
    · exact spends_fail hholder _ _
    · exact .writes hholder hready _

/-- A step of the server spends nothing. -/
theorem spends_serviceStep (i : Service.Input ℕ) (st st₁ : Session)
    (hholder : st₁.holder = st.holder) :
    Spends cl st (serviceStep srv i st₁).1 (serviceStep srv i st₁).2.holder := by
  have hquiet : (serviceStep srv i st₁).1.acquired? = none ∧
      (serviceStep srv i st₁).1.request? = none := by
    unfold serviceStep
    dsimp only
    split <;> exact ⟨rfl, rfl⟩
  rw [show (serviceStep srv i st₁).2.holder = st.holder from hholder]
  exact .refl hquiet.1 hquiet.2

/-- What a step spends. -/
theorem spends_step (cl : VerifierClient) (srv : VerifierServer X) (st : Session) (i : Input) :
    Spends cl st ((cl.session srv).step st i).1 ((cl.session srv).step st i).2.holder := by
  cases i with
  | acquire q =>
    simp only [session, acquire]
    split_ifs with hholder hverify hnegative
    · exact .refl rfl rfl
    · exact .refl rfl rfl
    -- only `verify` has attempts to spare
    · have hleft : cl.attemptsLeft q = cl.maxRetries.toNat := if_pos hverify
      exact hleft ▸ .acquires q (by simpa using hholder) fun _ => not_lt.mp hnegative
    · have hleft : cl.attemptsLeft q = 0 := if_neg hverify
      exact hleft ▸ .acquires q (by simpa using hholder) fun h => absurd h hverify
  | attempt connect =>
    simp only [session]
    split
    · next h hholder =>
      obtain ⟨hsome, hready⟩ := Option.filter_eq_some_iff.mp hholder
      exact spends_attemptOn hsome (of_decide_eq_true hready) connect
    · exact .refl rfl rfl
  | drained =>
    simp only [session]
    split
    · next h link hholder hlink =>
      obtain ⟨hsome, hphase⟩ := Option.filter_eq_some_iff.mp hholder
      unfold drain
      split
      · exact spends_fail hsome _ _
      -- the request is out: waiting for the response costs no attempt
      · refine .keeps rfl rfl fun h' hh' => ?_
        obtain rfl := Option.some.inj hh'
        have hdraining : h.phase = .draining := of_decide_eq_true hphase
        exact ⟨h, hsome, rfl, by simp [Holder.attempts, hdraining]⟩
    · exact .refl rfl rfl
  | receive time =>
    simp only [session]
    split
    · next h link hholder hlink =>
      obtain ⟨hsome, -⟩ := Option.filter_eq_some_iff.mp hholder
      have hreceives := cl.receives_receiveOn (X := X) time h link st
      generalize cl.receiveOn X time h link st = out at hreceives ⊢
      cases hreceives with
      | lost => exact spends_fail hsome _ _
      | waits => exact .refl rfl rfl
      | fails => exact spends_fail hsome _ _
      | reads => exact .release rfl rfl
    · exact .refl rfl rfl
  | timeout taken =>
    simp only [session]
    split
    · next h hholder =>
      obtain ⟨hsome, -⟩ := Option.filter_eq_some_iff.mp hholder
      exact spends_fail hsome _ _
    · exact .refl rfl rfl
  | cancel taken =>
    simp only [session]
    split
    · exact .release rfl rfl
    · exact .refl rfl rfl
  | send k n =>
    simp only [session]
    split
    · exact .refl rfl rfl
    · exact spends_serviceStep _ _ _ rfl
  | finish k =>
    simp only [session]
    split
    · exact .refl rfl rfl
    · exact spends_serviceStep _ _ _ rfl
  | serve k r => exact spends_serviceStep _ _ _ rfl
  | arrive n => exact .refl rfl rfl
  | eof => exact .refl rfl rfl
  | lose failure => exact .refl rfl rfl

/-- Every request on a connection is that of a call. -/
theorem exists_call_of_mem_requests {inputs : List Input} {k : ℕ} {request : PyVal}
    (h : request ∈ requests k (cl.sessionRun srv inputs)) :
    ∃ q, request = ClientCall.request q := by
  obtain ⟨e, he, hrequest⟩ := List.mem_filterMap.mp h
  obtain ⟨t, i, -, rfl⟩ := Machine.exists_of_mem_trace _ he
  refine (cl.spends_step srv t i).exists_call ?_
  change (((cl.session srv).step t i).1).requestOn k = some request at hrequest
  generalize ((cl.session srv).step t i).1 = o at hrequest ⊢
  cases o with
  | wrote j request' =>
    rw [Output.requestOn] at hrequest
    split_ifs at hrequest
    exact hrequest
  | _ => cases hrequest

/-! ## What is paid for -/

/-- The command that a request asks to verify. -/
theorem requestedCommand_request (time : FiniteBinary64) (q : ClientCall) :
    VerifierServer.requestedCommand time (q.request.reload .compact) = q.command? := by
  cases q with
  | verify c =>
    rw [VerifierServer.requestedCommand, ClientCall.request, c.get_type_reload]
    dsimp only
    rw [if_pos (PyVal.eqStr_iff.mpr rfl), c.ofMessage_reload]
    rfl
  | healthCheck => rfl
  | listRules => rfl
  | getL1PublicKey => rfl

/-- What a step pays for a request of a kind, and what is in hand after it, was in hand before or
was brought in by a call that has got the lock. -/
theorem spends_inHand {p : ClientCall → Bool} (hp : ∀ q, p q = true → q.isVerify = true)
    {Q : PyVal → Bool} (hQ : ∀ q : ClientCall, Q q.request = p q) {o : Output} {st' : Session}
    (h : Spends cl st o st'.holder) :
    (if o.request?.any Q then 1 else 0) + st'.inHand p ≤
      st.inHand p + if o.acquired?.any p then (cl.maxRetries + 1).toNat else 0 := by
  obtain ⟨holder, hholder⟩ : ∃ holder, st'.holder = holder := ⟨_, rfl⟩
  rw [hholder] at h
  unfold inHand
  rw [hholder]
  cases h with
  | acquires q hfree hattempts =>
    cases hq : p q with
    | false => simp [hfree, hq, Output.request?]
    | true =>
      -- a call of `verify` has one attempt more than it may retry
      have hverify := hp q hq
      have hretries := hattempts hverify
      have hleft : cl.attemptsLeft q = cl.maxRetries.toNat := if_pos hverify
      simp only [hfree, hq, Output.request?, Output.acquired?, Option.any_none, Option.any_some,
        Holder.attempts, hleft]
      simp only [Bool.false_eq_true, if_false, if_true]
      omega
  | writes hsome hready k =>
    -- the request is paid with this attempt
    simp only [hsome, Output.request?, Output.acquired?, Option.any_none, Option.any_some, hQ,
      Holder.attempts, hready]
    simp only [Bool.false_eq_true, if_false, if_true, reduceCtorEq]
    split_ifs <;> omega
  | keeps hacquired hrequest hkeeps =>
    simp only [hacquired, hrequest, Option.any_none, Bool.false_eq_true, if_false, zero_add,
      add_zero]
    cases holder with
    | none => exact Nat.zero_le _
    | some h' =>
      obtain ⟨h, hsome, hcall, hle⟩ := hkeeps h' rfl
      rw [Option.mem_def.mp hsome]
      dsimp only
      rw [hcall]
      split
      · exact hle
      · exact le_rfl

/-- The requests of a kind are paid for by the calls that have got the lock. -/
theorem countP_requests_le (cl : VerifierClient) (srv : VerifierServer X) (inputs : List Input)
    {p : ClientCall → Bool} (hp : ∀ q, p q = true → q.isVerify = true) {Q : PyVal → Bool}
    (hQ : ∀ q : ClientCall, Q q.request = p q) :
    ((cl.sessionRun srv inputs).countP fun e => e.output.request?.any Q) ≤
      (cl.maxRetries + 1).toNat * (acquired (cl.sessionRun srv inputs)).countP p := by
  -- the requests of a run are paid for by the attempts of the calls that acquired the lock
  have hpaid := Machine.countP_trace_add_le (M := cl.session srv)
    (fun e => e.output.request?.any Q) (fun e => e.output.acquired?.any p) (inHand p)
    (fun st i => spends_inHand hp hQ (cl.spends_step srv st i)) .init inputs
  rw [show inHand p .init = 0 from rfl, zero_add] at hpaid
  have hacquired : (acquired (cl.sessionRun srv inputs)).countP p =
      (cl.sessionRun srv inputs).countP fun e => e.output.acquired?.any p := by
    rw [acquired, List.countP_filterMap]
    congr 1
    funext e
    cases e.output.acquired? <;> rfl
  rw [hacquired]
  exact (Nat.le_add_right _ _).trans hpaid

/-- On every connection the server executes at most what was requested. -/
theorem countP_handledOn_le (cl : VerifierClient) (srv : VerifierServer X) (inputs : List Input)
    (p : Command → Bool) (time : FiniteBinary64) (k : ℕ) :
    ((handledOn k (cl.sessionRun srv inputs)).countP fun h =>
        h.call.any fun call => p call.command) ≤
      (requests k (cl.sessionRun srv inputs)).countP fun request =>
        (VerifierServer.requestedCommand time (request.reload .compact)).any p := by
  have hordered := cl.handled_in_order srv inputs k
  have hhandled := (cl.paired_run srv inputs).1 k
  -- the messages are the first requests
  have hle : ((handledOn k (cl.sessionRun srv inputs)).map VerifierServer.Handled.message).countP
      (fun msg => (VerifierServer.requestedCommand time msg).any p) ≤
      ((requests k (cl.sessionRun srv inputs)).map (PyVal.reload .compact)).countP
        fun msg => (VerifierServer.requestedCommand time msg).any p :=
    hordered.sublist.countP_le
  rw [List.countP_map, List.countP_map] at hle
  refine (List.countP_mono_left fun h hmem hcall => ?_).trans hle
  obtain ⟨s, s', hdone⟩ := hhandled h hmem
  have hcommand := VerifierServer.command_of_handleMessage hdone
  obtain ⟨request, hrequest, hmessage⟩ := List.mem_map.mp
    (hordered.subset (List.mem_map_of_mem (f := VerifierServer.Handled.message) hmem))
  obtain ⟨q, rfl⟩ := exists_call_of_mem_requests hrequest
  -- the time does not matter for what a client has sent
  rw [← hmessage, requestedCommand_request] at hcommand
  rw [Function.comp_apply, ← hmessage, requestedCommand_request, ← hcommand]
  cases hsome : h.call with
  | none =>
    rw [hsome] at hcall
    cases hcall
  | some call =>
    rw [hsome] at hcall
    exact hcall

/-- Whatever is cancelled, times out or is lost, the server executes the commands of a kind at most
as often as the calls for them that have got the lock can account for, each with its first attempt
and its retries. -/
theorem executes_at_most (cl : VerifierClient) (srv : VerifierServer X) (inputs : List Input)
    (p : Command → Bool) :
    ((calls (cl.sessionRun srv inputs)).countP fun call => p call.command) ≤
      (cl.maxRetries + 1).toNat *
        (acquired (cl.sessionRun srv inputs)).countP fun q => q.command?.any p := by
  have hverify : ∀ q : ClientCall, q.command?.any p = true → q.isVerify = true := fun q h => by
    cases q with
    | verify => rfl
    | _ => cases h
  have hrequests := cl.countP_requests_le srv inputs hverify
    (Q := fun request => (VerifierServer.requestedCommand ⟨0, Representable.zero⟩
      (request.reload .compact)).any p)
    fun q => by rw [requestedCommand_request]
  refine le_trans ?_ hrequests
  rw [calls, List.countP_filterMap]
  -- connection by connection
  refine List.countP_le_of_fibers (fun e => e.output.connection?) fun k => ?_
  cases k with
  | none =>
    rw [List.countP_eq_zero.mpr fun e _ he => by
      obtain ⟨hcall, hnone⟩ := Bool.and_eq_true_iff.mp he
      obtain ⟨j, hsome, -⟩ := Output.exists_handledOn hcall
      cases hsome.symm.trans (of_decide_eq_true hnone)]
    exact Nat.zero_le _
  | some k =>
    have hle := cl.countP_handledOn_le srv inputs p ⟨0, Representable.zero⟩ k
    rw [handledOn, requests, List.countP_filterMap, List.countP_filterMap] at hle
    refine (List.countP_mono_left fun e _ he => ?_).trans
      (hle.trans (List.countP_mono_left fun e _ he => ?_))
    · obtain ⟨hcall, hk⟩ := Bool.and_eq_true_iff.mp he
      obtain ⟨j, hsome, hhandled⟩ := Output.exists_handledOn hcall
      cases hsome.symm.trans (of_decide_eq_true hk)
      exact hhandled
    · obtain ⟨hrequest, hk⟩ := Output.request_of_requestOn he
      exact Bool.and_eq_true_iff.mpr ⟨hrequest, decide_eq_true hk⟩

end VerifierClient
