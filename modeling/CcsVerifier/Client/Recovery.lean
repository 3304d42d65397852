import CcsVerifier.Client.Linearization

/-!
# Calls after a failure

Whatever has happened in a session, a client whose connection is gone and whose lock is free opens a
new connection with its next call, and nothing of the old ones reaches it: a call that nothing
disturbs returns what the server answers in its present state.

* `Session.Fresh`, `VerifierClient.fresh_run`: connections that are still to be opened.
* `VerifierClient.run_undisturbed`: a call on a new connection that nothing disturbs.
* `VerifierClient.recovers`: such a call returns.
-/

open MessageFrame

namespace Session

/-- Nothing has been sent or received on the connections that are still to be opened. -/
def Fresh (st : Session) : Prop :=
  ∀ k, st.opened ≤ k → st.service.connections k = .init ∧ st.outgoing k = []

/-- The connections are left alone, but for the opening of new ones. -/
structure Keeps (st st' : Session) : Prop where
  /-- The side of the server. -/
  service : st'.service = st.service
  /-- The bytes that are on their way. -/
  outgoing : st'.outgoing = st.outgoing
  /-- The number of connections. -/
  opened : st.opened ≤ st'.opened

/-- What leaves the connections alone leaves those to come untouched. -/
theorem Fresh.of_keeps {st st' : Session} (h : st.Fresh) (hkeeps : Keeps st st') : st'.Fresh :=
  fun k hk => by
    rw [hkeeps.service, hkeeps.outgoing]
    exact h k (hkeeps.opened.trans hk)

end Session

namespace VerifierClient

open Session

variable {X : Externals} {cl : VerifierClient} {srv : VerifierServer X} {st : Session}

/-! ## Connections that are still to be opened -/

/-- A failed attempt leaves the connections alone. -/
theorem keeps_fail (h : Holder) (e : PyExc) {st₁ : Session} (hkeeps : Keeps st st₁) :
    Keeps st (cl.fail h e st₁).2 := by
  have hends := cl.failEnds_fail h e st₁
  generalize (cl.fail h e st₁).1 = o at hends
  generalize (cl.fail h e st₁).2 = st' at hends
  cases hends <;> exact ⟨hkeeps.service, hkeeps.outgoing, hkeeps.opened⟩

theorem keeps_refl (st : Session) : Keeps st st := ⟨rfl, rfl, le_rfl⟩

/-- A request is written to a connection that has been opened. -/
theorem fresh_attemptOn (hfresh : st.Fresh)
    (hnumber : ∀ link, st.link = some link → link.number < st.opened)
    (connect : Option NetworkFailure) (h : Holder) : (cl.attemptOn connect h st).2.Fresh := by
  -- what is written does not concern the connections that are still to be opened
  have hgoes : ∀ {link : Link} {st₁ : Session}, Keeps st st₁ → link.number < st₁.opened →
      cl.ensureLink connect st = (.ok link, st₁) → (cl.attemptOn connect h st).2.Fresh := by
    intro link st₁ hkeeps hlt hensure
    rw [attemptOn, hensure]
    dsimp only
    split
    · exact hfresh.of_keeps (keeps_fail h _ hkeeps)
    · intro k hk
      obtain ⟨hconn, hout⟩ := hfresh.of_keeps hkeeps k hk
      refine ⟨hconn, ?_⟩
      dsimp only
      rw [Function.update_of_ne (hlt.trans_le hk).ne', hout]
  rcases cl.ensureLink_cases connect st with ⟨e, he⟩ | ⟨link, hlink, hold⟩ | hnew
  · rw [attemptOn, he]
    exact hfresh.of_keeps (keeps_fail h e (keeps_refl st))
  · exact hgoes (keeps_refl st) (hnumber link (openLink?_eq_some_iff.mp hlink).2.1) hold
  · refine hgoes ?_ ?_ hnew
    · exact ⟨rfl, rfl, Nat.le_succ _⟩
    · exact Nat.lt_succ_self _

/-- A turn on a connection on which nothing has arrived. -/
theorem serveConnection_init (r : MessageReadings) (s : ServerState) :
    srv.serveConnection r .init s = ((none, .init), s) := rfl

/-- A step leaves the connections alone that are still to be opened. -/
theorem fresh_step (hfresh : st.Fresh)
    (hnumber : ∀ link, st.link = some link → link.number < st.opened) (i : Input) :
    ((cl.session srv).step st i).2.Fresh := by
  cases i with
  | acquire q =>
    simp only [session, acquire]
    split_ifs <;> exact hfresh
  | attempt connect =>
    simp only [session]
    split
    · next h _ => exact fresh_attemptOn hfresh hnumber connect h
    · exact hfresh
  | drained =>
    simp only [session]
    split
    · next h link _ _ =>
      unfold drain
      split
      · exact hfresh.of_keeps (keeps_fail h _ (keeps_refl st))
      · exact hfresh
    · exact hfresh
  | receive time =>
    simp only [session]
    split
    · next h link _ _ =>
      have hreceives := cl.receives_receiveOn (X := X) time h link st
      generalize cl.receiveOn X time h link st = out at hreceives ⊢
      cases hreceives with
      | lost => exact hfresh.of_keeps (keeps_fail h _ (keeps_refl st))
      | waits => exact hfresh
      | fails => exact hfresh.of_keeps (keeps_fail h _ ⟨rfl, rfl, le_rfl⟩)
      | reads => exact hfresh
    · exact hfresh
  | timeout taken =>
    simp only [session]
    split
    · next h _ =>
      exact hfresh.of_keeps (keeps_fail h _ (by cases taken <;> exact ⟨rfl, rfl, le_rfl⟩))
    · exact hfresh
  | cancel taken =>
    simp only [session]
    split
    · refine hfresh.of_keeps ?_
      split
      · cases taken <;> exact ⟨rfl, rfl, le_rfl⟩
      · exact ⟨rfl, rfl, le_rfl⟩
    · exact hfresh
  | send j n =>
    simp only [session]
    split
    · exact hfresh
    · intro k hk
      obtain ⟨hconn, hout⟩ := hfresh k hk
      -- nothing is on its way on such a connection, so nothing is sent on it
      by_cases hj : k = j
      · subst hj
        simp only [serviceStep, VerifierServer.service, Function.update_self, hconn, hout,
          List.take_nil, List.drop_nil]
        exact ⟨rfl, trivial⟩
      · simp only [serviceStep, VerifierServer.service, Function.update_of_ne hj, hconn, hout,
          and_self]
  | finish j =>
    simp only [session]
    split
    · exact hfresh
    · next hopen =>
      -- only connections that were opened come to their end
      have hlt : j < st.opened := by
        rw [Bool.or_eq_true, not_or, decide_eq_true_iff] at hopen
        exact not_le.mp hopen.1
      intro k hk
      obtain ⟨hconn, hout⟩ := hfresh k hk
      simp only [serviceStep, VerifierServer.service,
        Function.update_of_ne (hlt.trans_le hk).ne', hconn, hout, and_self]
  | serve j r =>
    simp only [session]
    intro k hk
    obtain ⟨hconn, hout⟩ := hfresh k hk
    refine ⟨?_, hout⟩
    by_cases hj : k = j
    · subst hj
      simp only [serviceStep, VerifierServer.service, Function.update_self, hconn,
        serveConnection_init]
    · simp only [serviceStep, VerifierServer.service, Function.update_of_ne hj, hconn]
  | arrive n => exact hfresh
  | eof => exact hfresh
  | lose failure => exact hfresh

/-- The connections that are still to be opened are untouched, in every run. -/
theorem fresh_run (cl : VerifierClient) (srv : VerifierServer X) (inputs : List Input) :
    (cl.sessionAfter srv inputs).Fresh := by
  induction inputs using List.reverseRecOn with
  | nil => exact fun k _ => ⟨rfl, rfl⟩
  | append_singleton inputs i ih =>
    rw [sessionAfter, Machine.final_concat]
    exact fresh_step ih (cl.paired_run srv inputs).2.number i

/-! ## A call that nothing disturbs -/

/-- The client opens a new connection with its next call: no call holds the lock, and there is no
open connection. -/
structure Reconnects (cl : VerifierClient) (q : ClientCall) (st : Session) : Prop where
  /-- The lock is free. -/
  free : st.holder = none
  /-- The client has no open connection. -/
  closed : st.openLink? = none
  /-- It may open one. -/
  reconnect : cl.reconnect = true
  /-- It makes an attempt. -/
  attempts : q.isVerify = true → 0 ≤ cl.maxRetries

/-- The number of attempts of a call after the first. -/
def attemptsLeft (cl : VerifierClient) (q : ClientCall) : ℕ :=
  if q.isVerify then cl.maxRetries.toNat else 0

/-- The first steps of a call: its request is written and reaches the server. -/
def sendsRequest (q : ClientCall) (k n : ℕ) : List Input :=
  [.acquire q, .attempt none, .drained, .send k n]

/-- The state in which the server has the request, on a new connection. -/
def afterSending (cl : VerifierClient) (q : ClientCall) (frame : Bytes) (st : Session) :
    Session where
  service := { st.service with
    connections := Function.update st.service.connections st.opened
      (Connection.init.deliver frame) }
  outgoing := Function.update (Function.update st.outgoing st.opened frame) st.opened []
  opened := st.opened + 1
  connected := true
  link := some ⟨st.opened, [], 0, .live⟩
  holder := some ⟨q, cl.attemptsLeft q, .decoding⟩

/-- The request reaches the server. -/
theorem run_sendsRequest (srv : VerifierServer X) (hfresh : st.Fresh) {q : ClientCall}
    (hcalls : cl.Reconnects q st) {frame : Bytes} (hencode : encode q.request = .ok frame) {n : ℕ}
    (hn : frame.length ≤ n) :
    ((cl.session srv).trace st (sendsRequest q st.opened n)).map Machine.Event.output =
        [.acquired q, .wrote st.opened q.request, .idle, .idle] ∧
      (cl.session srv).final st (sendsRequest q st.opened n) = cl.afterSending q frame st := by
  obtain ⟨hconn, hout⟩ := hfresh st.opened le_rfl
  -- the call gets the lock, writes its request, and the bytes are sent
  have hacquire : (cl.session srv).step st (.acquire q) =
      (.acquired q, { st with holder := some ⟨q, cl.attemptsLeft q, .ready⟩ }) := by
    simp only [session, hcalls.free, Option.isSome_none, Bool.false_eq_true, if_false, acquire,
      attemptsLeft]
    split_ifs with hverify hnegative
    · exact absurd (hcalls.attempts hverify) (not_le.mpr hnegative)
    · rfl
    · rfl
  have hclosed : Session.openLink?
      { st with holder := some ⟨q, cl.attemptsLeft q, .ready⟩ } = none := hcalls.closed
  have hattempt : (cl.session srv).step { st with holder := some ⟨q, cl.attemptsLeft q, .ready⟩ }
      (.attempt none) = (.wrote st.opened q.request, { st with
        outgoing := Function.update st.outgoing st.opened frame
        opened := st.opened + 1
        connected := true
        link := some ⟨st.opened, [], 0, .live⟩
        holder := some ⟨q, cl.attemptsLeft q, .draining⟩ }) := by
    have hholder : Session.holder? { st with holder := some ⟨q, cl.attemptsLeft q, .ready⟩ }
        .ready = some ⟨q, cl.attemptsLeft q, .ready⟩ := rfl
    simp only [session, hholder, attemptOn, ensureLink, hclosed, hcalls.reconnect, Bool.not_true,
      Bool.false_eq_true, if_false, hencode, hout, List.nil_append]
  have hsend : (cl.session srv).step { st with
        outgoing := Function.update st.outgoing st.opened frame
        opened := st.opened + 1
        connected := true
        link := some ⟨st.opened, [], 0, .live⟩
        holder := some ⟨q, cl.attemptsLeft q, .decoding⟩ } (.send st.opened n) =
      (.idle, cl.afterSending q frame st) := by
    have hended : Connection.init.ended = false := rfl
    simp only [session, hended, Bool.false_eq_true, if_false, serviceStep, VerifierServer.service,
      Function.update_self, List.take_of_length_le hn, List.drop_of_length_le hn, hconn,
      afterSending]
  constructor
  · simp only [sendsRequest, Machine.trace, Machine.event, hacquire, hattempt, List.map_cons,
      List.map_nil]
    exact congrArg (fun o => [Output.acquired q, .wrote st.opened q.request, .idle, o])
      (congrArg Prod.fst hsend)
  · simp only [sendsRequest, Machine.final, hacquire, hattempt]
    exact congrArg Prod.snd hsend

/-- The turn in which the server handles a request that is alone on its connection. -/
theorem serveConnection_request {msg : PyVal} {frame : Bytes} (hencode : encode msg = .ok frame)
    (r : MessageReadings) (s : ServerState) {done : VerifierServer.Handled} {s' : ServerState}
    (hdone : srv.handleMessage r (msg.reload .compact) s = (done, s')) :
    (srv.serveConnection r (Connection.init.deliver frame) s).1.1 = some done ∧
      (srv.serveConnection r (Connection.init.deliver frame) s).2 = s' ∧
      ∀ back, done.frame = .ok back →
        (srv.serveConnection r (Connection.init.deliver frame) s).1.2 =
          ⟨frame, [], false, back, false⟩ := by
  have hdecode := decodeBytes_encode hencode []
  rw [List.append_nil] at hdecode
  have hconn : Connection.init.deliver frame = ⟨frame, frame, false, [], false⟩ := rfl
  have hwait := awaits_of_ok hdecode
  rw [hconn, VerifierServer.serveConnection]
  simp only [hwait, Bool.not_false, Bool.false_and, Bool.or_self, Bool.false_eq_true, if_false,
    hdecode, hdone]
  -- the whole request has arrived, and the answer is written if it has a frame
  cases hframe : done.frame with
  | error e => exact ⟨rfl, rfl, fun _ h => by cases h⟩
  | ok back =>
    refine ⟨rfl, rfl, fun back' h => ?_⟩
    cases h
    rfl

/-- The server handles the request of the call, in its present state. -/
theorem output_serve (cl : VerifierClient) (r : MessageReadings) {q : ClientCall} {frame : Bytes}
    (hencode : encode q.request = .ok frame) {done : VerifierServer.Handled} {s' : ServerState}
    (hdone : srv.handleMessage r (q.request.reload .compact) st.service.server = (done, s')) :
    ((cl.session srv).step (cl.afterSending q frame st) (.serve st.opened r)).1 =
      .handled st.opened done := by
  obtain ⟨hhandled, -, -⟩ := serveConnection_request hencode r st.service.server hdone
  have hconn : (cl.afterSending q frame st).service.connections st.opened =
      Connection.init.deliver frame := Function.update_self ..
  have hserver : (cl.afterSending q frame st).service.server = st.service.server := rfl
  simp only [session, serviceStep, VerifierServer.service, hconn, hserver, hhandled]

/-- The rest of the call: the server handles the request, and the answer arrives. -/
def getsResponse (k m : ℕ) (r : MessageReadings) (time : FiniteBinary64) : List Input :=
  [.serve k r, .arrive m, .receive time]

/-- The state after the answer has been read. -/
def afterReading (frame back : Bytes) (s' : ServerState) (st : Session) :
    Session where
  service := ⟨s', Function.update st.service.connections st.opened
    ⟨frame, [], false, back, false⟩⟩
  outgoing := Function.update (Function.update st.outgoing st.opened frame) st.opened []
  opened := st.opened + 1
  connected := true
  link := some ⟨st.opened, [], back.length, .live⟩
  holder := none

/-- The answer reaches the call, which returns what it reads. -/
theorem run_getsResponse (cl : VerifierClient) {q : ClientCall} {frame back : Bytes}
    (hencode : encode q.request = .ok frame) {r : MessageReadings} {done : VerifierServer.Handled}
    {s' : ServerState}
    (hdone : srv.handleMessage r (q.request.reload .compact) st.service.server = (done, s'))
    {answer : PyVal} (hframe : done.frame = .ok back) (hback : encode answer = .ok back)
    {m : ℕ} (hm : back.length ≤ m) {time : FiniteBinary64} {value : Returned}
    (hread : q.read X time (answer.reload .compact) = .ok value) :
    ((cl.session srv).trace (cl.afterSending q frame st)
        (getsResponse st.opened m r time)).map Machine.Event.output =
        [.handled st.opened done, .idle, .returned q value] ∧
      (cl.session srv).final (cl.afterSending q frame st) (getsResponse st.opened m r time) =
        afterReading frame back s' st := by
  obtain ⟨hhandled, hserver, hconnection⟩ :=
    serveConnection_request hencode r st.service.server hdone
  -- the server takes its turn, the answer arrives, and the call reads it
  have hserve : (cl.session srv).step (cl.afterSending q frame st) (.serve st.opened r) =
      (.handled st.opened done, { cl.afterSending q frame st with
        service := ⟨s', Function.update st.service.connections st.opened
          ⟨frame, [], false, back, false⟩⟩ }) := by
    have hconn : (cl.afterSending q frame st).service.connections st.opened =
        Connection.init.deliver frame := Function.update_self ..
    have hstate : (cl.afterSending q frame st).service.server = st.service.server := rfl
    have hconns : (cl.afterSending q frame st).service.connections =
        Function.update st.service.connections st.opened (Connection.init.deliver frame) := rfl
    simp only [session, serviceStep, VerifierServer.service, hconn, hstate, hhandled, hserver,
      hconnection back hframe, hconns, Function.update_idem]
  have harrive : (cl.session srv).step { cl.afterSending q frame st with
        service := ⟨s', Function.update st.service.connections st.opened
          ⟨frame, [], false, back, false⟩⟩ } (.arrive m) =
      (.idle, { cl.afterSending q frame st with
        service := ⟨s', Function.update st.service.connections st.opened
          ⟨frame, [], false, back, false⟩⟩
        link := some ⟨st.opened, back, back.length, .live⟩ }) := by
    simp only [session, Session.arrive, afterSending, Option.map_some, Function.update_self,
      List.drop_zero, List.take_of_length_le hm, List.nil_append, Nat.zero_add]
  have hdecode := decodeBytes_encode hback []
  rw [List.append_nil] at hdecode
  have hreceive : (cl.session srv).step { cl.afterSending q frame st with
        service := ⟨s', Function.update st.service.connections st.opened
          ⟨frame, [], false, back, false⟩⟩
        link := some ⟨st.opened, back, back.length, .live⟩ } (.receive time) =
      (.returned q value, afterReading frame back s' st) := by
    have hholder : ∀ (service : Service ℕ) (link : Option Link),
        Session.holder? { cl.afterSending q frame st with service := service, link := link }
          .decoding = some ⟨q, cl.attemptsLeft q, .decoding⟩ := fun _ _ => rfl
    simp only [session, hholder, receiveOn, awaits_of_ok hdecode, hdecode, bind, Except.bind, hread]
    rfl
  constructor
  · simp only [getsResponse, Machine.trace, Machine.event, hserve, harrive, hreceive,
      List.map_cons, List.map_nil]
  · simp only [getsResponse, Machine.final, hserve, harrive, hreceive]

/-- All steps of a call that nothing disturbs. -/
def undisturbed (q : ClientCall) (k n m : ℕ) (r : MessageReadings) (time : FiniteBinary64) :
    List Input :=
  sendsRequest q k n ++ getsResponse k m r time

/-- The call sends its request, the server answers, and the call returns what it reads. -/
theorem run_undisturbed (hfresh : st.Fresh) {q : ClientCall} (hcalls : cl.Reconnects q st)
    {frame back : Bytes} (hencode : encode q.request = .ok frame) {r : MessageReadings}
    {done : VerifierServer.Handled} {s' : ServerState}
    (hdone : srv.handleMessage r (q.request.reload .compact) st.service.server = (done, s'))
    {answer : PyVal} (hrespond : (srv.respond r (q.request.reload .compact)
      st.service.server).1.1 = .ok answer) (hback : encode answer = .ok back)
    {time : FiniteBinary64} {value : Returned}
    (hread : q.read X time (answer.reload .compact) = .ok value) {n m : ℕ}
    (hn : frame.length ≤ n) (hm : back.length ≤ m) :
    ((cl.session srv).trace st (undisturbed q st.opened n m r time)).map Machine.Event.output =
        [.acquired q, .wrote st.opened q.request, .idle, .idle, .handled st.opened done, .idle,
          .returned q value] ∧
      (cl.session srv).final st (undisturbed q st.opened n m r time) =
        afterReading frame back s' st := by
  -- the frame that the server writes is the encoded answer
  have hframe : done.frame = .ok back := by
    have heq : ((srv.respond r (q.request.reload .compact) st.service.server).1.1 >>= encode) =
        done.frame := congrArg (fun out => out.1.frame) hdone
    rw [← heq, hrespond]
    exact hback
  obtain ⟨hsent, hstate⟩ := run_sendsRequest srv hfresh hcalls hencode hn
  obtain ⟨hreceived, hfinal⟩ :=
    cl.run_getsResponse hencode hdone hframe hback hm hread
  constructor
  · rw [undisturbed, Machine.trace_append, List.map_append, hsent, hstate, hreceived]
    rfl
  · rw [undisturbed, Machine.final_append, hstate, hfinal]

/-- After any run, however many calls have failed, timed out or were cancelled in it, and whatever
is still on its way on the old connections: if the lock is free and the client has no open
connection, then the next call, undisturbed, returns what it reads off the answer that the server
makes to its request in its present state, and leaves the lock free and the server in the state
after this message. -/
theorem recovers (cl : VerifierClient) (srv : VerifierServer X) (inputs : List Input)
    {q : ClientCall} (hcalls : cl.Reconnects q (cl.sessionAfter srv inputs)) {frame back : Bytes}
    (hencode : encode q.request = .ok frame) {r : MessageReadings} {answer : PyVal}
    (hrespond : (srv.respond r (q.request.reload .compact)
      (cl.sessionAfter srv inputs).service.server).1.1 = .ok answer)
    (hback : encode answer = .ok back) {time : FiniteBinary64} {value : Returned}
    (hread : q.read X time (answer.reload .compact) = .ok value) {n m : ℕ}
    (hn : frame.length ≤ n) (hm : back.length ≤ m) :
    ∃ done s', srv.handleMessage r (q.request.reload .compact)
        (cl.sessionAfter srv inputs).service.server = (done, s') ∧
      ((cl.session srv).trace (cl.sessionAfter srv inputs)
        (undisturbed q (cl.sessionAfter srv inputs).opened n m r time)).map Machine.Event.output =
        [.acquired q, .wrote (cl.sessionAfter srv inputs).opened q.request, .idle, .idle,
          .handled (cl.sessionAfter srv inputs).opened done, .idle, .returned q value] ∧
      ((cl.session srv).final (cl.sessionAfter srv inputs)
        (undisturbed q (cl.sessionAfter srv inputs).opened n m r time)).service.server = s' ∧
      ((cl.session srv).final (cl.sessionAfter srv inputs)
        (undisturbed q (cl.sessionAfter srv inputs).opened n m r time)).holder = none := by
  obtain ⟨done, s', hdone⟩ : ∃ done s', srv.handleMessage r (q.request.reload .compact)
      (cl.sessionAfter srv inputs).service.server = (done, s') := ⟨_, _, rfl⟩
  obtain ⟨houtputs, hfinal⟩ := run_undisturbed (cl.fresh_run srv inputs) hcalls hencode hdone
    hrespond hback hread hn hm
  exact ⟨done, s', hdone, houtputs, by rw [hfinal]; rfl, by rw [hfinal]; rfl⟩

/-- A call of `health_check` whose connection is lost before the response arrives. -/
def lostCall : List Input :=
  [.acquire .healthCheck, .attempt none, .drained, .send 0 1000, .lose (.lost []),
    .receive ⟨0, Representable.zero⟩]

/-- The lock is free and the connection is gone. -/
theorem reconnects_lostCall : (default : VerifierClient).Reconnects .healthCheck
    (default.sessionAfter VerifierServer.denyingServerL0 lostCall) where
  free := Option.isNone_iff_eq_none.mp (by decide +kernel)
  closed := Option.isNone_iff_eq_none.mp (by decide +kernel)
  reconnect := rfl
  attempts h := by cases h

/-- The next call returns. -/
theorem recovers_sample : ∃ inputs value,
    Output.returned .healthCheck value ∈
      ((default.session VerifierServer.denyingServerL0).trace
        (default.sessionAfter VerifierServer.denyingServerL0 lostCall) inputs).map
          Machine.Event.output := by
  have hsome : (encode (VerifierServer.denyingServerL0.healthResponse readingsOfMessage
      (default.sessionAfter VerifierServer.denyingServerL0
        lostCall).service.server)).toOption.isSome = true := by decide +kernel
  cases hback : encode (VerifierServer.denyingServerL0.healthResponse readingsOfMessage
      (default.sessionAfter VerifierServer.denyingServerL0 lostCall).service.server) with
  | error e =>
    rw [hback] at hsome
    cases hsome
  | ok back =>
    have hread : ClientCall.healthCheck.read L1Receipt.referenceX ⟨0, Representable.zero⟩
        ((VerifierServer.denyingServerL0.healthResponse readingsOfMessage
          (default.sessionAfter VerifierServer.denyingServerL0
            lostCall).service.server).reload .compact) = .ok (.value _) := rfl
    obtain ⟨done, s', -, houtputs, -⟩ := recovers default VerifierServer.denyingServerL0 lostCall
      reconnects_lostCall encode_healthMessage (respond_healthMessage _ readingsOfMessage _) hback
      hread le_rfl le_rfl
    exact ⟨_, _, List.mem_of_getLast? (congrArg List.getLast? houtputs)⟩

end VerifierClient
