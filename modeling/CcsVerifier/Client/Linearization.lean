import CcsVerifier.Client.Order
import CcsVerifier.Server.Ledger

/-!
# When a call takes effect

Between the calls of a client and the server lie a stream in each direction and the turns of the
handlers. For the caller of a method that returns they do not matter: the server has handled the
message of the call at one step after the call was made and before it returns, and what is returned
is what the server has answered in the state of that step.

* `VerifierClient.exists_run`: in a session the server makes a run of its own.
* `VerifierClient.takes_effect`: the step at which a call takes effect.
* `VerifierClient.health_check_counts`: what `health_check` counts.
-/

open MessageFrame

/-- Members come back under the names that the code spells out. -/
theorem PyVal.getItem_reload_of_keys {ms : List (Text × PyVal)} {keys : List Text}
    (hkeys : Dict.keys ms = keys) (hplain : keys.Nodup ∧ ∀ k ∈ keys, k.joinSurrogates = k)
    {key : Text} {v : PyVal} (h : Dict.lookup ms key = some v) :
    ((ofMembers ms).reload .compact).getItem key = .ok (v.reload .compact) :=
  getItem_reload (hkeys ▸ hplain.1)
    (fun m hm => hplain.2 m.1 (hkeys ▸ List.mem_map_of_mem (f := Prod.fst) hm)) h

/-- What is found in an object that has come back was there when it was sent. -/
theorem PyVal.lookup_of_getItem_reload {ms : List (Text × PyVal)} (hkeys : (Dict.keys ms).Nodup)
    (hjoin : ∀ m ∈ ms, m.1.joinSurrogates = m.1) {key : Text} {v : PyVal}
    (h : ((ofMembers ms).reload .compact).getItem key = .ok v) :
    ∃ w, Dict.lookup ms key = some w ∧ v = w.reload .compact := by
  cases hlookup : Dict.lookup ms key with
  | some w =>
    rw [getItem_reload hkeys hjoin hlookup] at h
    exact ⟨w, rfl, (Except.ok.inj h).symm⟩
  | none =>
    rw [reload_ofMembers hkeys hjoin, getItem_ofMembers, Dict.lookup_map,
      Dict.lookup_perm (perm_orderMembers .compact ms) (keys_orderMembers hkeys), hlookup] at h
    cases h

/-- No member goes by a name that the code does not spell out. -/
theorem PyVal.getItem_reload_ne_of_keys {ms : List (Text × PyVal)} (keys : List Text)
    (hkeys : Dict.keys ms = keys) (hplain : keys.Nodup ∧ ∀ k ∈ keys, k.joinSurrogates = k)
    {key : Text} (hmissing : key ∉ keys) (v : PyVal) :
    ((ofMembers ms).reload .compact).getItem key ≠ .ok v := by
  intro h
  obtain ⟨w, hlookup, -⟩ := lookup_of_getItem_reload (hkeys ▸ hplain.1)
    (fun m hm => hplain.2 m.1 (hkeys ▸ List.mem_map_of_mem (f := Prod.fst) hm)) h
  have hnone := Dict.lookup_eq_none_iff.mpr (hkeys ▸ hmissing)
  cases hnone.symm.trans hlookup

namespace Session

/-- The message that a step has handled, with its connection. -/
def Output.handled? : Output → Option (ℕ × VerifierServer.Handled)
  | .handled k done => some (k, done)
  | _ => none

/-- The calls of `verify` that the server has made. -/
def calls (run : List Event) : List VerifierServer.Call :=
  run.filterMap fun e => e.output.handled?.bind fun done => done.2.call

/-- The results of the calls of `verify` that have returned at the server, in order. -/
def results (run : List Event) : List VerificationResult :=
  (calls run).filterMap VerifierServer.Call.returned

end Session

namespace Service

variable {κ : Type*}

/-- The message that a step has handled, with its connection. -/
def Output.handled? : Output κ → Option (κ × VerifierServer.Handled)
  | .handled k done => some (k, done)
  | _ => none

/-- The input is about a connection, and so not a direct call. -/
def Input.IsRemote (i : Input κ) : Prop := ∃ k, i.connection? = some k

end Service

namespace VerifierServer

variable {X : Externals} {srv : VerifierServer X} {κ : Type*} [DecidableEq κ]

/-- Without direct calls every call belongs to a message. -/
theorem call_of_isRemote {st : Service κ} {i : Service.Input κ} (hremote : i.IsRemote) :
    ((srv.service κ).step st i).1.call =
      ((srv.service κ).step st i).1.handled?.bind fun done => done.2.call := by
  cases i with
  | deliver k bytes => rfl
  | finish k => rfl
  | serve k r =>
    simp only [service]
    split <;> rfl
  | verify call c =>
    obtain ⟨k, hk⟩ := hremote
    cases hk

end VerifierServer

namespace VerifierClient

open Session

variable {X : Externals} {cl : VerifierClient} {srv : VerifierServer X}

/-! ## The run of the server -/

/-- The step leaves the server and its connections alone. -/
def LeavesServer (st : Session) (out : Output × Session) : Prop :=
  out.2.service = st.service ∧ out.1.handled? = none

/-- A failed attempt leaves the server alone. -/
theorem leavesServer_fail (h : Holder) (e : PyExc) {st st₁ : Session}
    (hservice : st₁.service = st.service) : LeavesServer st (cl.fail h e st₁) := by
  have hends := cl.failEnds_fail h e st₁
  rw [LeavesServer]
  generalize (cl.fail h e st₁).1 = o at hends ⊢
  generalize (cl.fail h e st₁).2 = st' at hends ⊢
  cases hends <;> exact ⟨hservice, rfl⟩

/-- So does a new one. -/
theorem leavesServer_attemptOn (connect : Option NetworkFailure) (h : Holder) (st : Session) :
    LeavesServer st (cl.attemptOn connect h st) := by
  -- connecting changes the state of the client only
  have hlink : (cl.ensureLink connect st).2.service = st.service := by
    rcases cl.ensureLink_cases connect st with ⟨e, he⟩ | ⟨link, -, hlink⟩ | hnew
    · rw [he]
    · rw [hlink]
    · rw [hnew]
  unfold attemptOn
  obtain ⟨outcome, st₁, hensure⟩ : ∃ outcome st₁,
      cl.ensureLink connect st = (outcome, st₁) := ⟨_, _, rfl⟩
  rw [hensure] at hlink ⊢
  cases outcome with
  | error e => exact leavesServer_fail h e hlink
  | ok link =>
    dsimp only
    split
    · exact leavesServer_fail h _ hlink
    · exact ⟨hlink, rfl⟩

/-- So does reading a response. -/
theorem leavesServer_receiveOn (time : FiniteBinary64) (h : Holder) (link : Link) (st : Session) :
    LeavesServer st (cl.receiveOn X time h link st) := by
  have hreceives := cl.receives_receiveOn (X := X) time h link st
  generalize cl.receiveOn X time h link st = out at hreceives ⊢
  cases hreceives with
  | lost => exact leavesServer_fail h _ rfl
  | waits => exact ⟨rfl, rfl⟩
  | fails => exact leavesServer_fail h _ rfl
  | reads => exact ⟨rfl, rfl⟩

/-- A step of the server, as the session shows it. -/
theorem handled?_serviceStep {i : Service.Input ℕ} (st : Session) :
    (serviceStep srv i st).2.service = ((srv.service ℕ).step st.service i).2 ∧
      (serviceStep srv i st).1.handled? = ((srv.service ℕ).step st.service i).1.handled? := by
  refine ⟨rfl, ?_⟩
  unfold serviceStep
  dsimp only
  cases hout : ((srv.service ℕ).step st.service i).1 <;> rfl

/-- The server makes a run of its own in a session, without direct calls. -/
theorem projects_session (cl : VerifierClient) (srv : VerifierServer X) :
    (cl.session srv).Projects (srv.service ℕ) Service.Input.IsRemote Session.service
      Output.handled? Service.Output.handled? := by
  intro st i
  have hidle : LeavesServer st (.idle, st) := ⟨rfl, rfl⟩
  -- only `send`, `finish` and `serve` reach the server, each by one step of it
  cases i with
  | acquire q =>
    left
    simp only [session, acquire]
    split_ifs <;> exact ⟨rfl, rfl⟩
  | attempt connect =>
    left
    simp only [session]
    split
    · next h _ => exact leavesServer_attemptOn connect h st
    · exact hidle
  | drained =>
    left
    simp only [session]
    split
    · next h link _ _ =>
      unfold drain
      split
      · exact leavesServer_fail h _ rfl
      · exact ⟨rfl, rfl⟩
    · exact hidle
  | receive time =>
    left
    simp only [session]
    split
    · next h link _ _ => exact leavesServer_receiveOn time h link st
    · exact hidle
  | timeout taken =>
    left
    simp only [session]
    split
    · next h _ => exact leavesServer_fail h _ (by cases taken <;> rfl)
    · exact hidle
  | cancel taken =>
    left
    simp only [session]
    split
    · refine ⟨?_, rfl⟩
      split
      · cases taken <;> rfl
      · rfl
    · exact hidle
  | send k n =>
    simp only [session]
    split
    · exact .inl hidle
    · exact .inr ⟨.deliver k ((st.outgoing k).take n), ⟨k, rfl⟩, handled?_serviceStep _⟩
  | finish k =>
    simp only [session]
    split
    · exact .inl hidle
    · exact .inr ⟨.finish k, ⟨k, rfl⟩, handled?_serviceStep _⟩
  | serve k r => exact .inr ⟨.serve k r, ⟨k, rfl⟩, handled?_serviceStep _⟩
  | arrive n => exact .inl ⟨rfl, rfl⟩
  | eof => exact .inl ⟨rfl, rfl⟩
  | lose failure => exact .inl ⟨rfl, rfl⟩

/-- What is handled on a connection, out of what is handled on all. -/
theorem handledOn_eq_bind (k : ℕ) (o : Output) : o.handledOn k =
    o.handled?.bind fun done => if done.1 = k then some done.2 else none := by
  cases o <;> rfl

/-- The same for the run of the server. -/
theorem service_handledOn_eq_bind (k : ℕ) (o : Service.Output ℕ) : o.handledOn k =
    o.handled?.bind fun done => if done.1 = k then some done.2 else none := by
  cases o <;> rfl

/-- A session holds a run of the server: the same messages are handled on each connection, the same
calls are made, and the same state is reached. -/
theorem exists_run (cl : VerifierClient) (srv : VerifierServer X) (inputs : List Input) :
    ∃ inputs' : List (Service.Input ℕ), (∀ i ∈ inputs', i.IsRemote) ∧
      (cl.sessionAfter srv inputs).service = srv.after inputs' ∧
      calls (cl.sessionRun srv inputs) = Service.calls (srv.run inputs') ∧
      ∀ k, handledOn k (cl.sessionRun srv inputs) = Service.handledOn k (srv.run inputs') := by
  obtain ⟨inputs', hremote, hafter, hhandled⟩ :=
    (cl.projects_session srv).exists_run .init inputs
  have hcalls : Service.calls (srv.run inputs') =
      (srv.run inputs').filterMap fun e => e.output.handled?.bind fun done => done.2.call := by
    refine List.filterMap_congr fun e he => ?_
    obtain ⟨t, i, hi, rfl⟩ := Machine.exists_of_mem_trace _ he
    exact VerifierServer.call_of_isRemote (hremote i hi)
  -- calls and messages are both read off what is handled
  refine ⟨inputs', hremote, hafter, ?_, fun k => ?_⟩
  · have hfilter := congrArg (List.filterMap fun done => done.2.call) hhandled
    rw [List.filterMap_filterMap, List.filterMap_filterMap] at hfilter
    exact hfilter.trans hcalls.symm
  · have hfilter := congrArg (List.filterMap fun done => if done.1 = k then some done.2 else none)
      hhandled
    rw [List.filterMap_filterMap, List.filterMap_filterMap] at hfilter
    simp only [handledOn, Service.handledOn, handledOn_eq_bind, service_handledOn_eq_bind]
    exact hfilter

/-- The counters of the server count the calls of the session. -/
theorem counts_session (cl : VerifierClient) (srv : VerifierServer X) (inputs : List Input) :
    (cl.sessionAfter srv inputs).service.server.Counts (results (cl.sessionRun srv inputs)) := by
  obtain ⟨inputs', -, hafter, hcalls, -⟩ := cl.exists_run srv inputs
  rw [hafter, results, hcalls]
  exact srv.counts_after inputs'

/-! ## The step at which a call takes effect -/

/-- The last of the messages that are handled in a run. -/
theorem exists_of_handledOn_concat {k : ℕ} {run : List Event}
    {earlier : List VerifierServer.Handled} {h : VerifierServer.Handled}
    (hlist : handledOn k run = earlier ++ [h]) : ∃ sent d received,
      run = sent ++ d :: received ∧ d.output.handledOn k = some h ∧
        handledOn k sent = earlier := by
  obtain ⟨sent, last, rfl, hsent, hlast⟩ := List.filterMap_eq_append_iff.mp hlist
  obtain ⟨between, d, received, rfl, hnone, hd, -⟩ := List.filterMap_eq_cons_iff.mp hlast
  refine ⟨sent ++ between, d, received, by simp, hd, ?_⟩
  rw [handledOn, List.filterMap_append, hsent, List.filterMap_eq_nil_iff.mpr hnone,
    List.append_nil]

/-- The message of a step, among those before and after it. -/
theorem handledOn_append_cons {k : ℕ} {d : Event} {h : VerifierServer.Handled}
    (hd : d.output.handledOn k = some h) (xs ys : List Event) :
    handledOn k (xs ++ d :: ys) = handledOn k xs ++ h :: handledOn k ys := by
  rw [handledOn, List.filterMap_append,
    List.filterMap_cons_some (f := fun e : Event => e.output.handledOn k) hd]
  rfl

/-- The request of a step, among those before and after it. -/
theorem requests_append_cons {k : ℕ} {w : Event} {request : PyVal}
    (hw : w.output = .wrote k request) (xs ys : List Event) :
    requests k (xs ++ w :: ys) = requests k xs ++ request :: requests k ys := by
  have hone : w.output.requestOn k = some request := by
    rw [hw]
    exact if_pos rfl
  rw [requests, List.filterMap_append,
    List.filterMap_cons_some (f := fun e : Event => e.output.requestOn k) hone]
  rfl

/-- The request of a call is written before its message is handled. -/
theorem lastWritten_of_handledOn {inputs : List Input} {k : ℕ} {request : PyVal}
    (hlast : LastWritten (cl.sessionRun srv inputs) k request) {sent received : List Event}
    {d : Event} {h : VerifierServer.Handled}
    (hrun : cl.sessionRun srv inputs = sent ++ d :: received)
    (hd : d.output.handledOn k = some h)
    (hcount : (handledOn k sent).length + 1 = (requests k (cl.sessionRun srv inputs)).length) :
    LastWritten sent k request := by
  obtain ⟨before, w, during, hpast, hw, hduring⟩ := hlast
  have hne : w ≠ d := by
    rintro rfl
    rw [hw] at hd
    cases hd
  obtain ⟨between, hbefore, hrest⟩ | ⟨between, hsent, hrest⟩ :=
    List.append_eq_append_iff.mp (hrun.symm.trans hpast)
  · cases between with
    | nil => exact absurd (List.cons.inj hrest).1.symm hne
    | cons d' between =>
      obtain ⟨rfl, hreceived⟩ := List.cons.inj hrest
      -- the server would have handled as many messages as there are requests, before the last one
      obtain ⟨xs, -, -, -, hxs, -⟩ := Machine.exists_of_trace_eq_append _ hpast
      have hlength := (cl.carries srv xs k).handled.length_le
      rw [sessionRun, ← hxs, List.length_map, List.length_map] at hlength
      rw [hbefore, handledOn_append_cons hd, ← hbefore, List.length_append] at hlength
      rw [hpast, requests_append_cons hw, List.length_append] at hcount
      simp only [List.length_cons] at hlength hcount
      omega
  · cases between with
    | nil => exact absurd (List.cons.inj hrest).1 hne
    | cons w' between =>
      obtain ⟨rfl, rfl⟩ := List.cons.inj hrest
      exact ⟨before, w, between, hsent, hw, fun x hx => hduring x (List.mem_append_left _ hx)⟩

/-- At this step the server handles the message of a call, and its answer is what the call makes its
value of. -/
structure TakesEffect (srv : VerifierServer X) (k : ℕ) (q : ClientCall) (value : Returned)
    (d : Event) (h : VerifierServer.Handled) (answer : PyVal) : Prop where
  /-- A message is handled on the connection of the call. -/
  handledOn : d.output.handledOn k = some h
  /-- It is the request of the call. -/
  message : h.message = q.request.reload .compact
  /-- The server goes from the state before the step to the state after it. -/
  handleMessage : srv.handleMessage h.readings h.message d.before.service.server =
    (h, d.after.service.server)
  /-- This is its answer. -/
  respond : (srv.respond h.readings h.message d.before.service.server).1.1 = .ok answer
  /-- The call reads its value off the answer. -/
  read : ∃ time, q.read X time (answer.reload .compact) = .ok value

/-- A call that returns has decoded the answer to the last request. -/
theorem exists_answer_of_returned {inputs : List Input} {i : Input} {q : ClientCall}
    {value : Returned}
    (hreturned : ((cl.session srv).step (cl.sessionAfter srv inputs) i).1 = .returned q value)
    (hkept : ∀ link, (cl.sessionAfter srv inputs).link = some link →
      Kept (cl.sessionRun srv inputs) link.number) :
    ∃ k earlier h, LastWritten (cl.sessionRun srv inputs) k q.request ∧
      handledOn k (cl.sessionRun srv inputs) = earlier ++ [h] ∧
      earlier.length + 1 = (requests k (cl.sessionRun srv inputs)).length ∧
      ∃ time frame response buffer, h.frame = .ok frame ∧
        decodeBytes frame = (.ok response, buffer) ∧ q.read X time response = .ok value := by
  obtain ⟨hhandled, hpaired⟩ := cl.paired_run srv inputs
  obtain ⟨time, holder, link, hholder, hlink, hreceived⟩ := receiveOn_of_returned hreturned
  obtain ⟨hsome, -, hwaiting⟩ := waiting_of_holder? hholder
  obtain ⟨-, holder', link', hsome', hlink', hlast⟩ := hpaired.last hwaiting
  cases hsome.symm.trans hsome'
  cases hlink.symm.trans hlink'
  obtain ⟨hcall, hopen, -, response, buffer, hdecode, hread⟩ :=
    (cl.receives_receiveOn time holder link _).of_returned hreceived
  rw [hcall] at hlast
  have hwait := awaits_of_ok hdecode
  -- on a dead connection there would be nothing to decode
  have hstate := hpaired.link_of_waiting hwaiting hlink (hkept link hlink)
  obtain (hlost | ⟨-, hempty⟩) | haligned := hstate
  · rw [hopen] at hlost
    cases hlost
  · rw [hempty] at hwait
    cases hwait
  · obtain hwait' | ⟨earlier, h, hlist, hcount, hframe⟩ :=
      aligned_cases haligned (cl.carries srv inputs _) (hhandled _)
    · rw [hwait] at hwait'
      cases hwait'
    · exact ⟨_, earlier, h, hlast, hlist, hcount, time, _, response, buffer, hframe, hdecode, hread⟩

/-- The server has made the answer at one step of the run. -/
theorem exists_takesEffect {inputs : List Input} {i : Input} {q : ClientCall} {value : Returned}
    (hreturned : ((cl.session srv).step (cl.sessionAfter srv inputs) i).1 = .returned q value)
    (hkept : ∀ link, (cl.sessionAfter srv inputs).link = some link →
      Kept (cl.sessionRun srv inputs) link.number) :
    ∃ k sent d received h answer, cl.sessionRun srv inputs = sent ++ d :: received ∧
      LastWritten sent k q.request ∧ LastWritten (cl.sessionRun srv inputs) k q.request ∧
      TakesEffect srv k q value d h answer := by
  obtain ⟨k, earlier, h, hlast, hlist, hcount, time, frame, response, buffer, hframe, hdecode,
    hread⟩ := exists_answer_of_returned hreturned hkept
  obtain ⟨sent, d, received, hpast, hd, hsent⟩ := exists_of_handledOn_concat hlist
  have hmem : d ∈ cl.sessionRun srv inputs := hpast ▸ List.mem_append_right _ List.mem_cons_self
  have hdone : srv.handleMessage h.readings h.message d.before.service.server =
      (h, d.after.service.server) := by
    obtain ⟨t, j, -, rfl⟩ := Machine.exists_of_mem_trace _ hmem
    exact (moves_step t j).handleMessage_eq hd
  obtain ⟨answer, hanswer, hencode⟩ := VerifierServer.exists_respond_of_handleMessage hdone hframe
  -- the frame of the answer decodes to what the call has read
  have hsame := decodeBytes_encode hencode []
  rw [List.append_nil, hdecode] at hsame
  obtain rfl := Except.ok.inj (congrArg Prod.fst hsame)
  exact ⟨k, sent, d, received, h, answer, hpast,
    lastWritten_of_handledOn hlast hpast hd (hsent ▸ hcount), hlast, hd,
    message_of_lastWritten hlast (cl.carries srv inputs k) hlist hcount, hdone, hanswer,
    time, hread⟩

/-- Every call that returns, on a connection on which no request was given up, takes effect at one
step: after its request was written and before it returns, with no other call begun in between, the
server handles its message, and what is returned is what the server answers in the state of that
step. -/
theorem takes_effect (cl : VerifierClient) (srv : VerifierServer X) {inputs : List Input}
    {past later : List Event} {e : Event} {q : ClientCall} {value : Returned}
    (hrun : cl.sessionRun srv inputs = past ++ e :: later)
    (hreturned : e.output = .returned q value)
    (hkept : ∀ link, e.before.link = some link → Kept past link.number) :
    ∃ k sent d received h answer, past = sent ++ d :: received ∧
      LastWritten sent k q.request ∧ LastWritten past k q.request ∧
      TakesEffect srv k q value d h answer := by
  obtain ⟨before, i, after, -, rfl, rfl, -⟩ := Machine.exists_of_trace_eq_append _ hrun
  exact exists_takesEffect hreturned hkept

/-- A call of `verify` returns, the next one times out, and `health_check` follows on a new
connection, when the server has handled the late request. -/
def healthCheckAfterTimeout : List Input :=
  undisturbedCall sampleCommand ++ callAfterTimeout .healthCheck

/-- The number of requests that `health_check` returns in a step. -/
def healthRequests? : Output → Option ℤ
  | .returned .healthCheck (.value v) =>
    match v.getItem (text "requests") with
    | .ok (.int n) => some n
    | _ => none
  | _ => none

/-- A number in the list was returned at some step. -/
theorem exists_of_healthRequests? (run : List Event) {n : ℤ}
    (h : n ∈ run.filterMap fun e => healthRequests? e.output) : ∃ past e later v,
      run = past ++ e :: later ∧ e.output = .returned .healthCheck (.value v) ∧
        v.getItem (text "requests") = .ok (.int n) := by
  obtain ⟨e, hmem, he⟩ := List.mem_filterMap.mp h
  obtain ⟨past, later, hrun⟩ := List.append_of_mem hmem
  unfold healthRequests? at he
  split at he
  · next v hout =>
    split at he
    · next hget =>
      cases he
      exact ⟨past, e, later, v, hrun, hout, hget⟩
    · cases he
  · cases he

/-- It returns, on a connection on which nothing was given up, and counts both requests. -/
theorem returned_healthCheckAfterTimeout : ∃ past e later v,
    default.sessionRun VerifierServer.denyingServerL0 healthCheckAfterTimeout =
      past ++ e :: later ∧
    e.output = .returned .healthCheck (.value v) ∧
    v.getItem (text "requests") = .ok (.int 2) ∧
    ∀ link, e.before.link = some link → Kept past link.number := by
  -- both facts are read off one evaluation of the run
  obtain ⟨hcounted, hnothing⟩ : (2 : ℤ) ∈ (default.sessionRun VerifierServer.denyingServerL0
        healthCheckAfterTimeout).filterMap (fun e => healthRequests? e.output) ∧
      (default.sessionRun VerifierServer.denyingServerL0 healthCheckAfterTimeout).all
        abandonsNothing = true := by
    decide +kernel
  rw [List.all_eq_true] at hnothing
  obtain ⟨past, e, later, v, hrun, hreturned, hrequests⟩ := exists_of_healthRequests? _ hcounted
  exact ⟨past, e, later, v, hrun, hreturned, hrequests, fun link _ =>
    kept_of_abandonsNothing (fun d hd => hnothing d (hrun ▸ List.mem_append_left _ hd)) link.number⟩

/-- The step at which it takes effect. -/
theorem takes_effect_sample : ∃ past e later v sent d received h answer,
    default.sessionRun VerifierServer.denyingServerL0 healthCheckAfterTimeout =
      past ++ e :: later ∧ past = sent ++ d :: received ∧
    ∃ k, TakesEffect VerifierServer.denyingServerL0 k .healthCheck (.value v) d h answer := by
  obtain ⟨past, e, later, v, hrun, hreturned, -, hkept⟩ := returned_healthCheckAfterTimeout
  obtain ⟨k, sent, d, received, h, answer, hpast, -, -, heffect⟩ :=
    takes_effect default VerifierServer.denyingServerL0 hrun hreturned hkept
  exact ⟨past, e, later, v, sent, d, received, h, answer, hrun, hpast, k, heffect⟩

/-! ## What a health check counts -/

/-- The answer to the message of `health_check`. -/
theorem respond_healthMessage (srv : VerifierServer X) (r : MessageReadings) (s : ServerState) :
    (srv.respond r (healthMessage.reload .compact) s).1.1 = .ok (srv.healthResponse r s) := by
  have hkey : (text "type").Encodable := by decide
  have hvalue : (text "health").Encodable := by decide
  have htype : (healthMessage.reload .compact).get (text "type") (.str []) =
      .ok (.str (text "health")) := by
    rw [healthMessage, PyVal.get_reload (by decide)
      (List.forall_mem_singleton.mpr hkey.joinSurrogates)]
    exact congrArg (fun s => Except.ok (PyVal.str s)) hvalue.joinSurrogates
  simp only [VerifierServer.respond, htype]
  rfl

/-- The names of the members of the answer. -/
def healthKeys : List Text :=
  [text "type", text "status", text "version", text "uptime_s", text "rules", text "requests",
    text "denies", text "l1_enabled", text "l1_key_fingerprint"]

/-- What a client reads of the counters in the answer. -/
theorem getItem_healthResponse (srv : VerifierServer X) (r : MessageReadings) (s : ServerState) :
    ((srv.healthResponse r s).reload .compact).getItem (text "requests") =
        .ok (.int s.requestCount) ∧
      ((srv.healthResponse r s).reload .compact).getItem (text "denies") =
        .ok (.int s.denyCount) := by
  have hplain : healthKeys.Nodup ∧ ∀ k ∈ healthKeys, k.joinSurrogates = k := by decide
  obtain ⟨ms, hms, hkeys, hrequests, hdenies⟩ : ∃ ms, srv.healthResponse r s = .ofMembers ms ∧
      Dict.keys ms = healthKeys ∧ Dict.lookup ms (text "requests") = some (.int s.requestCount) ∧
      Dict.lookup ms (text "denies") = some (.int s.denyCount) := ⟨_, rfl, rfl, rfl, rfl⟩
  rw [hms]
  exact ⟨PyVal.getItem_reload_of_keys hkeys hplain hrequests,
    PyVal.getItem_reload_of_keys hkeys hplain hdenies⟩

/-- What `health_check` returns counts the calls of `verify` that had returned a result, and the
denials among these, at one moment between the writing of its request and its return: no call is
missed that had returned before, and none is counted that began after. -/
theorem health_check_counts (cl : VerifierClient) (srv : VerifierServer X) {inputs : List Input}
    {past later : List Event} {e : Event} {v : PyVal}
    (hrun : cl.sessionRun srv inputs = past ++ e :: later)
    (hreturned : e.output = .returned .healthCheck (.value v))
    (hkept : ∀ link, e.before.link = some link → Kept past link.number) :
    ∃ k sent received, past = sent ++ received ∧ LastWritten sent k healthMessage ∧
      v.getItem (text "requests") = .ok (.int (results sent).length) ∧
      v.getItem (text "denies") =
        .ok (.int ((results sent).countP fun w => w.verdict = .deny)) := by
  obtain ⟨before, i, after, -, rfl, rfl, -⟩ := Machine.exists_of_trace_eq_append _ hrun
  obtain ⟨k, sent, d, received, h, answer, hpast, hwritten, -, heffect⟩ :=
    exists_takesEffect hreturned hkept
  -- the server counts the calls up to the step at which the call takes effect
  obtain ⟨xs, j, ys, -, rfl, rfl, -⟩ := Machine.exists_of_trace_eq_append _ hpast
  refine ⟨k, _, _, hpast, hwritten, ?_⟩
  obtain ⟨time, hread⟩ := heffect.read
  obtain rfl := Returned.value.inj (Except.ok.inj hread)
  have hrespond := heffect.respond
  rw [heffect.message, show ClientCall.healthCheck.request = healthMessage from rfl,
    respond_healthMessage] at hrespond
  obtain rfl := Except.ok.inj hrespond
  obtain ⟨hrequests, hdenies⟩ := cl.counts_session srv xs
  obtain ⟨hgetRequests, hgetDenies⟩ := getItem_healthResponse srv h.readings
    (cl.sessionAfter srv xs).service.server
  rw [hrequests] at hgetRequests
  rw [hdenies] at hgetDenies
  exact ⟨hgetRequests, hgetDenies⟩

/-- The call that has returned is counted, and so is the one that has timed out. -/
theorem health_check_counts_sample : ∃ past e later v sent received,
    default.sessionRun VerifierServer.denyingServerL0 healthCheckAfterTimeout =
      past ++ e :: later ∧ e.output = .returned .healthCheck (.value v) ∧
    past = sent ++ received ∧ v.getItem (text "requests") = .ok (.int 2) ∧
    (results sent).length = 2 := by
  obtain ⟨past, e, later, v, hrun, hreturned, htwo, hkept⟩ := returned_healthCheckAfterTimeout
  obtain ⟨k, sent, received, hpast, -, hrequests, -⟩ :=
    health_check_counts default VerifierServer.denyingServerL0 hrun hreturned hkept
  refine ⟨past, e, later, v, sent, received, hrun, hreturned, hpast, htwo, ?_⟩
  exact_mod_cast (PyVal.int.inj (Except.ok.inj (htwo.symm.trans hrequests))).symm

end VerifierClient
