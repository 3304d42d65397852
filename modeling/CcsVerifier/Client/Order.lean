import CcsVerifier.Client.Pairing

/-!
# Responses come in the order of the requests

Calls of a client are cancelled, time out and are repeated, and the responses to the requests that
they give up still arrive. As long as no header is taken out of the stream, the responses are read
in the order of the requests, none is lost and none comes twice, whoever reads them.

* `Session.responses`: the responses that were decoded on a connection.
* `Session.LosesHeader`: the steps that take a header out of the stream.
* `VerifierClient.reads_step`: what a step does to the connection that the client has.
* `Session.Ordered`: what the steps keep.
* `VerifierClient.decodes_in_order`: the `n`-th response answers the `n`-th request.
* `VerifierClient.returned_in_order`: which request a returned value answers.
-/

open MessageFrame

/-- The next bytes may arrive. -/
theorem Link.not_isDead_of_live {link : Link} (hlive : link.status = .live) : ¬link.IsDead := by
  rintro (hlost | ⟨hended, -⟩)
  · rw [Link.isOpen, hlive] at hlost
    cases hlost
  · rw [hlive] at hended
    cases hended

namespace Session

/-- The response that a step decodes on a connection. -/
def decodedOn (k : ℕ) (e : Event) : Option PyVal :=
  match e.input, e.before.holder? .decoding, e.before.link with
  | .receive _, some _, some link =>
    if link.number = k ∧ link.isOpen = true then (decodeBytes link.buffer).1.toOption else none
  | _, _, _ => none

/-- The responses that were decoded on a connection. -/
def responses (k : ℕ) (run : List Event) : List PyVal := run.filterMap (decodedOn k)

/-- A step in which a call returns. -/
def Output.isReturned : Output → Bool
  | .returned _ _ => true
  | _ => false

/-- In such a step some call returns a value. -/
theorem exists_of_isReturned {o : Output} (h : o.isReturned = true) :
    ∃ q value, o = .returned q value := by
  unfold Output.isReturned at h
  split at h
  · exact ⟨_, _, rfl⟩
  · cases h

/-- The wait for a response is interrupted when its header has been taken out of the buffer, so that
what follows in the stream is not a frame. -/
def LosesHeader (k : ℕ) (e : Event) : Prop :=
  (∃ h link, e.before.holder? .decoding = some h ∧ e.before.link = some link ∧ link.number = k ∧
    interrupted link.buffer ≠ link.buffer) ∧ (e.input = .timeout true ∨ e.input = .cancel true)

/-- The response of one more step comes last. -/
@[simp]
theorem responses_concat (k : ℕ) (run : List Event) (e : Event) :
    responses k (run ++ [e]) = responses k run ++ (decodedOn k e).toList := by
  rw [responses, List.filterMap_append, ← responses]
  cases h : decodedOn k e <;> simp [h]

/-- What a step does to the connection that the client has. -/
inductive Reads (e : Event) : Option Link → ℕ → Prop
  /-- Nothing. -/
  | keeps (hdecoded : ∀ k, decodedOn k e = none) : Reads e e.before.link e.before.opened
  /-- A connection is opened. -/
  | opens (hdecoded : ∀ k, decodedOn k e = none) :
      Reads e (some ⟨e.before.opened, [], 0, .live⟩) (e.before.opened + 1)
  /-- Bytes arrive. -/
  | arrives (hdecoded : ∀ k, decodedOn k e = none) (n : ℕ) :
      Reads e (e.before.arrive n).link e.before.opened
  /-- The stream ends. -/
  | ends (hdecoded : ∀ k, decodedOn k e = none) : Reads e e.before.endStream.link e.before.opened
  /-- The connection is lost. -/
  | loses (hdecoded : ∀ k, decodedOn k e = none) (failure : NetworkFailure) :
      Reads e (e.before.lose failure).link e.before.opened
  /-- A header is taken out of the buffer. -/
  | interrupts (hdecoded : ∀ k, decodedOn k e = none) {h : Holder}
      (hholder : e.before.holder? .decoding = some h)
      (hinput : e.input = .timeout true ∨ e.input = .cancel true) :
      Reads e (e.before.interrupt true).link e.before.opened
  /-- Decoding comes to its end. -/
  | decodes {link : Link} (hlink : e.before.link = some link) (hopen : link.isOpen = true)
      (hends : awaits link.buffer = true → link.status = .ended)
      (hdecoded : ∀ k, decodedOn k e =
        if link.number = k then (decodeBytes link.buffer).1.toOption else none) :
      Reads e (some { link with buffer := (decodeBytes link.buffer).2 }) e.before.opened

end Session

namespace VerifierClient

open Session

variable {X : Externals} {cl : VerifierClient} {srv : VerifierServer X} {past : List Event}
  {st : Session}

/-! ## What a step does to the connection -/

/-- A failed attempt leaves the connection to the next one. -/
theorem link_fail (h : Holder) (e : PyExc) (st : Session) :
    (cl.fail h e st).2.link = st.link ∧ (cl.fail h e st).2.opened = st.opened := by
  have hends := cl.failEnds_fail h e st
  generalize (cl.fail h e st).1 = o at hends
  generalize (cl.fail h e st).2 = st' at hends
  cases hends <;> exact ⟨rfl, rfl⟩

/-- Decoding on an open connection. -/
theorem decodedOn_receive (cl : VerifierClient) (srv : VerifierServer X) (time : FiniteBinary64)
    {h : Holder} {link : Link} (hholder : st.holder? .decoding = some h)
    (hlink : st.link = some link) (k : ℕ) :
    decodedOn k ((cl.session srv).event st (.receive time)) =
      if link.number = k ∧ link.isOpen = true then (decodeBytes link.buffer).1.toOption
      else none := by
  simp only [decodedOn, Machine.event, hholder, hlink]

/-- Reading decodes a response or waits. -/
theorem reads_receive (cl : VerifierClient) (srv : VerifierServer X) (time : FiniteBinary64)
    {h : Holder} {link : Link} (hholder : st.holder? .decoding = some h)
    (hlink : st.link = some link) :
    Reads ((cl.session srv).event st (.receive time)) (cl.receiveOn X time h link st).2.link
      (cl.receiveOn X time h link st).2.opened := by
  have hdecoded := cl.decodedOn_receive srv time hholder hlink
  have hreceives := cl.receives_receiveOn (X := X) time h link st
  generalize cl.receiveOn X time h link st = out at hreceives ⊢
  cases hreceives with
  | lost hlost =>
    rw [(link_fail _ _ _).1, (link_fail _ _ _).2]
    refine .keeps fun k => ?_
    rw [hdecoded, Link.isOpen, hlost]
    exact if_neg fun hopen => Bool.noConfusion hopen.2
  | waits _ hwait =>
    refine .keeps fun k => ?_
    obtain ⟨e, he, -⟩ := decodeBytes_of_awaits hwait
    rw [hdecoded, he]
    exact ite_self _
  | @fails response buffer e hopen hends hdecode _ =>
    -- whether decoding or reading has failed, the bytes are gone
    rw [(link_fail _ _ _).1, (link_fail _ _ _).2]
    have hbuffer : buffer = (decodeBytes link.buffer).2 := by rw [hdecode]
    rw [hbuffer]
    refine .decodes hlink hopen hends fun k => ?_
    simp only [hdecoded, hopen, and_true]
  | @reads response buffer value hopen hends hdecode _ =>
    have hbuffer : buffer = (decodeBytes link.buffer).2 := by rw [hdecode]
    rw [hbuffer]
    refine .decodes hlink hopen hends fun k => ?_
    simp only [hdecoded, hopen, and_true]

/-- An attempt opens a connection or keeps the one it has. -/
theorem reads_attemptOn {e : Event} (hdecoded : ∀ k, decodedOn k e = none)
    (connect : Option NetworkFailure) (h : Holder) :
    Reads e (cl.attemptOn connect h e.before).2.link
      (cl.attemptOn connect h e.before).2.opened := by
  -- whether the request is written or not, the connection is the one that `ensureLink` leaves
  have hlink : (cl.attemptOn connect h e.before).2.link = (cl.ensureLink connect e.before).2.link ∧
      (cl.attemptOn connect h e.before).2.opened =
        (cl.ensureLink connect e.before).2.opened := by
    unfold attemptOn
    obtain ⟨outcome, st₁, hensure⟩ : ∃ outcome st₁,
        cl.ensureLink connect e.before = (outcome, st₁) := ⟨_, _, rfl⟩
    rw [hensure]
    cases outcome with
    | error err => exact link_fail h err st₁
    | ok link =>
      dsimp only
      split
      · exact link_fail h _ st₁
      · exact ⟨rfl, rfl⟩
  rw [hlink.1, hlink.2]
  rcases cl.ensureLink_cases connect e.before with ⟨err, herr⟩ | ⟨link, -, hold⟩ | hnew
  · rw [herr]
    exact .keeps hdecoded
  · rw [hold]
    exact .keeps hdecoded
  · rw [hnew]
    exact .opens hdecoded

/-- Every step does one of these. -/
theorem reads_step (st : Session) (i : Input) :
    Reads ((cl.session srv).event st i) ((cl.session srv).step st i).2.link
      ((cl.session srv).step st i).2.opened := by
  cases i with
  | acquire q =>
    simp only [session, acquire]
    split_ifs <;> exact .keeps fun _ => rfl
  | attempt connect =>
    have hdecoded : ∀ k, decodedOn k ((cl.session srv).event st (.attempt connect)) = none :=
      fun _ => rfl
    simp only [session]
    split
    · next h _ => exact reads_attemptOn hdecoded connect h
    · exact .keeps hdecoded
  | drained =>
    have hdecoded : ∀ k, decodedOn k ((cl.session srv).event st .drained) = none := fun _ => rfl
    simp only [session]
    split
    · next h link _ _ =>
      unfold drain
      split
      · rw [(link_fail _ _ _).1, (link_fail _ _ _).2]
        exact .keeps hdecoded
      · exact .keeps hdecoded
    · exact .keeps hdecoded
  | receive time =>
    -- the only input that decodes, if a call waits for its response on a link
    cases hholder : st.holder? .decoding with
    | none =>
      have hdecoded : ∀ k, decodedOn k ((cl.session srv).event st (.receive time)) = none :=
        fun k => by simp only [decodedOn, Machine.event, hholder]
      simp only [session, hholder]
      exact .keeps hdecoded
    | some h =>
      cases hlink : st.link with
      | none =>
        have hdecoded : ∀ k, decodedOn k ((cl.session srv).event st (.receive time)) = none :=
          fun k => by simp only [decodedOn, Machine.event, hholder, hlink]
        simp only [session, hholder, hlink]
        exact hlink ▸ .keeps hdecoded
      | some link =>
        have hreads := cl.reads_receive srv time hholder hlink
        simpa only [session, hholder, hlink] using hreads
  | timeout taken =>
    have hdecoded : ∀ k, decodedOn k ((cl.session srv).event st (.timeout taken)) = none :=
      fun _ => rfl
    simp only [session]
    split
    · next h hholder =>
      rw [(link_fail _ _ _).1, (link_fail _ _ _).2]
      -- a deadline may fall between the header and the payload
      cases taken with
      | false => exact .keeps hdecoded
      | true => exact .interrupts hdecoded hholder (.inl rfl)
    · exact .keeps hdecoded
  | cancel taken =>
    have hdecoded : ∀ k, decodedOn k ((cl.session srv).event st (.cancel taken)) = none :=
      fun _ => rfl
    simp only [session]
    split
    · next h hholder =>
      split
      · next hphase =>
        -- and so may a cancellation
        cases taken with
        | false => exact .keeps hdecoded
        | true =>
          have hdecoding : st.holder? .decoding = some h := by
            rw [holder?, hholder]
            exact Option.filter_eq_some_iff.mpr ⟨rfl, decide_eq_true hphase⟩
          exact .interrupts hdecoded hdecoding (.inr rfl)
      · exact .keeps hdecoded
    · exact .keeps hdecoded
  | send k n =>
    simp only [session]
    split <;> exact .keeps fun _ => rfl
  | finish k =>
    simp only [session]
    split <;> exact .keeps fun _ => rfl
  | serve k r => exact .keeps fun _ => rfl
  | arrive n => exact .arrives (fun _ => rfl) n
  | eof => exact .ends fun _ => rfl
  | lose failure => exact .loses (fun _ => rfl) failure

end VerifierClient

/-! ## What the steps keep -/

namespace Session

/-- A response was read off the answer to a handled message. -/
def IsAnswerTo (response : PyVal) (h : VerifierServer.Handled) : Prop :=
  ∃ answer frame, encode answer = .ok frame ∧ h.frame = .ok frame ∧
    response = answer.reload .compact

/-- The `n`-th message that was handled on a connection is the `n`-th request, with its answer. -/
structure Answered {X : Externals} (srv : VerifierServer X) (k n : ℕ) (past : List Event)
    (request : PyVal) (h : VerifierServer.Handled) (answer : PyVal) : Prop where
  /-- The request. -/
  requested : (requests k past)[n]? = some request
  /-- What was handled. -/
  handled : (handledOn k past)[n]? = some h
  /-- The message is the request, as JSON gives it back. -/
  message : h.message = request.reload .compact
  /-- The answer was written. -/
  frame : h.frame = encode answer
  /-- The server has made it in some state. -/
  respond : ∃ s, (srv.handleMessage h.readings h.message s).1 = h ∧
    (srv.respond h.readings h.message s).1.1 = .ok answer

/-- The bytes that have arrived are those of the answers to the messages whose responses have been
read, and after these the bytes in the buffer. -/
structure Behind (past : List Event) (read : List VerifierServer.Handled) (link : Link) : Prop where
  /-- No more has arrived than the server has written. -/
  arrived_le : link.arrived ≤ (answers (handledOn link.number past)).length
  /-- What has been read, and what has not. -/
  take_eq : (answers (handledOn link.number past)).take link.arrived = answers read ++ link.buffer

/-- The responses that were decoded on a connection are those to the messages handled first
on it, and the next one comes next in the stream, unless nothing can be read from it any more. -/
def Ordered (k : ℕ) (past : List Event) (st : Session) : Prop :=
  ∃ read rest, handledOn k past = read ++ rest ∧
    List.Forall₂ IsAnswerTo (responses k past) read ∧
    ∀ link, st.link = some link → link.number = k → link.IsDead ∨ Behind past read link

section Ordered

variable {k : ℕ} {past : List Event} {st : Session} {link : Link}
  {read rest : List VerifierServer.Handled}

/-- Nothing is out of order at first. -/
theorem ordered_init : Ordered k [] .init := ⟨[], [], rfl, .nil, by simp [init]⟩

/-- The server may go on answering while the client reads. -/
theorem Behind.concat (h : Behind past read link) (e : Event) : Behind (past ++ [e]) read link where
  arrived_le := by
    rw [handledOn_concat, answers_append, List.length_append]
    exact h.arrived_le.trans (Nat.le_add_right _ _)
  take_eq := by
    rw [handledOn_concat, answers_append, List.take_append_of_le_length h.arrived_le, h.take_eq]

/-- After a message that could not be answered no other is handled. -/
theorem Carries.frame_eq_ok (hcarries : Carries k past st) {h next : VerifierServer.Handled}
    (hlist : handledOn k past = read ++ h :: next :: rest) : ∃ frame, h.frame = .ok frame := by
  obtain ⟨-, answered, failed, hhandled, hserves⟩ := hcarries
  have hfailed : failed.length ≤ 1 := by
    cases hclosed : (st.service.connections k).closed with
    | false => rw [hserves.ofOpen hclosed]; exact Nat.zero_le _
    | true =>
      obtain ⟨rfl, -⟩ | ⟨last, e, rfl, -⟩ := hserves.ofClosed hclosed
      · exact Nat.zero_le _
      · exact le_rfl
  -- at most the last message has failed
  refine hserves.frames h ?_
  have hlength := congrArg List.length (hlist.symm.trans hhandled)
  simp only [List.length_append, List.length_cons] at hlength
  have hget : (answered ++ failed)[read.length]? = some h := by
    rw [← hhandled, hlist, List.getElem?_append_right le_rfl, Nat.sub_self]
    rfl
  rw [List.getElem?_append_left (by omega)] at hget
  exact List.mem_of_getElem? hget

/-- Nothing but the next answer can be decoded. -/
theorem Behind.cases (hbehind : Behind past read link) {X : Externals} {srv : VerifierServer X}
    (hcarries : Carries link.number past st)
    (hhandled : ∀ h ∈ handledOn link.number past, ∃ s s',
      srv.handleMessage h.readings h.message s = (h, s'))
    (hlist : handledOn link.number past = read ++ rest) :
    awaits link.buffer = true ∨ ∃ h next answer frame buffer, rest = h :: next ∧
      encode answer = .ok frame ∧ h.frame = .ok frame ∧ link.buffer = frame ++ buffer := by
  -- the buffer begins with the answers that were not read
  have hpre : answers read ++ link.buffer <+: answers read ++ answers rest := by
    rw [← hbehind.take_eq, ← answers_append, ← hlist]
    exact List.take_prefix _ _
  rw [List.prefix_append_right_inj] at hpre
  have hempty : answers rest = [] → awaits link.buffer = true := fun hnil => by
    rw [hnil, List.prefix_nil] at hpre
    rw [hpre]
    rfl
  cases rest with
  | nil => exact .inl (hempty rfl)
  | cons h next =>
    cases hframe : h.frame with
    | error e =>
      cases next with
      | nil => exact .inl (hempty (by simp [answers, hframe, Except.toOption]))
      | cons h' next =>
        obtain ⟨frame, hok⟩ := hcarries.frame_eq_ok hlist
        cases hframe.symm.trans hok
    | ok frame =>
      obtain ⟨s, s', hdone⟩ := hhandled h (hlist ▸ List.mem_append_right _ List.mem_cons_self)
      obtain ⟨answer, -, hencode⟩ := VerifierServer.exists_respond_of_handleMessage hdone hframe
      have hanswers : answers (h :: next) = frame ++ answers next := by
        simp [answers, hframe, Except.toOption]
      rw [hanswers] at hpre
      -- the buffer holds a part of the frame, or all of it
      obtain hshort | ⟨buffer, hbuffer⟩ :=
        List.prefix_or_prefix_of_prefix hpre (List.prefix_append frame _)
      · by_cases hwhole : link.buffer = frame
        · exact .inr ⟨h, next, answer, frame, [], rfl, hencode, hframe, by simpa using hwhole⟩
        · exact .inl (awaits_of_incomplete hencode hshort hwhole)
      · exact .inr ⟨h, next, answer, frame, buffer, rfl, hencode, hframe, hbuffer.symm⟩

/-- What has arrived stays what the server has written. -/
theorem Behind.arrive (hbehind : Behind past read link) (hcarries : Carries link.number past st)
    (n : ℕ) : Behind past read { link with
      buffer := link.buffer ++
        ((st.service.connections link.number).written.drop link.arrived).take n
      arrived := link.arrived +
        (((st.service.connections link.number).written.drop link.arrived).take n).length } := by
  obtain ⟨harrived, htake⟩ := hbehind
  rw [hcarries.written]
  -- no more arrives than the server has written
  have hchunk : (((answers (handledOn link.number past)).drop link.arrived).take n).length ≤
      (answers (handledOn link.number past)).length - link.arrived := by
    rw [← List.length_drop]
    exact (List.take_prefix ..).length_le
  refine ⟨?_, ?_⟩
  · dsimp only
    omega
  · dsimp only
    rw [List.take_add, htake, List.append_assoc]
    congr 2
    exact (List.prefix_iff_eq_take.mp (List.take_prefix ..)).symm

/-- A step of the client keeps the order in which responses are read. -/
theorem Ordered.reads (hordered : Ordered k past st) {X : Externals} {srv : VerifierServer X}
    (hcarries : ∀ k, Carries k past st)
    (hhandled : ∀ k, ∀ h ∈ handledOn k past, ∃ s s',
      srv.handleMessage h.readings h.message s = (h, s'))
    (hfresh : ∀ k, st.opened ≤ k → requests k past = []) {e : Event} (hbefore : e.before = st)
    {after : Option Link} {opened : ℕ} (hreads : Reads e after opened)
    (hkept : ¬LosesHeader k e) :
    ∃ read rest, handledOn k past = read ++ rest ∧
      List.Forall₂ IsAnswerTo (responses k (past ++ [e])) read ∧
      ∀ link, after = some link → link.number = k → link.IsDead ∨ Behind past read link := by
  subst hbefore
  obtain ⟨read, rest, hlist, hread, hstate⟩ := hordered
  -- most steps decode nothing
  have hquiet : (∀ k, decodedOn k e = none) →
      (∀ link, after = some link → link.number = k → link.IsDead ∨ Behind past read link) →
      ∃ read rest, handledOn k past = read ++ rest ∧
        List.Forall₂ IsAnswerTo (responses k (past ++ [e])) read ∧
        ∀ link, after = some link → link.number = k → link.IsDead ∨ Behind past read link :=
    fun hdecoded hlinks => ⟨read, rest, hlist, by
      rwa [responses_concat, hdecoded, Option.toList_none, List.append_nil], hlinks⟩
  cases hreads with
  | keeps hdecoded => exact hquiet hdecoded hstate
  | opens hdecoded =>
    refine hquiet hdecoded fun link hlink hnumber => .inr ?_
    cases hlink
    subst hnumber
    -- nothing was handled on a connection that was not open
    have hnone := (hcarries e.before.opened).handled
    rw [hfresh _ le_rfl, List.map_nil, List.prefix_nil, List.map_eq_nil_iff] at hnone
    rw [hnone, List.nil_eq, List.append_eq_nil_iff] at hlist
    exact ⟨Nat.zero_le _, by rw [hlist.1]; rfl⟩
  | arrives hdecoded n =>
    refine hquiet hdecoded fun link' hlink' hnumber => ?_
    obtain ⟨link, hlink, rfl⟩ := Option.map_eq_some_iff.mp hlink'
    have hsame : link.number = k := by
      rw [← hnumber]
      split <;> rfl
    split
    · next hlive =>
      have hbehind := (hstate link hlink hsame).resolve_left (Link.not_isDead_of_live hlive)
      exact .inr (hbehind.arrive (hcarries _) n)
    · exact hstate link hlink hsame
  | ends hdecoded =>
    refine hquiet hdecoded fun link' hlink' hnumber => ?_
    obtain ⟨link, hlink, rfl⟩ := Option.map_eq_some_iff.mp hlink'
    have hsame : link.number = k := by
      rw [← hnumber]
      split <;> rfl
    split
    · next hlive =>
      have hbehind := (hstate link hlink hsame).resolve_left (Link.not_isDead_of_live hlive)
      exact .inr ⟨hbehind.arrived_le, hbehind.take_eq⟩
    · exact hstate link hlink hsame
  | loses hdecoded failure =>
    refine hquiet hdecoded fun link' hlink' _ => ?_
    obtain ⟨link, -, rfl⟩ := Option.map_eq_some_iff.mp hlink'
    exact .inl (.inl rfl)
  | @interrupts hdecoded h hholder hinput =>
    refine hquiet hdecoded fun link' hlink' hnumber => ?_
    obtain ⟨link, hlink, rfl⟩ := Option.map_eq_some_iff.mp hlink'
    -- there was no header in the buffer
    have hsame : interrupted link.buffer = link.buffer := by
      by_contra hne
      exact hkept ⟨⟨h, link, hholder, hlink, hnumber, hne⟩, hinput⟩
    rw [hsame]
    exact hstate link hlink hnumber
  | @decodes link hlink hopen hends hdecoded =>
    by_cases hnumber : link.number = k
    swap
    · refine ⟨read, rest, hlist, ?_, fun link' hlink' hnumber' => ?_⟩
      · rwa [responses_concat, hdecoded, if_neg hnumber, Option.toList_none, List.append_nil]
      · rw [← Option.some.inj hlink'] at hnumber'
        exact absurd hnumber' hnumber
    subst hnumber
    -- without a whole frame nothing is decoded, and nothing will be
    have hwaits : awaits link.buffer = true →
        ∃ read rest, handledOn link.number past = read ++ rest ∧
          List.Forall₂ IsAnswerTo (responses link.number (past ++ [e])) read ∧
          ∀ link', some { link with buffer := (decodeBytes link.buffer).2 } = some link' →
            link'.number = link.number → link'.IsDead ∨ Behind past read link' := fun hwait => by
      obtain ⟨err, herr, -⟩ := decodeBytes_of_awaits hwait
      refine ⟨read, rest, hlist, ?_, fun link' hlink' _ => .inl (.inr ?_)⟩
      · rw [responses_concat, hdecoded, if_pos rfl, herr]
        exact (List.append_nil (responses link.number past)).symm ▸ hread
      · rw [← Option.some.inj hlink', herr]
        exact ⟨hends hwait, rfl⟩
    obtain (hlost | ⟨-, hempty⟩) | hbehind := hstate link hlink rfl
    · rw [hopen] at hlost
      cases hlost
    · exact hwaits (by rw [hempty]; rfl)
    obtain hwait | ⟨h, next, answer, frame, buffer, rfl, hencode, hframe, hbuffer⟩ :=
      hbehind.cases (hcarries _) (hhandled _) hlist
    · exact hwaits hwait
    · have hdecode := decodeBytes_encode hencode buffer
      rw [← hbuffer] at hdecode
      have hlist' : handledOn link.number past = (read ++ [h]) ++ next := by
        rw [hlist, List.append_assoc]
        rfl
      refine ⟨read ++ [h], next, hlist', ?_, fun link' hlink' _ => ?_⟩
      · rw [responses_concat, hdecoded, if_pos rfl, hdecode]
        exact List.rel_append hread (.cons ⟨answer, frame, hencode, hframe, rfl⟩ .nil)
      · rw [← Option.some.inj hlink', hdecode]
        refine .inr ⟨hbehind.arrived_le, ?_⟩
        rw [hbehind.take_eq, hbuffer, answers_append, List.append_assoc]
        simp [answers, hframe, Except.toOption]

/-- The answers that the server makes in the same step are behind the others. -/
theorem Ordered.step (hordered : Ordered k past st) {X : Externals} {srv : VerifierServer X}
    (hcarries : ∀ k, Carries k past st)
    (hhandled : ∀ k, ∀ h ∈ handledOn k past, ∃ s s',
      srv.handleMessage h.readings h.message s = (h, s'))
    (hfresh : ∀ k, st.opened ≤ k → requests k past = []) {e : Event} (hbefore : e.before = st)
    (hreads : Reads e e.after.link e.after.opened) (hkept : ¬LosesHeader k e) :
    Ordered k (past ++ [e]) e.after := by
  obtain ⟨read, rest, hlist, hread, hstate⟩ :=
    hordered.reads hcarries hhandled hfresh hbefore hreads hkept
  refine ⟨read, rest ++ (e.output.handledOn k).toList, ?_, hread, fun link hlink hnumber => ?_⟩
  · rw [handledOn_concat, hlist, List.append_assoc]
  · exact (hstate link hlink hnumber).imp_right fun hbehind => hbehind.concat e

/-- The `n`-th response was read off the answer to the `n`-th request. -/
theorem Ordered.getElem? (hordered : Ordered k past st) {X : Externals} {srv : VerifierServer X}
    (hcarries : Carries k past st)
    (hhandled : ∀ h ∈ handledOn k past, ∃ s s',
      srv.handleMessage h.readings h.message s = (h, s'))
    {n : ℕ} {response : PyVal} (hresponse : (responses k past)[n]? = some response) :
    ∃ request h answer, Answered srv k n past request h answer ∧
      response = answer.reload .compact := by
  obtain ⟨read, rest, hlist, hread, -⟩ := hordered
  obtain ⟨hn, hget⟩ := List.getElem?_eq_some_iff.mp hresponse
  have hn' : n < read.length := hread.length_eq ▸ hn
  have hanswer := hread.get hn hn'
  rw [List.get_eq_getElem, hget] at hanswer
  obtain ⟨answer', frame, hencode', hframe, hreload⟩ := hanswer
  have hmem : (handledOn k past)[n]? = some read[n] := by
    rw [hlist, List.getElem?_append_left hn', List.getElem?_eq_getElem hn']
  obtain ⟨s, s', hdone⟩ := hhandled _ (List.mem_of_getElem? hmem)
  obtain ⟨answer, hrespond, hencode⟩ :=
    VerifierServer.exists_respond_of_handleMessage hdone hframe
  -- a frame decodes to one message only
  have hsame : answer'.reload .compact = answer.reload .compact := by
    have hdecode := (decodeBytes_encode hencode' []).symm.trans (decodeBytes_encode hencode [])
    exact Except.ok.inj (congrArg Prod.fst hdecode)
  obtain ⟨later, hlater⟩ := hcarries.handled
  have hrequest : ((requests k past).map (PyVal.reload .compact))[n]? = some read[n].message := by
    rw [← hlater, List.getElem?_append_left (by simp [hlist]; omega), List.getElem?_map, hmem]
    rfl
  rw [List.getElem?_map, Option.map_eq_some_iff] at hrequest
  obtain ⟨request, hrequest, hmessage⟩ := hrequest
  exact ⟨request, _, answer, ⟨hrequest, hmem, hmessage.symm, hframe.trans hencode.symm,
    s, congrArg Prod.fst hdone, hrespond⟩, hreload.trans hsame⟩

end Ordered

end Session

namespace VerifierClient

open Session

variable {X : Externals} (cl : VerifierClient) (srv : VerifierServer X)

/-- What every run keeps, on a connection on which no header is lost. -/
theorem ordered_run {inputs : List Input} {k : ℕ}
    (hkept : ∀ e ∈ cl.sessionRun srv inputs, ¬LosesHeader k e) :
    Ordered k (cl.sessionRun srv inputs) (cl.sessionAfter srv inputs) := by
  -- the order rests on what is kept without the guard
  refine (Machine.run_induction_of_guard (M := cl.session srv) (P := fun past st =>
    (∀ k, Carries k past st) ∧ (∀ k, ∀ h ∈ handledOn k past, ∃ s s',
      srv.handleMessage h.readings h.message s = (h, s')) ∧ Paired past st ∧ Ordered k past st)
    ⟨fun k => carries_init, fun k h hmem => absurd hmem List.not_mem_nil, paired_init,
      ordered_init⟩ ?_ inputs hkept).2.2.2
  rintro past st i ⟨hcarries, hhandled, hpaired, hordered⟩ hkept'
  have hmoves : Moves srv st ((cl.session srv).step st i).1 ((cl.session srv).step st i).2 :=
    moves_step st i
  refine ⟨fun k => (hcarries k).step rfl hmoves, fun k h hmem => ?_,
    paired_step hpaired hcarries hhandled i,
    hordered.step hcarries hhandled hpaired.fresh rfl (reads_step st i) hkept'⟩
  rw [handledOn_concat, List.mem_append, Option.mem_toList] at hmem
  obtain hpast | hnow := hmem
  · exact hhandled k h hpast
  · exact ⟨_, _, hmoves.handleMessage_eq hnow⟩

/-- No header is lost in a run in which no interrupted wait has taken one. -/
theorem keeps_headers {inputs : List Input}
    (h : ∀ i ∈ inputs, i ≠ .timeout true ∧ i ≠ .cancel true) (k : ℕ) :
    ∀ e ∈ cl.sessionRun srv inputs, ¬LosesHeader k e := by
  rintro e he ⟨-, hinput⟩
  obtain ⟨st, i, hi, rfl⟩ := Machine.exists_of_mem_trace _ he
  exact hinput.elim (h i hi).1 (h i hi).2

/-- On a connection on which no header is lost, the `n`-th response that is decoded is the server's
answer to the `n`-th request, whatever becomes of the calls that have sent them: no response is
lost, none comes twice and none overtakes another. -/
theorem decodes_in_order {inputs : List Input} {k : ℕ}
    (hkept : ∀ e ∈ cl.sessionRun srv inputs, ¬LosesHeader k e) {n : ℕ} {response : PyVal}
    (hresponse : (responses k (cl.sessionRun srv inputs))[n]? = some response) :
    ∃ request h answer, Answered srv k n (cl.sessionRun srv inputs) request h answer ∧
      response = answer.reload .compact :=
  (cl.ordered_run srv hkept).getElem? (cl.carries srv inputs k)
    ((cl.paired_run srv inputs).1 k) hresponse

/-- `health_check` is cancelled when it has sent its request, and `list_rules` is called. -/
def cancelledHealthCheck : List Input :=
  [.acquire .healthCheck, .attempt none, .drained, .cancel false, .acquire .listRules,
    .attempt none, .drained, .send 0 1000, .serve 0 readingsOfMessage, .serve 0 readingsOfMessage,
    .arrive 10000, .receive ⟨0, Representable.zero⟩]

/-- The second call decodes the response to the request of the first. -/
theorem decodes_in_order_sample : ∃ request h response,
    (responses 0 (default.sessionRun VerifierServer.denyingServerL0 cancelledHealthCheck))[0]? =
      some response ∧
    (requests 0 (default.sessionRun VerifierServer.denyingServerL0 cancelledHealthCheck))[0]? =
      some request ∧
    (handledOn 0 (default.sessionRun VerifierServer.denyingServerL0 cancelledHealthCheck))[0]? =
      some h ∧
    h.message = request.reload .compact := by
  obtain ⟨response, hresponse⟩ : ∃ response,
      (responses 0 (default.sessionRun VerifierServer.denyingServerL0 cancelledHealthCheck))[0]? =
        some response := Option.isSome_iff_exists.mp (by decide +kernel)
  obtain ⟨request, h, _, hanswered, -⟩ :=
    decodes_in_order default VerifierServer.denyingServerL0
      (keeps_headers _ _ (by simp [cancelledHealthCheck]) 0) hresponse
  exact ⟨request, h, response, hresponse, hanswered.requested, hanswered.handled, hanswered.message⟩

variable {cl srv}

/-- A step of the server returns nothing. -/
theorem serviceStep_ne_returned (i : Service.Input ℕ) (st : Session) (q : ClientCall)
    (value : Returned) : (serviceStep srv i st).1 ≠ .returned q value := by
  unfold serviceStep
  dsimp only
  split <;> exact Output.noConfusion

/-- A call that returns has decoded a response in this very step. -/
theorem decodedOn_of_returned {st : Session} {i : Input} {q : ClientCall} {value : Returned}
    (hreturned : ((cl.session srv).step st i).1 = .returned q value) :
    ∃ time link holder response, i = .receive time ∧ st.link = some link ∧
      st.holder? .decoding = some holder ∧ holder.call = q ∧
      decodedOn link.number ((cl.session srv).event st i) = some response ∧
      q.read X time response = .ok value := by
  obtain ⟨time, holder, link, hholder, hlink, hreceived⟩ := receiveOn_of_returned hreturned
  obtain ⟨hsome, hphase, -⟩ := waiting_of_holder? hholder
  have hother : ∀ phase, phase ≠ .decoding → st.holder? phase = none := fun phase hne => by
    rw [holder?, hsome, Option.filter_some, if_neg (by simp [hphase, hne.symm])]
  -- the call with the lock is waiting for its response, and returns in no other step
  cases i with
  | receive time' =>
    have hstep : (cl.session srv).step st (.receive time') =
        cl.receiveOn X time' holder link st := by
      simp only [session, hholder, hlink]
    rw [hstep] at hreturned
    obtain ⟨hcall, hopen, -, response, buffer, hdecode, hread⟩ :=
      (cl.receives_receiveOn time' holder link st).of_returned hreturned
    refine ⟨time', link, holder, response, rfl, hlink, hholder, hcall, ?_, hread⟩
    rw [cl.decodedOn_receive srv time' hholder hlink, if_pos ⟨rfl, hopen⟩, hdecode]
    rfl
  | acquire q' =>
    simp only [session, hsome, Option.isSome_some, if_true] at hreturned
    cases hreturned
  | attempt connect =>
    simp only [session, hother .ready (by decide)] at hreturned
    cases hreturned
  | drained =>
    simp only [session, hother .draining (by decide)] at hreturned
    cases hreturned
  | timeout taken =>
    simp only [session, hholder] at hreturned
    exact absurd hreturned (fail_ne_returned _ _ _ _ _)
  | cancel taken =>
    simp only [session, hsome] at hreturned
    cases hreturned
  | send k n =>
    simp only [session] at hreturned
    split at hreturned
    · cases hreturned
    · exact absurd hreturned (serviceStep_ne_returned _ _ _ _)
  | finish k =>
    simp only [session] at hreturned
    split at hreturned
    · cases hreturned
    · exact absurd hreturned (serviceStep_ne_returned _ _ _ _)
  | serve k r => exact absurd hreturned (serviceStep_ne_returned _ _ _ _)
  | arrive n => cases hreturned
  | eof => cases hreturned
  | lose failure => cases hreturned

/-- A call that returns has read the answer to the request that is next in the order. -/
theorem exists_answered_of_returned {inputs : List Input} {i : Input} {q : ClientCall}
    {value : Returned}
    (hreturned : ((cl.session srv).step (cl.sessionAfter srv inputs) i).1 = .returned q value)
    (hkept : ∀ link, (cl.sessionAfter srv inputs).link = some link →
      ∀ d ∈ cl.sessionRun srv inputs, ¬LosesHeader link.number d) :
    ∃ link request h answer time, (cl.sessionAfter srv inputs).link = some link ∧
      LastWritten (cl.sessionRun srv inputs) link.number q.request ∧
      Answered srv link.number (responses link.number (cl.sessionRun srv inputs)).length
        (cl.sessionRun srv inputs) request h answer ∧
      q.read X time (answer.reload .compact) = .ok value := by
  obtain ⟨time, link, holder, response, rfl, hlink, hholder, rfl, hdecoded, hread⟩ :=
    decodedOn_of_returned hreturned
  have hrun : cl.sessionRun srv (inputs ++ [.receive time]) =
      cl.sessionRun srv inputs ++ [(cl.session srv).event (cl.sessionAfter srv inputs)
        (.receive time)] := Machine.trace_concat _ _ _ _
  have hlost : ∀ d ∈ cl.sessionRun srv (inputs ++ [.receive time]),
      ¬LosesHeader link.number d := fun d hd => by
    rw [hrun, List.mem_append, List.mem_singleton] at hd
    obtain hd | rfl := hd
    · exact hkept link hlink d hd
    · rintro ⟨-, hinput | hinput⟩ <;> cases hinput
  have hresponse : (responses link.number (cl.sessionRun srv (inputs ++ [.receive time])))[
      (responses link.number (cl.sessionRun srv inputs)).length]? = some response := by
    rw [hrun, responses_concat, hdecoded]
    exact List.getElem?_concat_length
  obtain ⟨request, h, answer, hanswered, rfl⟩ :=
    (cl.ordered_run srv hlost).getElem? (cl.carries srv _ link.number)
      ((cl.paired_run srv _).1 link.number) hresponse
  -- the step that returns writes no request and handles no message
  have hquiet : requests link.number (cl.sessionRun srv (inputs ++ [.receive time])) =
        requests link.number (cl.sessionRun srv inputs) ∧
      handledOn link.number (cl.sessionRun srv (inputs ++ [.receive time])) =
        handledOn link.number (cl.sessionRun srv inputs) := by
    have houtput : ((cl.session srv).event (cl.sessionAfter srv inputs)
        (.receive time)).output = .returned holder.call value := hreturned
    rw [hrun, requests_concat, handledOn_concat, houtput]
    exact ⟨List.append_nil _, List.append_nil _⟩
  obtain ⟨hsome, -, hwaiting⟩ := waiting_of_holder? hholder
  obtain ⟨-, holder', link', hsome', hlink', hlast⟩ := (cl.paired_run srv inputs).2.last hwaiting
  cases hsome.symm.trans hsome'
  cases hlink.symm.trans hlink'
  exact ⟨link, request, h, answer, time, hlink, hlast,
    { hanswered with
      requested := hquiet.1 ▸ hanswered.requested
      handled := hquiet.2 ▸ hanswered.handled }, hread⟩

/-- The request that is next in the order is the last one, if each earlier one has had its response
decoded. -/
theorem Answered.request_eq {past : List Event} {k : ℕ} {request last answer : PyVal}
    {h : VerifierServer.Handled} (hlast : LastWritten past k last)
    (hanswered : Answered srv k (responses k past).length past request h answer)
    (hcount : (responses k past).length + 1 = (requests k past).length) : request = last := by
  obtain ⟨earlier, hearlier⟩ := hlast.requests_eq
  have hlength : earlier.length = (responses k past).length := by
    have hlength := congrArg List.length hearlier
    rw [List.length_append, List.length_singleton] at hlength
    exact Nat.add_right_cancel (hlength.symm.trans hcount.symm)
  have hrequest := hanswered.requested
  rw [hearlier, ← hlength, List.getElem?_concat_length] at hrequest
  exact (Option.some.inj hrequest).symm

/-- What a call returns is what it makes of the answer to one request of its connection: the one
whose number is the number of responses that were decoded before. This is the request of the call
itself if each earlier one has had its response decoded, and otherwise the first of those that were
given up. -/
theorem returned_in_order {inputs : List Input} {past later : List Event} {e : Event}
    {q : ClientCall} {value : Returned} (hrun : cl.sessionRun srv inputs = past ++ e :: later)
    (hreturned : e.output = .returned q value)
    (hkept : ∀ link, e.before.link = some link → ∀ d ∈ past, ¬LosesHeader link.number d) :
    ∃ link request h answer time, e.before.link = some link ∧
      Answered srv link.number (responses link.number past).length past request h answer ∧
      q.read X time (answer.reload .compact) = .ok value ∧
      ((responses link.number past).length + 1 = (requests link.number past).length →
        request = q.request) := by
  obtain ⟨before, i, after, -, rfl, rfl, -⟩ := Machine.exists_of_trace_eq_append _ hrun
  obtain ⟨link, request, h, answer, time, hlink, hlast, hanswered, hread⟩ :=
    exists_answered_of_returned hreturned hkept
  exact ⟨link, request, h, answer, time, hlink, hanswered, hread,
    Answered.request_eq hlast hanswered⟩

/-- It returns what the server has answered to that request. -/
theorem returned_in_order_sample : ∃ past e later q value link request,
    default.sessionRun VerifierServer.denyingServerL0 cancelledHealthCheck = past ++ e :: later ∧
    e.output = .returned q value ∧ e.before.link = some link ∧
    (requests link.number past)[(responses link.number past).length]? = some request := by
  obtain ⟨e, hmem, hvalue⟩ : ∃ e ∈ default.sessionRun VerifierServer.denyingServerL0
      cancelledHealthCheck, e.output.isReturned = true := List.any_eq_true.mp (by decide +kernel)
  obtain ⟨past, later, hrun⟩ := List.append_of_mem hmem
  obtain ⟨q, value, hreturned⟩ := exists_of_isReturned hvalue
  obtain ⟨link, request, _, _, _, hlink, hanswered, -⟩ :=
    returned_in_order hrun hreturned fun link _ d hd =>
      keeps_headers _ _ (by simp [cancelledHealthCheck]) link.number d
        (hrun ▸ List.mem_append_left _ hd)
  exact ⟨past, e, later, q, value, link, request, hrun, hreturned, hlink, hanswered.requested⟩

end VerifierClient
