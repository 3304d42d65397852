import CcsVerifier.Client.Session

/-!
# Responses and the requests that they answer

The client tells by its place in the stream alone which request a response answers, so that a
request whose response is never read shifts all later ones.

* `Session.Abandons`: the steps that give up a request on a connection, but not the connection.
* `Session.Aligned`: the reader of a connection is behind the answers to the earlier requests.
* `Session.Paired`, `VerifierClient.paired_step`: what every step keeps, for the connections on which
  none was given up.
* `VerifierClient.pairs_responses`: a result that is read from such a connection was read off the
  answer to the request of its own call.
* `VerifierClient.cancelled_call_shifts_responses`: a run with one.
-/

open MessageFrame

/-- Nothing can be read from the connection any more. -/
def Link.IsDead (link : Link) : Prop :=
  link.isOpen = false ∨ link.status = .ended ∧ link.buffer = []

namespace Session

/-! ## What a run keeps -/

/-- The call has written a request and has not read the response. -/
def waiting (st : Session) : Bool := st.holder.any fun h => decide (h.phase ≠ .ready)

/-- A step gives up a request on a connection from which its response may still be read, and the
client goes on with the connection: the caller cancels a call that has written its request, or
another method than `verify` times out. -/
def Abandons (k : ℕ) (e : Event) : Prop :=
  ∃ h link, e.before.holder = some h ∧ e.before.link = some link ∧ link.number = k ∧
    ¬link.IsDead ∧
    match e.input with
    | .cancel _ => h.phase ≠ .ready
    | .timeout _ => h.phase = .decoding ∧ h.call.isVerify = false
    | _ => False

/-- No request was given up on a connection. -/
def Kept (past : List Event) (k : ℕ) : Prop := ∀ d ∈ past, ¬Abandons k d

/-- A step begins a call or writes a request. -/
def Output.begins : Output → Bool
  | .acquired _ | .wrote _ _ => true
  | _ => false

/-- The last request was written to this connection, and no other call has begun since. -/
def LastWritten (past : List Event) (k : ℕ) (request : PyVal) : Prop :=
  ∃ before w during, past = before ++ w :: during ∧ w.output = .wrote k request ∧
    ∀ d ∈ during, d.output.begins = false

/-- The bytes that have arrived are the answers to all requests of the connection, without the last
one if the client waits for its response, and after these the bytes in the buffer. -/
structure Aligned (past : List Event) (waits : Bool) (link : Link) : Prop where
  /-- No more has arrived than the server has written. -/
  arrived_le : link.arrived ≤ (answers (handledOn link.number past)).length
  /-- The answers to the earlier requests have been read. -/
  read : ∃ earlier rest, handledOn link.number past = earlier ++ rest ∧
    earlier.length + waits.toNat = (requests link.number past).length ∧
    (answers (handledOn link.number past)).take link.arrived = answers earlier ++ link.buffer

/-- What the steps of a client keep, as long as it gives up no request without its connection. -/
structure Paired (past : List Event) (st : Session) : Prop where
  /-- No request was written to a connection that is still to be opened. -/
  fresh : ∀ k, st.opened ≤ k → requests k past = []
  /-- The client has a connection that was opened. -/
  number : ∀ link, st.link = some link → link.number < st.opened
  /-- A connection that the client takes to be open is aligned, or gives nothing any more, unless a
  request was given up on it. -/
  aligned : st.connected = true → ∃ link, st.link = some link ∧
    (Kept past link.number → link.IsDead ∨ Aligned past st.waiting link)
  /-- The client waits for the response to the request that was written last. -/
  last : st.waiting = true → st.connected = true ∧ ∃ h link, st.holder = some h ∧
    st.link = some link ∧ LastWritten past link.number h.call.request

section Past

variable {past : List Event} {st : Session} {e : Event}

/-- A request stays the last one until another is written. -/
theorem LastWritten.concat {k : ℕ} {request : PyVal} (h : LastWritten past k request)
    (hbegins : e.output.begins = false) : LastWritten (past ++ [e]) k request := by
  obtain ⟨before, w, during, rfl, hw, hduring⟩ := h
  refine ⟨before, w, during ++ [e], by simp, hw, fun d hd => ?_⟩
  rcases List.mem_append.mp hd with hd | hd
  · exact hduring d hd
  · rw [List.mem_singleton.mp hd]
    exact hbegins

/-- What is kept by a run was kept before. -/
theorem Kept.of_concat {k : ℕ} (h : Kept (past ++ [e]) k) : Kept past k :=
  fun d hd => h d (List.mem_append_left _ hd)

/-- It is the last request on its connection. -/
theorem LastWritten.requests_eq {k : ℕ} {request : PyVal} (h : LastWritten past k request) :
    ∃ earlier, requests k past = earlier ++ [request] := by
  obtain ⟨before, w, during, rfl, hw, hduring⟩ := h
  refine ⟨requests k before, ?_⟩
  -- what the connection was used for since is no request
  have hnone : requests k during = [] := by
    rw [requests, List.filterMap_eq_nil_iff]
    intro d hd
    have hbegins := hduring d hd
    unfold Output.requestOn
    split
    · next heq =>
      rw [heq] at hbegins
      cases hbegins
    · rfl
  have hone : w.output.requestOn k = some request := by
    rw [hw]
    exact if_pos rfl
  calc requests k (before ++ w :: during)
      = requests k before ++ requests k (w :: during) := List.filterMap_append
    _ = requests k before ++ request :: requests k during :=
      congrArg _ (List.filterMap_cons_some hone)
    _ = requests k before ++ [request] := by rw [hnone]

/-- The server may go on answering while the client reads. -/
theorem Aligned.concat {waits : Bool} {link : Link} (h : Aligned past waits link)
    (hrequest : e.output.requestOn link.number = none) : Aligned (past ++ [e]) waits link := by
  obtain ⟨harrived, earlier, rest, hhandled, hcount, htake⟩ := h
  refine ⟨?_, earlier, rest ++ (e.output.handledOn link.number).toList, ?_, ?_, ?_⟩
  · rw [handledOn_concat, answers_append, List.length_append]
    exact harrived.trans (Nat.le_add_right _ _)
  · rw [handledOn_concat, hhandled, List.append_assoc]
  · rwa [requests_concat, hrequest, Option.toList_none, List.append_nil]
  · rwa [handledOn_concat, answers_append, List.take_append_of_le_length harrived]

/-- A step that writes nothing keeps what it does not change. -/
theorem Paired.concat (h : Paired past st) (hrequest : ∀ k, e.output.requestOn k = none)
    (hbegins : st.waiting = true → e.output.begins = false) : Paired (past ++ [e]) st where
  fresh k hk := by rw [requests_concat, h.fresh k hk, hrequest, Option.toList_none, List.append_nil]
  number := h.number
  aligned hconnected := by
    obtain ⟨link, hlink, hstate⟩ := h.aligned hconnected
    exact ⟨link, hlink, fun hkept =>
      (hstate hkept.of_concat).imp_right fun haligned => haligned.concat (hrequest _)⟩
  last hwaiting := by
    obtain ⟨hconnected, holder, link, hholder, hlink, hlast⟩ := h.last hwaiting
    exact ⟨hconnected, holder, link, hholder, hlink, hlast.concat (hbegins hwaiting)⟩

end Past

section States

variable {past : List Event} {st : Session}

/-- Nothing is paired at first. -/
theorem paired_init : Paired [] .init where
  fresh _ _ := rfl
  number _ h := by cases h
  aligned h := by cases h
  last h := by cases h

/-- The call with the lock and its phase. -/
theorem waiting_of_holder? {h : Holder} {phase : Phase} (hholder : st.holder? phase = some h) :
    st.holder = some h ∧ h.phase = phase ∧ st.waiting = decide (phase ≠ .ready) := by
  obtain ⟨hsome, hphase⟩ := Option.filter_eq_some_iff.mp hholder
  have heq : h.phase = phase := of_decide_eq_true hphase
  refine ⟨hsome, heq, ?_⟩
  rw [waiting, hsome, Option.any_some, heq]

/-- The connection that a client takes to be open. -/
theorem openLink?_eq_some_iff {link : Link} :
    st.openLink? = some link ↔ st.connected = true ∧ st.link = some link ∧ link.isOpen = true := by
  unfold openLink?
  split
  · next hconnected => simp [hconnected, Option.filter_eq_some_iff]
  · next hconnected => simp [hconnected]

/-- The client waits on its connection. -/
theorem Paired.link_of_waiting (h : Paired past st) (hwaiting : st.waiting = true) {link : Link}
    (hlink : st.link = some link) (hkept : Kept past link.number) :
    link.IsDead ∨ Aligned past true link := by
  obtain ⟨link', hlink', hstate⟩ := h.aligned (h.last hwaiting).1
  rw [hlink, Option.some.injEq] at hlink'
  subst hlink'
  have haligned := hstate hkept
  rwa [hwaiting] at haligned

/-- What arrives or is lost on the connection. -/
theorem Paired.mapLink (h : Paired past st) (f : Link → Link)
    (hnumber : ∀ link, (f link).number = link.number)
    (hf : ∀ link, st.link = some link → link.IsDead ∨ Aligned past st.waiting link →
      (f link).IsDead ∨ Aligned past st.waiting (f link)) :
    Paired past { st with link := st.link.map f } where
  fresh := h.fresh
  number link hlink := by
    obtain ⟨link', hlink', rfl⟩ := Option.map_eq_some_iff.mp hlink
    rw [hnumber]
    exact h.number link' hlink'
  aligned hconnected := by
    obtain ⟨link, hlink, hstate⟩ := h.aligned hconnected
    refine ⟨f link, Option.map_eq_some_iff.mpr ⟨link, hlink, rfl⟩, fun hkept => ?_⟩
    exact hf link hlink (hstate (hnumber link ▸ hkept))
  last hwaiting := by
    obtain ⟨hconnected, holder, link, hholder, hlink, hlast⟩ := h.last hwaiting
    refine ⟨hconnected, holder, f link, hholder, Option.map_eq_some_iff.mpr ⟨link, hlink, rfl⟩, ?_⟩
    rwa [hnumber]

/-- The call ends, and the connection can go on being used. -/
theorem Paired.release {connected : Bool} {link : Option Link} {opened : ℕ} {holder : Option Holder}
    (hfresh : ∀ k, opened ≤ k → requests k past = [])
    (hnumber : ∀ l, link = some l → l.number < opened)
    (hholder : ∀ h ∈ holder, h.phase = .ready)
    (hsettled : connected = true → ∃ l, link = some l ∧
      (Kept past l.number → l.IsDead ∨ Aligned past false l)) :
    Paired past ⟨st.service, st.outgoing, opened, connected, link, holder⟩ := by
  have hwaiting : waiting ⟨st.service, st.outgoing, opened, connected, link, holder⟩ = false := by
    cases holder with
    | none => rfl
    | some h => simp [waiting, hholder h rfl]
  refine ⟨hfresh, hnumber, ?_, ?_⟩
  · rw [hwaiting]
    exact hsettled
  · rw [hwaiting]
    exact fun h => Bool.noConfusion h

end States

end Session

namespace VerifierClient

open Session

variable {X : Externals} {cl : VerifierClient} {srv : VerifierServer X} {past : List Event}
  {st : Session}

/-! ## What a step keeps -/

/-- A failed attempt begins nothing. -/
theorem begins_fail (h : Holder) (e : PyExc) (st : Session) :
    (∀ k, (cl.fail h e st).1.requestOn k = none) ∧ (cl.fail h e st).1.begins = false := by
  have hends := cl.failEnds_fail h e st
  generalize (cl.fail h e st).1 = o at hends
  generalize (cl.fail h e st).2 = st' at hends
  cases hends <;> exact ⟨fun _ => rfl, rfl⟩

/-- A failed attempt keeps what the client goes on with: the connection, if the exception is not
caught. -/
theorem paired_fail {h : Holder} {e : PyExc} (hfresh : ∀ k, st.opened ≤ k → requests k past = [])
    (hnumber : ∀ l, st.link = some l → l.number < st.opened)
    (hsettled : st.connected = true → (h.call.isVerify = true → cl.caught e = none) →
      ∃ l, st.link = some l ∧ (Kept past l.number → l.IsDead ∨ Aligned past false l)) :
    Paired past (cl.fail h e st).2 := by
  have hends := cl.failEnds_fail h e st
  generalize (cl.fail h e st).1 = o at hends
  generalize (cl.fail h e st).2 = st' at hends
  have hnone : false = true → ∃ l, st.link = some l ∧
      (Kept past l.number → l.IsDead ∨ Aligned past false l) := fun hfalse => by cases hfalse
  cases hends with
  | escapes hcaught =>
    exact .release hfresh hnumber (by simp) fun hconnected => hsettled hconnected hcaught
  | ends e' => exact .release hfresh hnumber (by simp) hnone
  | retries left => exact .release hfresh hnumber (by simp) hnone

/-- Nothing but the next answer can be read from an aligned connection, and only as a whole. -/
theorem aligned_cases {link : Link} (haligned : Aligned past true link)
    (hcarries : Carries link.number past st)
    (hhandled : ∀ h ∈ handledOn link.number past, ∃ s s',
      srv.handleMessage h.readings h.message s = (h, s')) :
    awaits link.buffer = true ∨ ∃ earlier h, handledOn link.number past = earlier ++ [h] ∧
      earlier.length + 1 = (requests link.number past).length ∧ h.frame = .ok link.buffer := by
  obtain ⟨-, earlier, rest, hlist, hcount, htake⟩ := haligned
  -- all requests but the last have been answered, so at most one more answer was made
  have hlength := hcarries.handled.length_le
  rw [List.length_map, List.length_map, ← hcount, hlist, List.length_append] at hlength
  have hpre : answers earlier ++ link.buffer <+: answers earlier ++ answers rest := by
    rw [← htake, ← answers_append, ← hlist]
    exact List.take_prefix _ _
  rw [List.prefix_append_right_inj] at hpre
  have hempty : answers rest = [] → awaits link.buffer = true := fun hnil => by
    rw [hnil, List.prefix_nil] at hpre
    rw [hpre]
    rfl
  rcases rest with _ | ⟨h, _ | ⟨h', rest⟩⟩
  · exact .inl (hempty rfl)
  · cases hframe : h.frame with
    | error e => exact .inl (hempty (by simp [answers, hframe, Except.toOption]))
    | ok frame =>
      have hanswer : answers [h] = frame := by simp [answers, hframe, Except.toOption]
      rw [hanswer] at hpre
      by_cases hwhole : link.buffer = frame
      · exact .inr ⟨earlier, h, hlist, hcount, hwhole ▸ hframe⟩
      · -- a part of the answer
        obtain ⟨s, s', hdone⟩ := hhandled h (hlist ▸ List.mem_append_right _ List.mem_cons_self)
        obtain ⟨-, response, frame', -, -, hencode, hframe'⟩ :=
          VerifierServer.isAnswered_of_handleMessage hdone hframe
        cases hframe.symm.trans hframe'
        exact .inl (awaits_of_incomplete hencode hpre hwhole)
  · -- two more answers would need two more requests
    rw [List.length_cons, List.length_cons, Bool.toNat_true] at hlength
    omega

/-- After the whole answer has been read the connection is ready for the next request. -/
theorem aligned_of_read {link : Link} (haligned : Aligned past true link)
    {earlier : List VerifierServer.Handled} {h : VerifierServer.Handled}
    (hlist : handledOn link.number past = earlier ++ [h])
    (hcount : earlier.length + 1 = (requests link.number past).length)
    (hframe : h.frame = .ok link.buffer) : Aligned past false { link with buffer := [] } := by
  obtain ⟨harrived, earlier', rest, hlist', hcount', htake⟩ := haligned
  -- both lists hold all answers but the one that is read
  have hsame : earlier' = earlier := by
    have hpre := congrArg (List.take earlier'.length) (hlist'.symm.trans hlist)
    rw [List.take_left, List.take_left' (by rw [Bool.toNat_true] at hcount'; omega)] at hpre
    exact hpre
  refine ⟨harrived, earlier ++ [h], [], ?_, ?_, ?_⟩
  · rw [List.append_nil, hlist]
  · rw [List.length_append, Bool.toNat_false]
    exact hcount
  · rw [htake, hsame, answers_append, List.append_nil]
    simp [answers, hframe, Except.toOption]

/-- What is read when the client waits: the last answer, with nothing behind it, or an error that
leaves nothing behind. -/
theorem decodeBytes_cases {link : Link} (hstate : link.IsDead ∨ Aligned past true link)
    (hopen : link.isOpen = true) (hends : awaits link.buffer = true → link.status = .ended)
    (hcarries : Carries link.number past st)
    (hhandled : ∀ h ∈ handledOn link.number past, ∃ s s',
      srv.handleMessage h.readings h.message s = (h, s')) :
    (∃ e, decodeBytes link.buffer = (.error e, []) ∧ link.status = .ended) ∨
    ∃ earlier h s response, handledOn link.number past = earlier ++ [h] ∧
      earlier.length + 1 = (requests link.number past).length ∧
      (srv.handleMessage h.readings h.message s).1 = h ∧
      (srv.respond h.readings h.message s).1.1 = .ok response ∧
      decodeBytes link.buffer = (.ok (response.reload .compact), []) ∧
      Aligned past false { link with buffer := [] } := by
  have herror : awaits link.buffer = true →
      ∃ e, decodeBytes link.buffer = (.error e, []) ∧ link.status = .ended := fun hwait => by
    obtain ⟨e, he, -⟩ := decodeBytes_of_awaits hwait
    exact ⟨e, he, hends hwait⟩
  -- a dead link that is open has ended with nothing in its buffer
  obtain (hlost | ⟨-, hempty⟩) | haligned := hstate
  · rw [hopen] at hlost
    cases hlost
  · exact .inl (herror (by rw [hempty]; rfl))
  · obtain hwait | ⟨earlier, h, hlist, hcount, hframe⟩ := aligned_cases haligned hcarries hhandled
    · exact .inl (herror hwait)
    · -- the buffer holds the whole answer and nothing after it
      obtain ⟨s, s', hdone⟩ := hhandled h (hlist ▸ List.mem_append_right _ List.mem_cons_self)
      obtain ⟨response, hresponse, hencode⟩ :=
        VerifierServer.exists_respond_of_handleMessage hdone hframe
      have hdecode := decodeBytes_encode hencode []
      rw [List.append_nil] at hdecode
      exact .inr ⟨earlier, h, s, response, hlist, hcount, congrArg Prod.fst hdone, hresponse,
        hdecode, aligned_of_read haligned hlist hcount hframe⟩

/-- Reading a response keeps the pairing. -/
theorem paired_receiveOn (cl : VerifierClient) (hpaired : Paired past st) {h : Holder} {link : Link}
    (hcarries : Carries link.number past st)
    (hhandled : ∀ h ∈ handledOn link.number past, ∃ s s',
      srv.handleMessage h.readings h.message s = (h, s')) (time : FiniteBinary64)
    (hholder : st.holder? .decoding = some h) (hlink : st.link = some link) :
    Paired past (cl.receiveOn X time h link st).2 ∧
      (∀ k, (cl.receiveOn X time h link st).1.requestOn k = none) ∧
      (cl.receiveOn X time h link st).1.begins = false := by
  obtain ⟨-, -, hwaiting⟩ := waiting_of_holder? hholder
  have hstate := hpaired.link_of_waiting hwaiting hlink
  have hnumber : ∀ buffer l, some { link with buffer := buffer } = some l → l.number < st.opened :=
    fun buffer l hl => by
      rw [← Option.some.inj hl]
      exact hpaired.number link hlink
  have hreceives := cl.receives_receiveOn (X := X) time h link st
  generalize cl.receiveOn X time h link st = out at hreceives ⊢
  cases hreceives with
  | lost hlost =>
    -- the connection is lost, and stays so
    refine ⟨paired_fail hpaired.fresh hpaired.number fun _ _ =>
      ⟨link, hlink, fun _ => .inl (.inl ?_)⟩, begins_fail _ _ _⟩
    rw [Link.isOpen, hlost]
  | waits => exact ⟨hpaired, fun _ => rfl, rfl⟩
  | @fails response buffer e hopen hends hdecode _ =>
    refine ⟨paired_fail hpaired.fresh (hnumber buffer) fun _ _ => ⟨_, rfl, fun hkept => ?_⟩,
      begins_fail _ _ _⟩
    obtain ⟨_, hdecode', hended⟩ | ⟨_, _, _, _, -, -, -, -, hdecode', haligned⟩ :=
      decodeBytes_cases (hstate hkept) hopen hends hcarries hhandled
    · cases hdecode.symm.trans hdecode'
      exact .inl (.inr ⟨hended, rfl⟩)
    · cases hdecode.symm.trans hdecode'
      exact .inr haligned
  | @reads response buffer value hopen hends hdecode _ =>
    refine ⟨.release hpaired.fresh (hnumber buffer) (by simp) fun _ => ⟨_, rfl, fun hkept => ?_⟩,
      fun _ => rfl, rfl⟩
    obtain ⟨_, hdecode', -⟩ | ⟨_, _, _, _, -, -, -, -, hdecode', haligned⟩ :=
      decodeBytes_cases (hstate hkept) hopen hends hcarries hhandled
    · cases hdecode.symm.trans hdecode'
    · cases hdecode.symm.trans hdecode'
      exact .inr haligned

/-- Flushing a request keeps it. -/
theorem paired_drain (cl : VerifierClient) (hpaired : Paired past st) {h : Holder} {link : Link}
    (hholder : st.holder? .draining = some h) (hlink : st.link = some link) :
    Paired past (cl.drain h link st).2 ∧ (∀ k, (cl.drain h link st).1.requestOn k = none) ∧
      (cl.drain h link st).1.begins = false := by
  obtain ⟨hsome, -, hwaiting⟩ := waiting_of_holder? hholder
  unfold drain
  split
  · next failure hlost =>
    refine ⟨paired_fail hpaired.fresh hpaired.number fun _ _ =>
      ⟨link, hlink, fun _ => .inl (.inl ?_)⟩, begins_fail _ _ _⟩
    rw [Link.isOpen, hlost]
  · refine ⟨⟨hpaired.fresh, hpaired.number, fun hconnected => ?_, fun _ => ?_⟩, fun _ => rfl, rfl⟩
    -- the holder goes on waiting for the same response
    · exact ⟨link, hlink, hpaired.link_of_waiting hwaiting hlink⟩
    · obtain ⟨hconnected, h', link', hsome', hlink', hlast⟩ := hpaired.last hwaiting
      rw [hsome, Option.some.injEq] at hsome'
      exact ⟨hconnected, _, link', rfl, hlink', hsome' ▸ hlast⟩

/-- A new connection has carried nothing. -/
theorem paired_newLink (hpaired : Paired past st) (hcarries : Carries st.opened past st)
    (hwaiting : st.waiting = false) : Paired past { st with
      opened := st.opened + 1, connected := true, link := some ⟨st.opened, [], 0, .live⟩ } where
  fresh k hk := hpaired.fresh k (Nat.le_of_succ_le hk)
  number link hlink := by
    rw [← Option.some.inj hlink]
    exact Nat.lt_succ_self _
  aligned _ := by
    -- nothing has been asked or answered on a number that is new
    have hrequests := hpaired.fresh st.opened le_rfl
    have hhandled := hcarries.handled
    rw [hrequests, List.map_nil, List.prefix_nil, List.map_eq_nil_iff] at hhandled
    refine ⟨_, rfl, fun _ => .inr ⟨Nat.zero_le _, [], [], hhandled, ?_, rfl⟩⟩
    change 0 + st.waiting.toNat = (requests st.opened past).length
    rw [hrequests, hwaiting]
    rfl
  last hwaits := by
    change st.waiting = true at hwaits
    rw [hwaiting] at hwaits
    cases hwaits

/-- From now on the client waits for the response to the request that it writes. -/
theorem paired_write (hpaired : Paired past st) (hwaiting : st.waiting = false)
    (hconnected : st.connected = true) {link : Link} (hlink : st.link = some link) {h : Holder}
    {outgoing : ℕ → Bytes} {e : Event} (houtput : e.output = .wrote link.number h.call.request) :
    Paired (past ++ [e]) { st with
      outgoing := outgoing, holder := some { h with phase := .draining } } where
  fresh k hk := by
    have hne : link.number ≠ k := ((hpaired.number link hlink).trans_le hk).ne
    have hnone : e.output.requestOn k = none := by
      rw [houtput]
      exact if_neg hne
    rw [requests_concat, hpaired.fresh k hk, hnone]
    rfl
  number := hpaired.number
  aligned _ := by
    obtain ⟨link', hlink', hstate⟩ := hpaired.aligned hconnected
    rw [hlink, Option.some.injEq] at hlink'
    subst hlink'
    refine ⟨link, hlink, fun hkept => (hstate hkept.of_concat).imp_right fun haligned => ?_⟩
    obtain ⟨harrived, earlier, rest, hhandled, hcount, htake⟩ := haligned
    -- the server has not seen the request yet
    have hsame : handledOn link.number (past ++ [e]) = handledOn link.number past := by
      rw [handledOn_concat, houtput]
      exact List.append_nil _
    have hone : e.output.requestOn link.number = some h.call.request := by
      rw [houtput]
      exact if_pos rfl
    refine ⟨hsame ▸ harrived, earlier, rest, hsame.trans hhandled, ?_, hsame ▸ htake⟩
    rw [requests_concat, hone, List.length_append, ← hcount, hwaiting]
    rfl
  last _ := ⟨hconnected, _, link, rfl, hlink, past, e, [], by simp, houtput, by simp⟩

/-- A new attempt keeps it. -/
theorem paired_attemptOn (hpaired : Paired past st) (hcarries : ∀ k, Carries k past st)
    (connect : Option NetworkFailure) {h : Holder} (hholder : st.holder? .ready = some h)
    {e : Event} (houtput : e.output = (cl.attemptOn connect h st).1) :
    Paired (past ++ [e]) (cl.attemptOn connect h st).2 := by
  have hready : st.waiting = false := (waiting_of_holder? hholder).2.2
  -- a failure before the request is written leaves the connection as it was
  have hfails : ∀ (err : PyExc) {st₁ : Session}, Paired past st₁ → st₁.waiting = false →
      cl.attemptOn connect h st = cl.fail h err st₁ →
      Paired (past ++ [e]) (cl.attemptOn connect h st).2 := by
    intro err st₁ hpaired₁ hready₁ hfail
    rw [hfail] at houtput ⊢
    obtain ⟨hrequest, hbegins⟩ := cl.begins_fail h err st₁
    have hafter : Paired past (cl.fail h err st₁).2 := paired_fail hpaired₁.fresh hpaired₁.number
      fun hconnected _ => hready₁ ▸ hpaired₁.aligned hconnected
    exact hafter.concat (houtput ▸ hrequest) fun _ => houtput ▸ hbegins
  -- on an open connection the request is written, unless it cannot be dumped
  have hgoes : ∀ {link : Link} {st₁ : Session}, Paired past st₁ → st₁.waiting = false →
      st₁.connected = true → st₁.link = some link → cl.ensureLink connect st = (.ok link, st₁) →
      Paired (past ++ [e]) (cl.attemptOn connect h st).2 := by
    intro link st₁ hpaired₁ hready₁ hconnected₁ hlink₁ hensure
    cases hencode : encode h.call.request with
    | error err =>
      refine hfails err hpaired₁ hready₁ ?_
      rw [attemptOn, hensure]
      dsimp only
      rw [hencode]
    | ok frame =>
      rw [attemptOn, hensure] at houtput ⊢
      dsimp only at houtput ⊢
      rw [hencode] at houtput ⊢
      exact paired_write hpaired₁ hready₁ hconnected₁ hlink₁ houtput
  rcases cl.ensureLink_cases connect st with ⟨err, herr⟩ | ⟨link, hlink, hold⟩ | hnew
  · refine hfails err hpaired hready ?_
    rw [attemptOn, herr]
  · obtain ⟨hconnected, hlink, -⟩ := openLink?_eq_some_iff.mp hlink
    exact hgoes hpaired hready hconnected hlink hold
  · -- a new connection starts with no request and no answer
    exact hgoes (paired_newLink hpaired (hcarries _) hready) hready rfl rfl hnew

/-- What arrives comes next in the answers of the server. -/
theorem paired_arrive (hpaired : Paired past st) (hcarries : ∀ k, Carries k past st) (n : ℕ) :
    Paired past (st.arrive n) := by
  refine hpaired.mapLink _ (fun link => ?_) fun link _ hstate => ?_
  · dsimp only
    split <;> rfl
  dsimp only
  split
  · next hlive =>
    obtain (hlost | ⟨hended, -⟩) | ⟨harrived, earlier, rest, hhandled, hcount, htake⟩ := hstate
    · rw [Link.isOpen, hlive] at hlost
      cases hlost
    · rw [hlive] at hended
      cases hended
    rw [(hcarries link.number).written]
    -- no more arrives than the server has written
    have hchunk : (((answers (handledOn link.number past)).drop link.arrived).take n).length ≤
        (answers (handledOn link.number past)).length - link.arrived := by
      rw [← List.length_drop]
      exact (List.take_prefix ..).length_le
    refine .inr ⟨?_, earlier, rest, hhandled, hcount, ?_⟩
    · dsimp only
      omega
    · dsimp only
      rw [List.take_add, htake, List.append_assoc]
      congr 2
      exact (List.prefix_iff_eq_take.mp (List.take_prefix ..)).symm
  · exact hstate

/-- The end of the stream keeps it. -/
theorem paired_endStream (hpaired : Paired past st) : Paired past st.endStream := by
  refine hpaired.mapLink _ (fun link => ?_) fun link _ hstate => ?_
  · split <;> rfl
  split
  · next hlive =>
    obtain (hlost | ⟨hended, -⟩) | haligned := hstate
    · rw [Link.isOpen, hlive] at hlost
      cases hlost
    · rw [hlive] at hended
      cases hended
    · exact .inr ⟨haligned.arrived_le, haligned.read⟩
  · exact hstate

/-- Losing the connection keeps it. -/
theorem paired_lose (hpaired : Paired past st) (failure : NetworkFailure) :
    Paired past (st.lose failure) :=
  hpaired.mapLink _ (fun _ => rfl) fun _ _ _ => .inl (.inl rfl)

/-- A call that is interrupted leaves a connection that gives nothing any more as it is, or one on
which a request was given up. -/
theorem settled_interrupt (hpaired : Paired past st) (taken : Bool) :
    (∀ k, (st.interrupt taken).opened ≤ k → requests k past = []) ∧
    (∀ l, (st.interrupt taken).link = some l → l.number < (st.interrupt taken).opened) ∧
    ((∀ link, st.link = some link → Kept past link.number → link.IsDead) →
      (st.interrupt taken).connected = true → ∃ l, (st.interrupt taken).link = some l ∧
        (Kept past l.number → l.IsDead ∨ Aligned past false l)) := by
  -- a header that is taken leaves the buffer shorter, but a dead link dead
  cases taken with
  | false =>
    refine ⟨hpaired.fresh, hpaired.number, fun hdead hconnected => ?_⟩
    obtain ⟨link, hlink, -⟩ := hpaired.aligned hconnected
    exact ⟨link, hlink, fun hkept => .inl (hdead link hlink hkept)⟩
  | true =>
    refine ⟨hpaired.fresh, fun l hl => ?_, fun hdead hconnected => ?_⟩
    · obtain ⟨link, hlink, rfl⟩ := Option.map_eq_some_iff.mp hl
      exact hpaired.number link hlink
    · obtain ⟨link, hlink, -⟩ := hpaired.aligned hconnected
      refine ⟨_, Option.map_eq_some_iff.mpr ⟨link, hlink, rfl⟩, fun hkept => .inl ?_⟩
      obtain hlost | ⟨hended, hempty⟩ := hdead link hlink hkept
      · exact .inl hlost
      · refine .inr ⟨hended, ?_⟩
        dsimp only
        rw [hempty]
        rfl

/-- A call that times out gives the connection up, if it is one of `verify`. -/
theorem paired_timeout (hpaired : Paired past st) {h : Holder} (taken : Bool)
    (hdead : h.call.isVerify = false → ∀ link, st.link = some link → Kept past link.number →
      link.IsDead) : Paired past (cl.fail h ⟨.timeoutError, []⟩ (st.interrupt taken)).2 := by
  obtain ⟨hfresh, hnumber, hsettled⟩ := settled_interrupt hpaired taken
  refine paired_fail hfresh hnumber fun hconnected hcaught => hsettled (hdead ?_) hconnected
  rw [Bool.eq_false_iff]
  intro hverify
  cases hcaught hverify

/-- A call that is cancelled leaves the connection as it is. -/
theorem paired_cancel (hpaired : Paired past st) {h : Holder} (hholder : st.holder = some h)
    (taken : Bool)
    (hdead : h.phase ≠ .ready → ∀ link, st.link = some link → Kept past link.number →
      link.IsDead) :
    Paired past
      { (if h.phase = .decoding then st.interrupt taken else st) with holder := none } := by
  have hinterrupted : ∀ taken, h.phase ≠ .ready →
      Paired past { st.interrupt taken with holder := none } := fun taken hphase => by
    obtain ⟨hfresh, hnumber, hsettled⟩ := settled_interrupt hpaired taken
    exact .release hfresh hnumber (by simp) (hsettled (hdead hphase))
  -- before its request a call leaves nothing behind
  cases hphase : h.phase with
  | ready =>
    have hwaiting : st.waiting = false := by
      rw [waiting, hholder, Option.any_some, hphase]
      rfl
    exact .release hpaired.fresh hpaired.number (by simp) fun hconnected =>
      hwaiting ▸ hpaired.aligned hconnected
  | draining => exact hinterrupted false (by rw [hphase]; decide)
  | decoding => exact hinterrupted taken (by rw [hphase]; decide)

/-- Getting the lock keeps it. -/
theorem paired_acquire (cl : VerifierClient) (hpaired : Paired past st) (hfree : st.holder = none)
    (q : ClientCall) :
    Paired past (cl.acquire q st).2 ∧ (∀ k, (cl.acquire q st).1.requestOn k = none) ∧
      (cl.acquire q st).2.waiting = false := by
  have hwaiting : st.waiting = false := by
    rw [waiting, hfree]
    rfl
  have hready : ∀ left, Paired past { st with holder := some ⟨q, left, .ready⟩ } := fun left =>
    .release hpaired.fresh hpaired.number (by simp) fun hconnected =>
      hwaiting ▸ hpaired.aligned hconnected
  unfold acquire
  split_ifs
  · exact ⟨hpaired, fun _ => rfl, hwaiting⟩
  · exact ⟨hready _, fun _ => rfl, rfl⟩
  · exact ⟨hready _, fun _ => rfl, rfl⟩

/-- What happens at the server changes nothing that the client goes on with. -/
theorem paired_serviceStep (srv : VerifierServer X) (hpaired : Paired past st)
    (i : Service.Input ℕ) (outgoing : ℕ → Bytes) :
    Paired past (serviceStep srv i { st with outgoing := outgoing }).2 ∧
      (∀ k, (serviceStep srv i { st with outgoing := outgoing }).1.requestOn k = none) ∧
      (serviceStep srv i { st with outgoing := outgoing }).1.begins = false := by
  refine ⟨⟨hpaired.fresh, hpaired.number, hpaired.aligned, hpaired.last⟩, fun k => ?_, ?_⟩
  · unfold serviceStep
    dsimp only
    split <;> rfl
  · unfold serviceStep
    dsimp only
    split <;> rfl

/-- Every step keeps it. -/
theorem paired_step (hpaired : Paired past st) (hcarries : ∀ k, Carries k past st)
    (hhandled : ∀ k, ∀ h ∈ handledOn k past, ∃ s s',
      srv.handleMessage h.readings h.message s = (h, s')) (i : Input) :
    Paired (past ++ [(cl.session srv).event st i]) ((cl.session srv).step st i).2 := by
  -- most steps begin nothing
  have hquiet : ∀ out, (cl.session srv).step st i = out →
      Paired past out.2 ∧ (∀ k, out.1.requestOn k = none) ∧ out.1.begins = false →
      Paired (past ++ [(cl.session srv).event st i]) ((cl.session srv).step st i).2 := by
    rintro out rfl ⟨hpaired', hrequest, hbegins⟩
    exact hpaired'.concat hrequest fun _ => hbegins
  have hidle : (cl.session srv).step st i = (.idle, st) →
      Paired (past ++ [(cl.session srv).event st i]) ((cl.session srv).step st i).2 :=
    fun heq => hquiet _ heq ⟨hpaired, fun _ => rfl, rfl⟩
  -- an interrupted call counts as one of the past when its connection is looked at
  have hinterrupted : ∀ out, (cl.session srv).step st i = out →
      (∀ k, out.1.requestOn k = none) ∧ out.1.begins = false →
      Paired (past ++ [(cl.session srv).event st i]) st := by
    rintro out rfl ⟨hrequest, hbegins⟩
    exact hpaired.concat hrequest fun _ => hbegins
  cases i with
  | acquire q =>
    cases hfree : st.holder with
    | some h =>
      exact hidle (by simp only [session, hfree, Option.isSome_some, if_true])
    | none =>
      have hstep : (cl.session srv).step st (.acquire q) = cl.acquire q st := by
        simp only [session, hfree, Option.isSome_none, Bool.false_eq_true, if_false]
      obtain ⟨hpaired', hrequest, hwaiting⟩ := cl.paired_acquire hpaired hfree q
      rw [← hstep] at hpaired' hrequest hwaiting
      refine hpaired'.concat hrequest fun hwaits => ?_
      rw [hwaiting] at hwaits
      cases hwaits
  | attempt connect =>
    cases hholder : st.holder? .ready with
    | none => exact hidle (by simp only [session, hholder])
    | some h =>
      have hstep : (cl.session srv).step st (.attempt connect) = cl.attemptOn connect h st := by
        simp only [session, hholder]
      rw [hstep]
      exact paired_attemptOn hpaired hcarries connect hholder (congrArg Prod.fst hstep)
  | drained =>
    cases hholder : st.holder? .draining with
    | none => exact hidle (by simp only [session, hholder])
    | some h =>
      obtain ⟨-, -, hwaiting⟩ := waiting_of_holder? hholder
      obtain ⟨-, h', link, -, hlink, -⟩ := hpaired.last hwaiting
      have hstep : (cl.session srv).step st .drained = cl.drain h link st := by
        simp only [session, hholder, hlink]
      exact hquiet _ hstep (cl.paired_drain hpaired hholder hlink)
  | receive time =>
    cases hholder : st.holder? .decoding with
    | none => exact hidle (by simp only [session, hholder])
    | some h =>
      obtain ⟨-, -, hwaiting⟩ := waiting_of_holder? hholder
      obtain ⟨-, h', link, -, hlink, -⟩ := hpaired.last hwaiting
      have hstep : (cl.session srv).step st (.receive time) = cl.receiveOn X time h link st := by
        simp only [session, hholder, hlink]
      exact hquiet _ hstep
        (cl.paired_receiveOn hpaired (hcarries _) (hhandled _) time hholder hlink)
  | timeout taken =>
    cases hholder : st.holder? .decoding with
    | none => exact hidle (by simp only [session, hholder])
    | some h =>
      have hstep : (cl.session srv).step st (.timeout taken) =
          cl.fail h ⟨.timeoutError, []⟩ (st.interrupt taken) := by
        simp only [session, hholder]
      obtain ⟨hsome, hphase, -⟩ := waiting_of_holder? hholder
      have hpaired' := hinterrupted _ hstep (cl.begins_fail h _ _)
      rw [hstep]
      refine paired_timeout hpaired' taken fun hverify link hlink hkept => ?_
      by_contra hdead
      exact hkept _ (List.mem_append_right _ List.mem_cons_self)
        ⟨h, link, hsome, hlink, rfl, hdead, hphase, hverify⟩
  | cancel taken =>
    cases hholder : st.holder with
    | none => exact hidle (by simp only [session, hholder])
    | some h =>
      have hstep : (cl.session srv).step st (.cancel taken) = (.cancelled h.call,
          { (if h.phase = .decoding then st.interrupt taken else st) with holder := none }) := by
        simp only [session, hholder]
      have hpaired' := hinterrupted _ hstep ⟨fun _ => rfl, rfl⟩
      rw [hstep]
      refine paired_cancel hpaired' hholder taken fun hphase link hlink hkept => ?_
      by_contra hdead
      exact hkept _ (List.mem_append_right _ List.mem_cons_self)
        ⟨h, link, hholder, hlink, rfl, hdead, hphase⟩
  | send k n =>
    cases hended : (st.service.connections k).ended with
    | true => exact hidle (by simp only [session, hended, if_true])
    | false =>
      have hstep : (cl.session srv).step st (.send k n) =
          serviceStep srv (.deliver k ((st.outgoing k).take n)) { st with
            outgoing := Function.update st.outgoing k ((st.outgoing k).drop n) } := by
        simp only [session, hended, Bool.false_eq_true, if_false]
      exact hquiet _ hstep (paired_serviceStep srv hpaired _ _)
  | finish k =>
    cases hopen : (decide (st.opened ≤ k) || st.holdsOpen k) with
    | true => exact hidle (by simp only [session, hopen, if_true])
    | false =>
      have hstep : (cl.session srv).step st (.finish k) = serviceStep srv (.finish k) st := by
        simp only [session, hopen, Bool.false_eq_true, if_false]
      exact hquiet _ hstep (paired_serviceStep srv hpaired (.finish k) st.outgoing)
  | serve k r => exact hquiet _ rfl (paired_serviceStep srv hpaired (.serve k r) st.outgoing)
  | arrive n => exact hquiet _ rfl ⟨paired_arrive hpaired hcarries n, fun _ => rfl, rfl⟩
  | eof => exact hquiet _ rfl ⟨paired_endStream hpaired, fun _ => rfl, rfl⟩
  | lose failure => exact hquiet _ rfl ⟨paired_lose hpaired failure, fun _ => rfl, rfl⟩

/-- What every run keeps. -/
theorem paired_run (cl : VerifierClient) (srv : VerifierServer X) (inputs : List Input) :
    (∀ k, ∀ h ∈ handledOn k (cl.sessionRun srv inputs), ∃ s s',
      srv.handleMessage h.readings h.message s = (h, s')) ∧
    Paired (cl.sessionRun srv inputs) (cl.sessionAfter srv inputs) := by
  -- the pairing needs the order of the requests and what the server has handled
  refine (Machine.run_induction (M := cl.session srv) (P := fun past st =>
    (∀ k, Carries k past st) ∧ (∀ k, ∀ h ∈ handledOn k past, ∃ s s',
      srv.handleMessage h.readings h.message s = (h, s')) ∧ Paired past st)
    ⟨fun k => carries_init, fun k h hmem => absurd hmem List.not_mem_nil, paired_init⟩ ?_ inputs).2
  rintro past st i ⟨hcarries, hhandled, hpaired⟩
  have hmoves : Moves srv st ((cl.session srv).step st i).1 ((cl.session srv).step st i).2 :=
    moves_step st i
  refine ⟨fun k => (hcarries k).step rfl hmoves, fun k h hmem => ?_,
    paired_step hpaired hcarries hhandled i⟩
  rw [handledOn_concat, List.mem_append, Option.mem_toList] at hmem
  obtain hpast | hnow := hmem
  · exact hhandled k h hpast
  · exact ⟨_, _, hmoves.handleMessage_eq hnow⟩

/-! ## What a call returns -/

/-- A failed attempt returns nothing. -/
theorem fail_ne_returned (h : Holder) (e : PyExc) (st : Session) (q : ClientCall)
    (value : Returned) : (cl.fail h e st).1 ≠ .returned q value := by
  have hends := cl.failEnds_fail h e st
  generalize (cl.fail h e st).1 = o at hends
  generalize (cl.fail h e st).2 = st' at hends
  cases hends <;> exact Output.noConfusion

/-- What a call returns is what it makes of a response that it has decoded. -/
theorem Receives.of_returned {time : FiniteBinary64} {holder : Holder} {link : Link}
    {out : Output × Session} (h : cl.Receives X time holder link st out) {q : ClientCall}
    {value : Returned} (hout : out.1 = .returned q value) :
    holder.call = q ∧ link.isOpen = true ∧ (awaits link.buffer = true → link.status = .ended) ∧
      ∃ response buffer, decodeBytes link.buffer = (.ok response, buffer) ∧
        q.read X time response = .ok value := by
  cases h with
  | lost => exact absurd hout (fail_ne_returned _ _ _ _ _)
  | waits => cases hout
  | fails => exact absurd hout (fail_ne_returned _ _ _ _ _)
  | reads hopen hends hdecode hread =>
    cases hout
    exact ⟨rfl, hopen, hends, _, _, hdecode, hread⟩

/-- A call returns when it has read its response, and at no other step. -/
theorem receiveOn_of_returned {i : Input} {q : ClientCall} {value : Returned}
    (h : ((cl.session srv).step st i).1 = .returned q value) : ∃ time holder link,
      st.holder? .decoding = some holder ∧ st.link = some link ∧
      (cl.receiveOn X time holder link st).1 = .returned q value := by
  cases i with
  | acquire q' =>
    simp only [session, acquire] at h
    split_ifs at h
  | attempt connect =>
    simp only [session] at h
    split at h
    · next holder _ =>
      -- writing a request fails or waits
      unfold attemptOn at h
      split at h
      · exact absurd h (fail_ne_returned _ _ _ _ _)
      · split at h
        · exact absurd h (fail_ne_returned _ _ _ _ _)
        · cases h
    · cases h
  | drained =>
    simp only [session] at h
    split at h
    · unfold drain at h
      split at h
      · exact absurd h (fail_ne_returned _ _ _ _ _)
      · cases h
    · cases h
  | receive time =>
    simp only [session] at h
    split at h
    · next holder link hholder hlink => exact ⟨time, holder, link, hholder, hlink, h⟩
    · cases h
  | timeout taken =>
    simp only [session] at h
    split at h
    · exact absurd h (fail_ne_returned _ _ _ _ _)
    · cases h
  | cancel taken =>
    simp only [session] at h
    split at h <;> cases h
  | send k n =>
    simp only [session, serviceStep] at h
    split at h
    · cases h
    · dsimp only at h
      split at h <;> cases h
  | finish k =>
    simp only [session, serviceStep] at h
    split at h
    · cases h
    · dsimp only at h
      split at h <;> cases h
  | serve k r =>
    simp only [session, serviceStep] at h
    split at h <;> cases h
  | arrive n => cases h
  | eof => cases h
  | lose failure => cases h

/-- The last request has been handled when all of them have. -/
theorem message_of_lastWritten {k : ℕ} {request : PyVal} (hlast : LastWritten past k request)
    (hcarries : Carries k past st) {earlier : List VerifierServer.Handled}
    {h : VerifierServer.Handled} (hlist : handledOn k past = earlier ++ [h])
    (hcount : earlier.length + 1 = (requests k past).length) :
    h.message = request.reload .compact := by
  obtain ⟨before, hbefore⟩ := hlast.requests_eq
  have hpre := hcarries.handled
  have heq := hpre.eq_of_length (by
    rw [List.length_map, List.length_map, hlist, List.length_append, ← hcount]
    rfl)
  rw [hlist, hbefore, List.map_append, List.map_append] at heq
  exact List.singleton_inj.mp (List.append_inj_right' heq rfl)

/-- What a client reads of the trace identifier of a command. -/
theorem traceId_of_verify {call : CallReadings} {c : Command} {s : ServerState}
    {w v : VerificationResult} {response : PyVal} {time : FiniteBinary64}
    (hverify : (srv.verify call c.reloaded s).1 = .ok w) (hresponse : w.response = .ok response)
    (hread : VerificationResult.ofResponse X time (response.reload .compact) = .ok v) :
    v.traceId = (c.traceId.reload .compact).reload .compact := by
  obtain ⟨_, _, _, _, -, -, -, rfl, -⟩ := VerifierServer.verify_eq_ok_iff.mp (Prod.ext hverify rfl)
  have htrace := VerificationResult.getItem_traceId_of_ofResponse hread
  rw [VerificationResult.getItem_traceId_reload hresponse] at htrace
  exact (Except.ok.inj htrace).symm

/-- A result of a verification was read off the answer that the server has made for the request of
this very call: the one that was written last, with the fields of the command as JSON gives them
back. In particular the trace identifier is the one of the command, if JSON gives it back as it is.
This holds in every run, for every result that is read from a connection on which no request was
given up before. -/
theorem pairs_responses (cl : VerifierClient) (srv : VerifierServer X) {inputs : List Input}
    {past later : List Event} {e : Event} {c : Command} {v : VerificationResult}
    (hrun : cl.sessionRun srv inputs = past ++ e :: later)
    (hreturned : e.output = .returned (.verify c) (.result v))
    (hkept : ∀ link, e.before.link = some link → Kept past link.number) :
    ∃ k earlier h s w response time, LastWritten past k c.request ∧
      handledOn k past = earlier ++ [h] ∧ earlier.length + 1 = (requests k past).length ∧
      h.message = c.request.reload .compact ∧
      (srv.handleMessage h.readings h.message s).1 = h ∧
      (srv.verify h.readings.call c.reloaded s).1 = .ok w ∧ w.response = .ok response ∧
      h.frame = encode response ∧
      VerificationResult.ofResponse X time (response.reload .compact) = .ok v ∧
      v.traceId = (c.traceId.reload .compact).reload .compact ∧
      (c.traceId.Stable → v.traceId = c.traceId) := by
  obtain ⟨before, i, after, -, rfl, rfl, -⟩ := Machine.exists_of_trace_eq_append _ hrun
  obtain ⟨hhandled, hpaired⟩ := cl.paired_run srv before
  have hcarries := cl.carries srv before
  obtain ⟨time, holder, link, hholder, hlink, hreceived⟩ := receiveOn_of_returned hreturned
  obtain ⟨hsome, -, hwaiting⟩ := waiting_of_holder? hholder
  obtain ⟨-, holder', link', hsome', hlink', hlast⟩ := hpaired.last hwaiting
  cases hsome.symm.trans hsome'
  cases hlink.symm.trans hlink'
  obtain ⟨hcall, hopen, hends, received, buffer, hdecode, hread⟩ :=
    (cl.receives_receiveOn time holder link _).of_returned hreceived
  obtain ⟨v', hv', hvalue⟩ := Except.bind_eq_ok_iff.mp hread
  cases hvalue
  rw [hcall] at hlast
  -- the stream holds the answer to the last request, or it has ended before
  have hstate := hpaired.link_of_waiting hwaiting hlink (hkept link hlink)
  obtain ⟨_, hdecode', -⟩ |
      ⟨earlier, h, s, response, hlist, hcount, hdone, hrespond, hdecode', -⟩ :=
    decodeBytes_cases hstate hopen hends (hcarries _) (hhandled _)
  · cases hdecode.symm.trans hdecode'
  cases hdecode.symm.trans hdecode'
  -- the answer is the one to the request that was written last, which is the one of this call
  have hmessage : h.message = c.request.reload .compact :=
    message_of_lastWritten hlast (hcarries _) hlist hcount
  have hframe : h.frame = encode response := by
    rw [← hdone]
    exact congrArg (· >>= encode) hrespond
  rw [hmessage, VerifierServer.respond_reload] at hrespond
  obtain ⟨w, hw, hresponse⟩ := Except.bind_eq_ok_iff.mp hrespond
  have htrace := traceId_of_verify hw hresponse hv'
  refine ⟨_, earlier, h, s, w, response, time, hlast, hlist, hcount, hmessage, hdone, hw, hresponse,
    hframe, hv', htrace, fun hstable => ?_⟩
  -- a stable identifier survives both directions
  have hreload : c.traceId.reload .compact = c.traceId :=
    hstable.reloadable.reload_compact.trans hstable.sorted_eq
  rw [htrace, hreload, hreload]

/-! ## Samples -/

/-- The trace identifiers of a command and of the result that is returned for it, if both are
strings. -/
def returnedTraceIds : Output → Option (Text × Text)
  | .returned (.verify c) (.result v) =>
    match c.traceId, v.traceId with
    | .str s, .str t => some (s, t)
    | _, _ => none
  | _ => none

/-- A pair in the list was returned at some step. -/
theorem exists_of_returnedTraceIds (run : List Event) {s t : Text}
    (h : (s, t) ∈ run.filterMap fun e => returnedTraceIds e.output) : ∃ past e later c v,
      run = past ++ e :: later ∧ e.output = .returned (.verify c) (.result v) ∧
        c.traceId = .str s ∧ v.traceId = .str t := by
  obtain ⟨e, hmem, he⟩ := List.mem_filterMap.mp h
  obtain ⟨past, later, hrun⟩ := List.append_of_mem hmem
  unfold returnedTraceIds at he
  split at he
  · next c v hout =>
    split at he
    · next hc hv =>
      cases he
      exact ⟨past, e, later, c, v, hrun, hout, hc, hv⟩
    · cases he
  · cases he

/-- The step cancels no call, and no call of another method than `verify` times out. -/
def abandonsNothing (d : Event) : Bool :=
  match d.input with
  | .cancel _ => false
  | .timeout _ => d.before.holder.all fun h => h.call.isVerify
  | _ => true

/-- Such steps give up no request without its connection. -/
theorem kept_of_abandonsNothing {past : List Event} (h : ∀ d ∈ past, abandonsNothing d = true)
    (k : ℕ) : Kept past k := by
  rintro d hd ⟨holder, link, hholder, -, -, -, habandons⟩
  have hnothing := h d hd
  unfold abandonsNothing at hnothing
  split at habandons
  · next taken hinput =>
    rw [hinput] at hnothing
    cases hnothing
  · next taken hinput =>
    rw [hinput, hholder, Option.all_some, habandons.2] at hnothing
    cases hnothing
  · exact habandons

/-- A call that sends its request and reads the response. -/
def undisturbedCall (c : Command) : List Input :=
  [.acquire (.verify c), .attempt none, .drained, .send 0 1000, .serve 0 readingsOfMessage,
    .arrive 10000, .receive ⟨0, Representable.zero⟩]

/-- Another command. -/
def otherCommand : Command := { sampleCommand with traceId := .str (text "t2") }

/-- A call of `verify` sends its request and times out, and it cannot connect again. -/
def timedOutCall (c : Command) : List Input :=
  [.acquire (.verify c), .attempt none, .drained, .timeout false] ++
    List.replicate 3 (.attempt (some (.os (text "Connection refused"))))

/-- The next call connects again. The server handles the late request on the old connection and
then the new one. -/
def callAfterTimeout (q : ClientCall) : List Input :=
  timedOutCall sampleCommand ++
    [.acquire q, .attempt none, .drained, .send 0 1000, .serve 0 readingsOfMessage, .send 1 1000,
      .serve 1 readingsOfMessage, .arrive 10000, .receive ⟨0, Representable.zero⟩]

/-- The call that follows the timeout gets its own result. -/
theorem pairs_responses_sample : ∃ past e later c v,
    default.sessionRun VerifierServer.denyingServerL0 (callAfterTimeout (.verify otherCommand)) =
      past ++ e :: later ∧
    e.output = .returned (.verify c) (.result v) ∧ c.traceId = otherCommand.traceId ∧
    v.traceId = c.traceId := by
  obtain ⟨past, e, later, c, v, hrun, hreturned, hc, -⟩ :=
    exists_of_returnedTraceIds (s := text "t2") (t := text "t2")
      (default.sessionRun VerifierServer.denyingServerL0
        (callAfterTimeout (.verify otherCommand))) (by decide +kernel)
  have hnothing : ∀ d ∈ default.sessionRun VerifierServer.denyingServerL0
      (callAfterTimeout (.verify otherCommand)), abandonsNothing d = true := by
    rw [← List.all_eq_true]
    decide +kernel
  -- the timed-out call has given its connection up
  have hkept : ∀ link, e.before.link = some link → Kept past link.number := fun link _ =>
    kept_of_abandonsNothing (fun d hd => hnothing d (hrun ▸ List.mem_append_left _ hd)) link.number
  obtain ⟨_, _, _, _, _, _, _, -, -, -, -, -, -, -, -, -, -, htrace⟩ :=
    pairs_responses default VerifierServer.denyingServerL0 hrun hreturned hkept
  exact ⟨past, e, later, c, v, hrun, hreturned, hc, htrace (hc ▸ .str (by decide))⟩

/-- A call is cancelled when it has sent its request, and another call follows. -/
def cancelledCall : List Input :=
  [.acquire (.verify sampleCommand), .attempt none, .drained, .cancel false,
    .acquire (.verify otherCommand), .attempt none, .drained, .send 0 1000,
    .serve 0 readingsOfMessage, .serve 0 readingsOfMessage, .arrive 10000,
    .receive ⟨0, Representable.zero⟩]

/-- The second call gets the result for the command of the first. -/
theorem cancelled_call_shifts_responses : ∃ past e later c v,
    default.sessionRun VerifierServer.denyingServerL0 cancelledCall = past ++ e :: later ∧
    e.output = .returned (.verify c) (.result v) ∧ c.traceId = otherCommand.traceId ∧
    c.traceId.Stable ∧ v.traceId = sampleCommand.traceId ∧ v.traceId ≠ c.traceId := by
  obtain ⟨past, e, later, c, v, hrun, hreturned, hc, hv⟩ :=
    exists_of_returnedTraceIds (s := text "t2") (t := text "t1")
      (default.sessionRun VerifierServer.denyingServerL0 cancelledCall) (by decide +kernel)
  refine ⟨past, e, later, c, v, hrun, hreturned, hc, hc ▸ .str (by decide), hv, fun heq => ?_⟩
  rw [hc, hv, PyVal.str.injEq] at heq
  exact absurd heq (by decide)

end VerifierClient
