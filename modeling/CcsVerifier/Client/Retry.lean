import CcsVerifier.Client.Response
import CcsVerifier.Server.Audit

/-!
# The retry loop of the client

`VerifierClient.verify` makes up to `max_retries + 1` attempts. An attempt may find any bytes on its
connection, and every network operation in it may fail.

* `Attempt`: what one attempt meets.
* `VerifierClient.attempt`, `VerifierClient.verify`: one attempt, and all of them.
* `VerifierClient.attempt_cases`: an attempt fails as a transport failure, returns the result of a
  response, or raises something else.
* `VerifierClient.failsAsTransport_iff`: when only transport failures reach the caller.
-/

open MessageFrame

/-- The parameters of a client. -/
structure VerifierClient where
  /-- `timeout_ms` -/
  timeoutMs : ℤ
  /-- `_reconnect` -/
  reconnect : Bool
  /-- `_max_retries` -/
  maxRetries : ℤ

/-- The attributes of a client that a call changes. -/
structure ClientState where
  /-- `_connected` -/
  connected : Bool
  /-- The bytes in the buffer of `_reader`, when there is one. -/
  buffer : Option Bytes

/-- How a network operation fails. -/
inductive NetworkFailure where
  /-- The transport raises a `TransportError`. -/
  | transport (message : Text)
  /-- `asyncio.TimeoutError` -/
  | timeout
  /-- The connection is lost: a `ConnectionError`. -/
  | lost (message : Text)
  /-- Another `OSError`. -/
  | os (message : Text)

/-- The exception of a failure. -/
def NetworkFailure.exc : NetworkFailure → PyExc
  | .transport message => ⟨.transportError, message⟩
  | .timeout => ⟨.timeoutError, []⟩
  | .lost message => ⟨.connectionError, message⟩
  | .os message => ⟨.osError, message⟩

/-- Each of these failures is a network error. -/
theorem NetworkFailure.isNetworkError_exc (failure : NetworkFailure) :
    failure.exc.isNetworkError = true := by
  cases failure <;> rfl

/-- What an attempt meets. -/
structure Attempt where
  /-- `writer.is_closing()` of the connection that the client has. -/
  closing : Bool
  /-- How connecting fails, if the client connects and that fails. -/
  connect : Option NetworkFailure
  /-- How sending the request fails, if it does. -/
  drain : Option NetworkFailure
  /-- The bytes of the peer that arrive while the client waits. -/
  arriving : Bytes
  /-- How waiting ends when a frame is still incomplete: a timeout or a lost connection, else the
  end of the stream. -/
  ending : Option NetworkFailure
  /-- `time.time()`, the default for the time of the verification. -/
  time : FiniteBinary64

/-- `await asyncio.wait_for(MessageFrame.decode(reader), timeout)`, with what stays in the buffer. -/
def Attempt.receive (a : Attempt) (buffer : Bytes) : Except PyExc PyVal × Bytes :=
  match awaits (buffer ++ a.arriving), a.ending with
  | true, some failure => (.error failure.exc, interrupted (buffer ++ a.arriving))
  | _, _ => decodeBytes (buffer ++ a.arriving)

namespace ClientState

/-- A client without a connection. -/
def init : ClientState := ⟨false, none⟩

/-- The client has a connection that it takes to be open: `self._connected and self._writer and not
self._writer.is_closing()`. -/
def Reuses (s : ClientState) (a : Attempt) : Prop :=
  s.connected = true ∧ s.buffer.isSome = true ∧ a.closing = false

instance (s : ClientState) (a : Attempt) : Decidable (s.Reuses a) := by
  unfold Reuses
  infer_instance

end ClientState

/-- A call of `client.verify`. -/
structure Verification where
  /-- What the call returns or raises. -/
  outcome : Except PyExc VerificationResult
  /-- The client after the call. -/
  client : ClientState
  /-- The number of attempts. -/
  attempts : ℕ

namespace VerifierClient

variable (X : Externals) (cl : VerifierClient)

/-- `await client._ensure_connected()`, with the buffer of the connection. -/
def ensureConnected (a : Attempt) (s : ClientState) : Except PyExc Bytes × ClientState :=
  if s.Reuses a then (.ok (s.buffer.getD []), s)
  else if !cl.reconnect then
    (.error ⟨.transportError, text "Not connected and reconnect is disabled"⟩, s)
  else
    match a.connect with
    | some failure => (.error failure.exc, s)
    | none => (.ok [], ⟨true, some []⟩)

/-- The body of the `try` of `client.verify(command)`. -/
def attempt (c : Command) (a : Attempt) (s : ClientState) :
    Except PyExc VerificationResult × ClientState :=
  match cl.ensureConnected a s with
  | (.error e, s) => (.error e, s)
  | (.ok buffer, s) =>
    match encode c.request, a.drain with
    | .error e, _ => (.error e, s)
    | .ok _, some failure => (.error failure.exc, s)
    | .ok _, none =>
      let (response, buffer) := a.receive buffer
      (response >>= VerificationResult.ofResponse X a.time, { s with buffer := some buffer })

/-- The `TransportError` that an `except` clause of `client.verify` makes of an exception. -/
def caught (e : PyExc) : Option PyExc :=
  match e.kind with
  | .transportError => some e
  | .timeoutError => some ⟨.transportError, text "Verification timed out after "
      ++ intText cl.timeoutMs ++ text "ms"⟩
  | .connectionError | .osError => some ⟨.transportError, text "Connection lost: " ++ e.message⟩
  | _ => none

/-- The attempts that are left, after the last error. -/
def attempts (c : Command) : ℕ → Option PyExc → (ℕ → Attempt) → ClientState → Verification
  | 0, lastError, _, s =>
    ⟨.error (lastError.getD ⟨.transportError, text "Verification failed after retries"⟩), s, 0⟩
  | left + 1, _, met, s =>
    match cl.attempt X c (met 0) s with
    | (.ok v, s) => ⟨.ok v, s, 1⟩
    | (.error e, s) =>
      match cl.caught e with
      | none => ⟨.error e, s, 1⟩
      | some lastError =>
        let later := attempts c left (some lastError) (fun k => met (k + 1))
          { s with connected := false }
        { later with attempts := later.attempts + 1 }

/-- `await client.verify(command)`; the attempts meet `met 0`, `met 1` and so on. -/
def verify (c : Command) (met : ℕ → Attempt) (s : ClientState) : Verification :=
  cl.attempts X c (cl.maxRetries + 1).toNat none met s

end VerifierClient

/-! ## What an attempt meets -/

namespace ClientState

/-- The attempt has a connection. -/
def Joins (s : ClientState) (a : Attempt) : Prop := s.Reuses a ∨ a.connect = none

/-- The bytes that the attempt can read. -/
def readable (s : ClientState) (a : Attempt) : Bytes :=
  (if s.Reuses a then s.buffer.getD [] else []) ++ a.arriving

/-- The attempt fails as a transport failure: connecting fails, the request or the announced response
is too large, sending fails, or waiting ends with a failure while a frame is incomplete. -/
def Fails (c : Command) (s : ClientState) (a : Attempt) : Prop :=
  ¬s.Joins a ∨ (∃ n, encode c.request = .error (tooLarge n)) ∨
    (∃ frame, encode c.request = .ok frame) ∧
      (a.drain.isSome = true ∨ Refuses (s.readable a) ∨
        awaits (s.readable a) = true ∧ a.ending.isSome = true)

/-- The attempt gets its answer: the request is sent, and a whole frame arrives that holds a
result. -/
def Answers (c : Command) (s : ClientState) (a : Attempt) : Prop :=
  s.Joins a ∧ (∃ frame, encode c.request = .ok frame) ∧ a.drain = none ∧
    awaits (s.readable a) = false ∧
    ∃ response rest, decodeBytes (s.readable a) = (.ok response, rest) ∧ response.IsResult

/-- The state at attempt `k` of a call: after a failed attempt the client has to connect. -/
def atAttempt (s : ClientState) : ℕ → ClientState
  | 0 => s
  | _ + 1 => { s with connected := false }

end ClientState

namespace VerifierClient

variable {X : Externals} {cl : VerifierClient} {c : Command}

/-- Only network errors are caught. -/
theorem caught_eq_none_iff {e : PyExc} : cl.caught e = none ↔ e.isNetworkError = false := by
  unfold caught PyExc.isNetworkError
  cases e.kind <;> simp

/-- The `except` clauses make transport errors of network errors. -/
theorem exists_caught {e : PyExc} (h : e.isNetworkError = true) :
    ∃ e', cl.caught e = some e' ∧ e'.kind = .transportError := by
  unfold PyExc.isNetworkError at h
  unfold caught
  cases hkind : e.kind <;> rw [hkind] at h <;> first
    | cases h; done
    | exact ⟨_, rfl, hkind⟩
    | exact ⟨_, rfl, rfl⟩

/-- A client that may reconnect gets a connection unless connecting fails. -/
theorem ensureConnected_cases (hreconnect : cl.reconnect = true) (a : Attempt) (s : ClientState) :
    (s.Joins a ∧ ∃ s', cl.ensureConnected a s =
      (.ok (if s.Reuses a then s.buffer.getD [] else []), s')) ∨
    (¬s.Joins a ∧ ∃ failure : NetworkFailure, cl.ensureConnected a s = (.error failure.exc, s)) := by
  unfold ensureConnected
  by_cases hreuses : s.Reuses a
  · exact .inl ⟨.inl hreuses, s, by rw [if_pos hreuses, if_pos hreuses]⟩
  rw [if_neg hreuses, if_neg hreuses, hreconnect]
  -- without a connection to reuse, connecting decides
  cases hconnect : a.connect with
  | some failure =>
    refine .inr ⟨?_, failure, rfl⟩
    rintro (h | h)
    · exact hreuses h
    · rw [hconnect] at h
      cases h
  | none => exact .inl ⟨.inr hconnect, _, rfl⟩

/-- What an attempt can come to. -/
inductive AttemptEnds (X : Externals) (cl : VerifierClient) (c : Command) (a : Attempt)
    (s : ClientState) : Except PyExc VerificationResult → ClientState → Prop
  /-- The attempt fails as a transport failure, and the failure is caught. -/
  | fails {e e' : PyExc} {s' : ClientState} (hfails : s.Fails c a) (hcaught : cl.caught e = some e')
      (hkind : e'.kind = .transportError) : AttemptEnds X cl c a s (.error e) s'
  /-- The attempt returns the result of a response. -/
  | answers {v : VerificationResult} {s' : ClientState} {response : PyVal} {rest : Bytes}
      (hfails : ¬s.Fails c a) (hanswers : s.Answers c a)
      (hdecode : decodeBytes (s.readable a) = (.ok response, rest))
      (hresult : VerificationResult.ofResponse X a.time response = .ok v) :
      AttemptEnds X cl c a s (.ok v) s'
  /-- The attempt raises what is not caught. -/
  | escapes {e : PyExc} {s' : ClientState} (hfails : ¬s.Fails c a) (hanswers : ¬s.Answers c a)
      (hcaught : cl.caught e = none) : AttemptEnds X cl c a s (.error e) s'

/-- An attempt that fails with a network error ends so. -/
theorem AttemptEnds.of_network {a : Attempt} {s s' : ClientState} {e : PyExc} (hfails : s.Fails c a)
    (h : e.isNetworkError = true) : AttemptEnds X cl c a s (.error e) s' := by
  obtain ⟨e', hcaught, hkind⟩ : ∃ e', cl.caught e = some e' ∧ e'.kind = .transportError :=
    exists_caught h
  exact .fails hfails hcaught hkind

/-- What an attempt comes to after the request has been sent. -/
theorem receive_cases {a : Attempt} {s : ClientState} (hjoins : s.Joins a) {frame : Bytes}
    (hencode : encode c.request = .ok frame) (hdrain : a.drain = none) (s' : ClientState) :
    AttemptEnds X cl c a s
      ((a.receive (if s.Reuses a then s.buffer.getD [] else [])).1 >>=
        VerificationResult.ofResponse X a.time) s' := by
  have hfails : s.Fails c a ↔ Refuses (s.readable a) ∨
      awaits (s.readable a) = true ∧ a.ending.isSome = true := by
    simp [ClientState.Fails, hjoins, hencode, hdrain]
  rw [Attempt.receive, ← ClientState.readable]
  by_cases hwait : awaits (s.readable a) = true
  · cases hending : a.ending with
    | some failure =>
      rw [hwait]
      exact .of_network (hfails.mpr (.inr ⟨hwait, by rw [hending]; rfl⟩)) failure.isNetworkError_exc
    | none =>
      -- the stream ends inside a frame
      obtain ⟨e, he, hkind⟩ := decodeBytes_of_awaits hwait
      rw [hwait]
      dsimp only
      rw [he]
      refine .escapes (fun h => ?_) (fun h => ?_) (caught_eq_none_iff.mpr ?_)
      · rcases hfails.mp h with hrefuses | ⟨-, hsome⟩
        · have htooLarge := decodeBytes_of_refuses hrefuses
          rw [he] at htooLarge
          cases htooLarge
          cases hkind
        · rw [hending] at hsome
          cases hsome
      · rw [h.2.2.2.1] at hwait
        cases hwait
      · rw [PyExc.isNetworkError, hkind]
  · rw [Bool.not_eq_true] at hwait
    rw [hwait]
    dsimp only
    by_cases hrefuses : Refuses (s.readable a)
    · rw [decodeBytes_of_refuses hrefuses]
      exact .of_network (hfails.mpr (.inl hrefuses)) rfl
    have hnot : ¬s.Fails c a := fun h => by
      rcases hfails.mp h with h | ⟨h, -⟩
      · exact hrefuses h
      · rw [hwait] at h
        cases h
    cases hresponse : (decodeBytes (s.readable a)).1 with
    | error e =>
      obtain ⟨payload, hpayload⟩ := exists_payload_of_not_awaits hwait hrefuses
      refine .escapes hnot (fun h => ?_) (caught_eq_none_iff.mpr ?_)
      · obtain ⟨response, rest, hdecode, -⟩ := h.2.2.2.2
        rw [hdecode] at hresponse
        cases hresponse
      · exact parsePayload_raises payload e (hpayload.symm.trans hresponse)
    | ok response =>
      have hdecode : decodeBytes (s.readable a) = (.ok response, (decodeBytes (s.readable a)).2) :=
        Prod.ext hresponse rfl
      cases hresult : VerificationResult.ofResponse X a.time response with
      | error e =>
        have herror : ((Except.ok response : Except PyExc PyVal) >>=
            VerificationResult.ofResponse X a.time) = .error e := hresult
        rw [herror]
        refine .escapes hnot (fun h => ?_) (caught_eq_none_iff.mpr ?_)
        · obtain ⟨response', rest', hdecode', hresult'⟩ := h.2.2.2.2
          rw [hdecode, Prod.mk.injEq, Except.ok.injEq] at hdecode'
          obtain ⟨v, hv⟩ : ∃ v, VerificationResult.ofResponse X a.time response = .ok v :=
            VerificationResult.ofResponse_isOk_iff.mpr (hdecode'.1 ▸ hresult')
          rw [hresult] at hv
          cases hv
        · exact VerificationResult.ofResponse_raises response e hresult
      | ok v =>
        have hok : ((Except.ok response : Except PyExc PyVal) >>=
            VerificationResult.ofResponse X a.time) = .ok v := hresult
        rw [hok]
        exact .answers hnot ⟨hjoins, ⟨frame, hencode⟩, hdrain, hwait, response, _, hdecode,
          VerificationResult.ofResponse_isOk_iff.mp ⟨v, hresult⟩⟩ hdecode hresult

/-- An attempt of a client that may reconnect fails as a transport failure, returns the result of a
response, or raises what is not caught. -/
theorem attempt_cases (hreconnect : cl.reconnect = true) (c : Command) (a : Attempt)
    (s : ClientState) :
    AttemptEnds X cl c a s (cl.attempt X c a s).1 (cl.attempt X c a s).2 := by
  unfold attempt
  rcases ensureConnected_cases hreconnect a s with
    ⟨hjoins, s', hconnected⟩ | ⟨hjoins, failure, hfailed⟩
  · rw [hconnected]
    dsimp only
    -- the request is encoded only when the connection stands
    cases hencode : encode c.request with
    | error e =>
      rcases encode_raises c.request e hencode with hdump | ⟨n, rfl⟩
      · -- the request cannot be dumped
        refine .escapes (fun h => ?_) (fun h => ?_) (caught_eq_none_iff.mpr hdump)
        · rcases h with h | ⟨n, h⟩ | ⟨⟨frame, h⟩, -⟩
          · exact h hjoins
          · rw [hencode] at h
            cases h
            cases hdump
          · rw [hencode] at h
            cases h
        · obtain ⟨frame, h⟩ := h.2.1
          rw [hencode] at h
          cases h
      · exact .of_network (.inr (.inl ⟨n, hencode⟩)) rfl
    | ok frame =>
      cases hdrain : a.drain with
      | some failure =>
        exact .of_network (.inr (.inr ⟨⟨frame, hencode⟩, .inl (by rw [hdrain]; rfl)⟩))
          failure.isNetworkError_exc
      | none => exact receive_cases hjoins hencode hdrain _
  · rw [hfailed]
    exact .of_network (.inl hjoins) failure.isNetworkError_exc

end VerifierClient

namespace ClientState

variable {c : Command} {a : Attempt} {s t : ClientState}

/-- Without a connection none is used again. -/
theorem not_reuses (h : s.connected = false) (a : Attempt) : ¬s.Reuses a := fun hreuses => by
  rw [hreuses.1] at h
  cases h

/-- Without a connection, an attempt does not depend on what the client has. -/
theorem readable_eq (h : s.connected = false) : s.readable a = a.arriving := by
  rw [readable, if_neg (not_reuses h a), List.nil_append]

/-- A client without a connection joins when it can connect. -/
theorem joins_iff (h : s.connected = false) : s.Joins a ↔ a.connect = none :=
  or_iff_right (not_reuses h a)

/-- For clients without a connection the failures are the same. -/
theorem fails_congr (hs : s.connected = false) (ht : t.connected = false) :
    s.Fails c a ↔ t.Fails c a := by
  rw [Fails, Fails, joins_iff hs, joins_iff ht, readable_eq hs, readable_eq ht]

/-- So are the answers. -/
theorem answers_congr (hs : s.connected = false) (ht : t.connected = false) :
    s.Answers c a ↔ t.Answers c a := by
  rw [Answers, Answers, joins_iff hs, joins_iff ht, readable_eq hs, readable_eq ht]

/-- After a failed attempt the client has to connect, at this attempt and the later ones. -/
theorem connected_atAttempt (hs : s.connected = false) (k : ℕ) :
    (s.atAttempt k).connected = false := by
  cases k with
  | zero => exact hs
  | succ k => rfl

end ClientState

namespace VerifierClient

variable {X : Externals} {cl : VerifierClient} {c : Command}

/-- In each of the first `n` attempts that is reached through transport failures alone, the client
meets another transport failure or gets its answer. -/
def SettlesWithin (c : Command) (n : ℕ) (met : ℕ → Attempt) (s : ClientState) : Prop :=
  ∀ k < n, (∀ j < k, (s.atAttempt j).Fails c (met j)) →
    (s.atAttempt k).Fails c (met k) ∨ (s.atAttempt k).Answers c (met k)

/-- After a failed attempt the others have to settle. -/
theorem settlesWithin_succ_of_fails {n : ℕ} {met : ℕ → Attempt} {s s' : ClientState}
    (hfails : s.Fails c (met 0)) (hs' : s'.connected = false) :
    SettlesWithin c (n + 1) met s ↔ SettlesWithin c n (fun k => met (k + 1)) s' := by
  -- after a failure both start with a new connection, whatever else they remember
  have hlater : ∀ k, (s.atAttempt (k + 1)).connected = false := fun _ => rfl
  have hfails_iff : ∀ k, (s.atAttempt (k + 1)).Fails c (met (k + 1)) ↔
      (s'.atAttempt k).Fails c (met (k + 1)) := fun k =>
    ClientState.fails_congr (hlater k) (s'.connected_atAttempt hs' k)
  have hanswers_iff : ∀ k, (s.atAttempt (k + 1)).Answers c (met (k + 1)) ↔
      (s'.atAttempt k).Answers c (met (k + 1)) := fun k =>
    ClientState.answers_congr (hlater k) (s'.connected_atAttempt hs' k)
  constructor
  · intro h k hk hbefore
    rw [← hfails_iff, ← hanswers_iff]
    refine h (k + 1) (by omega) fun j hj => ?_
    cases j with
    | zero => exact hfails
    | succ j => exact (hfails_iff j).mpr (hbefore j (by omega))
  · intro h k hk hbefore
    cases k with
    | zero => exact .inl hfails
    | succ k =>
      rw [hfails_iff, hanswers_iff]
      exact h k (by omega) fun j hj => (hfails_iff j).mp (hbefore (j + 1) (by omega))

/-- Without a failure the first attempt decides. -/
theorem settlesWithin_succ_of_not_fails {n : ℕ} {met : ℕ → Attempt} {s : ClientState}
    (hfails : ¬s.Fails c (met 0)) : SettlesWithin c (n + 1) met s ↔ s.Answers c (met 0) := by
  constructor
  · intro h
    exact (h 0 (by omega) fun j hj => absurd hj (by omega)).resolve_left hfails
  · intro h k hk hbefore
    cases k with
    | zero => exact .inr h
    | succ k => exact absurd (hbefore 0 (by omega)) hfails

/-- Only transport errors leave the attempts exactly when they settle. -/
theorem attempts_iff (hreconnect : cl.reconnect = true) (n : ℕ) {lastError : Option PyExc}
    (hlast : ∀ e, lastError = some e → e.kind = .transportError) (met : ℕ → Attempt)
    (s : ClientState) :
    (∀ e, (cl.attempts X c n lastError met s).outcome = .error e → e.kind = .transportError) ↔
      SettlesWithin c n met s := by
  -- by induction on the attempts that are left
  induction n generalizing lastError met s with
  | zero =>
    refine iff_of_true (fun e he => ?_) fun k hk => absurd hk (by omega)
    cases hlastError : lastError with
    | none =>
      simp only [attempts, hlastError, Option.getD_none, Except.error.injEq] at he
      rw [← he]
    | some e' =>
      simp only [attempts, hlastError, Option.getD_some, Except.error.injEq] at he
      exact he ▸ hlast e' hlastError
  | succ n ih =>
    have hcases := attempt_cases (X := X) hreconnect c (met 0) s
    rw [attempts]
    obtain ⟨outcome, s', hattempt⟩ : ∃ outcome s', cl.attempt X c (met 0) s = (outcome, s') :=
      ⟨_, _, rfl⟩
    rw [hattempt] at hcases ⊢
    cases hcases with
    | fails hfails hcaught hkind =>
      have hrest : SettlesWithin c (n + 1) met s ↔
          SettlesWithin c n (fun k => met (k + 1)) { s' with connected := false } :=
        settlesWithin_succ_of_fails hfails rfl
      rw [hrest]
      dsimp only
      rw [hcaught]
      exact ih (fun e he => by cases he; exact hkind) _ _
    | answers hfails hanswers hdecode hresult =>
      rw [settlesWithin_succ_of_not_fails hfails]
      exact iff_of_true (fun e he => by cases he) hanswers
    | escapes hfails hanswers hcaught =>
      -- what is not caught is no transport error
      rw [settlesWithin_succ_of_not_fails hfails]
      dsimp only
      rw [hcaught]
      refine iff_of_false (fun h => ?_) hanswers
      have hnetwork := caught_eq_none_iff.mp hcaught
      rw [PyExc.isNetworkError, h _ rfl] at hnetwork
      cases hnetwork

/-- Whatever happens: at most `n` attempts are made, a result is read off the frame that one of them
received, and after a transport error the client has to connect. -/
theorem attempts_spec (hreconnect : cl.reconnect = true) (n : ℕ) (lastError : Option PyExc)
    (met : ℕ → Attempt) (s : ClientState) :
    (cl.attempts X c n lastError met s).attempts ≤ n ∧
    (∀ v, (cl.attempts X c n lastError met s).outcome = .ok v →
      ∃ k < (cl.attempts X c n lastError met s).attempts, ∃ response rest,
        decodeBytes ((s.atAttempt k).readable (met k)) = (.ok response, rest) ∧
        VerificationResult.ofResponse X (met k).time response = .ok v) ∧
    ∀ e, (cl.attempts X c n lastError met s).outcome = .error e → e.kind = .transportError →
      0 < (cl.attempts X c n lastError met s).attempts ∨ s.connected = false →
        (cl.attempts X c n lastError met s).client.connected = false := by
  induction n generalizing lastError met s with
  | zero =>
    exact ⟨le_refl 0, fun v hv => (by cases hv), fun e _ _ h => h.resolve_left (lt_irrefl 0)⟩
  | succ n ih =>
    have hcases := attempt_cases (X := X) hreconnect c (met 0) s
    rw [attempts]
    obtain ⟨outcome, s', hattempt⟩ : ∃ outcome s', cl.attempt X c (met 0) s = (outcome, s') :=
      ⟨_, _, rfl⟩
    rw [hattempt] at hcases ⊢
    cases hcases with
    | @fails _ e' _ hfails hcaught hkind =>
      dsimp only
      rw [hcaught]
      obtain ⟨hle, hok, herror⟩ := ih (some e') (fun k => met (k + 1)) { s' with connected := false }
      refine ⟨Nat.succ_le_succ hle, fun v hv => ?_,
        fun e he hkind' _ => herror e he hkind' (.inr rfl)⟩
      -- the frame was received by a later attempt, which counts from this one
      obtain ⟨k, hk, response, rest, hdecode, hresult⟩ := hok v hv
      refine ⟨k + 1, Nat.succ_lt_succ hk, response, rest, ?_, hresult⟩
      rw [ClientState.readable_eq (ClientState.connected_atAttempt rfl k)] at hdecode
      rw [ClientState.readable_eq rfl]
      exact hdecode
    | answers hfails hanswers hdecode hresult =>
      refine ⟨Nat.succ_le_succ (Nat.zero_le n), fun v hv => ?_, fun e he => by cases he⟩
      cases hv
      exact ⟨0, Nat.one_pos, _, _, hdecode, hresult⟩
    | escapes hfails hanswers hcaught =>
      dsimp only
      rw [hcaught]
      refine ⟨Nat.succ_le_succ (Nat.zero_le n), fun v hv => (by cases hv), fun e he hkind => ?_⟩
      cases he
      have hnetwork := caught_eq_none_iff.mp hcaught
      rw [PyExc.isNetworkError, hkind] at hnetwork
      cases hnetwork

/-- A call fails only as a transport failure: it returns the result of a whole frame that one of its
attempts received, or, after at most so many attempts, raises a `TransportError` and leaves no
connection that the next call would use again. -/
structure FailsAsTransport (X : Externals) (cl : VerifierClient) (c : Command) (met : ℕ → Attempt)
    (s : ClientState) : Prop where
  /-- A result is read off the response in a whole frame. -/
  ok : ∀ v, (cl.verify X c met s).outcome = .ok v →
    ∃ k < (cl.verify X c met s).attempts, ∃ response rest,
      decodeBytes ((s.atAttempt k).readable (met k)) = (.ok response, rest) ∧
      VerificationResult.ofResponse X (met k).time response = .ok v
  /-- There are at most `max_retries + 1` attempts. -/
  attempts_le : (cl.verify X c met s).attempts ≤ (cl.maxRetries + 1).toNat
  /-- Nothing but a `TransportError` is raised. -/
  error : ∀ e, (cl.verify X c met s).outcome = .error e → e.kind = .transportError
  /-- After a failed attempt the next call connects. -/
  not_reuses : ∀ e, (cl.verify X c met s).outcome = .error e →
    0 < (cl.verify X c met s).attempts → ∀ a, ¬(cl.verify X c met s).client.Reuses a

/-- A client that may reconnect fails only as a transport failure exactly when the first of its
attempts that meets no transport failure gets its answer. -/
theorem failsAsTransport_iff (hreconnect : cl.reconnect = true) (met : ℕ → Attempt)
    (s : ClientState) :
    FailsAsTransport X cl c met s ↔
      ∀ k < (cl.maxRetries + 1).toNat, (∀ j < k, (s.atAttempt j).Fails c (met j)) →
        (s.atAttempt k).Fails c (met k) ∨ (s.atAttempt k).Answers c (met k) := by
  have hnone : ∀ e, (none : Option PyExc) = some e → e.kind = .transportError := by
    intro e he
    cases he
  have herror := attempts_iff (X := X) (c := c) hreconnect (cl.maxRetries + 1).toNat hnone met s
  obtain ⟨hle, hok, hconnected⟩ := attempts_spec (X := X) (c := c) hreconnect
    (cl.maxRetries + 1).toNat none met s
  constructor
  · exact fun h => herror.mp h.error
  · intro h
    have hkind := herror.mpr h
    -- a connection that has failed is not used again
    exact ⟨hok, hle, hkind, fun e he hpos a =>
      ClientState.not_reuses (hconnected e he (hkind e he) (.inl hpos)) a⟩

/-- A new client with the default parameters. -/
def default : VerifierClient := ⟨5000, true, 3⟩

/-- A response that denies. -/
def sampleResponse : PyVal :=
  .ofMembers [(text "trace_id", .str (text "t1")), (text "verdict", .str (text "deny"))]

/-- The text of that response. -/
def sampleText : Text := text "\x7b\"trace_id\":\"t1\",\"verdict\":\"deny\"\x7d"

/-- Its payload. -/
def samplePayload : Bytes := sampleText.asciiBytes

/-- An attempt that connects and finds these bytes before the stream ends. -/
def meets (arriving : Bytes) : Attempt :=
  ⟨false, none, none, arriving, none, ⟨0, Representable.zero⟩⟩

/-- The server is not up at the first attempt, and answers the second. -/
def sampleAttempts : ℕ → Attempt
  | 0 => { meets [] with connect := some (.transport (text "Cannot connect")) }
  | _ + 1 => meets (packUInt32 samplePayload.length ++ samplePayload)

/-- The command of the samples. -/
def sampleCommand : Command := VerifierServer.commandFor (text "shell") (text "t1")

/-- The request of the sample can be sent. -/
theorem exists_encode_sampleCommand : ∃ frame, encode sampleCommand.request = .ok frame := by
  have hok : (encode sampleCommand.request).isOk = true := by decide +kernel
  cases hframe : encode sampleCommand.request with
  | error e =>
    rw [hframe] at hok
    cases hok
  | ok frame => exact ⟨frame, rfl⟩

/-- The text is parsed. -/
theorem scan_sampleText : JsonScan.scan sampleText =
    some (.obj [(text "trace_id", .str (text "t1")), (text "verdict", .str (text "deny"))]) := rfl

/-- The payload is parsed. -/
theorem parsePayload_samplePayload : parsePayload samplePayload = .ok sampleResponse := by
  have hencode : sampleText.encode = .ok samplePayload := by decide +kernel
  rw [parsePayload, decodeText_of_encode hencode]
  show loads sampleText = _
  rw [loads, loadsWith, scan_sampleText]
  rfl

/-- The response holds a result. -/
theorem isResult_sampleResponse : sampleResponse.IsResult := by
  refine ⟨⟨.str (text "t1"), ?_⟩, ⟨.deny, ?_⟩, .list [], [], ?_, rfl,
    fun r hr => absurd hr List.not_mem_nil⟩
  · rfl
  · rfl
  · rfl

/-- A call that connects at the second attempt. -/
theorem failsAsTransport_iff_sample :
    FailsAsTransport L1Receipt.referenceX default sampleCommand sampleAttempts .init := by
  refine (failsAsTransport_iff rfl sampleAttempts .init).mpr fun k _ _ => ?_
  cases k with
  | zero =>
    -- the first attempt cannot connect
    refine .inl (.inl fun hjoins => ?_)
    cases (ClientState.joins_iff (s := .init) rfl).mp hjoins
  | succ k =>
    -- each later one receives a whole result
    have hdecode : decodeBytes (packUInt32 samplePayload.length ++ samplePayload ++ []) =
        (.ok sampleResponse, []) := by
      rw [decodeBytes_frame (by decide +kernel)]
      rw [parsePayload_samplePayload]
    rw [List.append_nil] at hdecode
    refine .inr ⟨(ClientState.joins_iff rfl).mpr rfl, exists_encode_sampleCommand, rfl, ?_,
      sampleResponse, [], ?_, isResult_sampleResponse⟩
    · rw [ClientState.readable_eq rfl]
      show awaits (packUInt32 samplePayload.length ++ samplePayload) = false
      decide +kernel
    · rw [ClientState.readable_eq rfl]
      exact hdecode

/-- The peer closes the connection without an answer: an `IncompleteReadError` reaches the caller,
and the next call uses the same connection again. -/
theorem end_of_stream_escapes :
    ∃ e, (default.verify L1Receipt.referenceX sampleCommand (fun _ => meets []) .init).outcome =
        .error e ∧ e.kind = .incompleteReadError ∧
      (default.verify L1Receipt.referenceX sampleCommand (fun _ => meets []) .init).attempts = 1 ∧
      (default.verify L1Receipt.referenceX sampleCommand (fun _ => meets []) .init).client.Reuses
        (meets []) := by
  obtain ⟨frame, hframe⟩ := exists_encode_sampleCommand
  -- the attempt ends inside the header
  have hattempt : default.attempt L1Receipt.referenceX sampleCommand (meets []) .init =
      (.error (StreamReader.incompleteRead [] headerSize), ⟨true, some []⟩) := by
    simp only [attempt]
    rw [show default.ensureConnected (meets []) .init = (.ok [], ⟨true, some []⟩) from rfl]
    dsimp only
    rw [hframe]
    rfl
  have hverify : default.verify L1Receipt.referenceX sampleCommand (fun _ => meets []) .init =
      ⟨.error (StreamReader.incompleteRead [] headerSize), ⟨true, some []⟩, 1⟩ := by
    rw [verify, show (default.maxRetries + 1).toNat = 4 from rfl, attempts, hattempt]
    rfl
  rw [hverify]
  exact ⟨_, rfl, rfl, rfl, rfl, rfl, rfl⟩

end VerifierClient
