import CcsVerifier.Client.Agreement

/-!
# A client and a server that are joined by streams

`VerifierClient` with its lock, `VerifierServer`, and the connections between the two. Bytes travel
in order, in pieces of any size, and may stay on their way for any time; calls may be cancelled and
may time out; connections may be lost.

* `ClientCall`: the calls of the four methods that ask the server.
* `Session`, `VerifierClient.session`: the client, the server and the bytes between them, as a
  machine.
* `Session.Carries`: what has become of the requests on a connection.
* `VerifierClient.carries`: every connection carries its requests, in every run.
-/

open MessageFrame

/-! ## The four methods -/

/-- A call of one of the methods that ask the server. -/
inductive ClientCall where
  /-- `client.verify(command)` -/
  | verify (c : Command)
  /-- `client.health_check()` -/
  | healthCheck
  /-- `client.list_rules()` -/
  | listRules
  /-- `client.get_l1_public_key()` -/
  | getL1PublicKey

/-- What a call returns. -/
inductive Returned where
  /-- The result of a verification. -/
  | result (v : VerificationResult)
  /-- A value of the response, or all of it. -/
  | value (v : PyVal)

/-- The bytes that hexadecimal digits spell, with white space between the bytes, or the position of
the first character that does not belong there. -/
def hexBytes (position : ℕ) : Text → Except ℕ Bytes
  | [] => .ok []
  | a :: rest =>
    -- `bytes.fromhex` skips the ASCII white space, vertical tabs and form feeds included
    if a.val = 0x20 ∨ (0x09 ≤ a.val ∧ a.val ≤ 0x0d) then hexBytes (position + 1) rest
    else
      match JsonScan.hexValue? a, rest with
      | none, _ => .error position
      | some _, [] => .error (position + 1)
      | some high, b :: rest =>
        match JsonScan.hexValue? b with
        | none => .error (position + 1)
        | some low => (hexBytes (position + 2) rest).map (UInt8.ofNat (high * 16 + low) :: ·)

/-- `bytes.fromhex(v)` -/
def PyVal.fromHex : PyVal → Except PyExc Bytes
  | .str s =>
    let outcome : Except ℕ Bytes :=
      match s.findIdx? fun c => decide (128 ≤ c.val) with
      | some position => .error position
      | .none => hexBytes 0 s
    outcome.mapError fun position : ℕ => ⟨.valueError,
      text "non-hexadecimal number found in fromhex() arg at position " ++ intText position⟩
  | v => PyExc.type (text "fromhex() argument must be str, not " ++ v.typeName)

namespace ClientCall

/-- The message that a call sends. -/
def request : ClientCall → PyVal
  | .verify c => c.request
  | .healthCheck => healthMessage
  | .listRules => .ofMembers [(text "type", .str (text "list_rules"))]
  | .getL1PublicKey => .ofMembers [(text "type", .str (text "get_l1_public_key"))]

/-- The call is one of `verify`, the only method that catches exceptions and retries. -/
def isVerify : ClientCall → Bool
  | .verify _ => true
  | _ => false

/-- What a call makes of the decoded response. -/
def read (X : Externals) (time : FiniteBinary64) (response : PyVal) :
    ClientCall → Except PyExc Returned
  | .verify _ => return .result (← VerificationResult.ofResponse X time response)
  | .healthCheck => return .value response
  | .listRules => return .value (← response.get (text "rules") (.list []))
  | .getL1PublicKey => do
    let msgType ← response.get (text "type") .none
    if msgType.eqStr (text "error") then
      let message ← response.get (text "message") (.str (text "L1 mode not enabled"))
      .error ⟨.transportError, message.format X.isPrintable⟩
    else
      let key ← response.getItem (text "public_key")
      let _ ← key.fromHex
      return .value response

end ClientCall

/-! ## The state -/

/-- How a connection of the client stands. -/
inductive LinkStatus where
  /-- Bytes may arrive. -/
  | live
  /-- The stream has ended. -/
  | ended
  /-- The connection is lost, and `writer.is_closing()`. -/
  | lost (failure : NetworkFailure)

/-- The connection that the client has: `_reader` and `_writer`. -/
structure Link where
  /-- The connections are numbered as they are opened. -/
  number : ℕ
  /-- The bytes in the buffer of the reader. -/
  buffer : Bytes
  /-- The number of bytes of the server that have arrived. -/
  arrived : ℕ
  /-- How the connection stands. -/
  status : LinkStatus

/-- `not writer.is_closing()` -/
def Link.isOpen (link : Link) : Bool :=
  match link.status with
  | .lost _ => false
  | _ => true

/-- What a call is doing while it holds the lock. -/
inductive Phase where
  /-- It has sent nothing in this attempt: it connects, or pauses before a retry. -/
  | ready
  /-- It has written its request: `await self._writer.drain()`. -/
  | draining
  /-- It waits for the response: `await asyncio.wait_for(MessageFrame.decode(self._reader), …)`. -/
  | decoding
  deriving DecidableEq

/-- The call that holds the lock. -/
structure Holder where
  /-- The call. -/
  call : ClientCall
  /-- The number of attempts that may follow this one. -/
  left : ℕ
  /-- What the call is doing. -/
  phase : Phase

/-- A client, a server and the bytes that are on their way from the one to the other. -/
structure Session where
  /-- The server, with its side of the connections. -/
  service : Service ℕ
  /-- The bytes that the client has written and that have not reached the server. -/
  outgoing : ℕ → Bytes
  /-- The number of connections that have been opened. -/
  opened : ℕ
  /-- `_connected` -/
  connected : Bool
  /-- `_reader` and `_writer` -/
  link : Option Link
  /-- The call that holds `_lock`. -/
  holder : Option Holder

/-- What can happen next. -/
inductive Session.Input where
  /-- A call gets the lock. -/
  | acquire (q : ClientCall)
  /-- The call makes an attempt, up to `drain`. Connecting may fail, if it has to connect. -/
  | attempt (connect : Option NetworkFailure)
  /-- `drain` is done. -/
  | drained
  /-- The response is decoded, or decoding fails; `time.time()` is what the result defaults to. -/
  | receive (time : FiniteBinary64)
  /-- Waiting for the response times out; a header may have been taken out of the buffer. -/
  | timeout (taken : Bool)
  /-- The caller cancels the call; a header may have been taken out of the buffer. -/
  | cancel (taken : Bool)
  /-- The first bytes that are on their way on a connection reach the server. -/
  | send (k n : ℕ)
  /-- The stream of a connection that the client has lost or replaced comes to its end. -/
  | finish (k : ℕ)
  /-- The handler of a connection has a turn. -/
  | serve (k : ℕ) (r : MessageReadings)
  /-- The next bytes of the server reach the client. -/
  | arrive (n : ℕ)
  /-- The stream from the server ends. -/
  | eof
  /-- The connection is lost. -/
  | lose (failure : NetworkFailure)

/-- What a step has done. -/
inductive Session.Output where
  /-- Nothing that can be observed. -/
  | idle
  /-- A call has got the lock. -/
  | acquired (q : ClientCall)
  /-- A request was written to a connection. -/
  | wrote (k : ℕ) (request : PyVal)
  /-- The server has handled a message. -/
  | handled (k : ℕ) (done : VerifierServer.Handled)
  /-- A call returns. -/
  | returned (q : ClientCall) (value : Returned)
  /-- A call raises. -/
  | raised (q : ClientCall) (e : PyExc)
  /-- A call was cancelled. -/
  | cancelled (q : ClientCall)

namespace Session

/-- A new client, and a new server without requests. -/
def init : Session := ⟨.init ℕ, fun _ => [], 0, false, none, none⟩

/-- A step of a session. -/
abbrev Event := Machine.Event Session Input Output

/-- The request that a step wrote to a connection. -/
def Output.requestOn (k : ℕ) : Output → Option PyVal
  | .wrote j request => if j = k then some request else none
  | _ => none

/-- The message that a step handled on a connection. -/
def Output.handledOn (k : ℕ) : Output → Option VerifierServer.Handled
  | .handled j done => if j = k then some done else none
  | _ => none

/-- The requests that were written to a connection. -/
def requests (k : ℕ) (run : List Event) : List PyVal := run.filterMap fun e => e.output.requestOn k

/-- The messages that were handled on a connection. -/
def handledOn (k : ℕ) (run : List Event) : List VerifierServer.Handled :=
  run.filterMap fun e => e.output.handledOn k

/-! ## The client -/

/-- The call that is in a phase. -/
def holder? (st : Session) (phase : Phase) : Option Holder :=
  st.holder.filter fun h => h.phase = phase

/-- The connection that the client takes to be open: `self._connected and self._writer and not
self._writer.is_closing()`. -/
def openLink? (st : Session) : Option Link :=
  if st.connected then st.link.filter Link.isOpen else none

/-- The wait for a response is interrupted. -/
def interrupt (taken : Bool) (st : Session) : Session :=
  if taken then
    { st with link := st.link.map fun link => { link with buffer := interrupted link.buffer } }
  else st

/-- The next bytes of the server arrive, if the stream has not ended. -/
def arrive (n : ℕ) (st : Session) : Session :=
  { st with link := st.link.map fun link =>
      match link.status with
      | .live =>
        let chunk := ((st.service.connections link.number).written.drop link.arrived).take n
        { link with buffer := link.buffer ++ chunk, arrived := link.arrived + chunk.length }
      | _ => link }

/-- The stream from the server ends. -/
def endStream (st : Session) : Session :=
  { st with link := st.link.map fun link =>
      match link.status with
      | .live => { link with status := .ended }
      | _ => link }

/-- The connection is lost. -/
def lose (failure : NetworkFailure) (st : Session) : Session :=
  { st with link := st.link.map fun link => { link with status := .lost failure } }

/-- The client has the connection and has not lost it. -/
def holdsOpen (k : ℕ) (st : Session) : Bool :=
  st.link.any fun link => decide (link.number = k) && link.isOpen

end Session

namespace VerifierClient

open Session (Input Output)

variable {X : Externals} (cl : VerifierClient)

/-- An exception in an attempt. `verify` catches network errors, gives the connection up and retries;
the other methods catch nothing. -/
def fail (h : Holder) (e : PyExc) (st : Session) : Output × Session :=
  match if h.call.isVerify then cl.caught e else none, h.left with
  | none, _ => (.raised h.call e, { st with holder := none })
  | some e, 0 => (.raised h.call e, { st with connected := false, holder := none })
  | some _, left + 1 =>
    (.idle, { st with connected := false, holder := some { h with left := left, phase := .ready } })

/-- `async with self._lock:`, when the lock is free. -/
def acquire (q : ClientCall) (st : Session) : Output × Session :=
  if q.isVerify then
    if cl.maxRetries < 0 then
      (.raised q ⟨.transportError, text "Verification failed after retries"⟩, st)
    else (.acquired q, { st with holder := some ⟨q, cl.maxRetries.toNat, .ready⟩ })
  else (.acquired q, { st with holder := some ⟨q, 0, .ready⟩ })

/-- `await self._ensure_connected()` -/
def ensureLink (connect : Option NetworkFailure) (st : Session) : Except PyExc Link × Session :=
  match st.openLink? with
  | some link => (.ok link, st)
  | none =>
    if !cl.reconnect then
      (.error ⟨.transportError, text "Not connected and reconnect is disabled"⟩, st)
    else
      match connect with
      | some failure => (.error failure.exc, st)
      | none =>
        let link := ⟨st.opened, [], 0, .live⟩
        (.ok link, { st with opened := st.opened + 1, connected := true, link := some link })

/-- An attempt, up to `await self._writer.drain()`. -/
def attemptOn (connect : Option NetworkFailure) (h : Holder) (st : Session) : Output × Session :=
  match cl.ensureLink connect st with
  | (.error e, st) => cl.fail h e st
  | (.ok link, st) =>
    match encode h.call.request with
    | .error e => cl.fail h e st
    | .ok frame =>
      (.wrote link.number h.call.request, { st with
        outgoing := Function.update st.outgoing link.number (st.outgoing link.number ++ frame)
        holder := some { h with phase := .draining } })

/-- `await self._writer.drain()` comes to its end. -/
def drain (h : Holder) (link : Link) (st : Session) : Output × Session :=
  match link.status with
  | .lost failure => cl.fail h failure.exc st
  | _ => (.idle, { st with holder := some { h with phase := .decoding } })

/-- `await asyncio.wait_for(MessageFrame.decode(self._reader), …)` comes to its end, and what the call
makes of the response. As long as the response may still arrive it goes on waiting. -/
def receiveOn (X : Externals) (time : FiniteBinary64) (h : Holder) (link : Link) (st : Session) :
    Output × Session :=
  match link.status, awaits link.buffer with
  | .lost failure, _ => cl.fail h failure.exc st
  | .live, true => (.idle, st)
  | _, _ =>
    let (response, buffer) := decodeBytes link.buffer
    let st := { st with link := some { link with buffer := buffer } }
    match response >>= h.call.read X time with
    | .error e => cl.fail h e st
    | .ok value => (.returned h.call value, { st with holder := none })

/-! ## The machine -/

/-- A step of the server. -/
def serviceStep (srv : VerifierServer X) (i : Service.Input ℕ) (st : Session) : Output × Session :=
  let (done, service) := (srv.service ℕ).step st.service i
  (match done with
    | .handled k done => .handled k done
    | _ => .idle, { st with service := service })

/-- A client and a server that are joined by streams. -/
def session (srv : VerifierServer X) : Machine Session Input Output where
  step st
    | .acquire q => if st.holder.isSome then (.idle, st) else cl.acquire q st
    | .attempt connect =>
      match st.holder? .ready with
      | some h => cl.attemptOn connect h st
      | none => (.idle, st)
    | .drained =>
      match st.holder? .draining, st.link with
      | some h, some link => cl.drain h link st
      | _, _ => (.idle, st)
    | .receive time =>
      match st.holder? .decoding, st.link with
      | some h, some link => cl.receiveOn X time h link st
      | _, _ => (.idle, st)
    | .timeout taken =>
      match st.holder? .decoding with
      | some h => cl.fail h ⟨.timeoutError, []⟩ (st.interrupt taken)
      | none => (.idle, st)
    | .cancel taken =>
      match st.holder with
      | some h =>
        (.cancelled h.call,
          { (if h.phase = .decoding then st.interrupt taken else st) with holder := none })
      | none => (.idle, st)
    | .send k n =>
      if (st.service.connections k).ended then (.idle, st)
      else
        serviceStep srv (.deliver k ((st.outgoing k).take n))
          { st with outgoing := Function.update st.outgoing k ((st.outgoing k).drop n) }
    | .finish k =>
      if st.opened ≤ k || st.holdsOpen k then (.idle, st) else serviceStep srv (.finish k) st
    | .serve k r => serviceStep srv (.serve k r) st
    | .arrive n => (.idle, st.arrive n)
    | .eof => (.idle, st.endStream)
    | .lose failure => (.idle, st.lose failure)

/-- The events of a run of a new client and a new server. -/
def sessionRun (srv : VerifierServer X) (inputs : List Input) : List Session.Event :=
  (cl.session srv).trace .init inputs

/-- The state after a run. -/
def sessionAfter (srv : VerifierServer X) (inputs : List Input) : Session :=
  (cl.session srv).final .init inputs

end VerifierClient

/-! ## What a step does to the connections -/

namespace VerifierClient

open Session (Input Output)

/-- How a failed attempt ends: the exception leaves the call and the connection is kept, or the
connection is given up. -/
inductive FailEnds (cl : VerifierClient) (h : Holder) (e : PyExc) (st : Session) :
    Output → Session → Prop
  /-- The exception is not caught. -/
  | escapes (hcaught : h.call.isVerify = true → cl.caught e = none) :
      FailEnds cl h e st (.raised h.call e) { st with holder := none }
  /-- It was the last attempt. -/
  | ends (e' : PyExc) :
      FailEnds cl h e st (.raised h.call e') { st with connected := false, holder := none }
  /-- Another attempt follows. -/
  | retries (left : ℕ) :
      FailEnds cl h e st .idle
        { st with connected := false, holder := some { h with left := left, phase := .ready } }

variable {X : Externals} {cl : VerifierClient} {srv : VerifierServer X}

/-- How a failed attempt ends is one of these. -/
theorem failEnds_fail (h : Holder) (e : PyExc) (st : Session) :
    cl.FailEnds h e st (cl.fail h e st).1 (cl.fail h e st).2 := by
  unfold fail
  split
  · next hnone =>
    refine .escapes fun hverify => ?_
    rwa [if_pos hverify] at hnone
  · next e' _ _ => exact .ends e'
  · next left _ _ => exact .retries left

/-- How waiting for a response comes to its end, or goes on. -/
inductive Receives (cl : VerifierClient) (X : Externals) (time : FiniteBinary64) (h : Holder)
    (link : Link) (st : Session) : Output × Session → Prop
  /-- The connection is lost. -/
  | lost {failure : NetworkFailure} (hlost : link.status = .lost failure) :
      Receives cl X time h link st (cl.fail h failure.exc st)
  /-- The response may still arrive. -/
  | waits (hlive : link.status = .live) (hwait : awaits link.buffer = true) :
      Receives cl X time h link st (.idle, st)
  /-- No response can be decoded, or the call can make nothing of it. -/
  | fails {response : Except PyExc PyVal} {buffer : Bytes} {e : PyExc} (hopen : link.isOpen = true)
      (hends : awaits link.buffer = true → link.status = .ended)
      (hdecode : decodeBytes link.buffer = (response, buffer))
      (hread : response >>= h.call.read X time = .error e) :
      Receives cl X time h link st
        (cl.fail h e { st with link := some { link with buffer := buffer } })
  /-- The call returns what it makes of the response. -/
  | reads {response : PyVal} {buffer : Bytes} {value : Returned} (hopen : link.isOpen = true)
      (hends : awaits link.buffer = true → link.status = .ended)
      (hdecode : decodeBytes link.buffer = (.ok response, buffer))
      (hread : h.call.read X time response = .ok value) :
      Receives cl X time h link st (.returned h.call value,
        { st with link := some { link with buffer := buffer }, holder := none })

/-- What reading does is one of these. -/
theorem receives_receiveOn (time : FiniteBinary64) (h : Holder) (link : Link) (st : Session) :
    cl.Receives X time h link st (cl.receiveOn X time h link st) := by
  unfold receiveOn
  split
  · next failure hlost => exact .lost hlost
  · next hlive hwait => exact .waits hlive hwait
  · next hlost hlive =>
    have hopen : link.isOpen = true := by
      unfold Link.isOpen
      split
      · next failure hfailure => exact absurd hfailure (hlost failure)
      · rfl
    -- a live stream would have waited for the rest
    have hends : awaits link.buffer = true → link.status = .ended := fun hwait => by
      cases hstatus : link.status with
      | live => exact absurd hwait (hlive hstatus)
      | ended => rfl
      | lost failure => exact absurd hstatus (hlost failure)
    obtain ⟨response, buffer, hdecode⟩ : ∃ response buffer,
        decodeBytes link.buffer = (response, buffer) := ⟨_, _, rfl⟩
    rw [hdecode]
    dsimp only
    split
    · next e hread => exact .fails hopen hends hdecode hread
    · next value hread =>
      obtain ⟨msg, rfl, hvalue⟩ := Except.bind_eq_ok_iff.mp hread
      exact .reads hopen hends hdecode hvalue

/-- What a step does to the streams. -/
inductive Moves (srv : VerifierServer X) (st : Session) (o : Output) (st' : Session) : Prop
  /-- No bytes move to or at the server. -/
  | quiet (hservice : st'.service = st.service) (houtgoing : st'.outgoing = st.outgoing)
      (hrequest : ∀ k, o.requestOn k = none) (hhandled : ∀ k, o.handledOn k = none)
  /-- The client writes a request. -/
  | writes {k : ℕ} {request : PyVal} {frame : Bytes} (hencode : encode request = .ok frame)
      (ho : o = .wrote k request) (hservice : st'.service = st.service)
      (houtgoing : st'.outgoing = Function.update st.outgoing k (st.outgoing k ++ frame))
  /-- Bytes reach the server, or the server has a turn. -/
  | serves {i : Service.Input ℕ} (hservice : st'.service = ((srv.service ℕ).step st.service i).2)
      (hrequest : ∀ k, o.requestOn k = none)
      (hhandled : ∀ k, o.handledOn k = ((srv.service ℕ).step st.service i).1.handledOn k)
      (houtgoing : ∀ k,
        (∃ bytes, i = .deliver k bytes ∧ (st.service.connections k).ended = false ∧
          st.outgoing k = bytes ++ st'.outgoing k) ∨
        ((∀ bytes, i ≠ .deliver k bytes) ∧ st'.outgoing k = st.outgoing k))

/-- A failed attempt moves no bytes. -/
theorem moves_fail (h : Holder) (e : PyExc) {st st₁ : Session} (hservice : st₁.service = st.service)
    (houtgoing : st₁.outgoing = st.outgoing) :
    Moves srv st (cl.fail h e st₁).1 (cl.fail h e st₁).2 := by
  have hends := cl.failEnds_fail h e st₁
  generalize (cl.fail h e st₁).1 = o at hends
  generalize (cl.fail h e st₁).2 = st' at hends
  cases hends <;> exact .quiet hservice houtgoing (fun _ => rfl) fun _ => rfl

/-- A step of the server moves the bytes that were on their way. -/
theorem moves_serviceStep {st : Session} {i : Service.Input ℕ} (outgoing : ℕ → Bytes)
    (houtgoing : ∀ k,
      (∃ bytes, i = .deliver k bytes ∧ (st.service.connections k).ended = false ∧
        st.outgoing k = bytes ++ outgoing k) ∨
      ((∀ bytes, i ≠ .deliver k bytes) ∧ outgoing k = st.outgoing k)) :
    Moves srv st (serviceStep srv i { st with outgoing := outgoing }).1
      (serviceStep srv i { st with outgoing := outgoing }).2 := by
  refine .serves rfl ?_ ?_ houtgoing
  · intro k
    unfold serviceStep
    dsimp only
    -- what the server does writes no request
    split <;> rfl
  · intro k
    unfold serviceStep
    dsimp only
    split
    · next heq =>
      rw [heq]
      rfl
    · next hne =>
      cases hout : ((srv.service ℕ).step st.service i).1 with
      | handled j done => exact absurd hout (hne j done)
      | idle => rfl
      | called call => rfl

/-- What connecting changes. -/
theorem ensureLink_cases (cl : VerifierClient) (connect : Option NetworkFailure) (st : Session) :
    (∃ e, cl.ensureLink connect st = (.error e, st)) ∨
    (∃ link, st.openLink? = some link ∧ cl.ensureLink connect st = (.ok link, st)) ∨
    cl.ensureLink connect st = (.ok ⟨st.opened, [], 0, .live⟩,
      { st with opened := st.opened + 1, connected := true, link := some ⟨st.opened, [], 0, .live⟩ })
    := by
  unfold ensureLink
  split
  · next link hlink => exact .inr (.inl ⟨link, hlink, rfl⟩)
  · split
    · exact .inl ⟨_, rfl⟩
    · split
      · exact .inl ⟨_, rfl⟩
      · exact .inr (.inr rfl)

/-- An attempt moves its request only. -/
theorem moves_attemptOn (connect : Option NetworkFailure) (h : Holder) (st : Session) :
    Moves srv st (cl.attemptOn connect h st).1 (cl.attemptOn connect h st).2 := by
  have hwrite : ∀ (link : Link) (st₁ : Session), st₁.service = st.service →
      st₁.outgoing = st.outgoing →
      cl.ensureLink connect st = (.ok link, st₁) →
      Moves srv st (cl.attemptOn connect h st).1 (cl.attemptOn connect h st).2 := by
    intro link st₁ hservice houtgoing hensure
    rw [attemptOn, hensure]
    dsimp only
    split
    · exact moves_fail h _ hservice houtgoing
    · next hencode =>
      refine .writes hencode rfl hservice ?_
      dsimp only
      rw [houtgoing]
  rcases cl.ensureLink_cases connect st with ⟨e, he⟩ | ⟨link, -, hlink⟩ | hnew
  · rw [attemptOn, he]
    exact moves_fail h e rfl rfl
  · exact hwrite link st rfl rfl hlink
  · refine hwrite _ _ ?_ ?_ hnew <;> rfl

/-- Reading moves no bytes to the server. -/
theorem moves_receiveOn (time : FiniteBinary64) (h : Holder) (link : Link) (st : Session) :
    Moves srv st (cl.receiveOn X time h link st).1 (cl.receiveOn X time h link st).2 := by
  have hreceives := cl.receives_receiveOn (X := X) time h link st
  generalize cl.receiveOn X time h link st = out at hreceives ⊢
  cases hreceives with
  | lost => exact moves_fail h _ rfl rfl
  | waits => exact .quiet rfl rfl (fun _ => rfl) fun _ => rfl
  | fails => exact moves_fail h _ rfl rfl
  | reads => exact .quiet rfl rfl (fun _ => rfl) fun _ => rfl

/-- Every step moves bytes in one of these ways. -/
theorem moves_step (st : Session) (i : Input) :
    Moves srv st ((cl.session srv).step st i).1 ((cl.session srv).step st i).2 := by
  have hidle : Moves srv st .idle st := .quiet rfl rfl (fun _ => rfl) fun _ => rfl
  -- an answer that is given up still leaves the server and the bytes on their way alone
  have hinterrupt : ∀ taken, (st.interrupt taken).service = st.service ∧
      (st.interrupt taken).outgoing = st.outgoing := fun taken => by
    cases taken <;> exact ⟨rfl, rfl⟩
  cases i with
  | acquire q =>
    simp only [session, acquire]
    split_ifs
    · exact hidle
    · exact .quiet rfl rfl (fun _ => rfl) fun _ => rfl
    · exact .quiet rfl rfl (fun _ => rfl) fun _ => rfl
    · exact .quiet rfl rfl (fun _ => rfl) fun _ => rfl
  | attempt connect =>
    simp only [session]
    split
    · next h _ => exact moves_attemptOn connect h st
    · exact hidle
  | drained =>
    simp only [session]
    split
    · next h link _ _ =>
      unfold drain
      split
      · exact moves_fail h _ rfl rfl
      · exact .quiet rfl rfl (fun _ => rfl) fun _ => rfl
    · exact hidle
  | receive time =>
    simp only [session]
    split
    · next h link _ _ => exact moves_receiveOn time h link st
    · exact hidle
  | timeout taken =>
    simp only [session]
    split
    · next h _ => exact moves_fail h _ (hinterrupt taken).1 (hinterrupt taken).2
    · exact hidle
  | cancel taken =>
    simp only [session]
    split
    · split
      · exact .quiet (hinterrupt taken).1 (hinterrupt taken).2 (fun _ => rfl) fun _ => rfl
      · exact .quiet rfl rfl (fun _ => rfl) fun _ => rfl
    · exact hidle
  | send k n =>
    -- of all connections, only the one that the bytes are sent on is touched
    simp only [session]
    split
    · exact hidle
    · next hended =>
      refine moves_serviceStep _ fun j => ?_
      by_cases hj : j = k
      · subst hj
        refine .inl ⟨_, rfl, by simpa using hended, ?_⟩
        rw [Function.update_self, List.take_append_drop]
      · refine .inr ⟨fun bytes heq => hj ?_, Function.update_of_ne hj _ _⟩
        cases heq
        rfl
  | finish k =>
    simp only [session]
    split
    · exact hidle
    · exact moves_serviceStep st.outgoing fun j => .inr ⟨fun _ => (by simp), rfl⟩
  | serve k r =>
    exact moves_serviceStep st.outgoing fun j => .inr ⟨fun _ => (by simp), rfl⟩
  | arrive n => exact .quiet rfl rfl (fun _ => rfl) fun _ => rfl
  | eof => exact .quiet rfl rfl (fun _ => rfl) fun _ => rfl
  | lose failure => exact .quiet rfl rfl (fun _ => rfl) fun _ => rfl

/-- What a step has handled is what the server makes of the message. -/
theorem Moves.handleMessage_eq {st st' : Session} {o : Output} (h : Moves srv st o st') {k : ℕ}
    {done : VerifierServer.Handled} (hdone : o.handledOn k = some done) :
    srv.handleMessage done.readings done.message st.service.server =
      (done, st'.service.server) := by
  cases h with
  | quiet _ _ _ hhandled =>
    rw [hhandled] at hdone
    cases hdone
  | writes _ ho =>
    rw [ho] at hdone
    cases hdone
  | @serves i hservice _ hhandled =>
    have hstep := srv.stepOn_step st.service k i
    rw [← hhandled, hdone, ← hservice] at hstep
    exact hstep.handleMessage_eq

end VerifierClient

/-! ## What has become of the requests -/

namespace Session

/-- The bytes of the answers that were made. -/
def answers (handled : List VerifierServer.Handled) : Bytes :=
  (handled.filterMap fun h => h.frame.toOption).flatten

/-- The request of one more step comes last. -/
@[simp]
theorem requests_concat (k : ℕ) (run : List Event) (e : Event) :
    requests k (run ++ [e]) = requests k run ++ (e.output.requestOn k).toList := by
  rw [requests, List.filterMap_append, ← requests]
  cases h : e.output.requestOn k <;> simp [h]

/-- So does the message that it handles. -/
@[simp]
theorem handledOn_concat (k : ℕ) (run : List Event) (e : Event) :
    handledOn k (run ++ [e]) = handledOn k run ++ (e.output.handledOn k).toList := by
  rw [handledOn, List.filterMap_append, ← handledOn]
  cases h : e.output.handledOn k <;> simp [h]

/-- The answers come one after the other. -/
@[simp]
theorem answers_append (xs ys : List VerifierServer.Handled) :
    answers (xs ++ ys) = answers xs ++ answers ys := by
  rw [answers, List.filterMap_append, List.flatten_append, ← answers, ← answers]

/-- The requests on a connection have reached the server, are on their way to it, or were lost with
the connection; the server has handled the first of them, and has answered all that it handled, but
for a last one that it could not answer. -/
structure Carries (k : ℕ) (past : List Event) (st : Session) : Prop where
  /-- The bytes that were written are those of the requests. -/
  frames : ∃ frames,
    List.Forall₂ (fun request frame => encode request = .ok frame) (requests k past) frames ∧
      (st.service.connections k).received ++ st.outgoing k = frames.flatten
  /-- The server serves them. -/
  serves : ∃ answered failed, handledOn k past = answered ++ failed ∧
    (st.service.connections k).Serves answered failed

section Carries

variable {k : ℕ} {past : List Event} {st : Session}

/-- Nothing is on its way at first. -/
theorem carries_init : Carries k [] .init :=
  ⟨⟨[], .nil, rfl⟩, ⟨[], [], rfl, Connection.serves_init⟩⟩

/-- The messages that the server has handled are the first requests, in order. -/
theorem Carries.handled (h : Carries k past st) :
    (handledOn k past).map VerifierServer.Handled.message <+:
      (requests k past).map (PyVal.reload .compact) := by
  obtain ⟨⟨frames, hencode, hreceived⟩, answered, failed, hhandled, hserves⟩ := h
  have hmessages := hserves.messages (st.outgoing k)
  rw [hreceived, messages_flatten hencode] at hmessages
  rw [hmessages, hhandled]
  exact List.prefix_append ..

/-- What the server has written are its answers. -/
theorem Carries.written (h : Carries k past st) :
    (st.service.connections k).written = answers (handledOn k past) := by
  obtain ⟨-, answered, failed, hhandled, hserves⟩ := h
  rw [hserves.written, hhandled, answers_append, ← answers]
  cases hclosed : (st.service.connections k).closed with
  | false =>
    rw [hserves.ofOpen hclosed]
    exact (List.append_nil _).symm
  | true =>
    -- the last message has no answer
    obtain ⟨hfailed, -⟩ | ⟨last, e, hfailed, hframe⟩ := hserves.ofClosed hclosed
    · rw [hfailed]
      exact (List.append_nil _).symm
    · rw [hfailed]
      simp [answers, hframe, Except.toOption]

/-- A step of the session keeps the requests of a connection. -/
theorem Carries.step {X : Externals} {srv : VerifierServer X} (h : Carries k past st) {e : Event}
    (hbefore : e.before = st) (hmoves : VerifierClient.Moves srv e.before e.output e.after) :
    Carries k (past ++ [e]) e.after := by
  subst hbefore
  obtain ⟨⟨frames, hencode, hreceived⟩, answered, failed, hhandled, hserves⟩ := h
  cases hmoves with
  | quiet hservice houtgoing hrequest hhandled' =>
    -- nothing is written and nothing is handled
    refine ⟨⟨frames, ?_, ?_⟩, answered, failed, ?_, ?_⟩
    · rwa [requests_concat, hrequest, Option.toList_none, List.append_nil]
    · rw [hservice, houtgoing, hreceived]
    · rw [handledOn_concat, hhandled', Option.toList_none, List.append_nil, hhandled]
    · rwa [hservice]
  | @writes j request frame hframe ho hservice houtgoing =>
    -- a request joins what is on its way, behind the earlier ones
    refine ⟨?_, answered, failed, ?_, ?_⟩
    · by_cases hj : j = k
      · subst hj
        refine ⟨frames ++ [frame], ?_, ?_⟩
        · rw [requests_concat, ho, Output.requestOn, if_pos rfl, Option.toList_some]
          exact List.rel_append hencode (.cons hframe .nil)
        · rw [hservice, houtgoing, Function.update_self, ← List.append_assoc, hreceived]
          simp
      · refine ⟨frames, ?_, ?_⟩
        · rwa [requests_concat, ho, Output.requestOn, if_neg hj, Option.toList_none,
            List.append_nil]
        · rw [hservice, houtgoing, Function.update_of_ne (Ne.symm hj), hreceived]
    · have hnone : e.output.handledOn k = none := by rw [ho]; rfl
      rw [handledOn_concat, hnone, Option.toList_none, List.append_nil, hhandled]
    · rwa [hservice]
  | @serves i hservice hrequest hhandled' houtgoing =>
    have hstep := srv.stepOn_step e.before.service k i
    rw [← hservice, ← hhandled'] at hstep
    have hrequests : requests k (past ++ [e]) = requests k past := by
      rw [requests_concat, hrequest, Option.toList_none, List.append_nil]
    have hkept : (∀ bytes, i ≠ .deliver k bytes) → e.after.outgoing k = e.before.outgoing k :=
      fun hne => (houtgoing k).elim (fun ⟨bytes, heq, _⟩ => absurd heq (hne bytes)) And.right
    obtain ⟨conn, hconn⟩ : ∃ conn, e.after.service.connections k = conn := ⟨_, rfl⟩
    obtain ⟨done, hdone⟩ : ∃ done, e.output.handledOn k = done := ⟨_, rfl⟩
    rw [hconn, hdone] at hstep
    generalize e.after.service.server = server at hstep
    -- only what the server has received and handled on this connection can change
    suffices hsuffices : conn.received ++ e.after.outgoing k = frames.flatten ∧
        ∃ answered' failed', answered' ++ failed' = answered ++ failed ++ done.toList ∧
          conn.Serves answered' failed' by
      obtain ⟨hbytes, answered', failed', hlist, hserves'⟩ := hsuffices
      refine ⟨⟨frames, hrequests ▸ hencode, hconn ▸ hbytes⟩, answered', failed', ?_,
        hconn ▸ hserves'⟩
      rw [handledOn_concat, hhandled, hdone, hlist]
    cases hstep with
    | deliver bytes =>
      obtain ⟨bytes', heq, hended, hbytes⟩ | ⟨hne, -⟩ := houtgoing k
      · -- the bytes move from what is on its way to what the server has received
        cases heq
        refine ⟨?_, answered, failed, by simp, hserves.deliver bytes⟩
        rw [hbytes, ← List.append_assoc] at hreceived
        rw [Connection.deliver, if_neg (by simp [hended])]
        exact hreceived
      · exact absurd rfl (hne bytes)
    | finish =>
      refine ⟨?_, answered, failed, by simp, hserves.finish⟩
      rw [hkept fun _ => (by simp)]
      exact hreceived
    | @serve r done conn s hturn =>
      refine ⟨?_, hserves.turn hturn⟩
      rw [hkept fun _ => (by simp)]
      cases hturn <;> exact hreceived
    | other hi =>
      refine ⟨?_, answered, failed, by simp, hserves⟩
      rw [hkept fun bytes heq => hi (by rw [heq]; rfl)]
      exact hreceived

end Carries

end Session

namespace VerifierClient

open Session (Input Output)

variable {X : Externals} (cl : VerifierClient) (srv : VerifierServer X)

/-- Every connection carries its requests, in every run. -/
theorem carries (inputs : List Input) (k : ℕ) :
    Session.Carries k (cl.sessionRun srv inputs) (cl.sessionAfter srv inputs) :=
  Machine.run_induction (P := Session.Carries k) Session.carries_init
    (fun _ st i h => h.step rfl (moves_step st i)) inputs

/-- The server has handled the first of the requests on every connection, in order, whatever happens
to the calls of the client and to the connections. -/
theorem handled_in_order (inputs : List Input) (k : ℕ) :
    (Session.handledOn k (cl.sessionRun srv inputs)).map VerifierServer.Handled.message <+:
      (Session.requests k (cl.sessionRun srv inputs)).map (PyVal.reload .compact) :=
  (cl.carries srv inputs k).handled

end VerifierClient
