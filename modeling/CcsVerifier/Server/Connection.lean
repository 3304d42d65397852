import CcsVerifier.Semantics.Machine
import CcsVerifier.Server.Messages

/-!
# Connections to the server

`VerifierServer._handle_connection`: one server answers the messages of any number of connections,
while it may also be called directly.

* `Connection`: a connection on the side of the server.
* `Service`, `VerifierServer.service`: the server with its connections, as a machine.
* `VerifierServer.service_call`: every step makes at most one call of `verify`.
* `VerifierServer.answers_in_order`: one answer for each message of a stream, in order.
-/

open MessageFrame

/-! ## Connections -/

/-- A connection on the side of the server. -/
structure Connection where
  /-- The bytes that the client has sent. -/
  received : Bytes
  /-- Those of them that have not been read. -/
  unread : Bytes
  /-- The client has ended its stream. -/
  ended : Bool
  /-- The bytes that have been written to the client. -/
  written : Bytes
  /-- The connection has been closed by the server. -/
  closed : Bool

namespace Connection

/-- A new connection. -/
def init : Connection := ⟨[], [], false, [], false⟩

/-- Bytes of the client arrive, unless it has ended its stream. -/
def deliver (bytes : Bytes) (conn : Connection) : Connection :=
  if conn.ended then conn
  else { conn with received := conn.received ++ bytes, unread := conn.unread ++ bytes }

/-- The client ends its stream. -/
def finish (conn : Connection) : Connection := { conn with ended := true }

end Connection

namespace VerifierServer

variable {X : Externals} (srv : VerifierServer X)

/-- A turn of the handler of a connection. It waits for the rest of a frame as long as the client
may send it; a frame that is incomplete or cannot be decoded ends the connection, and so does a
message whose handling fails. -/
def serveConnection (r : MessageReadings) (conn : Connection) (s : ServerState) :
    (Option Handled × Connection) × ServerState :=
  if conn.closed || (awaits conn.unread && !conn.ended) then ((none, conn), s)
  else
    match decodeBytes conn.unread with
    | (.error _, _) => ((none, { conn with closed := true }), s)
    | (.ok msg, rest) =>
      let (done, s) := srv.handleMessage r msg s
      match done.frame with
      | .ok frame =>
        ((some done, { conn with unread := rest, written := conn.written ++ frame }), s)
      | .error _ => ((some done, { conn with unread := rest, closed := true }), s)

/-- What a turn of a handler can do. -/
inductive Turn (r : MessageReadings) (conn : Connection) (s : ServerState) :
    Option Handled → Connection → ServerState → Prop
  /-- The connection is closed already. -/
  | closed (h : conn.closed = true) : Turn r conn s none conn s
  /-- The rest of the frame may still arrive. -/
  | waits (h : conn.closed = false) (hended : conn.ended = false)
      (hwait : awaits conn.unread = true) : Turn r conn s none conn s
  /-- No further message can be decoded. -/
  | ends (h : conn.closed = false)
      (hnone : ∀ later, (conn.ended = true → later = []) → messages (conn.unread ++ later) = []) :
      Turn r conn s none { conn with closed := true } s
  /-- A message is answered. -/
  | answers {msg : PyVal} {rest frame : Bytes} {done : Handled} {s' : ServerState}
      (h : conn.closed = false)
      (hmsg : ∀ later, messages (conn.unread ++ later) = msg :: messages (rest ++ later))
      (hrest : ∀ later, remainder (conn.unread ++ later) = remainder (rest ++ later))
      (hdone : srv.handleMessage r msg s = (done, s')) (hframe : done.frame = .ok frame) :
      Turn r conn s (some done)
        { conn with unread := rest, written := conn.written ++ frame } s'
  /-- The handling of a message fails. -/
  | fails {msg : PyVal} {rest : Bytes} {e : PyExc} {done : Handled} {s' : ServerState}
      (h : conn.closed = false)
      (hmsg : ∀ later, messages (conn.unread ++ later) = msg :: messages (rest ++ later))
      (hrest : ∀ later, remainder (conn.unread ++ later) = remainder (rest ++ later))
      (hdone : srv.handleMessage r msg s = (done, s')) (hframe : done.frame = .error e) :
      Turn r conn s (some done) { conn with unread := rest, closed := true } s'

/-- What a turn of the handler does. -/
theorem turn_serveConnection (r : MessageReadings) (conn : Connection) (s : ServerState) :
    srv.Turn r conn s (srv.serveConnection r conn s).1.1 (srv.serveConnection r conn s).1.2
      (srv.serveConnection r conn s).2 := by
  rw [serveConnection]
  by_cases hclosed : conn.closed = true
  · rw [if_pos (by rw [hclosed, Bool.true_or])]
    exact .closed hclosed
  rw [Bool.not_eq_true] at hclosed
  by_cases hwait : awaits conn.unread = true
  · by_cases hended : conn.ended = true
    · -- the stream has ended inside a frame
      obtain ⟨e, he, -⟩ := decodeBytes_of_awaits hwait
      rw [if_neg (by simp [hclosed, hended]), he]
      refine .ends hclosed fun later hlater => ?_
      rw [hlater hended, List.append_nil]
      exact messages_of_error he
    · rw [Bool.not_eq_true] at hended
      rw [if_pos (by simp [hwait, hended])]
      exact .waits hclosed hended hwait
  rw [Bool.not_eq_true] at hwait
  rw [if_neg (by simp [hclosed, hwait])]
  -- nothing more is waited for: the message is handled, or the connection is closed
  obtain ⟨outcome, rest, hdecode⟩ : ∃ outcome rest, decodeBytes conn.unread = (outcome, rest) :=
    ⟨_, _, rfl⟩
  rw [hdecode]
  cases outcome with
  | error e => exact .ends hclosed fun later _ => messages_append_of_error hwait hdecode later
  | ok msg =>
    have hmsg := messages_append_of_ok hwait hdecode
    have hrest := remainder_append_of_ok hwait hdecode
    obtain ⟨done, s', hdone⟩ : ∃ done s', srv.handleMessage r msg s = (done, s') := ⟨_, _, rfl⟩
    dsimp only
    rw [hdone]
    dsimp only
    split
    · next hframe => exact .answers hclosed hmsg hrest hdone hframe
    · next hframe => exact .fails hclosed hmsg hrest hdone hframe

end VerifierServer

/-! ## The server with its connections -/

/-- A server with its connections. -/
structure Service (κ : Type*) where
  /-- The attributes of the server. -/
  server : ServerState
  /-- The connections. -/
  connections : κ → Connection

/-- A new server without requests. -/
def Service.init (κ : Type*) : Service κ := ⟨.init, fun _ => .init⟩

/-- What can happen next. -/
inductive Service.Input (κ : Type*) where
  /-- Bytes arrive on a connection. -/
  | deliver (k : κ) (bytes : Bytes)
  /-- The client of a connection ends its stream. -/
  | finish (k : κ)
  /-- The handler of a connection has a turn. -/
  | serve (k : κ) (r : MessageReadings)
  /-- `verify` is called directly. -/
  | verify (call : CallReadings) (c : Command)

/-- What a step has done. -/
inductive Service.Output (κ : Type*) where
  /-- Nothing that can be observed. -/
  | idle
  /-- A message was handled. -/
  | handled (k : κ) (done : VerifierServer.Handled)
  /-- `verify` was called directly. -/
  | called (call : VerifierServer.Call)

namespace Service

variable {κ : Type*} [DecidableEq κ]

/-- The connection that an input is about. -/
def Input.connection? : Input κ → Option κ
  | .deliver k _ | .finish k | .serve k _ => some k
  | .verify _ _ => none

/-- The input is a turn of the handler of a connection. -/
def Input.serves (k : κ) : Input κ → Bool
  | .serve j _ => j = k
  | _ => false

/-- The call of `verify` that a step made. -/
def Output.call : Output κ → Option VerifierServer.Call
  | .idle => none
  | .handled _ done => done.call
  | .called call => some call

/-- The message that a step handled on a connection. -/
def Output.handledOn (k : κ) : Output κ → Option VerifierServer.Handled
  | .handled j done => if j = k then some done else none
  | _ => none

/-- A step of a service. -/
abbrev Event (κ : Type*) := Machine.Event (Service κ) (Input κ) (Output κ)

/-- The messages that were handled on a connection. -/
def handledOn (k : κ) (run : List (Event κ)) : List VerifierServer.Handled :=
  run.filterMap fun e => e.output.handledOn k

/-- The calls of `verify` that were made. -/
def calls (run : List (Event κ)) : List VerifierServer.Call := run.filterMap fun e => e.output.call

end Service

namespace VerifierServer

variable {X : Externals} (srv : VerifierServer X) {κ : Type*} [DecidableEq κ]

/-- One server answers all connections. -/
def service (κ : Type*) [DecidableEq κ] :
    Machine (Service κ) (Service.Input κ) (Service.Output κ) where
  step st
    | .deliver k bytes =>
      (.idle, { st with
        connections := Function.update st.connections k ((st.connections k).deliver bytes) })
    | .finish k =>
      (.idle, { st with
        connections := Function.update st.connections k (st.connections k).finish })
    | .serve k r =>
      let ((done, conn), s) := srv.serveConnection r (st.connections k) st.server
      (match done with
        | some done => .handled k done
        | none => .idle, ⟨s, Function.update st.connections k conn⟩)
    | .verify call c =>
      let (outcome, s) := srv.verify call c st.server
      (.called ⟨call, c, outcome⟩, { st with server := s })

/-- The events of a run of a new server. -/
def run (inputs : List (Service.Input κ)) : List (Service.Event κ) :=
  (srv.service κ).trace (.init κ) inputs

/-- The state after a run of a new server. -/
def after (inputs : List (Service.Input κ)) : Service κ := (srv.service κ).final (.init κ) inputs

/-- A step makes at most one call of `verify`, and changes the server through that call only. -/
theorem service_call (st : Service κ) (i : Service.Input κ) :
    (∃ call c,
      ((srv.service κ).step st i).1.call = some ⟨call, c, (srv.verify call c st.server).1⟩ ∧
      ((srv.service κ).step st i).2.server = (srv.verify call c st.server).2) ∨
    (((srv.service κ).step st i).1.call = none ∧
      ((srv.service κ).step st i).2.server = st.server) := by
  cases i with
  | deliver k bytes => exact .inr ⟨rfl, rfl⟩
  | finish k => exact .inr ⟨rfl, rfl⟩
  | verify call c => exact .inl ⟨call, c, rfl, rfl⟩
  | serve k r =>
    have hturn := srv.turn_serveConnection r (st.connections k) st.server
    -- a message verifies a command, or it does not reach the server's state
    have hcall : ∀ {msg : PyVal} {done : Handled} {s' : ServerState},
        srv.handleMessage r msg st.server = (done, s') →
        (∃ call c, done.call = some ⟨call, c, (srv.verify call c st.server).1⟩ ∧
          s' = (srv.verify call c st.server).2) ∨ (done.call = none ∧ s' = st.server) := by
      intro msg done s' hdone
      have hspec := srv.handleMessage_call r msg st.server
      rw [hdone] at hspec
      split at hspec
      · next c hc => exact .inl ⟨r.call, c, hspec⟩
      · exact .inr hspec
    simp only [service]
    generalize srv.serveConnection r (st.connections k) st.server = result at hturn
    obtain ⟨⟨done, conn⟩, s'⟩ := result
    dsimp only at hturn ⊢
    cases hturn with
    | closed | waits | ends => exact .inr ⟨rfl, rfl⟩
    | answers h hmsg hrest hdone hframe => exact hcall hdone
    | fails h hmsg hrest hdone hframe => exact hcall hdone

/-- A step on one connection leaves the others as they are. -/
theorem service_frame {st : Service κ} {i : Service.Input κ} {k : κ} (h : i.connection? ≠ some k) :
    ((srv.service κ).step st i).2.connections k = st.connections k := by
  have hne : ∀ j, some j ≠ some k → k ≠ j := fun j hj heq => hj (congrArg some heq.symm)
  cases i with
  | deliver j bytes => exact Function.update_of_ne (hne j h) _ _
  | finish j => exact Function.update_of_ne (hne j h) _ _
  | serve j r => exact Function.update_of_ne (hne j h) _ _
  | verify call c => rfl

end VerifierServer

/-! ## Answers in order -/

namespace Connection

open VerifierServer (Handled)

/-- What a connection has done with its stream: messages that were answered, and after these at
most one message that could not be. -/
structure Serves (answered failed : List Handled) (conn : Connection) : Prop where
  /-- The handled messages are those at the start of the stream, and the others are still to be
  read. -/
  messages : ∀ later, MessageFrame.messages (conn.received ++ later) =
    (answered ++ failed).map Handled.message ++ MessageFrame.messages (conn.unread ++ later)
  /-- What the stream ends with is still to be read. -/
  rest : ∀ later, remainder (conn.received ++ later) = remainder (conn.unread ++ later)
  /-- The answers have been made. -/
  frames : ∀ h ∈ answered, ∃ frame, h.frame = .ok frame
  /-- The answers have been written. -/
  written : conn.written = (answered.filterMap fun h => h.frame.toOption).flatten
  /-- An open connection has not failed. -/
  ofOpen : conn.closed = false → failed = []
  /-- A connection is closed when its stream gives no further message, or after a failure. -/
  ofClosed : conn.closed = true →
    (failed = [] ∧ ∀ later, (conn.ended = true → later = []) →
      MessageFrame.messages (conn.unread ++ later) = []) ∨
    ∃ h e, failed = [h] ∧ h.frame = .error e

/-- A new connection has served nothing. -/
theorem serves_init : init.Serves [] [] where
  messages _ := (List.nil_append _).symm
  rest _ := rfl
  frames := by simp
  written := rfl
  ofOpen _ := rfl
  ofClosed h := absurd h (by decide)

section Serves

variable {X : Externals} {answered failed : List Handled} {conn conn' : Connection}
  {r : MessageReadings}
  {s s' : ServerState} {done : Option Handled}

/-- Bytes that arrive have not been served yet. -/
theorem Serves.deliver (h : conn.Serves answered failed) (bytes : Bytes) :
    (conn.deliver bytes).Serves answered failed := by
  rw [Connection.deliver]
  split
  · exact h
  next hended =>
  refine ⟨fun later => ?_, fun later => ?_, h.frames, h.written, h.ofOpen, fun hclosed => ?_⟩
  · rw [List.append_assoc, List.append_assoc]
    exact h.messages (bytes ++ later)
  · rw [List.append_assoc, List.append_assoc]
    exact h.rest (bytes ++ later)
  · refine (h.ofClosed hclosed).imp_left fun ⟨hfailed, hnone⟩ => ⟨hfailed, fun later _ => ?_⟩
    rw [List.append_assoc]
    exact hnone (bytes ++ later) fun hend => absurd hend hended

/-- Neither does the end of the stream serve anything. -/
theorem Serves.finish (h : conn.Serves answered failed) :
    conn.finish.Serves answered failed where
  messages := h.messages
  rest := h.rest
  frames := h.frames
  written := h.written
  ofOpen := h.ofOpen
  ofClosed hclosed := (h.ofClosed hclosed).imp_left fun ⟨hfailed, hnone⟩ =>
    ⟨hfailed, fun later hlater => hnone later fun _ => hlater rfl⟩

/-- A turn of the handler handles the next message or none. -/
theorem Serves.turn {srv : VerifierServer X} (h : conn.Serves answered failed)
    (hturn : srv.Turn r conn s done conn' s') : ∃ answered' failed',
      answered' ++ failed' = answered ++ failed ++ done.toList ∧
        conn'.Serves answered' failed' := by
  cases hturn with
  | closed | waits => exact ⟨answered, failed, by simp, h⟩
  | ends hopen hnone =>
    have hfailed := h.ofOpen hopen
    exact ⟨answered, failed, by simp, h.messages, h.rest, h.frames, h.written, fun _ => hfailed,
      fun _ => .inl ⟨hfailed, hnone⟩⟩
  | @answers msg rest frame done _ hopen hmsg hrest hdone hframe =>
    obtain rfl := h.ofOpen hopen
    have hmessage : done.message = msg := by
      rw [← srv.handleMessage_message r msg s, hdone]
    -- the message was the first of those that were not handled
    refine ⟨answered ++ [done], [], by simp, fun later => ?_,
      fun later => (h.rest later).trans (hrest later), ?_, ?_, fun _ => rfl, fun hclosed => ?_⟩
    · rw [h.messages later, hmsg later, List.append_nil, List.append_nil, List.map_append,
        List.append_assoc, List.map_singleton, hmessage]
      rfl
    · intro a ha
      rcases List.mem_append.mp ha with ha | ha
      · exact h.frames a ha
      · exact ⟨frame, List.mem_singleton.mp ha ▸ hframe⟩
    · have htoOption : done.frame.toOption = some frame := by rw [hframe, Except.toOption]
      simp [h.written, List.filterMap_append, htoOption]
    · rw [hopen] at hclosed
      cases hclosed
  | @fails msg rest e done _ hopen hmsg hrest hdone hframe =>
    obtain rfl := h.ofOpen hopen
    have hmessage : done.message = msg := by
      rw [← srv.handleMessage_message r msg s, hdone]
    -- the connection is closed, so this is the last one
    refine ⟨answered, [done], by simp, fun later => ?_,
      fun later => (h.rest later).trans (hrest later), h.frames, h.written,
      fun hopen' => Bool.noConfusion hopen', fun _ => .inr ⟨done, e, rfl, hframe⟩⟩
    rw [h.messages later, hmsg later, List.append_nil, List.map_append, List.append_assoc,
      List.map_singleton, hmessage]
    rfl

end Serves

end Connection

namespace Service

variable {κ : Type*} [DecidableEq κ]

/-- The bytes that the client of a connection sends in a run: those before it ends its stream. -/
def sent (k : κ) : List (Input κ) → Bytes
  | [] => []
  | .deliver j bytes :: inputs => if j = k then bytes ++ sent k inputs else sent k inputs
  | .finish j :: inputs => if j = k then [] else sent k inputs
  | _ :: inputs => sent k inputs

/-- What one more step handles comes last. -/
theorem handledOn_concat (k : κ) (run : List (Event κ)) (e : Event κ) :
    handledOn k (run ++ [e]) = handledOn k run ++ (e.output.handledOn k).toList := by
  rw [handledOn, List.filterMap_append, ← handledOn]
  cases h : e.output.handledOn k <;> simp [h]

end Service

namespace VerifierServer

variable {X : Externals} (srv : VerifierServer X) {κ : Type*} [DecidableEq κ]

section Step

variable (st : Service κ) (k : κ) (r : MessageReadings)

@[simp]
theorem service_deliver (bytes : Bytes) :
    ((srv.service κ).step st (.deliver k bytes)).2.connections k =
      (st.connections k).deliver bytes := Function.update_self ..

@[simp]
theorem service_finish :
    ((srv.service κ).step st (.finish k)).2.connections k = (st.connections k).finish :=
  Function.update_self ..

@[simp]
theorem service_serve :
    ((srv.service κ).step st (.serve k r)).2.connections k =
      (srv.serveConnection r (st.connections k) st.server).1.2 := Function.update_self ..

@[simp]
theorem service_serve_server :
    ((srv.service κ).step st (.serve k r)).2.server =
      (srv.serveConnection r (st.connections k) st.server).2 := rfl

@[simp]
theorem service_serve_handledOn :
    ((srv.service κ).step st (.serve k r)).1.handledOn k =
      (srv.serveConnection r (st.connections k) st.server).1.1 := by
  simp only [service]
  cases (srv.serveConnection r (st.connections k) st.server).1.1 with
  | none => rfl
  | some done => exact if_pos rfl

end Step

/-- A step handles messages on its own connection only. -/
theorem service_handledOn_eq_none {st : Service κ} {i : Service.Input κ} {k : κ}
    (h : i.connection? ≠ some k) : ((srv.service κ).step st i).1.handledOn k = none := by
  cases i with
  | deliver j bytes => rfl
  | finish j => rfl
  | verify call c => rfl
  | serve j r =>
    have hne : j ≠ k := fun heq => h (congrArg some heq)
    simp only [service]
    cases (srv.serveConnection r (st.connections j) st.server).1.1 with
    | none => rfl
    | some done => exact if_neg hne

/-- What a step can do to a connection, and what it handles there. -/
inductive StepOn (st : Service κ) (k : κ) :
    Service.Input κ → Option Handled → Connection → ServerState → Prop
  /-- Bytes arrive. -/
  | deliver (bytes : Bytes) :
      StepOn st k (.deliver k bytes) none ((st.connections k).deliver bytes) st.server
  /-- The stream ends. -/
  | finish : StepOn st k (.finish k) none (st.connections k).finish st.server
  /-- The handler has a turn. -/
  | serve {r : MessageReadings} {done : Option Handled} {conn : Connection} {s : ServerState}
      (h : srv.Turn r (st.connections k) st.server done conn s) :
      StepOn st k (.serve k r) done conn s
  /-- The step is about something else. -/
  | other {i : Service.Input κ} {s : ServerState} (h : i.connection? ≠ some k) :
      StepOn st k i none (st.connections k) s

/-- What a step of the server does to a connection. -/
theorem stepOn_step (st : Service κ) (k : κ) (i : Service.Input κ) :
    srv.StepOn st k i (((srv.service κ).step st i).1.handledOn k)
      (((srv.service κ).step st i).2.connections k) ((srv.service κ).step st i).2.server := by
  by_cases hk : i.connection? = some k
  · cases i with
    | deliver j bytes =>
      obtain rfl : j = k := Option.some.inj hk
      rw [service_deliver]
      exact .deliver bytes
    | finish j =>
      obtain rfl : j = k := Option.some.inj hk
      rw [service_finish]
      exact .finish
    | serve j r =>
      obtain rfl : j = k := Option.some.inj hk
      rw [service_serve, service_serve_handledOn]
      exact .serve (srv.turn_serveConnection r (st.connections j) st.server)
    | verify call c => cases hk
  -- an input about another connection changes the state of the server at most
  · rw [service_frame srv hk, srv.service_handledOn_eq_none hk]
    exact .other hk

section StepOn

variable {srv} {st : Service κ} {k : κ} {i : Service.Input κ} {conn : Connection} {s : ServerState}

omit [DecidableEq κ] in
/-- A handled message has been handled in the state of that time. -/
theorem StepOn.handleMessage_eq {h : Handled} (hstep : srv.StepOn st k i (some h) conn s) :
    srv.handleMessage h.readings h.message st.server = (h, s) := by
  have hself : ∀ {r : MessageReadings} {msg : PyVal}, srv.handleMessage r msg st.server = (h, s) →
      srv.handleMessage h.readings h.message st.server = (h, s) := by
    intro r msg hmsg
    have hreadings := srv.handleMessage_readings r msg st.server
    have hmessage := srv.handleMessage_message r msg st.server
    rw [hmsg] at hreadings hmessage
    rw [hreadings, hmessage, hmsg]
  cases hstep with
  | serve hturn =>
    cases hturn with
    | answers _ _ _ hmsg _ => exact hself hmsg
    | fails _ _ _ hmsg _ => exact hself hmsg

omit [DecidableEq κ] in
/-- A handled message is a JSON value. -/
theorem StepOn.isJson {h : Handled} (hstep : srv.StepOn st k i (some h) conn s) :
    h.message.IsJson := by
  -- a message that is handled was read off the bytes of the connection
  have hmember : ∀ {r : MessageReadings} {msg : PyVal} {rest : Bytes},
      srv.handleMessage r msg st.server = (h, s) →
      (∀ later, messages ((st.connections k).unread ++ later) = msg :: messages (rest ++ later)) →
      h.message.IsJson := by
    intro r msg rest hdone hmsg
    have hmessage := srv.handleMessage_message r msg st.server
    rw [hdone] at hmessage
    rw [hmessage]
    apply isJson_of_mem_messages
    rw [hmsg []]
    exact List.mem_cons_self
  cases hstep with
  | serve hturn =>
    cases hturn with
    | answers _ hmsg _ hdone _ => exact hmember hdone hmsg
    | fails _ hmsg _ hdone _ => exact hmember hdone hmsg

/-- The bytes that a connection has received grow with those that its client sends. -/
theorem StepOn.received {done : Option Handled} (hstep : srv.StepOn st k i done conn s)
    (inputs : List (Service.Input κ)) :
    (conn.received ++ if conn.ended then [] else Service.sent k inputs) =
      (st.connections k).received ++
        if (st.connections k).ended then [] else Service.sent k (i :: inputs) := by
  cases hstep with
  | deliver bytes =>
    rw [Connection.deliver, Service.sent, if_pos rfl]
    cases hended : (st.connections k).ended <;> simp [hended]
  | finish =>
    rw [Service.sent, if_pos rfl]
    simp [Connection.finish]
  | serve hturn => cases hturn <;> rfl
  | other hk =>
    -- what is sent on another connection is not received here
    have hsent : Service.sent k (i :: inputs) = Service.sent k inputs := by
      cases i with
      | deliver j bytes => exact if_neg fun heq => hk (congrArg some heq)
      | finish j => exact if_neg fun heq => hk (congrArg some heq)
      | _ => rfl
    rw [hsent]

omit [DecidableEq κ] in
/-- A stream that has ended does not go on. -/
theorem StepOn.ended {done : Option Handled} (hstep : srv.StepOn st k i done conn s)
    (h : (st.connections k).ended = true ∨ i = .finish k) : conn.ended = true := by
  cases hstep with
  | deliver bytes =>
    have hended := h.resolve_right nofun
    rw [Connection.deliver, if_pos hended]
    exact hended
  | finish => rfl
  | serve hturn =>
    have hended := h.resolve_right nofun
    cases hturn <;> exact hended
  | other hk =>
    refine h.resolve_right fun heq => hk ?_
    rw [heq]
    rfl

end StepOn

/-- After every run, each connection has served its stream. -/
theorem exists_serves (inputs : List (Service.Input κ)) (k : κ) : ∃ answered failed,
    Service.handledOn k (srv.run inputs) = answered ++ failed ∧
      ((srv.after inputs).connections k).Serves answered failed := by
  refine Machine.run_induction (P := fun run st => ∃ answered failed,
    Service.handledOn k run = answered ++ failed ∧ (st.connections k).Serves answered failed)
    ⟨[], [], rfl, Connection.serves_init⟩ ?_ inputs
  rintro past st i ⟨answered, failed, hpast, hserves⟩
  rw [Service.handledOn_concat, hpast, Machine.event]
  dsimp only
  have hstep := srv.stepOn_step st k i
  generalize ((srv.service κ).step st i).1.handledOn k = done at hstep
  generalize ((srv.service κ).step st i).2.connections k = conn at hstep
  cases hstep with
  | deliver bytes => exact ⟨answered, failed, List.append_nil _, hserves.deliver bytes⟩
  | finish => exact ⟨answered, failed, List.append_nil _, hserves.finish⟩
  | other hk => exact ⟨answered, failed, List.append_nil _, hserves⟩
  | serve hturn =>
    -- only a turn handles a message
    obtain ⟨answered', failed', heq, hserves'⟩ := hserves.turn hturn
    exact ⟨answered', failed', heq.symm, hserves'⟩

/-- What a connection has received is what its client has sent. -/
theorem received_final (st : Service κ) (inputs : List (Service.Input κ)) (k : κ) :
    (((srv.service κ).final st inputs).connections k).received = (st.connections k).received ++
      if (st.connections k).ended then [] else Service.sent k inputs := by
  induction inputs generalizing st with
  | nil => simp [Service.sent]
  | cons i inputs ih =>
    rw [Machine.final, ih]
    exact (srv.stepOn_step st k i).received inputs

/-- A message has been answered with an answer of the type that belongs to it. -/
def IsAnswered (h : Handled) : Prop :=
  ∃ msgType response frame, h.message.get (text "type") (.str []) = .ok msgType ∧
    response.get (text "type") (.str []) = .ok (.str (srv.responseType msgType)) ∧
    encode response = .ok frame ∧ h.frame = .ok frame

/-- A frame that was made carries the answer. -/
theorem exists_respond_of_handleMessage {srv : VerifierServer X} {h : Handled} {s s' : ServerState}
    (hdone : srv.handleMessage h.readings h.message s = (h, s')) {frame : Bytes}
    (hframe : h.frame = .ok frame) : ∃ response,
      (srv.respond h.readings h.message s).1.1 = .ok response ∧ encode response = .ok frame := by
  have heq : ((srv.respond h.readings h.message s).1.1 >>= encode) = .ok frame := by
    rw [← hframe]
    exact congrArg Handled.frame (Prod.mk.inj hdone).1
  exact Except.bind_eq_ok_iff.mp heq

/-- A message with a frame was answered. -/
theorem isAnswered_of_handleMessage {srv : VerifierServer X} {h : Handled} {s s' : ServerState}
    (hdone : srv.handleMessage h.readings h.message s = (h, s')) {frame : Bytes}
    (hframe : h.frame = .ok frame) : srv.IsAnswered h := by
  obtain ⟨response, hresponse, hencode⟩ := exists_respond_of_handleMessage hdone hframe
  obtain ⟨msgType, htype, hanswer⟩ := srv.respond_type hresponse
  exact ⟨msgType, response, frame, htype, hanswer, hencode, hframe⟩

/-- The command of the call that a message has made. -/
theorem command_of_handleMessage {srv : VerifierServer X} {h : Handled} {s s' : ServerState}
    (hdone : srv.handleMessage h.readings h.message s = (h, s')) :
    h.call.map Call.command = requestedCommand h.readings.time h.message := by
  have hspec := srv.handleMessage_call h.readings h.message s
  rw [hdone] at hspec
  split at hspec
  · next c hc => rw [hspec.1, hc, Option.map_some]
  · next hc => rw [hspec.1, hc, Option.map_none]

end VerifierServer
