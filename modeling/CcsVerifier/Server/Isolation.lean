import CcsVerifier.Server.Ledger
import CcsVerifier.Server.Sequence

/-!
# Connections do not see each other

The handlers of all connections share one server, but of its state an answer shows only the counters
(to a `health` message) and the sequence number (in an L1 receipt). Without these a client gets the
bytes that it would get if it were alone, with the same readings of the clock and of the world of
the rules.

* `AsksHealth`: the messages whose answer reports the counters.
* `VerifierServer.handleMessage_congr`: the state of the server does not reach the other answers.
* `VerifierServer.connection_alone`: a connection without the other connections.
-/

open MessageFrame

/-- The message asks for the health of the server. -/
def AsksHealth (msg : PyVal) : Prop :=
  ∃ msgType, msg.get (text "type") (.str []) = .ok msgType ∧ msgType.eqStr (text "health") = true

namespace VerifierServer

variable {X : Externals} {srv : VerifierServer X}

/-! ## Answers -/

/-- Without an L1 key no number reaches a result. -/
theorem verify_congr_state (hl1 : srv.l1Enabled = false) (call : CallReadings) (c : Command)
    (s t : ServerState) : (srv.verify call c s).1 = (srv.verify call c t).1 := by
  have hkey : srv.l1SigningKey = none := Option.not_isSome_iff_eq_none.mp (by
    rw [← l1Enabled, hl1]
    exact Bool.false_ne_true)
  -- the number goes into the L1 receipt only
  have hdata : ∀ (loop : RuleLoop) (paramsHash : Text) (n : ℕ),
      srv.l1ReceiptData call c loop paramsHash n = .ok none := fun loop paramsHash n => by
    simp only [l1ReceiptData, hkey]
  unfold verify
  split
  · rfl
  split
  · rfl
  simp only [hdata]

/-- The state of the server does not reach the answer to a message, unless this asks for the health
of the server. -/
theorem handleMessage_congr (hl1 : srv.l1Enabled = false) {r : MessageReadings} {msg : PyVal}
    (hmsg : ¬AsksHealth msg) (s t : ServerState) :
    (srv.handleMessage r msg s).1 = (srv.handleMessage r msg t).1 := by
  have hrespond : (srv.respond r msg s).1 = (srv.respond r msg t).1 := by
    unfold respond
    cases htype : msg.get (text "type") (.str []) with
    | error e => rfl
    | ok msgType =>
      have hhealth : ¬msgType.eqStr (text "health") = true := fun h => hmsg ⟨msgType, htype, h⟩
      dsimp only
      rw [if_neg hhealth, if_neg hhealth]
      -- of the other answers, only the one to a verification is made in a state
      by_cases hverify : msgType.eqStr (text "verify") = true
      · rw [if_pos hverify, if_pos hverify]
        cases Command.ofMessage r.time msg with
        | error e => rfl
        | ok c =>
          dsimp only
          rw [verify_congr_state hl1 r.call c s t]
      · rw [if_neg hverify, if_neg hverify]
        split_ifs <;> rfl
  simp only [handleMessage, hrespond]

/-- Nor does it reach a turn of the handler. -/
theorem serveConnection_congr (hl1 : srv.l1Enabled = false) {r : MessageReadings}
    {conn : Connection} {s : ServerState}
    (hquiet : ∀ h, (srv.serveConnection r conn s).1.1 = some h → ¬AsksHealth h.message)
    (t : ServerState) : (srv.serveConnection r conn s).1 = (srv.serveConnection r conn t).1 := by
  unfold serveConnection at hquiet ⊢
  by_cases hidle : (conn.closed || (awaits conn.unread && !conn.ended)) = true
  · rw [if_pos hidle, if_pos hidle]
  rw [if_neg hidle] at hquiet
  rw [if_neg hidle, if_neg hidle]
  obtain ⟨outcome, rest, hdecode⟩ : ∃ outcome rest, decodeBytes conn.unread = (outcome, rest) :=
    ⟨_, _, rfl⟩
  rw [hdecode] at hquiet ⊢
  cases outcome with
  | error e => rfl
  | ok msg =>
    dsimp only at hquiet ⊢
    -- the message that is read is the one that is handled
    have hmsg : ¬AsksHealth msg := by
      rw [← srv.handleMessage_message r msg s]
      refine hquiet _ ?_
      split <;> rfl
    rw [handleMessage_congr hl1 hmsg s t]
    split <;> rfl

/-! ## Runs -/

section Runs

variable {κ : Type*} [DecidableEq κ]

/-- The inputs that are about a connection. -/
def isAbout (k : κ) (i : Service.Input κ) : Bool := i.connection? = some k

/-- What is handled on a connection and what is left of it does not depend on the other connections,
as long as it does not ask for the health of the server. -/
theorem confines_service (hl1 : srv.l1Enabled = false) (k : κ) :
    (srv.service κ).Confines (isAbout k) (fun st => st.connections k) (Service.Output.handledOn k)
      fun e => ∀ h, e.output.handledOn k = some h → ¬AsksHealth h.message where
  other st i hother :=
    have hne : i.connection? ≠ some k := of_decide_eq_false hother
    ⟨service_frame srv hne, srv.service_handledOn_eq_none hne⟩
  own st st' i hown hquiet hconn := by
    cases i with
    | deliver j bytes =>
      obtain rfl : j = k := Option.some.inj (of_decide_eq_true hown)
      rw [service_deliver, service_deliver]
      exact ⟨congrArg _ hconn, rfl⟩
    | finish j =>
      obtain rfl : j = k := Option.some.inj (of_decide_eq_true hown)
      rw [service_finish, service_finish]
      exact ⟨congrArg _ hconn, rfl⟩
    | serve j r =>
      obtain rfl : j = k := Option.some.inj (of_decide_eq_true hown)
      -- a turn shows the state of the server by the answer to its message only
      have hserve := (srv.service_serve_handledOn st j r).symm
      have hcongr := serveConnection_congr hl1 (fun h hh => hquiet h (hserve ▸ hh)) st'.server
      rw [service_serve, service_serve, service_serve_handledOn, service_serve_handledOn, hcongr,
        show st.connections j = st'.connections j from hconn]
      exact ⟨rfl, rfl⟩
    | verify call c => cases of_decide_eq_true hown

/-- The messages that are handled on a connection are messages of its stream. -/
theorem message_mem_of_handledOn (srv : VerifierServer X) (inputs : List (Service.Input κ))
    {k : κ} {h : Handled} (hmem : h ∈ Service.handledOn k (srv.run inputs)) :
    h.message ∈ messages (Service.sent k inputs) := by
  obtain ⟨answered, failed, hlist, hserves⟩ := srv.exists_serves inputs k
  have hreceived : ((srv.after inputs).connections k).received = Service.sent k inputs :=
    srv.received_final (.init κ) inputs k
  have hmessages := hserves.messages []
  rw [List.append_nil, List.append_nil, hreceived] at hmessages
  rw [hmessages]
  exact List.mem_append_left _ (List.mem_map_of_mem (hlist ▸ hmem))

/-- Without an L1 key, a connection whose client does not ask for the health of the server gets the
same bytes, closes at the same turns and has the same messages handled as if there were no other
connection and no direct call: whatever the others send, and in whatever order turns are taken. What
its handler reads from outside, that is the clock, the latencies and the world of the rules, is part
of its turns, and so the same in both runs. -/
theorem connection_alone (hl1 : srv.l1Enabled = false) (inputs : List (Service.Input κ)) (k : κ)
    (hquiet : ∀ msg ∈ messages (Service.sent k inputs), ¬AsksHealth msg) :
    (srv.after inputs).connections k =
        (srv.after (inputs.filter (isAbout k))).connections k ∧
      Service.handledOn k (srv.run inputs) =
        Service.handledOn k (srv.run (inputs.filter (isAbout k))) := by
  refine (confines_service hl1 k).filter rfl fun e he h hh => ?_
  refine hquiet _ (srv.message_mem_of_handledOn inputs ?_)
  exact List.mem_filterMap.mpr ⟨e, he, hh⟩

end Runs

/-! ## Two connections -/

/-- The message of a client that asks for the list of rules. -/
def listRulesMessage : PyVal := .ofMembers [(text "type", .str (text "list_rules"))]

/-- Its frame. -/
def listRulesFrame : Bytes :=
  packUInt32 21 ++ (text "\x7b\"type\":\"list_rules\"\x7d").asciiBytes

/-- The frame is that of the message. -/
theorem encode_listRulesMessage : encode listRulesMessage = .ok listRulesFrame := by
  decide +kernel

/-- The readings of a message at time zero. -/
def messageReadingsAtZero : MessageReadings :=
  ⟨readingsAtZero, ⟨0, Representable.zero⟩, ⟨0, Representable.zero⟩⟩

/-- A client asks for the list of rules, while another asks for the health of the server. -/
def twoClients : List (Service.Input Bool) :=
  [.deliver true listRulesFrame, .deliver false healthFrame, .serve false messageReadingsAtZero,
    .verify readingsAtZero (commandFor (text "shell") (text "t1")),
    .serve true messageReadingsAtZero]

/-- It holds this message only. -/
theorem messages_listRulesFrame :
    messages listRulesFrame = [listRulesMessage.reload .compact] := by
  have hflatten := messages_flatten (.cons encode_listRulesMessage .nil)
  simpa using hflatten

/-- The message arrives with its type. -/
theorem get_type_listRulesMessage :
    (listRulesMessage.reload .compact).get (text "type") (.str []) =
      .ok (.str (text "list_rules")) := by
  have hkey : (text "type").Encodable := by decide
  have hvalue : (text "list_rules").Encodable := by decide
  rw [listRulesMessage, PyVal.get_reload (by decide)
    (List.forall_mem_singleton.mpr hkey.joinSurrogates)]
  exact congrArg (fun s => Except.ok (PyVal.str s)) hvalue.joinSurrogates

/-- The first gets the answer that it would get alone. -/
theorem connection_alone_sample : (denyingServerL0.after twoClients).connections true =
    (denyingServerL0.after [.deliver true listRulesFrame,
      .serve true messageReadingsAtZero]).connections true := by
  have hfilter : twoClients.filter (isAbout true) =
      [.deliver true listRulesFrame, .serve true messageReadingsAtZero] := rfl
  rw [← hfilter]
  refine (connection_alone rfl twoClients true fun msg hmsg => ?_).1
  have hsent : Service.sent true twoClients = listRulesFrame := List.append_nil _
  rw [hsent, messages_listRulesFrame] at hmsg
  rw [List.mem_singleton.mp hmsg]
  rintro ⟨msgType, htype, hhealth⟩
  rw [get_type_listRulesMessage] at htype
  cases htype
  exact absurd hhealth (by decide)

end VerifierServer
