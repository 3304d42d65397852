import CcsVerifier.L1.CanonicalForm
import CcsVerifier.Server.ArgsDigest

/-!
# What an accepted receipt says

A consumer that pins the key of a server and accepts a receipt holds a receipt of a call that this
server has made: unless the signature on it is a forgery, the fields of the receipt are, as JSON
values, those that the server has issued for one of its calls.

* `VerifierServer.numbers_increase`: the sequence numbers of the receipts of a run.
* `VerifierServer.Reports`: what an issued receipt says about its call.
* `VerifierServer.Unforged`: the signature on a receipt comes from the server.
* `VerifierServer.accepted_was_issued`: an accepted receipt reports a call of the run.
* `VerifierServer.accepted_same_number`: two accepted receipts with one number report one call.
* `VerifierServer.accepts_iff_first_anchor_pins`: which anchors accept the receipts of a server.
-/

/-- Being the same JSON value is transitive. -/
theorem PyVal.SameJson.trans {a b c : PyVal} (hab : a.SameJson b) (hbc : b.SameJson c) :
    a.SameJson c := by
  obtain ⟨j, ha, hb⟩ := hab
  obtain ⟨i, hb', hc⟩ := hbc
  exact ⟨j, ha, by rw [hc, ← hb', hb]⟩

namespace VerifierServer

variable {X : Externals} {srv : VerifierServer X} {κ : Type*} [DecidableEq κ]

/-! ## Numbers -/

/-- A call never puts the counter back. -/
theorem sequence_le_verify (srv : VerifierServer X) (call : CallReadings) (c : Command)
    (s : ServerState) : s.sequence ≤ (srv.verify call c s).2.sequence := by
  have hnext : s.sequence ≤ (srv.nextSequence s).sequence := by
    unfold nextSequence
    split
    · exact Nat.le_succ _
    · exact le_rfl
  -- a call that fails before it takes a number leaves the counter
  unfold verify
  split
  · exact le_rfl
  split
  · exact le_rfl
  dsimp only
  split <;> exact hnext

/-- Neither does any other step. -/
theorem sequence_le_step (srv : VerifierServer X) (st : Service κ) (i : Service.Input κ) :
    st.server.sequence ≤ ((srv.service κ).step st i).2.server.sequence := by
  obtain ⟨call, c, -, hserver⟩ | ⟨-, hserver⟩ := srv.service_call st i
  · rw [hserver]
    exact srv.sequence_le_verify call c st.server
  · rw [hserver]

/-- One of the two steps has come after the other, as the counter shows. -/
def Apart (e e' : Service.Event κ) : Prop :=
  e.after.server.sequence ≤ e'.before.server.sequence ∨
    e'.after.server.sequence ≤ e.before.server.sequence

instance : Std.Symm (Apart (κ := κ)) := ⟨fun _ _ => Or.symm⟩

/-- Along a run the counter only grows. -/
theorem apart_of_mem_run {inputs : List (Service.Input κ)} {e e' : Service.Event κ}
    (he : e ∈ srv.run inputs) (he' : e' ∈ srv.run inputs) (hne : e ≠ e') : Apart e e' := by
  have hrun := Machine.pairwise_trace (M := srv.service κ)
    (f := fun st : Service κ => st.server.sequence) srv.sequence_le_step (.init κ) inputs
  exact List.Pairwise.forall (R := Apart) (hrun.imp Or.inl) he he' hne

omit [DecidableEq κ] in
/-- What a step adds to the numbers of a run. -/
theorem number_step {e : Service.Event κ} (htakes : (∃ call, e.output.call = some call ∧
      srv.Takes call.readings call.command e.before.server call.outcome e.after.server) ∨
      (e.output.call = none ∧ e.after.server = e.before.server)) :
    (((e.output.call.bind Call.returned).bind
        (VerificationResult.l1Field .sequence)).toList = [] ∧
      e.before.server.sequence ≤ e.after.server.sequence) ∨
    (((e.output.call.bind Call.returned).bind (VerificationResult.l1Field .sequence)).toList =
        [PyVal.int (e.before.server.sequence + 1 : ℕ)] ∧
      e.after.server.sequence = e.before.server.sequence + 1) := by
  obtain ⟨call, hcall, htakes⟩ | ⟨hcall, hserver⟩ := htakes
  · rw [hcall, Option.bind_some, Call.returned]
    generalize call.outcome = outcome at htakes
    generalize e.after.server = s' at htakes ⊢
    -- only a call that returns a receipt adds a number; one that fails may use one up
    cases htakes with
    | failsBefore => exact .inl ⟨rfl, le_rfl⟩
    | failsAfter _ hsequence => exact .inl ⟨rfl, by omega⟩
    | issues _ hfield hsequence =>
      refine .inr ⟨?_, hsequence⟩
      rw [Except.toOption, Option.bind_some, hfield]
      rfl
  · rw [hcall, hserver]
    exact .inl ⟨rfl, le_rfl⟩

/-- The numbers of some receipts, up to the counter. -/
def Increasing (numbers : List PyVal) (counter : ℕ) : Prop :=
  ∃ ns : List ℕ, numbers = ns.map (fun n : ℕ => PyVal.int n) ∧ ns.Pairwise (· < ·) ∧
    ∀ n ∈ ns, 1 ≤ n ∧ n ≤ counter

/-- The counter may be ahead of the numbers. -/
theorem Increasing.mono {numbers : List PyVal} {m n : ℕ} (h : Increasing numbers m) (hle : m ≤ n) :
    Increasing numbers n := by
  obtain ⟨ns, hnumbers, hsorted, hbound⟩ := h
  exact ⟨ns, hnumbers, hsorted, fun k hk => ⟨(hbound k hk).1, (hbound k hk).2.trans hle⟩⟩

/-- The next number extends them. -/
theorem Increasing.concat {numbers : List PyVal} {n : ℕ} (h : Increasing numbers n) :
    Increasing (numbers ++ [.int (n + 1 : ℕ)]) (n + 1) := by
  obtain ⟨ns, hnumbers, hsorted, hbound⟩ := h
  refine ⟨ns ++ [n + 1], ?_, ?_, fun k hk => ?_⟩
  · rw [hnumbers, List.map_append, List.map_singleton]
  · rw [List.pairwise_append]
    refine ⟨hsorted, List.pairwise_singleton _ _, fun k hk m hm => ?_⟩
    rw [List.mem_singleton.mp hm]
    exact Nat.lt_succ_of_le (hbound k hk).2
  · obtain hk | hk := List.mem_append.mp hk
    · exact ⟨(hbound k hk).1, (hbound k hk).2.trans (Nat.le_succ n)⟩
    · rw [List.mem_singleton.mp hk]
      exact ⟨Nat.succ_pos n, le_rfl⟩

/-- In every run of a server with an L1 key, over any connections and with calls that fail, the
numbers of the issued receipts increase strictly, so that no two receipts share one. -/
theorem numbers_increase (hjcs : X.JcsAccepts) (hl1 : srv.l1Enabled = true)
    (inputs : List (Service.Input κ)) (hjson : JsonCalls inputs) :
    Increasing (issuedSequences (srv.run inputs)) (srv.after inputs).server.sequence := by
  obtain ⟨key, hkey⟩ := Option.isSome_iff_exists.mp hl1
  refine Machine.run_induction_of_guard (s := Service.init κ)
    (P := fun run st => Increasing (issuedSequences run) st.server.sequence)
    (G := fun e => (∃ call, e.output.call = some call ∧
      srv.Takes call.readings call.command e.before.server call.outcome e.after.server) ∨
      (e.output.call = none ∧ e.after.server = e.before.server))
    ⟨[], rfl, .nil, by simp⟩ ?_ inputs fun e he => takes_of_mem_run hjcs hkey hjson he
  intro past st i hpast hguard
  rw [issuedSequences_concat]
  -- a call that issues no receipt may still use up a number
  obtain ⟨hnone, hle⟩ | ⟨hadd, hsequence⟩ := number_step hguard
  · rw [hnone, List.append_nil]
    exact hpast.mono hle
  · rw [hadd, show ((srv.service κ).step st i).2.server.sequence = st.server.sequence + 1 from
      hsequence]
    exact hpast.concat

/-- A call that takes a number without a receipt, and one that issues the next. -/
def callsWithHole : List (Service.Input Unit) :=
  [callInTime unsafeCommand, callInTime (commandFor (text "shell") (text "t1"))]

/-- The two commands are made of JSON values. -/
theorem jsonCalls_callsWithHole : JsonCalls callsWithHole := by
  have hjson : ∀ c ∈ [unsafeCommand, commandFor (text "shell") (text "t1")], c.IsJson := by
    simp [isJson_unsafeCommand, (fromWire_commandFor (text "shell") (text "t1")).isJson]
  exact jsonCalls_callInTime hjson

/-- The number that was used up is left out. -/
theorem numbers_increase_sample :
    Increasing (issuedSequences (denyingServerL1.run callsWithHole))
      (denyingServerL1.after callsWithHole).server.sequence :=
  numbers_increase (SignatureRecord.jcsAccepts _) rfl callsWithHole jsonCalls_callsWithHole

/-! ## What a receipt says about its call -/

/-- The receipt reports a call with its result: what was asked for, what was decided, and which
number the receipt has. -/
structure Reports (srv : VerifierServer X) (call : Call) (v : VerificationResult) (number : ℕ)
    (r : L1Receipt) : Prop where
  /-- The trace identifier of the command. -/
  traceId : r.attr .traceId = call.command.traceId
  /-- The tool of the command. -/
  tool : r.attr .tool = call.command.tool
  /-- The digest of the parameters of the command. -/
  argsDigest : ∃ t, X.computeHash call.command.params = .ok t ∧ r.attr .argsDigest = .str t
  /-- The hash of the whole request. -/
  requestHash : ∃ t, X.computeHash (requestData call.command) = .ok t ∧
    r.attr .requestHash = .str t
  /-- The verdict of the result. -/
  verdict : r.attr .verdict = .str v.verdict.value
  /-- The action that the verdict is named in. -/
  action : r.attr .action = .str (text "ccs.verify." ++ v.verdict.value)
  /-- The rules that were evaluated, with their verdicts. -/
  ruleSummary : r.attr .ruleSummary = .str (ruleSummary X v.ruleResults)
  /-- The issuer is the server. -/
  issuer : r.attr .issuer = .str srv.issuer
  /-- The number that the call has taken. -/
  sequence : r.attr .sequence = .int number

/-- The receipt that a call of `verify` returns reports it, and holds JSON values. -/
theorem exists_reports {key : Bytes} (hjcs : X.JcsAccepts) (hkey : srv.l1SigningKey = some key)
    {readings : CallReadings} {c : Command} {s s' : ServerState} {v : VerificationResult}
    (hjson : c.IsJson) (hverify : srv.verify readings c s = (.ok v, s')) :
    ∃ r, v.l1Receipt = some (L1Receipt.toDict r) ∧ (∀ f, (r.attr f).IsJson) ∧
      srv.Reports ⟨readings, c, .ok v⟩ v (s.sequence + 1) r := by
  obtain ⟨loop, _, _, _, hloop, -, -, hv, -⟩ := verify_eq_ok_iff.mp hverify
  obtain ⟨r, hreceipt⟩ := exists_l1Receipt hkey hverify
  obtain ⟨paramsHash, parts, r', hr', h⟩ := exists_issued hkey hverify hloop hreceipt
  obtain rfl := L1Receipt.toDict_injective hr'
  rw [srv.sequence_nextSequence hkey s] at h
  have hverdict : v.verdict = loop.finalVerdict := by rw [hv, resultOf]
  have hresults : v.ruleResults = loop.results := by rw [hv, resultOf]
  -- alignment and signing set the timestamps and the signature fields only
  have hattr : ∀ {f : ReceiptField}, f.isSignature = false → f ≠ .timestamp → f ≠ .verifiedAt →
      r.attr f = (srv.l1Draft readings c loop paramsHash (s.sequence + 1) parts).attr f :=
    fun hs ht hv => h.attr_eq hs ht hv
  refine ⟨r, hreceipt, fun f => ?_, ?_⟩
  · refine (L1Receipt.isJson_of_signL1Receipt hjcs h.signed (fun g _ => ?_) f).1
    have hissued : (srv.l1Draft readings c loop paramsHash (s.sequence + 1) parts).attr .issuedAt =
        .float (srv.issueTime readings) := h.hasParts.issuedAt
    rcases L1Receipt.attr_aligned_or hissued (.fin readings.defaults.timestamp) g with heq | heq <;>
      rw [heq]
    · exact l1Draft_isJson hjson h.hasParts g
    · exact l1Draft_isJson hjson h.hasParts .issuedAt
  · exact {
      traceId := hattr rfl (by decide) (by decide)
      tool := hattr rfl (by decide) (by decide)
      argsDigest := ⟨_, h.hasParts.argsDigest, hattr rfl (by decide) (by decide)⟩
      requestHash := ⟨_, h.hasParts.requestHash, hattr rfl (by decide) (by decide)⟩
      verdict := by rw [hverdict]; exact hattr rfl (by decide) (by decide)
      action := by rw [hverdict]; exact hattr rfl (by decide) (by decide)
      ruleSummary := by rw [hresults]; exact hattr rfl (by decide) (by decide)
      issuer := hattr rfl (by decide) (by decide)
      sequence := hattr rfl (by decide) (by decide) }

/-! ## Authenticity -/

/-- A receipt that a call of the run has returned, with the call and its result. -/
structure Returns (srv : VerifierServer X) (inputs : List (Service.Input κ)) (e : Service.Event κ)
    (call : Call) (v : VerificationResult) (r : L1Receipt) : Prop where
  /-- The step belongs to the run. -/
  mem : e ∈ srv.run inputs
  /-- It makes the call. -/
  hasCall : e.output.call = some call
  /-- The call returns the result. -/
  returned : call.returned = some v
  /-- The result carries the receipt. -/
  l1Receipt : v.l1Receipt = some (L1Receipt.toDict r)

/-- The signature on this receipt is no forgery: if it verifies under the key, then the bytes that
it verifies on are those of a receipt that the run has returned. This is what an unforgeable scheme
promises of a receipt that is made without the seed of the server; of other signatures and bytes
nothing is said. -/
def Unforged (srv : VerifierServer X) (inputs : List (Service.Input κ)) (key : Bytes)
    (t : L1Receipt) : Prop :=
  ∀ sig payload, t.VerifiesWith X key sig payload →
    ∃ e call v r, srv.Returns inputs e call v r ∧ r.signingPayload X = .ok payload

/-- Under every scheme the receipts of the run are unforged, and so is any receipt with their
bytes. -/
theorem Returns.unforged {inputs : List (Service.Input κ)} {e : Service.Event κ} {call : Call}
    {v : VerificationResult} {r t : L1Receipt} (h : srv.Returns inputs e call v r)
    (hpayload : t.signingPayload X = r.signingPayload X) (key : Bytes) :
    srv.Unforged inputs key t := fun _ _ hverifies =>
  ⟨e, call, v, r, h, hpayload.symm.trans hverifies.signingPayload⟩

/-- A returned receipt reports its call. -/
theorem Returns.reports {key : Bytes} (hjcs : X.JcsAccepts) (hkey : srv.l1SigningKey = some key)
    {inputs : List (Service.Input κ)} (hjson : JsonCalls inputs) {e : Service.Event κ} {call : Call}
    {v : VerificationResult} {r : L1Receipt} (h : srv.Returns inputs e call v r) :
    (∀ f, (r.attr f).IsJson) ∧ srv.Reports call v (e.before.server.sequence + 1) r := by
  have hverify := exists_verify_of_mem_run h.mem h.hasCall h.returned
  have hcommand : call.command.IsJson := by
    obtain ⟨st, i, hi, rfl⟩ := Machine.exists_of_mem_trace _ h.mem
    exact isJson_of_call (fun readings c heq => hjson readings c (heq ▸ hi)) h.hasCall
  obtain ⟨r', hr', hfields, hreports⟩ := exists_reports hjcs hkey hcommand hverify
  obtain rfl := L1Receipt.toDict_injective (Option.some.inj (h.l1Receipt.symm.trans hr'))
  exact ⟨hfields, { hreports with }⟩

/-- The anchors that a consumer looks up for the receipt pin the key. -/
def PinsKey (X : Externals) (anchors : List TrustAnchor) (t : L1Receipt) (key : Bytes) : Prop :=
  ∀ a, anchors.find? t.matchesAnchor = some a → a.publicKeyBytes X = .ok key

/-- A receipt that verifies under the key of the server holds, in every signed field, the JSON value
of a receipt that a call of the run has returned. -/
theorem exists_returns_of_verifiesWith {key : Bytes} (hjcs : X.JcsConforms)
    (hkey : srv.l1SigningKey = some key) {inputs : List (Service.Input κ)}
    (hjson : JsonCalls inputs) {t : L1Receipt}
    (hunforged : srv.Unforged inputs (X.ed25519.publicKey key) t) {sig payload : Bytes}
    (ht : t.SignedFieldsAreJson)
    (hverifies : t.VerifiesWith X (X.ed25519.publicKey key) sig payload) :
    ∃ e call v r, srv.Returns inputs e call v r ∧
      srv.Reports call v (e.before.server.sequence + 1) r ∧
      ∀ f ≠ ReceiptField.signature, (r.attr f).SameJson (t.attr f).plain := by
  obtain ⟨e, call, v, r, hreturns, hpayload⟩ := hunforged sig payload hverifies
  obtain ⟨hfields, hreports⟩ := hreturns.reports hjcs.accepts hkey hjson
  -- what verifies has been signed, and signed bytes determine the fields
  have hsame := (L1Receipt.signingPayload_eq_iff hjcs
    (fun f _ => (hfields f).plain.symm ▸ hfields f) ht hpayload hverifies.signingPayload).mp rfl
  refine ⟨e, call, v, r, hreturns, hreports, fun f hf => ?_⟩
  rw [← (hfields f).plain]
  exact hsame f hf

/-- An accepted receipt holds, in every signed field, the JSON value of a receipt that a call of the
run has returned. -/
theorem exists_returns_of_accepts {key : Bytes} (hjcs : X.JcsConforms)
    (hkey : srv.l1SigningKey = some key) {inputs : List (Service.Input κ)}
    (hjson : JsonCalls inputs) {t : L1Receipt}
    (hunforged : srv.Unforged inputs (X.ed25519.publicKey key) t) {clock : FiniteBinary64}
    {anchors : List TrustAnchor} {now : Option PyNum} (ht : t.SignedFieldsAreJson)
    (hpins : PinsKey X anchors t (X.ed25519.publicKey key))
    (haccepts : t.Accepts X clock anchors now) :
    ∃ e call v r, srv.Returns inputs e call v r ∧
      srv.Reports call v (e.before.server.sequence + 1) r ∧
      ∀ f ≠ ReceiptField.signature, (r.attr f).SameJson (t.attr f).plain := by
  obtain ⟨d, hd⟩ := haccepts
  obtain ⟨-, hverify, -, a, pinned, ha, hpin⟩ := L1Receipt.evaluateTrust_accepts_iff.mp hd
  obtain ⟨embedded, sig, payload, hembedded, hverifies⟩ :=
    L1Receipt.verifySignature_none_eq_true_iff.mp hverify
  -- the embedded key is the pinned one, which is the key of the server
  obtain ⟨-, hdecoded, -, -⟩ := L1Receipt.embeddedKey_eq_some_iff.mp hembedded
  obtain rfl : pinned = embedded := Except.ok.inj (hpin.embedded.symm.trans hdecoded)
  obtain rfl : pinned = X.ed25519.publicKey key :=
    Except.ok.inj (hpin.pinned.symm.trans (hpins a ha))
  exact exists_returns_of_verifiesWith hjcs hkey hjson hunforged ht hverifies

/-- What an accepted receipt tells a consumer about a call: every field that is signed is the one of
a receipt that the call has returned. -/
structure Vouches (srv : VerifierServer X) (inputs : List (Service.Input κ)) (t : L1Receipt)
    (e : Service.Event κ) (call : Call) (v : VerificationResult) : Prop where
  /-- The call belongs to the run. -/
  mem : e ∈ srv.run inputs
  /-- It was made by this step. -/
  hasCall : e.output.call = some call
  /-- It has returned the result. -/
  returned : call.returned = some v
  /-- The command had this trace identifier. -/
  traceId : call.command.traceId.SameJson (t.attr .traceId).plain
  /-- The command was for this tool. -/
  tool : call.command.tool.SameJson (t.attr .tool).plain
  /-- The parameters of the command have this digest. -/
  argsDigest : ∃ h, X.computeHash call.command.params = .ok h ∧ (t.attr .argsDigest).plain = .str h
  /-- The whole request has this hash. -/
  requestHash : ∃ h, X.computeHash (requestData call.command) = .ok h ∧
    (t.attr .requestHash).plain = .str h
  /-- The server has decided so. -/
  verdict : (t.attr .verdict).plain = .str v.verdict.value
  /-- The rules have said so. -/
  ruleSummary : (t.attr .ruleSummary).plain = .str (ruleSummary X v.ruleResults)
  /-- The issuer is the server. -/
  issuer : (t.attr .issuer).plain = .str srv.issuer
  /-- The call has taken this number. -/
  sequence : (PyVal.int (e.before.server.sequence + 1 : ℕ)).SameJson (t.attr .sequence).plain
  /-- Every signed field is that of the returned receipt. -/
  fields : ∃ r, v.l1Receipt = some (L1Receipt.toDict r) ∧
    ∀ f ≠ ReceiptField.signature, (r.attr f).SameJson (t.attr f).plain

/-- The call that has returned a receipt vouches for every receipt with the same signed fields. -/
theorem Returns.vouches {inputs : List (Service.Input κ)} {e : Service.Event κ} {call : Call}
    {v : VerificationResult} {r t : L1Receipt} (hreturns : srv.Returns inputs e call v r)
    (ht : t.SignedFieldsAreJson) (hreports : srv.Reports call v (e.before.server.sequence + 1) r)
    (hsame : ∀ f ≠ ReceiptField.signature, (r.attr f).SameJson (t.attr f).plain) :
    srv.Vouches inputs t e call v := by
  -- a string is the same JSON value as itself only
  have hstr : ∀ {f : ReceiptField} {s : Text}, f ≠ .signature → r.attr f = .str s →
      (t.attr f).plain = .str s := fun {f s} hf hs =>
    PyVal.eq_str_of_sameJson (ht f hf) (hs ▸ hsame f hf)
  obtain ⟨digest, hdigest, hargs⟩ := hreports.argsDigest
  obtain ⟨hash, hhash, hrequest⟩ := hreports.requestHash
  exact {
    mem := hreturns.mem
    hasCall := hreturns.hasCall
    returned := hreturns.returned
    traceId := hreports.traceId ▸ hsame .traceId (by decide)
    tool := hreports.tool ▸ hsame .tool (by decide)
    argsDigest := ⟨digest, hdigest, hstr (by decide) hargs⟩
    requestHash := ⟨hash, hhash, hstr (by decide) hrequest⟩
    verdict := hstr (by decide) hreports.verdict
    ruleSummary := hstr (by decide) hreports.ruleSummary
    issuer := hstr (by decide) hreports.issuer
    sequence := hreports.sequence ▸ hsame .sequence (by decide)
    fields := ⟨r, hreturns.l1Receipt, hsame⟩ }

/-- Every receipt that a consumer with the key of a server pinned accepts, at whatever time, is
vouched for by a call of the run of that server, unless it carries a forged signature. -/
theorem accepted_was_issued {key : Bytes} (hjcs : X.JcsConforms)
    (hkey : srv.l1SigningKey = some key) {inputs : List (Service.Input κ)}
    (hjson : JsonCalls inputs) {t : L1Receipt}
    (hunforged : srv.Unforged inputs (X.ed25519.publicKey key) t) {clock : FiniteBinary64}
    {anchors : List TrustAnchor} {now : Option PyNum} (ht : t.SignedFieldsAreJson)
    (hpins : PinsKey X anchors t (X.ed25519.publicKey key))
    (haccepts : t.Accepts X clock anchors now) : ∃ e call v, srv.Vouches inputs t e call v := by
  obtain ⟨e, call, v, r, hreturns, hreports, hsame⟩ :=
    exists_returns_of_accepts hjcs hkey hjson hunforged ht hpins haccepts
  exact ⟨e, call, v, hreturns.vouches ht hreports hsame⟩

/-- A call that returns a receipt uses up its number. -/
theorem Returns.sequence {key : Bytes} (hjcs : X.JcsAccepts) (hkey : srv.l1SigningKey = some key)
    {inputs : List (Service.Input κ)} (hjson : JsonCalls inputs) {e : Service.Event κ} {call : Call}
    {v : VerificationResult} {r : L1Receipt} (h : srv.Returns inputs e call v r) :
    e.after.server.sequence = e.before.server.sequence + 1 := by
  obtain ⟨call', hcall', htakes⟩ | ⟨hnone, -⟩ := takes_of_mem_run hjcs hkey hjson h.mem
  · obtain rfl : call = call' := Option.some.inj (h.hasCall.symm.trans hcall')
    have hreturned := h.returned
    rw [Call.returned] at hreturned
    cases houtcome : call.outcome with
    | error err =>
      rw [houtcome] at hreturned
      cases hreturned
    | ok w => exact (htakes.of_eq_ok houtcome).2.2
  · cases h.hasCall.symm.trans hnone

/-- Two calls that return receipts under one number are one call. -/
theorem Returns.eq_of_sequence_eq {key : Bytes} (hjcs : X.JcsAccepts)
    (hkey : srv.l1SigningKey = some key) {inputs : List (Service.Input κ)}
    (hjson : JsonCalls inputs)
    {e₁ e₂ : Service.Event κ} {call₁ call₂ : Call} {v₁ v₂ : VerificationResult} {r₁ r₂ : L1Receipt}
    (h₁ : srv.Returns inputs e₁ call₁ v₁ r₁) (h₂ : srv.Returns inputs e₂ call₂ v₂ r₂)
    (hsequence : e₁.before.server.sequence = e₂.before.server.sequence) : r₁ = r₂ := by
  -- of two calls the later one starts with the number that the other has used up
  have hevents : e₁ = e₂ := by
    by_contra hne
    have hnext₁ := h₁.sequence hjcs hkey hjson
    have hnext₂ := h₂.sequence hjcs hkey hjson
    obtain h | h := apart_of_mem_run h₁.mem h₂.mem hne <;> omega
  subst hevents
  obtain rfl : call₁ = call₂ := Option.some.inj (h₁.hasCall.symm.trans h₂.hasCall)
  obtain rfl : v₁ = v₂ := Option.some.inj (h₁.returned.symm.trans h₂.returned)
  exact L1Receipt.toDict_injective (Option.some.inj (h₁.l1Receipt.symm.trans h₂.l1Receipt))

/-- Two receipts that consumers with the key pinned accept under one sequence number hold the same
JSON value in every signed field, unless one of them carries a forged signature. -/
theorem accepted_same_number {key : Bytes} (hjcs : X.JcsConforms)
    (hkey : srv.l1SigningKey = some key) {inputs : List (Service.Input κ)}
    (hjson : JsonCalls inputs) {t₁ t₂ : L1Receipt}
    (hunforged₁ : srv.Unforged inputs (X.ed25519.publicKey key) t₁)
    (hunforged₂ : srv.Unforged inputs (X.ed25519.publicKey key) t₂)
    {clock₁ clock₂ : FiniteBinary64} {anchors₁ anchors₂ : List TrustAnchor}
    {now₁ now₂ : Option PyNum}
    (ht₁ : t₁.SignedFieldsAreJson) (ht₂ : t₂.SignedFieldsAreJson)
    (hpins₁ : PinsKey X anchors₁ t₁ (X.ed25519.publicKey key))
    (hpins₂ : PinsKey X anchors₂ t₂ (X.ed25519.publicKey key))
    (haccepts₁ : t₁.Accepts X clock₁ anchors₁ now₁) (haccepts₂ : t₂.Accepts X clock₂ anchors₂ now₂)
    (hsequence : (t₁.attr .sequence).plain.SameJson (t₂.attr .sequence).plain) :
    ∀ f ≠ ReceiptField.signature, (t₁.attr f).plain.SameJson (t₂.attr f).plain := by
  obtain ⟨e₁, call₁, v₁, r₁, hreturns₁, hreports₁, hsame₁⟩ :=
    exists_returns_of_accepts hjcs hkey hjson hunforged₁ ht₁ hpins₁ haccepts₁
  obtain ⟨e₂, call₂, v₂, r₂, hreturns₂, hreports₂, hsame₂⟩ :=
    exists_returns_of_accepts hjcs hkey hjson hunforged₂ ht₂ hpins₂ haccepts₂
  -- the two returned receipts carry the numbers of their calls
  have hnumbers : (r₁.attr .sequence).SameJson (r₂.attr .sequence) :=
    ((hsame₁ .sequence (by decide)).trans hsequence).trans
      (PyVal.sameJson_comm.mp (hsame₂ .sequence (by decide)))
  rw [hreports₁.sequence, hreports₂.sequence] at hnumbers
  obtain ⟨j, hj₁, hj₂⟩ := hnumbers
  have hcast := JsonValue.num.inj (Option.some.inj (hj₁.trans hj₂.symm))
  -- a number is used once, so they come from one call
  have heq : r₁ = r₂ := hreturns₁.eq_of_sequence_eq hjcs.accepts hkey hjson hreturns₂ (by
    have hint : ((e₁.before.server.sequence + 1 : ℕ) : ℤ) =
        (e₂.before.server.sequence + 1 : ℕ) := by
      exact_mod_cast hcast
    omega)
  subst heq
  exact fun f hf => (PyVal.sameJson_comm.mp (hsame₁ f hf)).trans (hsame₂ f hf)

/-! ## Anchors -/

/-- Among the anchors of the issuer the first pins the key. -/
def FirstPins (srv : VerifierServer X) (anchors : List TrustAnchor) (key : Bytes) : Prop :=
  ∃ a, anchors.find? (fun a => srv.issuer == a.issuer) = some a ∧ a.publicKeyBytes X = .ok key ∧
    a.publicKeyFingerprint = X.publicKeyFingerprint key

/-- A returned receipt was issued for its call. -/
theorem Returns.exists_issued {key : Bytes} (hkey : srv.l1SigningKey = some key)
    {inputs : List (Service.Input κ)} {e : Service.Event κ} {call : Call} {v : VerificationResult}
    {r : L1Receipt} (h : srv.Returns inputs e call v r) : ∃ loop paramsHash sequence parts,
      srv.Issued call.readings call.command loop key paramsHash sequence parts r := by
  have hverify := exists_verify_of_mem_run h.mem h.hasCall h.returned
  obtain ⟨loop, paramsHash, parts, r', hr', hissued⟩ := exists_issued_of_verify hkey hverify
  obtain rfl := L1Receipt.toDict_injective (Option.some.inj (h.l1Receipt.symm.trans hr'))
  exact ⟨loop, paramsHash, _, parts, hissued⟩

/-- An accepted receipt of the server has the key pinned by the first anchor of the issuer. -/
theorem Issued.firstPins {readings : CallReadings} {c : Command} {loop : RuleLoop} {key : Bytes}
    {paramsHash : Text} {sequence : ℕ} {parts : L1Parts} {r : L1Receipt}
    (h : srv.Issued readings c loop key paramsHash sequence parts r) {clock : FiniteBinary64}
    {anchors : List TrustAnchor} {now : Option PyNum} (haccepts : r.Accepts X clock anchors now) :
    srv.FirstPins anchors (X.ed25519.publicKey key) := by
  obtain ⟨d, hd⟩ := haccepts
  obtain ⟨-, -, -, a, pinned, ha, hpin⟩ := L1Receipt.evaluateTrust_accepts_iff.mp hd
  have hmatches : r.matchesAnchor = fun a => srv.issuer == a.issuer := by
    funext a
    rw [L1Receipt.matchesAnchor, h.attr_eq rfl (by decide) (by decide)]
    rfl
  -- the receipt embeds the key that it was signed with
  obtain ⟨-, payload, -, hr⟩ := signL1Receipt_eq_ok_iff.mp h.signed
  have hembedded := hpin.embedded
  have hfingerprint := hpin.fingerprint
  rw [hr] at hembedded hfingerprint
  obtain rfl : X.ed25519.publicKey key = pinned :=
    Except.ok.inj ((X.b64decode_b64encode _).symm.trans hembedded)
  exact ⟨a, hmatches ▸ ha, hpin.pinned, (PyVal.str.inj hfingerprint).symm⟩

/-- Whichever anchors a consumer has, the receipts that a server returns in a run are never accepted
unless the first anchor of the issuer pins the key of the server, and if it does they are, during
their validity. A consumer that adds an anchor for a new key behind the one for the old key accepts
nothing that is signed with the new key. -/
theorem accepts_iff_first_anchor_pins {key : Bytes} (hkey : srv.l1SigningKey = some key)
    {inputs : List (Service.Input κ)} {e : Service.Event κ} {call : Call} {v : VerificationResult}
    {r : L1Receipt} (hreturns : srv.Returns inputs e call v r)
    (hsigns : ∀ p, r.signingPayload X = .ok p → X.ed25519.SignsCorrectly key p)
    (clock : FiniteBinary64) (anchors : List TrustAnchor) :
    (∀ now, r.Accepts X clock anchors now → srv.FirstPins anchors (X.ed25519.publicKey key)) ∧
    ∃ limit, (r.attr .expiresAt).add (r.attr .maxClockSkew) = .ok limit ∧
      ∀ now : PyNum, (r.attr .issuedAt).le now.toVal = .ok true →
        now.toVal.le limit = .ok true →
        (r.Accepts X clock anchors (some now) ↔
          srv.FirstPins anchors (X.ed25519.publicKey key)) := by
  obtain ⟨loop, paramsHash, sequence, parts, hissued⟩ := hreturns.exists_issued hkey
  obtain ⟨hself, -⟩ := L1Receipt.verifySignature_of_signL1Receipt hissued.signed hsigns
  obtain ⟨limit, hlimit, haccepted⟩ := hissued.accepted hself
  refine ⟨fun now => hissued.firstPins, limit, hlimit, fun now hfrom hto => ?_⟩
  -- before the expiry nothing but the first matching anchor decides
  constructor
  · exact hissued.firstPins
  · rintro ⟨a, ha, hbytes, hfingerprint⟩
    exact haccepted clock anchors a now ha hbytes hfingerprint hfrom hto

/-! ## An accepted receipt -/

/-- One call of the denying server, at the reference time. -/
def oneCallInTime : List (Service.Input Unit) :=
  [callInTime (commandFor (text "shell") (text "t1"))]

/-- The anchor that pins the key of the denying server. -/
def deniedAnchor : TrustAnchor where
  issuer := text "ccs-verifier"
  publicKeyRawB64 := b64encode deniedRecord.publicKey
  publicKeyFingerprint := deniedRecord.externals.publicKeyFingerprint deniedRecord.publicKey

/-- The command is made of JSON values. -/
theorem jsonCalls_oneCallInTime : JsonCalls oneCallInTime :=
  jsonCalls_callInTime (List.forall_mem_singleton.mpr (fromWire_commandFor _ _).isJson)

/-- The call that such a step makes. -/
theorem call_callInTime (srv : VerifierServer X) (st : Service Unit) (c : Command) :
    ((srv.service Unit).event st (callInTime c)).output.call =
      some ⟨readingsInTime, c, (srv.verify readingsInTime c st.server).1⟩ := rfl

/-- Whole seconds are compared as integers, whichever of the two is a float. -/
theorem le_ofSmallInt {a b : ℤ} (hb : |b| < 2 ^ 53) (h : a ≤ b) :
    PyNum.le (.int a) (.float (.ofSmallInt b hb)) = true := by
  refine decide_eq_true (WithBot.coe_le_coe.mpr (WithTop.coe_le_coe.mpr ?_))
  change (a : ℚ) ≤ (b : ℚ)
  exact_mod_cast h

/-- The same for a float that is compared with an integer. -/
theorem ofSmallInt_le {a b : ℤ} (ha : |a| < 2 ^ 53) (h : a ≤ b) :
    PyNum.le (.float (.ofSmallInt a ha)) (.int b) = true := by
  refine decide_eq_true (WithBot.coe_le_coe.mpr (WithTop.coe_le_coe.mpr ?_))
  change (a : ℚ) ≤ (b : ℚ)
  exact_mod_cast h

/-- The server returns the receipt that the recorded signature is on. -/
theorem exists_returns_oneCallInTime : ∃ e call v r,
    denyingServerL1.Returns oneCallInTime e call v r ∧
      r.signingPayload deniedRecord.externals = .ok deniedRecord.message ∧
      r.Accepts deniedRecord.externals ⟨0, Representable.zero⟩ [deniedAnchor]
        (some (.int 1893456000)) := by
  obtain ⟨v, s', d, hverify, hreceipt⟩ := verify_denyingServerL1
    (by decide : (text "shell").Encodable) (by decide : (text "t1").Encodable)
    (by decide : ServerState.init.sequence < maxSafeInteger)
  obtain ⟨paramsHash, parts, r, rfl, h⟩ :=
    exists_issued rfl hverify (evaluateRules_denyAll _ _) hreceipt
  have hpayload := signingPayload_deniedReceipt h.signL1Receipt_deniedReceipt
  obtain ⟨hself, -⟩ := L1Receipt.verifySignature_of_signL1Receipt h.signed fun p hp => by
    rw [hpayload] at hp
    cases hp
    exact SignatureRecord.signsCorrectly _
  obtain ⟨limit, hlimit, haccepted⟩ := h.accepted hself
  have hkey : deniedRecord.externals.ed25519.publicKey deniedRecord.seed = deniedRecord.publicKey :=
    SignatureRecord.publicKey_scheme _
  refine ⟨_, ⟨readingsInTime, commandFor (text "shell") (text "t1"), .ok v⟩, v, r,
    ⟨List.mem_cons_self, ?_, rfl, hreceipt⟩, hpayload,
    haccepted _ _ deniedAnchor _ rfl ?_ ?_ ?_ ?_⟩
  · have hok : (denyingServerL1.verify readingsInTime (commandFor (text "shell") (text "t1"))
        .init).1 = .ok v := congrArg Prod.fst hverify
    exact (call_callInTime denyingServerL1 _ _).trans (by rw [← hok]; rfl)
  · rw [hkey]
    exact Externals.b64decode_b64encode _ _
  · rw [hkey]
    rfl
  -- the consumer reads its clock at the time of issue
  · rw [h.issuedAt, issueTime_denyingServerL1]
    exact PyVal.compare_eq_ok_iff.mpr ⟨.float _, .int _, rfl, PyVal.num?_toVal _,
      ofSmallInt_le _ (by norm_num)⟩
  · rw [h.expiresAt, h.maxClockSkew, expiry_readingsInTime] at hlimit
    have hsum : (PyVal.float (.ofSmallInt 1893456300 (by norm_num))).add
        denyingServerL1.clockSkewBound.toVal =
          .ok (.float (.ofSmallInt 1893456305 (by norm_num))) :=
      congrArg (fun x => Except.ok (PyVal.float x))
        (Binary64.add_ofSmallInt (by norm_num) (by norm_num) (by norm_num) (by norm_num))
    obtain rfl := Except.ok.inj (hlimit.symm.trans hsum)
    exact PyVal.compare_eq_ok_iff.mpr ⟨.int _, .float _, PyVal.num?_toVal _, rfl,
      le_ofSmallInt _ (by norm_num)⟩

/-- The anchor pins the key of the server for every receipt. -/
theorem pinsKey_deniedAnchor (t : L1Receipt) : PinsKey deniedRecord.externals [deniedAnchor] t
    (deniedRecord.externals.ed25519.publicKey deniedRecord.seed) := by
  intro a ha
  obtain rfl := List.mem_singleton.mp (List.mem_of_find?_eq_some ha)
  have hkey : deniedRecord.externals.ed25519.publicKey deniedRecord.seed = deniedRecord.publicKey :=
    SignatureRecord.publicKey_scheme _
  rw [hkey]
  exact Externals.b64decode_b64encode _ _

/-- The fields of the receipt are JSON values. -/
theorem signedFieldsAreJson_oneCallInTime {e : Service.Event Unit} {call : Call}
    {v : VerificationResult} {r : L1Receipt}
    (h : denyingServerL1.Returns oneCallInTime e call v r) : r.SignedFieldsAreJson := by
  obtain ⟨hfields, -⟩ := h.reports (SignatureRecord.jcsAccepts _) rfl jsonCalls_oneCallInTime
  exact fun f _ => (hfields f).plain.symm ▸ hfields f

/-- A consumer accepts the receipt of the denied call, which vouches for it. -/
theorem accepted_was_issued_sample : ∃ t e call v,
    t.Accepts deniedRecord.externals ⟨0, Representable.zero⟩ [deniedAnchor]
      (some (.int 1893456000)) ∧ denyingServerL1.Vouches oneCallInTime t e call v := by
  obtain ⟨e, call, v, r, hreturns, -, haccepts⟩ := exists_returns_oneCallInTime
  obtain ⟨e', call', v', hvouches⟩ := accepted_was_issued
    (Externals.jcsConforms_externals deniedRecord) rfl jsonCalls_oneCallInTime
    (hreturns.unforged rfl _) (signedFieldsAreJson_oneCallInTime hreturns) (pinsKey_deniedAnchor r)
    haccepts
  exact ⟨r, e', call', v', haccepts, hvouches⟩

/-- The check meets the sequence number of a receipt in the signed bytes only. -/
theorem evaluateTrust_set_sequence {r : L1Receipt} {v : PyVal}
    (hpayload : (r.set .sequence v).signingPayload X = r.signingPayload X) (clock : FiniteBinary64)
    (anchors : List TrustAnchor) (now : Option PyNum) :
    evaluateTrust X clock (r.set .sequence v) anchors now =
      evaluateTrust X clock r anchors now := by
  have hverify : (r.set .sequence v).verifySignature X none = r.verifySignature X none := by
    unfold L1Receipt.verifySignature
    rw [hpayload]
    rfl
  unfold evaluateTrust
  rw [hverify]
  rfl

/-- The number 1 as a float. -/
def floatOne : PyVal := .float (.ofSmallInt 1 L1Receipt.abs_oneSecond_lt)

/-- The receipt as it was returned, and the same receipt with its number spelled as a float: both
are accepted. -/
theorem accepted_same_number_sample : ∃ t₁ t₂ : L1Receipt,
    t₁.attr .sequence = .int 1 ∧ t₂.attr .sequence = floatOne ∧
    t₁.Accepts deniedRecord.externals ⟨0, Representable.zero⟩ [deniedAnchor]
      (some (.int 1893456000)) ∧
    t₂.Accepts deniedRecord.externals ⟨0, Representable.zero⟩ [deniedAnchor]
      (some (.int 1893456000)) ∧
    ∀ f ≠ ReceiptField.signature, (t₁.attr f).plain.SameJson (t₂.attr f).plain := by
  obtain ⟨e, call, v, r, hreturns, hpayload, haccepts⟩ := exists_returns_oneCallInTime
  have hjcs := Externals.jcsConforms_externals deniedRecord
  have hfields := signedFieldsAreJson_oneCallInTime hreturns
  obtain ⟨-, hreports⟩ := hreturns.reports hjcs.accepts rfl jsonCalls_oneCallInTime
  have hnumber : r.attr .sequence = .int 1 := by
    have hfirst : e.before.server.sequence = 0 := by
      rw [List.mem_singleton.mp hreturns.mem]
      rfl
    rw [hreports.sequence, hfirst]
    rfl
  have hone : (r.attr .sequence).plain.SameJson floatOne.plain := by
    rw [hnumber]
    exact ⟨.num 1, congrArg (fun q => some (JsonValue.num q)) Int.cast_one, rfl⟩
  have hfloat : floatOne.plain.IsJson := .float (.ofSmallInt 1 (by norm_num))
  -- RFC 8785 writes both numbers as `1`, so the two receipts have the same bytes
  have hpayload' := L1Receipt.signingPayload_set hjcs hfields hpayload hfloat
    (PyVal.canonical_float.mpr rfl) hone
  have hsame : (r.set .sequence floatOne).signingPayload deniedRecord.externals =
      r.signingPayload deniedRecord.externals := hpayload'.trans hpayload.symm
  have haccepts' : (r.set .sequence floatOne).Accepts deniedRecord.externals
      ⟨0, Representable.zero⟩ [deniedAnchor] (some (.int 1893456000)) := by
    unfold L1Receipt.Accepts
    rw [evaluateTrust_set_sequence hsame]
    exact haccepts
  exact ⟨r, r.set .sequence floatOne, hnumber, r.attr_set_self _ _, haccepts, haccepts',
    accepted_same_number hjcs rfl jsonCalls_oneCallInTime (hreturns.unforged rfl _)
      (hreturns.unforged hsame _) hfields (hfields.set hfloat) (pinsKey_deniedAnchor r)
      (pinsKey_deniedAnchor _) haccepts haccepts' hone⟩

/-- An anchor with another key for the same issuer. -/
def otherAnchor : TrustAnchor :=
  { deniedAnchor with publicKeyRawB64 := b64encode (List.replicate 32 0) }

/-- With that anchor in front, the receipt that was accepted is not accepted at any time. -/
theorem accepts_iff_first_anchor_pins_sample : ∃ r : L1Receipt,
    r.Accepts deniedRecord.externals ⟨0, Representable.zero⟩ [deniedAnchor]
      (some (.int 1893456000)) ∧
    ∀ now, ¬r.Accepts deniedRecord.externals ⟨0, Representable.zero⟩ [otherAnchor, deniedAnchor]
      now := by
  obtain ⟨e, call, v, r, hreturns, hpayload, haccepts⟩ := exists_returns_oneCallInTime
  refine ⟨r, haccepts, fun now hnow => ?_⟩
  obtain ⟨a, ha, hbytes, -⟩ := (accepts_iff_first_anchor_pins rfl hreturns (fun p hp => by
    rw [hpayload] at hp
    cases hp
    exact SignatureRecord.signsCorrectly _) ⟨0, Representable.zero⟩
    [otherAnchor, deniedAnchor]).1 now hnow
  -- the first anchor matches the receipt and pins another key
  obtain rfl : otherAnchor = a :=
    Option.some.inj ((List.find?_cons_of_pos (by decide)).symm.trans ha)
  have hkey : deniedRecord.externals.ed25519.publicKey deniedRecord.seed = deniedRecord.publicKey :=
    SignatureRecord.publicKey_scheme _
  have hother : otherAnchor.publicKeyBytes deniedRecord.externals = .ok (List.replicate 32 0) :=
    Externals.b64decode_b64encode _ _
  rw [hother, hkey] at hbytes
  exact absurd (Except.ok.inj hbytes) (by decide)

end VerifierServer
