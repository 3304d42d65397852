import CcsVerifier.Client.Recovery
import CcsVerifier.Server.Authenticity

/-!
# The key that a client asks for

`get_l1_public_key` keeps the key of the server, and `verify_l1_receipt` verifies receipts with it.
Which response a call gets depends on the requests that were given up before; but no answer of the
server other than the one with its key is taken for it.

* `Session.cachedKey`: the key that the client keeps.
* `VerifierClient.cachedKey_eq`: it is the key of the server.
* `VerifierClient.verified_was_issued`: a receipt that `verify_l1_receipt` accepts reports a call of
  the session.
-/

open MessageFrame

/-! ## Hexadecimal digits -/

/-- The digits of bytes are read back. -/
theorem hexBytes_hex (b : Bytes) (position : ℕ) : hexBytes position (Text.hex b) = .ok b := by
  induction b generalizing position with
  | nil => rfl
  | cons x b ih =>
    have hlt := x.toNat_lt
    have hhigh : x.toNat / 16 < 16 := by omega
    have hlow : x.toNat % 16 < 16 := by omega
    -- `fromhex` skips white space, and no digit is white space
    have hspace : ¬((Text.hexDigit (x.toNat / 16)).val = 0x20 ∨
        0x09 ≤ (Text.hexDigit (x.toNat / 16)).val ∧
          (Text.hexDigit (x.toNat / 16)).val ≤ 0x0d) := by
      generalize x.toNat / 16 = n at hhigh
      interval_cases n <;> decide
    have hbyte : UInt8.ofNat (x.toNat / 16 * 16 + x.toNat % 16) = x := by
      rw [Nat.div_add_mod' x.toNat 16, UInt8.ofNat_toNat]
    show hexBytes position (Text.hexDigit (x.toNat / 16) :: Text.hexDigit (x.toNat % 16) ::
      Text.hex b) = .ok (x :: b)
    unfold hexBytes
    rw [if_neg hspace]
    simp only [JsonScan.hexValue?_hexDigit hhigh, JsonScan.hexValue?_hexDigit hlow, ih, hbyte]
    rfl

/-- `bytes.fromhex(b.hex())` -/
theorem PyVal.fromHex_hex (b : Bytes) : (PyVal.str (Text.hex b)).fromHex = .ok b := by
  have hascii : (Text.hex b).findIdx? (fun c => decide (128 ≤ c.val)) = Option.none := by
    rw [List.findIdx?_eq_none_iff]
    exact fun c hc => decide_eq_false (not_le.mpr (Text.hex_isAscii b c hc))
  simp only [PyVal.fromHex, hascii, hexBytes_hex]
  rfl

/-! ## The answers of a server -/

namespace VerifierServer

variable {X : Externals} {srv : VerifierServer X}

/-- The answer to a verification holds no public key. -/
theorem getItem_publicKey_response {w : VerificationResult} {answer : PyVal}
    (h : w.response = .ok answer) (v : PyVal) :
    (answer.reload .compact).getItem (text "public_key") ≠ .ok v := by
  obtain ⟨ruleResults, hresults, -⟩ := Except.bind_eq_ok_iff.mp h
  rw [VerificationResult.response_eq_filter hresults] at h
  cases h
  generalize ({ w with l1Receipt := w.l1Receipt.filter PyVal.truthy } : VerificationResult) = w'
  intro hget
  obtain ⟨_, hlookup, -⟩ := PyVal.lookup_of_getItem_reload
    (w'.nodup_responseMembers ruleResults) (w'.joinSurrogates_responseMembers ruleResults) hget
  rw [VerificationResult.responseMembers, Dict.lookup_append] at hlookup
  -- no member of a result has this name, with or without an L1 receipt
  cases hl1 : w'.l1Receipt with
  | none =>
    rw [hl1] at hlookup
    cases hlookup
  | some d =>
    rw [hl1] at hlookup
    cases hlookup

/-- The names of the members of the answer to `get_l1_public_key`. -/
def publicKeyKeys : List Text :=
  [text "type", text "public_key", text "fingerprint", text "algorithm"]

/-- What a client reads of the type and of the key in the answer. -/
theorem getItem_publicKeyResponse {key : Bytes} (hkey : srv.l1PublicKey = some key) :
    (srv.publicKeyResponse.reload .compact).getItem (text "type") =
        .ok (.str (text "l1_public_key")) ∧
      (srv.publicKeyResponse.reload .compact).getItem (text "public_key") =
        .ok (.str (Text.hex key)) := by
  have hplain : publicKeyKeys.Nodup ∧ ∀ k ∈ publicKeyKeys, k.joinSurrogates = k := by decide
  obtain ⟨ms, hms, hkeys, htype, hdigits⟩ : ∃ ms, srv.publicKeyResponse = .ofMembers ms ∧
      Dict.keys ms = publicKeyKeys ∧
      Dict.lookup ms (text "type") = some (.str (text "l1_public_key")) ∧
      Dict.lookup ms (text "public_key") = some (.str (Text.hex key)) := by
    rw [publicKeyResponse, hkey]
    exact ⟨_, rfl, rfl, rfl, rfl⟩
  have hback : ∀ {t : Text}, t.Encodable → (PyVal.str t).reload .compact = .str t := fun ht =>
    congrArg PyVal.str ht.joinSurrogates
  rw [hms, PyVal.getItem_reload_of_keys hkeys hplain htype,
    PyVal.getItem_reload_of_keys hkeys hplain hdigits, hback (by decide),
    hback (Text.hex_isAscii key).encodable]
  exact ⟨rfl, rfl⟩

/-- No error holds anything under another name. -/
theorem getItem_errorResponse_ne {key : Text} (hmissing : key ∉ [text "type", text "message"])
    (message : Text) (v : PyVal) :
    ((errorResponse message).reload .compact).getItem key ≠ .ok v :=
  PyVal.getItem_reload_ne_of_keys [text "type", text "message"] rfl (by decide) hmissing v

/-- Neither do the list of rules and the statistics. -/
theorem getItem_listRulesResponse_ne {key : Text} (hmissing : key ∉ [text "type", text "rules"])
    (v : PyVal) : (srv.listRulesResponse.reload .compact).getItem key ≠ .ok v :=
  PyVal.getItem_reload_ne_of_keys [text "type", text "rules"] rfl (by decide) hmissing v

/-- The same for the statistics. -/
theorem getItem_healthResponse_ne {key : Text} (hmissing : key ∉ VerifierClient.healthKeys)
    (r : MessageReadings) (s : ServerState) (v : PyVal) :
    ((srv.healthResponse r s).reload .compact).getItem key ≠ .ok v :=
  PyVal.getItem_reload_ne_of_keys VerifierClient.healthKeys rfl (by decide) hmissing v

/-- Only the answer to `get_l1_public_key` holds a public key, and it is the one of the server. -/
theorem publicKey_of_respond {r : MessageReadings} {msg : PyVal} {s : ServerState}
    {answer v : PyVal} (h : (srv.respond r msg s).1.1 = .ok answer)
    (hget : (answer.reload .compact).getItem (text "public_key") = .ok v) :
    ∃ key, srv.l1PublicKey = some key ∧ v = .str (Text.hex key) := by
  -- of all answers, only the one with the key has a member `public_key`
  cases srv.answers_of_respond h with
  | result hcommand hverify hresponse => exact absurd hget (getItem_publicKey_response hresponse v)
  | health => exact absurd hget (getItem_healthResponse_ne (by decide) _ _ _)
  | rules => exact absurd hget (getItem_listRulesResponse_ne (by decide) _)
  | publicKey =>
    cases hkey : srv.l1PublicKey with
    | none =>
      rw [publicKeyResponse, hkey] at hget
      exact absurd hget (getItem_errorResponse_ne (by decide) _ _)
    | some key =>
      exact ⟨key, rfl, Except.ok.inj (hget.symm.trans (getItem_publicKeyResponse hkey).2)⟩
  | error message => exact absurd hget (getItem_errorResponse_ne (by decide) _ _)

end VerifierServer

/-! ## The cached key -/

namespace Session

/-- `bytes.fromhex(response["public_key"])` -/
def publicKeyOf (response : PyVal) : Except PyExc Bytes := do
  let key ← response.getItem (text "public_key")
  key.fromHex

/-- What `_l1_public_key` is after a step. -/
def Output.cache (cached : Option Bytes) : Output → Option Bytes
  | .returned .getL1PublicKey (.value response) => (publicKeyOf response).toOption
  | _ => cached

/-- `_l1_public_key`: the key that `get_l1_public_key` has returned last. -/
def cachedKey (run : List Event) : Option Bytes :=
  run.foldl (fun cached e => e.output.cache cached) none

/-- The key depends on the outputs only. -/
theorem cachedKey_eq_foldl (run : List Event) :
    cachedKey run = (run.map Machine.Event.output).foldl Output.cache none := by
  rw [cachedKey, List.foldl_map]

/-- So do the calls. -/
theorem calls_eq_filterMap (run : List Event) : calls run =
    (run.map Machine.Event.output).filterMap fun o => o.handled?.bind fun done => done.2.call := by
  rw [calls, List.filterMap_map]
  rfl

/-- The last step decides. -/
theorem cachedKey_concat (run : List Event) (e : Event) :
    cachedKey (run ++ [e]) = e.output.cache (cachedKey run) := by
  rw [cachedKey, List.foldl_append]
  rfl

/-- No header is lost on any connection. -/
def KeepsHeaders (run : List Event) : Prop := ∀ k, ∀ e ∈ run, ¬LosesHeader k e

end Session

namespace VerifierClient

open Session

variable {X : Externals} {cl : VerifierClient} {srv : VerifierServer X}

/-- The key that a call of `get_l1_public_key` returns is the one of the server. -/
theorem publicKeyOf_of_returned {inputs : List Input} {i : Input} {response : PyVal}
    (hreturned : ((cl.session srv).step (cl.sessionAfter srv inputs) i).1 =
      .returned .getL1PublicKey (.value response))
    (hkept : KeepsHeaders (cl.sessionRun srv inputs)) :
    ∃ key, srv.l1PublicKey = some key ∧ publicKeyOf response = .ok key := by
  obtain ⟨link, request, h, answer, time, -, -, hanswered, hread⟩ :=
    exists_answered_of_returned hreturned fun link _ => hkept link.number
  obtain ⟨s, -, hrespond⟩ := hanswered.respond
  -- what is returned is an answer that holds a public key
  simp only [ClientCall.read, Except.bind_eq_ok_iff] at hread
  obtain ⟨msgType, -, hread⟩ := hread
  split at hread
  · obtain ⟨message, -, hraise⟩ := Except.bind_eq_ok_iff.mp hread
    cases hraise
  · obtain ⟨digits, hdigits, hread⟩ := Except.bind_eq_ok_iff.mp hread
    obtain ⟨bytes, hbytes, hread⟩ := Except.bind_eq_ok_iff.mp hread
    cases hread
    obtain ⟨key, hkey, rfl⟩ := VerifierServer.publicKey_of_respond hrespond hdigits
    refine ⟨key, hkey, ?_⟩
    rw [publicKeyOf, hdigits]
    exact PyVal.fromHex_hex key

/-- As long as no header is lost, the key that a client keeps is the one of the server, whichever
calls were cancelled or timed out before: a response to another request is never taken for one with
a key. -/
theorem cachedKey_eq (cl : VerifierClient) (srv : VerifierServer X) {inputs : List Input}
    (hkept : KeepsHeaders (cl.sessionRun srv inputs)) {key : Bytes}
    (hcached : cachedKey (cl.sessionRun srv inputs) = some key) : srv.l1PublicKey = some key := by
  induction inputs using List.reverseRecOn with
  | nil => cases hcached
  | append_singleton inputs i ih =>
    have hrun : cl.sessionRun srv (inputs ++ [i]) = cl.sessionRun srv inputs ++
        [(cl.session srv).event (cl.sessionAfter srv inputs) i] := Machine.trace_concat _ _ _ _
    rw [hrun] at hkept hcached
    have hkept' : KeepsHeaders (cl.sessionRun srv inputs) := fun k e he =>
      hkept k e (List.mem_append_left _ he)
    rw [cachedKey_concat] at hcached
    obtain ⟨o, ho⟩ : ∃ o, ((cl.session srv).step (cl.sessionAfter srv inputs) i).1 = o := ⟨_, rfl⟩
    rw [show ((cl.session srv).event (cl.sessionAfter srv inputs) i).output = o from ho] at hcached
    -- only a call of `get_l1_public_key` that returns sets the key
    unfold Output.cache at hcached
    split at hcached
    · next response =>
      obtain ⟨key', hkey', hof⟩ := publicKeyOf_of_returned ho hkept'
      rw [hof] at hcached
      cases hcached
      exact hkey'
    · exact ih hkept' hcached

end VerifierClient

/-! ## Receipts that are verified with the key -/

namespace L1Receipt

variable {X : Externals} {env : ReceiptDefaults}

/-- The defaults are JSON. -/
theorem isJson_default? {f : ReceiptField} {v : PyVal} (h : f.default? env = some v) :
    v.IsJson := by
  cases f <;> simp only [ReceiptField.default?, Option.some.injEq, reduceCtorEq] at h <;>
    first | exact h ▸ .str _ | exact h ▸ .float _ | exact h ▸ .int _

/-- The fields of a receipt that was made of JSON are JSON. -/
theorem isJson_receiptOf (env : ReceiptDefaults) {data : Dict Text PyVal} (hdata : data.keys.Nodup)
    (hvalues : ∀ m ∈ data, m.2.IsJson) (f : ReceiptField) :
    ((FromDict.receiptOf env data).attr f).IsJson := by
  have hlookup : ∀ {k v}, data.lookup k = some v → v.IsJson := fun {k v} h =>
    hvalues (k, v) ((Dict.lookup_eq_some_iff hdata).mp h)
  have hgiven : ∀ v, FromDict.given? data f = some v → v.IsJson := fun v h => by
    rw [FromDict.given?, Option.or_eq_some_iff] at h
    obtain h | ⟨-, h⟩ := h
    · exact hlookup h
    · obtain ⟨old, -, hold⟩ := Option.bind_eq_some_iff.mp h
      exact hlookup hold
  show (((FromDict.given? data f).filter (!·.isNone)).or (f.default? env)).getD .none |>.IsJson
  -- a field has what is given for it, else its default
  cases h : ((FromDict.given? data f).filter (!·.isNone)).or (f.default? env) with
  | none => exact .none
  | some v =>
    rw [Option.or_eq_some_iff, Option.filter_eq_some_iff] at h
    obtain ⟨h, -⟩ | ⟨-, h⟩ := h
    · exact hgiven v h
    · exact isJson_default? h

/-- A receipt that was read off JSON holds JSON values. -/
theorem signedFieldsAreJson_of_fromDict {data : PyVal} {strict : Bool} {t : L1Receipt}
    (hdata : data.IsJson) (h : fromDict X env data strict = .ok t) : t.SignedFieldsAreJson := by
  induction data, hdata using PyVal.isJson_induct with
  | none | bool b | int z | float x | str s | list xs => cases h
  | obj ms hkeys hms ih =>
    obtain ⟨-, rfl⟩ := (fromDict_ofMembers_eq_ok_iff hkeys).mp h
    intro f _
    have hjson := isJson_receiptOf env hkeys hms f
    exact hjson.plain.symm ▸ hjson

end L1Receipt

namespace Session

/-- The signature on this receipt is no forgery: if it verifies under the key, then the bytes that
it verifies on are those of a receipt that the server has issued in the session. -/
def Unforged (X : Externals) (run : List Event) (key : Bytes) (t : L1Receipt) : Prop :=
  ∀ sig payload, t.VerifiesWith X key sig payload →
    ∃ call ∈ calls run, ∃ v r, call.returned = some v ∧ v.l1Receipt = some (L1Receipt.toDict r) ∧
      r.signingPayload X = .ok payload

end Session

namespace VerifierClient

open Session

variable {X : Externals}

/-- `verify_l1_receipt(l1_receipt_data)`, when the client has the key. -/
def verifyL1Receipt (X : Externals) (env : ReceiptDefaults) (key : Bytes) (data : PyVal) :
    Except PyExc Bool := do
  let receipt ← L1Receipt.fromDict X env data true
  return receipt.verifySignature X (some key)

/-- A client that has asked for the key of the server, whatever else was cancelled or has failed in
the session, keeps the key of the server and no other. A receipt that it accepts with
`verify_l1_receipt` can be read, and unless its signature is forged it reports a call of the server
in this session: every signed field is that of a receipt that a call has returned. -/
theorem verified_was_issued (cl : VerifierClient) (srv : VerifierServer X) {inputs : List Input}
    (hkept : KeepsHeaders (cl.sessionRun srv inputs)) {key : Bytes}
    (hcached : cachedKey (cl.sessionRun srv inputs) = some key) :
    srv.l1PublicKey = some key ∧
    (X.JcsConforms → ∀ env data, data.IsJson → verifyL1Receipt X env key data = .ok true →
      ∃ t, L1Receipt.fromDict X env data true = .ok t ∧
        (Unforged X (cl.sessionRun srv inputs) key t →
          ∃ inputs' e, ∃ call ∈ calls (cl.sessionRun srv inputs), ∃ v,
            calls (cl.sessionRun srv inputs) = Service.calls (srv.run inputs') ∧
            srv.Vouches (κ := ℕ) inputs' t e call v)) := by
  have hpublic := cl.cachedKey_eq srv hkept hcached
  refine ⟨hpublic, fun hjcs env data hdata hverified => ?_⟩
  obtain ⟨seed, hseed, rfl⟩ := Option.map_eq_some_iff.mp hpublic
  obtain ⟨inputs', hremote, -, hcalls, -⟩ := cl.exists_run srv inputs
  obtain ⟨t, ht, hsignature⟩ := Except.bind_eq_ok_iff.mp hverified
  obtain ⟨k, sig, payload, hk, hverifies⟩ :=
    L1Receipt.verifySignature_eq_true_iff.mp (Except.ok.inj hsignature)
  obtain rfl : X.ed25519.publicKey seed = k := Option.some.inj hk
  refine ⟨t, ht, fun hunforged => ?_⟩
  -- the calls of the session are those of the run of the server
  have hreturns : ∀ {call v r}, call ∈ calls (cl.sessionRun srv inputs) → call.returned = some v →
      v.l1Receipt = some (L1Receipt.toDict r) → ∃ e, srv.Returns inputs' e call v r := by
    intro call v r hcall hreturned hreceipt
    rw [hcalls] at hcall
    obtain ⟨e, he, hecall⟩ := List.mem_filterMap.mp hcall
    exact ⟨e, he, hecall, hreturned, hreceipt⟩
  have hunforged' : srv.Unforged inputs' (X.ed25519.publicKey seed) t := fun sig payload h => by
    obtain ⟨call, hcall, v, r, hreturned, hreceipt, hpayload⟩ := hunforged sig payload h
    obtain ⟨e, he⟩ := hreturns hcall hreturned hreceipt
    exact ⟨e, call, v, r, he, hpayload⟩
  -- a session makes no direct calls
  have hjson : VerifierServer.JsonCalls inputs' := fun call c hmem => by
    obtain ⟨_, hnone⟩ := hremote _ hmem
    cases hnone
  have hfields := L1Receipt.signedFieldsAreJson_of_fromDict hdata ht
  obtain ⟨e, call, v, r, hreturned, hreports, hsame⟩ :=
    VerifierServer.exists_returns_of_verifiesWith hjcs hseed hjson hunforged' hfields hverifies
  refine ⟨inputs', e, call, ?_, v, hcalls, hreturned.vouches hfields hreports hsame⟩
  rw [hcalls]
  exact List.mem_filterMap.mpr ⟨e, hreturned.mem, hreturned.hasCall⟩

end VerifierClient

/-! ## An accepted receipt -/

/-- A receipt that holds JSON values is handed on as JSON. -/
theorem L1Receipt.isJson_toDict {r : L1Receipt} (h : ∀ f, (r.attr f).IsJson) : r.toDict.IsJson :=
  PyVal.isJson_ofMembers r.nodup_keys_asdict fun k v hkv => by
    obtain ⟨f, -, heq⟩ := List.mem_map.mp hkv
    cases heq
    exact h f

namespace VerifierServer

variable {X : Externals} {srv : VerifierServer X}

/-- An issued receipt is read off its dictionary. -/
theorem Issued.fromDict_toDict {call : CallReadings} {c : Command} {loop : RuleLoop} {key : Bytes}
    {paramsHash : Text} {sequence : ℕ} {parts : L1Parts} {r : L1Receipt}
    (h : srv.Issued call c loop key paramsHash sequence parts r) (hjcs : X.JcsAccepts)
    (hwire : c.FromWire) (hreadable : srv.Readable c loop) (env : ReceiptDefaults) :
    L1Receipt.fromDict X env r.toDict true = .ok r := by
  refine (L1Receipt.fromDict_perm_iff hjcs h.signed (fun f _ => h.isScalar hwire f) ?_ ?_
    (List.Perm.refl _) env).mpr ((h.readable_iff hwire).mpr hreadable)
  · rw [L1Receipt.attr_aligned (by decide) (by decide)]
    rfl
  · rw [L1Receipt.attr_aligned (by decide) (by decide)]
    exact hwire.traceId

/-- A consumer can read the receipt of the denied call. -/
theorem readable_deniedLoop :
    denyingServerL1.Readable (commandFor (text "shell") (text "t1")) deniedLoop where
  traceId_ne h := by cases h
  traceId t ht := by cases ht; decide
  tool t ht := by cases ht; decide
  ruleSummary := by decide
  verifierSourceClass := by decide
  deploymentMode := by decide
  issuer := by decide
  audience t ht := by cases ht; decide

/-- The server issues a receipt for the denied call that a client accepts with the key of the
server. -/
theorem exists_verifyL1Receipt (env : ReceiptDefaults) : ∃ v s' r,
    denyingServerL1.verify readingsInTime (commandFor (text "shell") (text "t1")) .init =
      (.ok v, s') ∧ v.l1Receipt = some (L1Receipt.toDict r) ∧ (L1Receipt.toDict r).IsJson ∧
    L1Receipt.fromDict deniedRecord.externals env r.toDict true = .ok r ∧
    VerifierClient.verifyL1Receipt deniedRecord.externals env
      (deniedRecord.externals.ed25519.publicKey deniedRecord.seed) r.toDict = .ok true := by
  obtain ⟨v, s', d, hverify, hreceipt⟩ := verify_denyingServerL1
    (by decide : (text "shell").Encodable) (by decide : (text "t1").Encodable)
    (by decide : ServerState.init.sequence < maxSafeInteger)
  obtain ⟨paramsHash, parts, r, rfl, h⟩ :=
    exists_issued rfl hverify (evaluateRules_denyAll _ _) hreceipt
  have hwire := fromWire_commandFor (text "shell") (text "t1")
  have hpayload := signingPayload_deniedReceipt h.signL1Receipt_deniedReceipt
  obtain ⟨-, hsignature⟩ := L1Receipt.verifySignature_of_signL1Receipt h.signed fun p hp => by
    rw [hpayload] at hp
    cases hp
    exact SignatureRecord.signsCorrectly _
  have hfrom := h.fromDict_toDict (SignatureRecord.jcsAccepts _) hwire readable_deniedLoop env
  -- the fields of an issued receipt are JSON values
  obtain ⟨r', hr', hfields, -⟩ := exists_reports (SignatureRecord.jcsAccepts _) rfl
    hwire.isJson hverify
  obtain rfl := L1Receipt.toDict_injective (Option.some.inj (hreceipt.symm.trans hr'))
  refine ⟨v, s', r, hverify, hreceipt, L1Receipt.isJson_toDict hfields, hfrom, ?_⟩
  rw [VerifierClient.verifyL1Receipt, hfrom]
  exact congrArg Except.ok hsignature

end VerifierServer

namespace VerifierClient

open Session VerifierServer

/-- The answer to the message of `get_l1_public_key`. -/
theorem respond_publicKeyMessage {X : Externals} (srv : VerifierServer X) (r : MessageReadings)
    (s : ServerState) :
    srv.respond r (ClientCall.getL1PublicKey.request.reload .compact) s =
      ((.ok srv.publicKeyResponse, none), s) := by
  have hkey : (text "type").Encodable := by decide
  have hvalue : (text "get_l1_public_key").Encodable := by decide
  have htype : (ClientCall.getL1PublicKey.request.reload .compact).get (text "type") (.str []) =
      .ok (.str (text "get_l1_public_key")) := by
    rw [ClientCall.request, PyVal.get_reload (by decide)
      (List.forall_mem_singleton.mpr hkey.joinSurrogates)]
    exact congrArg (fun s => Except.ok (PyVal.str s)) hvalue.joinSurrogates
  simp only [VerifierServer.respond, htype]
  rfl

/-- A client reads the key of the server off the answer. -/
theorem read_publicKeyResponse {X : Externals} {srv : VerifierServer X} {key : Bytes}
    (hkey : srv.l1PublicKey = some key) (time : FiniteBinary64) :
    publicKeyOf (srv.publicKeyResponse.reload .compact) = .ok key ∧
      ClientCall.getL1PublicKey.read X time (srv.publicKeyResponse.reload .compact) =
        .ok (.value (srv.publicKeyResponse.reload .compact)) := by
  obtain ⟨htype, hdigits⟩ := getItem_publicKeyResponse hkey
  have hbytes := PyVal.fromHex_hex key
  have herror : (PyVal.str (text "l1_public_key")).eqStr (text "error") = false := rfl
  constructor
  · rw [publicKeyOf, hdigits]
    exact hbytes
  · simp only [ClientCall.read, PyVal.get_of_getItem htype _, hdigits, hbytes, bind, Except.bind,
      herror, Bool.false_eq_true, if_false, pure, Except.pure]

/-- A client asks a server for its key. -/
theorem run_getL1PublicKey {X : Externals} {srv : VerifierServer X} {key : Bytes}
    (hkey : srv.l1PublicKey = some key) (r : MessageReadings) (time : FiniteBinary64)
    {frame back : Bytes} (hencode : encode ClientCall.getL1PublicKey.request = .ok frame)
    (hback : encode srv.publicKeyResponse = .ok back) :
    ((default.session srv).trace .init
        (undisturbed .getL1PublicKey 0 frame.length back.length r time)).map Machine.Event.output =
      [.acquired .getL1PublicKey, .wrote 0 ClientCall.getL1PublicKey.request, .idle, .idle,
        .handled 0 ⟨r, ClientCall.getL1PublicKey.request.reload .compact, .ok back, none⟩, .idle,
        .returned .getL1PublicKey (.value (srv.publicKeyResponse.reload .compact))] ∧
    (default.session srv).final .init
        (undisturbed .getL1PublicKey 0 frame.length back.length r time) =
      afterReading frame back .init .init := by
  have hrespond := respond_publicKeyMessage srv r .init
  have hdone : srv.handleMessage r (ClientCall.getL1PublicKey.request.reload .compact) .init =
      (⟨r, ClientCall.getL1PublicKey.request.reload .compact, .ok back, none⟩, .init) := by
    rw [handleMessage, hrespond]
    exact congrArg (fun f => ((⟨r, _, f, none⟩ : Handled), ServerState.init)) hback
  -- the client has no connection yet
  have hfresh : Session.init.Fresh := default.fresh_run srv []
  exact run_undisturbed hfresh
    ⟨rfl, rfl, rfl, fun h => by cases h⟩ hencode hdone (congrArg (fun out => out.1.1) hrespond)
    hback (read_publicKeyResponse hkey time).2 le_rfl le_rfl

/-- A client asks for the key and loses the connection; then it asks for a verification on a new
one, which the server makes. -/
def asksKeyThenVerifies (q : ClientCall) (n m n' : ℕ) (r : MessageReadings)
    (time : FiniteBinary64) : List Input :=
  undisturbed .getL1PublicKey 0 n m r time ++
    .lose (.lost []) :: (sendsRequest q 1 n' ++ [.serve 1 r])

/-- The server makes the verification in its first state. -/
theorem run_asksKeyThenVerifies {X : Externals} {srv : VerifierServer X} {key : Bytes}
    (hkey : srv.l1PublicKey = some key) (r : MessageReadings) (time : FiniteBinary64)
    {frame back frame' : Bytes} (hencode : encode ClientCall.getL1PublicKey.request = .ok frame)
    (hback : encode srv.publicKeyResponse = .ok back) {c : Command}
    (hrequest : encode c.request = .ok frame') {done : Handled} {s' : ServerState}
    (hdone : srv.handleMessage r (c.request.reload .compact) .init = (done, s')) :
    (default.sessionRun srv (asksKeyThenVerifies (.verify c) frame.length back.length frame'.length
      r time)).map Machine.Event.output =
      [.acquired .getL1PublicKey, .wrote 0 ClientCall.getL1PublicKey.request, .idle, .idle,
        .handled 0 ⟨r, ClientCall.getL1PublicKey.request.reload .compact, .ok back, none⟩, .idle,
        .returned .getL1PublicKey (.value (srv.publicKeyResponse.reload .compact)), .idle,
        .acquired (.verify c), .wrote 1 c.request, .idle, .idle, .handled 1 done] := by
  obtain ⟨hkeyRun, hfinal⟩ := run_getL1PublicKey hkey r time hencode hback
  obtain ⟨st, hst⟩ : ∃ st : Session, st = (afterReading frame back .init .init).lose (.lost []) :=
    ⟨_, rfl⟩
  have hfresh : st.Fresh := by
    have hkept := default.fresh_run srv
      (undisturbed .getL1PublicKey 0 frame.length back.length r time)
    rw [sessionAfter, hfinal] at hkept
    exact hst ▸ hkept.of_keeps ⟨rfl, rfl, le_rfl⟩
  have hcalls : (default : VerifierClient).Reconnects (.verify c) st :=
    hst ▸ ⟨rfl, rfl, rfl, fun _ => by decide⟩
  have hopened : st.opened = 1 := hst ▸ rfl
  have hserver : st.service.server = .init := hst ▸ rfl
  -- the call on the new connection, up to its verification
  obtain ⟨hsent, hsending⟩ := run_sendsRequest srv (q := .verify c) hfresh hcalls hrequest
    le_rfl
  have hserved := output_serve default (q := .verify c) r hrequest (hserver ▸ hdone)
  rw [hopened] at hsent hsending hserved
  rw [sessionRun, asksKeyThenVerifies, Machine.trace_append, List.map_append, hkeyRun, hfinal,
    Machine.trace, List.map_cons]
  have hlose : (default.session srv).step (afterReading frame back .init .init) (.lose (.lost [])) =
      (.idle, st) := hst ▸ rfl
  simp only [Machine.event, hlose, Machine.trace_append, List.map_append, hsent, hsending,
    Machine.trace, List.map_cons, List.map_nil, hserved]
  rfl

/-- A client asks for the key of the denying server, which then issues a receipt to it; the client
accepts the receipt. -/
theorem verified_was_issued_sample : ∃ inputs key data t inputs' e call v,
    cachedKey (default.sessionRun denyingServerL1 inputs) = some key ∧
    verifyL1Receipt deniedRecord.externals L1Receipt.sampleDefaults key data = .ok true ∧
    L1Receipt.fromDict deniedRecord.externals L1Receipt.sampleDefaults data true = .ok t ∧
    denyingServerL1.Vouches (κ := ℕ) inputs' t e call v := by
  obtain ⟨v, s', r, hverify, hreceipt, hjson, hfrom, hverified⟩ :=
    exists_verifyL1Receipt L1Receipt.sampleDefaults
  have hrequest : (encode ClientCall.getL1PublicKey.request).toOption.isSome = true := by
    decide +kernel
  have hanswer : (encode denyingServerL1.publicKeyResponse).toOption.isSome = true := by
    decide +kernel
  obtain ⟨frame', hencode'⟩ := exists_encode_sampleCommand
  cases hencode : encode ClientCall.getL1PublicKey.request with
  | error e =>
    rw [hencode] at hrequest
    cases hrequest
  | ok frame =>
  cases hback : encode denyingServerL1.publicKeyResponse with
  | error e =>
    rw [hback] at hanswer
    cases hanswer
  | ok back =>
  have hkey : denyingServerL1.l1PublicKey =
      some (deniedRecord.externals.ed25519.publicKey deniedRecord.seed) := rfl
  obtain ⟨done, s₁, hdone⟩ : ∃ done s₁, denyingServerL1.handleMessage readingsOfMessageInTime
      (sampleCommand.request.reload .compact) .init = (done, s₁) := ⟨_, _, rfl⟩
  have hcall : done.call = some ⟨readingsInTime, sampleCommand, .ok v⟩ := by
    have hrespond : done.call = (denyingServerL1.respond readingsOfMessageInTime
        (sampleCommand.request.reload .compact) .init).1.2 :=
      (congrArg (fun out => out.1.call) hdone).symm
    have hreloaded : sampleCommand.reloaded = sampleCommand := rfl
    rw [hrespond, respond_reload, hreloaded]
    exact congrArg (fun o => some (⟨readingsInTime, sampleCommand, o⟩ : Call))
      (congrArg Prod.fst hverify)
  have houtputs := run_asksKeyThenVerifies hkey readingsOfMessageInTime ⟨0, Representable.zero⟩
    hencode hback hencode' hdone
  have hcached : cachedKey (default.sessionRun denyingServerL1 (asksKeyThenVerifies
      (.verify sampleCommand) frame.length back.length frame'.length readingsOfMessageInTime
        ⟨0, Representable.zero⟩)) =
      some (deniedRecord.externals.ed25519.publicKey deniedRecord.seed) := by
    rw [cachedKey_eq_foldl, houtputs]
    exact congrArg Except.toOption (read_publicKeyResponse hkey ⟨0, Representable.zero⟩).1
  have hcalls : calls (default.sessionRun denyingServerL1 (asksKeyThenVerifies
      (.verify sampleCommand) frame.length back.length frame'.length readingsOfMessageInTime
        ⟨0, Representable.zero⟩)) = [⟨readingsInTime, sampleCommand, .ok v⟩] := by
    rw [calls_eq_filterMap, houtputs]
    exact congrArg Option.toList hcall
  -- no call is cancelled, so no header is lost
  obtain ⟨-, haccepted⟩ := verified_was_issued default denyingServerL1
    (keeps_headers _ _ (by simp [asksKeyThenVerifies, undisturbed, sendsRequest, getsResponse]))
    hcached
  obtain ⟨t, ht, hissued⟩ := haccepted (Externals.jcsConforms_externals deniedRecord)
    L1Receipt.sampleDefaults r.toDict hjson hverified
  obtain rfl : t = r := Except.ok.inj (ht.symm.trans hfrom)
  obtain ⟨inputs', e, call, -, v', -, hvouches⟩ := hissued fun sig payload hverifies =>
    ⟨_, hcalls ▸ List.mem_cons_self, v, t, rfl, hreceipt, hverifies.signingPayload⟩
  exact ⟨_, _, _, t, inputs', e, call, v', hcached, hverified, ht, hvouches⟩

end VerifierClient
