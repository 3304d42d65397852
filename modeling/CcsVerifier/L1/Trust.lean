import CcsVerifier.L1.FromDict

/-!
# Trust decisions

`evaluate_trust` accepts a receipt when its own signature verifies, it has not expired and its key
is the one pinned for its issuer.

* `evaluateTrust_accepts_iff`: everything that an accepted receipt has passed.
* `evaluateTrust_sound_complete`: acceptance is for the pinned key of the first anchor of the
  issuer, and no other anchor matters.
* `accepted_before_expiry`: acceptance is bounded by the expiry, and by nothing from below.
* `evaluateTrust_isOk_iff`: when the decision is made without an exception.
-/

/-- A pinned public key for an issuer. -/
structure TrustAnchor where
  /-- The issuer that the key is pinned for. -/
  issuer : Text
  /-- The raw public key in Base64. -/
  publicKeyRawB64 : Text
  /-- The declared fingerprint of the key, `public_key_fingerprint_sha256_16`. -/
  publicKeyFingerprint : Text

/-- The two-stage outcome of a trust check. -/
structure TrustDecision where
  /-- The signature passed verification. -/
  verified : Bool
  /-- The signature passed, and the key matches the pinned one. -/
  accepted : Bool
  /-- An explanation. -/
  reason : Text
deriving DecidableEq

/-- `anchor.public_key_bytes` -/
def TrustAnchor.publicKeyBytes (X : Externals) (a : TrustAnchor) : Except PyExc Bytes :=
  X.b64decode (.str a.publicKeyRawB64)

namespace L1Receipt

/-- `a.issuer == receipt.issuer` -/
def matchesAnchor (r : L1Receipt) (a : TrustAnchor) : Bool := (r.attr .issuer).eqStr a.issuer

/-- `max_clock_skew or 0` -/
def skew (r : L1Receipt) : PyVal :=
  if (r.attr .maxClockSkew).truthy then r.attr .maxClockSkew else .int 0

variable (X : Externals)

/-- The expiry check: the decision for a receipt that has expired. -/
def expiryDecision (r : L1Receipt) (current : PyNum) : Except PyExc (Option TrustDecision) := do
  let bounded ← (r.attr .expiresAt).gt (.int 0)
  if bounded then
    let limit ← (r.attr .expiresAt).add r.skew
    let expired ← current.toVal.gt limit
    if expired then
      let reason := text "receipt_expired:expires_at=" ++ (r.attr .expiresAt).format X.isPrintable
        ++ text ":now=" ++ current.toVal.format X.isPrintable
        ++ text ":skew=" ++ r.skew.format X.isPrintable
      return some ⟨true, false, reason⟩
    else return none
  else return none

/-- The comparison of the embedded key with the pinned one. -/
def pinDecision (r : L1Receipt) (anchors : List TrustAnchor) : Except PyExc TrustDecision :=
  match anchors.find? r.matchesAnchor with
  | none =>
    .ok ⟨true, false,
      text "no_pinned_anchor_for_issuer:" ++ (r.attr .issuer).format X.isPrintable⟩
  | some pinned =>
    if !(r.attr .publicKeyFingerprint).eqStr pinned.publicKeyFingerprint then
      .ok ⟨true, false, text "fingerprint_mismatch"⟩
    else
      match X.b64decode (r.attr .publicKey) with
      | .error _ => .ok ⟨true, false, text "embedded_key_decode_failed"⟩
      | .ok embedded => do
        let key ← pinned.publicKeyBytes X
        if embedded ≠ key then return ⟨true, false, text "public_key_mismatch"⟩
        else return ⟨true, true, text "ok"⟩

end L1Receipt

/-- `evaluate_trust(receipt, anchors, now=now)`; `clock` is what `time.time()` returns. -/
def evaluateTrust (X : Externals) (clock : FiniteBinary64) (receipt : L1Receipt)
    (anchors : List TrustAnchor) (now : Option PyNum) : Except PyExc TrustDecision := do
  let current := now.getD (.float (.fin clock))
  if !receipt.verifySignature X none then return ⟨false, false, text "signature_failed"⟩
  else
    match ← receipt.expiryDecision X current with
    | some decision => return decision
    | none => receipt.pinDecision X anchors

/-! ## What the checks let through -/

namespace L1Receipt

variable {X : Externals} {clock : FiniteBinary64} {r : L1Receipt} {anchors : List TrustAnchor}
  {now : Option PyNum} {current : PyNum}

/-- A receipt that is not expired has no positive expiry, or is not past it. -/
theorem expiryDecision_eq_none_iff : r.expiryDecision X current = .ok none ↔
    (r.attr .expiresAt).gt (.int 0) = .ok false ∨
      (r.attr .expiresAt).gt (.int 0) = .ok true ∧
        ∃ limit, (r.attr .expiresAt).add r.skew = .ok limit ∧ current.toVal.gt limit = .ok false := by
  rw [expiryDecision, Except.bind_eq_ok_iff]
  constructor
  · rintro ⟨bounded, hbounded, h⟩
    -- an expiry that is not positive bounds nothing
    cases bounded
    · exact .inl hbounded
    · rw [if_pos rfl] at h
      obtain ⟨limit, hlimit, h⟩ := Except.bind_eq_ok_iff.mp h
      obtain ⟨expired, hexpired, h⟩ := Except.bind_eq_ok_iff.mp h
      cases expired
      · exact .inr ⟨hbounded, limit, hlimit, hexpired⟩
      · cases h
  · rintro (hbounded | ⟨hbounded, limit, hlimit, hexpired⟩)
    · exact ⟨false, hbounded, rfl⟩
    · refine ⟨true, hbounded, ?_⟩
      rw [if_pos rfl, Except.bind_eq_ok_iff]
      refine ⟨limit, hlimit, ?_⟩
      rw [Except.bind_eq_ok_iff]
      exact ⟨false, hexpired, rfl⟩

/-- The key is pinned by the first anchor of the issuer. -/
structure PinnedBy (X : Externals) (r : L1Receipt) (a : TrustAnchor) (key : Bytes) : Prop where
  /-- The anchor carries the fingerprint of the receipt. -/
  fingerprint : r.attr .publicKeyFingerprint = .str a.publicKeyFingerprint
  /-- The receipt embeds the key. -/
  embedded : X.b64decode (r.attr .publicKey) = .ok key
  /-- The anchor pins the key. -/
  pinned : a.publicKeyBytes X = .ok key

/-- The pin check is past its comparisons exactly for the pinned key. -/
theorem pinDecision_accepts_iff {d : TrustDecision} :
    r.pinDecision X anchors = .ok d ∧ d.accepted = true ↔
      d = ⟨true, true, text "ok"⟩ ∧
        ∃ a key, anchors.find? r.matchesAnchor = some a ∧ r.PinnedBy X a key := by
  unfold pinDecision
  constructor
  · -- every branch but the last refuses
    rintro ⟨h, haccepted⟩
    split at h
    · cases h
      cases haccepted
    next a ha =>
    split at h
    · cases h
      cases haccepted
    next hfp =>
    split at h
    · cases h
      cases haccepted
    next key hkey =>
    -- decoding the pin is the only step that raises
    obtain ⟨pinned, hpinned, h⟩ := Except.bind_eq_ok_iff.mp h
    split at h
    · cases h
      cases haccepted
    next heq =>
    cases h
    rw [not_not] at heq
    subst heq
    exact ⟨rfl, a, key, ha, by simpa using hfp, hkey, hpinned⟩
  · rintro ⟨rfl, a, key, ha, hpin⟩
    refine ⟨?_, rfl⟩
    simp [ha, hpin.fingerprint, PyVal.eqStr, hpin.embedded, hpin.pinned, bind, Except.bind, pure,
      Except.pure]

/-- The numbers in a receipt with a verified signature are safe. -/
theorem safe_of_verifySignature {k : Option Bytes} (h : r.verifySignature X k = true)
    {f : ReceiptField} (hf : f ≠ .signature) {n : PyNum} (hn : (r.attr f).num? = some n) :
    n.Safe := by
  obtain ⟨key, sig, payload, -, hverifies⟩ := verifySignature_eq_true_iff.mp h
  have hpayload := hverifies.signingPayload
  simp only [signingPayload, Externals.canonicalJson, Except.bind_eq_ok_iff] at hpayload
  obtain ⟨_, hvalid, -⟩ := hpayload
  have hsafe := PyVal.safeNumbers_ofMembers_iff.mp ((validateSafeIntegers_eq_ok_iff _).mp hvalid)
  -- an enumeration is no number, so the field is signed as it is
  have hplain : (r.attr f).plain = r.attr f := by
    cases hv : r.attr f with
    | enum cls member value =>
      rw [hv] at hn
      cases hn
    | _ => rfl
  refine PyVal.SafeNumbers.safe ?_ hn
  rw [← hplain]
  exact hsafe (f.name, (r.attr f).plain) (List.mem_map_of_mem (ReceiptField.mem_signed.mpr hf))

/-- The sum with `max_clock_skew or 0` has the value of the sum with the field itself. -/
theorem add_skew {x y : PyNum} (hx : (r.attr .expiresAt).num? = some x) (hxsafe : x.Safe)
    (hy : (r.attr .maxClockSkew).num? = some y) (hysafe : y.Safe) :
    ∃ m n : PyNum, (r.attr .expiresAt).add (r.attr .maxClockSkew) = .ok m.toVal ∧
      (r.attr .expiresAt).add r.skew = .ok n.toVal ∧ m.ext = n.ext ∧ m.ext.isSome = true := by
  obtain ⟨m, hm, hmext⟩ := hxsafe.add hysafe
  have hfield : (r.attr .expiresAt).add (r.attr .maxClockSkew) = .ok m.toVal :=
    PyVal.arith_eq_ok_iff.mpr ⟨x, y, m, hx, hy, hm, rfl⟩
  -- a skew that is falsy is replaced by zero, which has its value
  cases htruthy : (r.attr .maxClockSkew).truthy with
  | true => exact ⟨m, m, hfield, by rw [skew, htruthy, if_pos rfl, hfield], rfl, hmext⟩
  | false =>
    obtain ⟨m', hm', hmx⟩ := hxsafe.add_zero hysafe (PyVal.ext_of_not_truthy htruthy hy)
    obtain rfl : m = m' := Except.ok.inj (hm.symm.trans hm')
    have hzero : (PyNum.int 0).Safe := ⟨by decide, by decide⟩
    obtain ⟨n, hn, hnx⟩ := hxsafe.add_zero hzero rfl
    refine ⟨m, n, hfield, ?_, hmx.trans hnx.symm, hmext⟩
    rw [skew, htruthy, if_neg Bool.false_ne_true]
    exact PyVal.arith_eq_ok_iff.mpr ⟨x, .int 0, n, hx, rfl, hn, rfl⟩

/-- The check accepts a receipt at a time. -/
def Accepts (X : Externals) (clock : FiniteBinary64) (r : L1Receipt) (anchors : List TrustAnchor)
    (now : Option PyNum) : Prop :=
  ∃ d, evaluateTrust X clock r anchors now = .ok d ∧ d.accepted = true

/-- An accepted receipt has passed the signature check, the expiry check and the pin check. -/
theorem evaluateTrust_accepts_iff {d : TrustDecision} :
    evaluateTrust X clock r anchors now = .ok d ∧ d.accepted = true ↔
      d = ⟨true, true, text "ok"⟩ ∧ r.verifySignature X none = true ∧
        r.expiryDecision X (now.getD (.float (.fin clock))) = .ok none ∧
        ∃ a key, anchors.find? r.matchesAnchor = some a ∧ r.PinnedBy X a key := by
  -- a decision about the expiry is a refusal
  have hexpired : ∀ {e : TrustDecision},
      r.expiryDecision X (now.getD (.float (.fin clock))) = .ok (some e) → e.accepted = false := by
    intro e he
    unfold expiryDecision at he
    obtain ⟨bounded, -, he⟩ := Except.bind_eq_ok_iff.mp he
    split at he
    · obtain ⟨limit, -, he⟩ := Except.bind_eq_ok_iff.mp he
      obtain ⟨expired, -, he⟩ := Except.bind_eq_ok_iff.mp he
      split at he
      · cases he
        rfl
      · cases he
    · cases he
  unfold evaluateTrust
  constructor
  · rintro ⟨h, haccepted⟩
    split at h
    · cases h
      cases haccepted
    next hverify =>
    obtain ⟨decision, hdecision, h⟩ := Except.bind_eq_ok_iff.mp h
    cases decision with
    | some e =>
      cases h
      rw [hexpired hdecision] at haccepted
      cases haccepted
    | none =>
      obtain ⟨hd, hpin⟩ := pinDecision_accepts_iff.mp ⟨h, haccepted⟩
      exact ⟨hd, by simpa using hverify, hdecision, hpin⟩
  · rintro ⟨hd, hverify, hdecision, hpin⟩
    have hpinned := pinDecision_accepts_iff.mpr ⟨hd, hpin⟩
    simpa [hverify, hdecision, bind, Except.bind] using hpinned

/-- A verified receipt with its key pinned and a time up to the end of its validity is accepted. -/
theorem accepts_of_le {a : TrustAnchor} {key : Bytes} {limit : PyVal}
    (hverify : r.verifySignature X none = true)
    (hbounded : (r.attr .expiresAt).gt (.int 0) = .ok true)
    (hlimit : (r.attr .expiresAt).add (r.attr .maxClockSkew) = .ok limit)
    (hcurrent : (now.getD (.float (.fin clock))).toVal.le limit = .ok true)
    (ha : anchors.find? r.matchesAnchor = some a) (hpin : r.PinnedBy X a key) :
    evaluateTrust X clock r anchors now = .ok ⟨true, true, text "ok"⟩ := by
  refine (evaluateTrust_accepts_iff.mpr ⟨rfl, hverify, ?_, a, key, ha, hpin⟩).1
  refine expiryDecision_eq_none_iff.mpr (.inr ⟨hbounded, ?_⟩)
  obtain ⟨x, y, m, hx, hy, hm, rfl⟩ := PyVal.arith_eq_ok_iff.mp hlimit
  obtain ⟨m', n, hfield, hsum, hext, -⟩ := add_skew hx
    (safe_of_verifySignature hverify (by decide) hx) hy
    (safe_of_verifySignature hverify (by decide) hy)
  obtain ⟨c, l, hc, hl, hle⟩ := PyVal.compare_eq_ok_iff.mp hcurrent
  rw [PyVal.num?_toVal] at hc hl
  cases hc
  cases hl
  -- the sum is the one that the expiry check compares with
  have hmm : m.toVal = m'.toVal := Except.ok.inj (hlimit.symm.trans hfield)
  have hmext : m.ext = n.ext := by
    have hnum := congrArg PyVal.num? hmm
    rw [PyVal.num?_toVal, PyVal.num?_toVal, Option.some.injEq] at hnum
    rw [hnum, hext]
  refine ⟨n.toVal, hsum, PyVal.compare_eq_ok_iff.mpr ⟨_, n, PyVal.num?_toVal _,
    PyVal.num?_toVal _, ?_⟩⟩
  rw [PyNum.le_congr hmext] at hle
  exact PyNum.lt_eq_false_of_le hle

/-! ## Acceptance -/

/-- The anchor of `reference_issuer.json`. -/
def referenceAnchor : TrustAnchor where
  issuer := text "ccs-verifier/reference"
  publicKeyRawB64 := text "v63J4PdpUTeDVUuGMgpayNc5ex/ufTmrW+9oKyybbCw="
  publicKeyFingerprint := text "889d3f5bd86f5ff2"

/-- The reference anchor pins the reference key. -/
theorem publicKeyBytes_referenceAnchor :
    referenceAnchor.publicKeyBytes referenceX = .ok SignatureRecord.reference.publicKey := by
  decide +kernel

/-- The signature of the reference receipt verifies. -/
theorem verifySignature_referenceSigned :
    referenceSigned.verifySignature referenceX none = true := by
  refine (verifySignature_of_signL1Receipt signL1Receipt_reference fun p hp => ?_).1
  rw [signingPayload_referenceSigned] at hp
  cases hp
  exact SignatureRecord.signsCorrectly _

/-- The reference receipt is accepted at every whole second up to its expiry. -/
theorem accepts_referenceSigned {time : ℤ} (htime : time ≤ 1893456300) (clock : FiniteBinary64) :
    referenceSigned.Accepts referenceX clock [referenceAnchor] (some (.int time)) := by
  have hlimit : (referenceSigned.attr .expiresAt).add (referenceSigned.attr .maxClockSkew) =
      .ok (seconds 1893456300 (by norm_num)) := by
    -- the sum of the two floats is exact
    change Except.ok (PyVal.float (Binary64.round (((1893456300 : ℤ) : ℚ) + 0))) = _
    rw [Rat.add_zero, Binary64.round_of_representable (Representable.intCast (by norm_num))]
    rfl
  have htime : (PyVal.int time).le (seconds 1893456300 (by norm_num)) = .ok true := by
    refine PyVal.compare_eq_ok_iff.mpr ⟨.int time, .float _, rfl, rfl, ?_⟩
    refine decide_eq_true (WithBot.coe_le_coe.mpr (WithTop.coe_le_coe.mpr ?_))
    change (time : ℚ) ≤ ((1893456300 : ℤ) : ℚ)
    exact_mod_cast htime
  have hpinned : referenceSigned.PinnedBy referenceX referenceAnchor
      SignatureRecord.reference.publicKey := by
    rw [referenceSigned_eq]
    exact ⟨rfl, by decide +kernel, publicKeyBytes_referenceAnchor⟩
  exact ⟨_,
    accepts_of_le verifySignature_referenceSigned (by decide +kernel) hlimit htime rfl hpinned,
    rfl⟩

/-- Acceptance is for the key that the first anchor of the issuer pins: the signature verifies under
that key on the payload of all other fields, and the anchor declares the fingerprint of that key.
Conversely a verified receipt whose key is pinned is accepted from its issue up to its expiry with
the clock skew. No other anchor has a part in the decision. -/
theorem evaluateTrust_sound_complete (X : Externals) (clock : FiniteBinary64) (r : L1Receipt)
    (anchors : List TrustAnchor) (now : Option PyNum) :
    (r.Accepts X clock anchors now →
      ∃ a key sig payload, anchors.find? r.matchesAnchor = some a ∧
        a.publicKeyBytes X = .ok key ∧ a.publicKeyFingerprint = X.publicKeyFingerprint key ∧
        r.attr .signature = .str (b64encode sig) ∧ r.signingPayload X = .ok payload ∧
        X.ed25519.verify key sig payload = true) ∧
    (∀ a key limit, r.verifySignature X none = true →
      (r.attr .issuedAt).le (now.getD (.float (.fin clock))).toVal = .ok true →
      (r.attr .expiresAt).add (r.attr .maxClockSkew) = .ok limit →
      (now.getD (.float (.fin clock))).toVal.le limit = .ok true →
      (r.attr .expiresAt).gt (.int 0) = .ok true →
      (PyVal.int 0).le (r.attr .maxClockSkew) = .ok true →
      anchors.find? r.matchesAnchor = some a → r.PinnedBy X a key →
      r.Accepts X clock anchors now) ∧
    evaluateTrust X clock r anchors now =
      evaluateTrust X clock r (anchors.find? r.matchesAnchor).toList now := by
  refine ⟨?_, ?_, ?_⟩
  · rintro ⟨d, hd⟩
    obtain ⟨-, hverify, -, a, pinnedKey, ha, hpin⟩ := evaluateTrust_accepts_iff.mp hd
    obtain ⟨key, sig, payload, hkey, h⟩ := verifySignature_none_eq_true_iff.mp hverify
    obtain ⟨-, hembedded, -, -⟩ := embeddedKey_eq_some_iff.mp hkey
    -- the pinned key is the embedded one, so the signature is one of the pinned key
    obtain rfl : pinnedKey = key := Except.ok.inj (hpin.embedded.symm.trans hembedded)
    have hfp : PyVal.str a.publicKeyFingerprint = .str (X.publicKeyFingerprint pinnedKey) :=
      hpin.fingerprint.symm.trans h.fingerprint
    exact ⟨a, pinnedKey, sig, payload, ha, hpin.pinned, by injection hfp, h.signature,
      h.signingPayload, h.verify⟩
  · intro a key limit hverify _ hlimit hcurrent hbounded _ ha hpin
    exact ⟨_, accepts_of_le hverify hbounded hlimit hcurrent ha hpin, rfl⟩
  · -- only the first anchor for the issuer is looked at
    have hpin : r.pinDecision X anchors =
        r.pinDecision X (anchors.find? r.matchesAnchor).toList := by
      unfold pinDecision
      cases hfind : anchors.find? r.matchesAnchor with
      | none => rfl
      | some a => simp [List.find?_some hfind]
    unfold evaluateTrust
    rw [hpin]

/-- Acceptance of a receipt with a positive expiry ends with the expiry and the clock skew, and a
receipt accepted at one time is accepted at every earlier time. -/
theorem accepted_before_expiry {time : PyNum} (hskew : (r.attr .maxClockSkew).IsNum)
    (htime : time.ext.isSome = true) (haccepts : r.Accepts X clock anchors (some time)) :
    ((r.attr .expiresAt).gt (.int 0) = .ok true →
      ∃ limit, (r.attr .expiresAt).add (r.attr .maxClockSkew) = .ok limit ∧
        time.toVal.le limit = .ok true) ∧
    ∀ earlier : PyNum, earlier.le time = true → r.Accepts X clock anchors (some earlier) := by
  obtain ⟨d, hd⟩ := haccepts
  obtain ⟨hd, hverify, hexpiry, hpin⟩ := evaluateTrust_accepts_iff.mp hd
  have hexpiry := expiryDecision_eq_none_iff.mp hexpiry
  constructor
  · intro hbounded
    obtain ⟨limit, hlimit, hgt⟩ : ∃ limit, (r.attr .expiresAt).add r.skew = .ok limit ∧
        time.toVal.gt limit = .ok false := by
      rcases hexpiry with hunbounded | ⟨-, hexpiry⟩
      · rw [hbounded] at hunbounded
        cases hunbounded
      · exact hexpiry
    -- a falsy skew counts as 0, which the field then is
    obtain ⟨x, _, hx, -, -⟩ := PyVal.compare_eq_ok_iff.mp hbounded
    obtain ⟨y, hy⟩ := Option.isSome_iff_exists.mp hskew
    obtain ⟨m, n, hfield, hsum, hext, hsome⟩ := add_skew hx
      (safe_of_verifySignature hverify (by decide) hx) hy
      (safe_of_verifySignature hverify (by decide) hy)
    obtain rfl : limit = n.toVal := Except.ok.inj (hlimit.symm.trans hsum)
    obtain ⟨t, l, ht, hl, hlt⟩ := PyVal.compare_eq_ok_iff.mp hgt
    rw [PyVal.num?_toVal, Option.some.injEq] at ht hl
    subst ht hl
    refine ⟨m.toVal, hfield, PyVal.compare_eq_ok_iff.mpr ⟨time, m, PyVal.num?_toVal _,
      PyVal.num?_toVal _, ?_⟩⟩
    rw [PyNum.le_congr hext, PyNum.le_eq_not_lt htime (hext ▸ hsome), hlt]
    rfl
  · -- only the check of the expiry looks at the time
    intro earlier hearlier
    refine ⟨d, evaluateTrust_accepts_iff.mpr ⟨hd, hverify, ?_, hpin⟩⟩
    refine expiryDecision_eq_none_iff.mpr ?_
    rcases hexpiry with hunbounded | ⟨hbounded, limit, hlimit, hgt⟩
    · exact .inl hunbounded
    · refine .inr ⟨hbounded, limit, hlimit, ?_⟩
      obtain ⟨t, l, ht, hl, hlt⟩ := PyVal.compare_eq_ok_iff.mp hgt
      rw [Option.getD_some, PyVal.num?_toVal, Option.some.injEq] at ht
      subst ht
      refine PyVal.compare_eq_ok_iff.mpr ⟨earlier, l, PyVal.num?_toVal _, hl, ?_⟩
      by_contra hlate
      have hlate := PyNum.lt_of_lt_le (Bool.not_eq_false _ |>.mp hlate) hearlier
      rw [hlt] at hlate
      cases hlate

/-- At its last second the reference receipt is within its expiry. -/
theorem accepted_before_expiry_sample :
    ∃ limit, (referenceSigned.attr .expiresAt).add (referenceSigned.attr .maxClockSkew) =
      .ok limit ∧ (PyVal.int 1893456300).le limit = .ok true :=
  (accepted_before_expiry (by decide +kernel) rfl
    (accepts_referenceSigned le_rfl ⟨0, Representable.zero⟩)).1 (by decide +kernel)

/-- The reference receipt is accepted long before it was issued, even less a skew of 30 seconds. -/
theorem accepted_before_issue :
    referenceSigned.Accepts referenceX ⟨0, Representable.zero⟩ [referenceAnchor] (some (.int 0)) ∧
      (referenceSigned.attr .maxClockSkew) = .float .zero ∧
      ((referenceSigned.attr .issuedAt).sub (.int 30) >>= fun lower => lower.le (.int 0)) =
        .ok false :=
  ⟨accepts_referenceSigned (by norm_num) _, rfl, by decide +kernel⟩

/-! ## When a decision is made -/

/-- The expiry check raises exactly on an expiry, or for a positive one on a clock skew, that is no
number. -/
theorem expiryDecision_isOk_iff (current : PyNum) (hverify : r.verifySignature X none = true) :
    (∃ o, r.expiryDecision X current = .ok o) ↔ (r.attr .expiresAt).IsNum ∧
      ((r.attr .expiresAt).gt (.int 0) = .ok false ∨ (r.attr .maxClockSkew).IsNum ∨
        (r.attr .maxClockSkew).truthy = false) := by
  rw [expiryDecision]
  constructor
  · rintro ⟨o, h⟩
    obtain ⟨bounded, hbounded, h⟩ := Except.bind_eq_ok_iff.mp h
    obtain ⟨x, _, hx, -, -⟩ := PyVal.compare_eq_ok_iff.mp hbounded
    refine ⟨Option.isSome_iff_exists.mpr ⟨x, hx⟩, ?_⟩
    -- without an expiry the skew is not looked at
    cases bounded with
    | false => exact .inl hbounded
    | true =>
      rw [if_pos rfl] at h
      obtain ⟨limit, hlimit, -⟩ := Except.bind_eq_ok_iff.mp h
      obtain ⟨_, y, _, -, hy, -⟩ := PyVal.arith_eq_ok_iff.mp hlimit
      cases htruthy : (r.attr .maxClockSkew).truthy with
      | false => exact .inr (.inr rfl)
      | true =>
        rw [skew, htruthy, if_pos rfl] at hy
        exact .inr (.inl (Option.isSome_iff_exists.mpr ⟨y, hy⟩))
  · rintro ⟨hnum, hskew⟩
    obtain ⟨x, hx⟩ := Option.isSome_iff_exists.mp hnum
    have hgt : (r.attr .expiresAt).gt (.int 0) = .ok (PyNum.lt (.int 0) x) :=
      PyVal.compare_eq_ok_iff.mpr ⟨x, .int 0, hx, rfl, rfl⟩
    rw [hgt] at hskew ⊢
    cases hbounded : PyNum.lt (.int 0) x with
    | false => exact ⟨none, rfl⟩
    | true =>
      obtain ⟨y, hy, hysafe⟩ : ∃ y, r.skew.num? = some y ∧ y.Safe := by
        cases htruthy : (r.attr .maxClockSkew).truthy with
        | false => exact ⟨.int 0, by rw [skew, htruthy]; rfl, by decide, by decide⟩
        | true =>
          rw [hbounded, htruthy] at hskew
          obtain ⟨y, hy⟩ := Option.isSome_iff_exists.mp ((hskew.resolve_left nofun).resolve_right
            nofun)
          exact ⟨y, by rwa [skew, htruthy, if_pos rfl], safe_of_verifySignature hverify
            (by decide) hy⟩
      -- both are safe since the signature verifies, so that their sum is a number
      obtain ⟨m, hm, -⟩ := (safe_of_verifySignature hverify (by decide) hx).add hysafe
      have hlimit : (r.attr .expiresAt).add r.skew = .ok m.toVal :=
        PyVal.arith_eq_ok_iff.mpr ⟨x, y, m, hx, hy, hm, rfl⟩
      have hexpired : current.toVal.gt m.toVal = .ok (m.lt current) :=
        PyVal.compare_eq_ok_iff.mpr ⟨current, m, PyVal.num?_toVal _, PyVal.num?_toVal _, rfl⟩
      simp only [hlimit, hexpired, bind, Except.bind, ↓reduceIte]
      cases m.lt current
      · exact ⟨none, rfl⟩
      · exact ⟨_, rfl⟩

/-- The pin check raises on no receipt when every pinned key can be decoded. -/
theorem pinDecision_isOk (hanchors : ∀ a ∈ anchors, ∃ key, a.publicKeyBytes X = .ok key) :
    ∃ d, r.pinDecision X anchors = .ok d := by
  unfold pinDecision
  split
  · exact ⟨_, rfl⟩
  next a ha =>
  split
  · exact ⟨_, rfl⟩
  split
  · exact ⟨_, rfl⟩
  next embedded _ =>
  -- only a pin that cannot be decoded would raise
  obtain ⟨key, hkey⟩ := hanchors a (List.mem_of_find?_eq_some ha)
  by_cases heq : embedded = key
  · exact ⟨⟨true, true, text "ok"⟩, by simp [hkey, heq, bind, Except.bind, pure, Except.pure]⟩
  · exact ⟨⟨true, false, text "public_key_mismatch"⟩, by
      simp [hkey, heq, bind, Except.bind, pure, Except.pure]⟩

/-- With anchors whose keys can be decoded, a decision is made exactly when the signature does not
verify, or the expiry is a number and, if that is positive, the clock skew is a number or counts as
false. -/
theorem evaluateTrust_isOk_iff (hanchors : ∀ a ∈ anchors, ∃ key, a.publicKeyBytes X = .ok key) :
    (∃ d, evaluateTrust X clock r anchors now = .ok d) ↔
      r.verifySignature X none = false ∨ (r.attr .expiresAt).IsNum ∧
        ((r.attr .expiresAt).gt (.int 0) = .ok false ∨ (r.attr .maxClockSkew).IsNum ∨
          (r.attr .maxClockSkew).truthy = false) := by
  cases hverify : r.verifySignature X none with
  | false => simp [evaluateTrust, hverify, pure, Except.pure]
  | true =>
    -- once the signature is verified, the check of the expiry is the only one that can raise
    rw [← expiryDecision_isOk_iff (now.getD (.float (.fin clock))) hverify]
    simp only [Bool.true_eq_false, false_or, evaluateTrust, hverify, Bool.not_true,
      Bool.false_eq_true, ↓reduceIte, Except.bind_eq_ok_iff]
    constructor
    · rintro ⟨d, o, ho, -⟩
      exact ⟨o, ho⟩
    · rintro ⟨o, ho⟩
      cases o with
      | some d => exact ⟨d, some d, ho, rfl⟩
      | none =>
        obtain ⟨d, hd⟩ := pinDecision_isOk (r := r) hanchors
        exact ⟨d, none, ho, hd⟩

/-- The check decides about the reference receipt. -/
theorem evaluateTrust_isOk_iff_sample :
    ∃ d, evaluateTrust referenceX ⟨0, Representable.zero⟩ referenceSigned [referenceAnchor]
      (some (.int 0)) = .ok d := by
  refine (evaluateTrust_isOk_iff ?_).mpr (.inr ⟨rfl, .inr (.inl rfl)⟩)
  intro a ha
  rw [List.mem_singleton.mp ha]
  exact ⟨_, publicKeyBytes_referenceAnchor⟩

/-- The canonical text of a receipt that expires `"never"`. -/
def hostilePayload : Text :=
  text "\x7b\"action\":\"\",\"args_digest\":\"\",\"audience\":\"\",\"config_hash\":\"\","
    ++ text "\"deployment_mode\":\"\",\"expires_at\":\"never\",\"issued_at\":0,\"issuer\":\"\","
    ++ text "\"latency_us\":0,\"max_clock_skew\":0,\"nonce\":\"n\",\"params_hash\":\"\","
    ++ text "\"public_key\":\"v63J4PdpUTeDVUuGMgpayNc5ex/ufTmrW+9oKyybbCw=\","
    ++ text "\"public_key_fingerprint\":\"889d3f5bd86f5ff2\",\"receipt_version\":\"1.1\","
    ++ text "\"request_hash\":\"\",\"response_hash\":\"\",\"rule_summary\":\"\","
    ++ text "\"rule_version\":\"\",\"runtime_context_hash\":\"\",\"sequence\":0,"
    ++ text "\"signing_algorithm\":\"Ed25519\",\"timestamp\":0,\"tool\":\"\","
    ++ text "\"tool_call_id\":\"\",\"trace_id\":\"t\",\"verdict\":\"allow\",\"verified_at\":0,"
    ++ text "\"verifier_source_class\":\"\"\x7d"

/-- A signature on that receipt by the key that it embeds. -/
def hostileRecord : SignatureRecord where
  seed := SignatureRecord.reference.seed
  publicKey := SignatureRecord.reference.publicKey
  message := hostilePayload.asciiBytes
  signature := bytesOfHex
    (text "34a1804f23eb080506d830462703445132858a5b702c2d9b4c7fbec2a7e35026"
    ++ text "7028209ca3ee9dd629a46682cda496c56f2f866025471709e66f3d7f1a513f06")
  length_publicKey := SignatureRecord.reference.length_publicKey
  length_signature := by decide +kernel

/-- The text of the signed receipt. -/
def hostileText : Text :=
  text "\x7b\"trace_id\": \"t\", \"verdict\": \"allow\", \"timestamp\": 0, "
    ++ text "\"nonce\": \"n\", \"verified_at\": 0, \"expires_at\": \"never\", "
    ++ text "\"public_key_fingerprint\": \"889d3f5bd86f5ff2\", "
    ++ text "\"public_key\": \"v63J4PdpUTeDVUuGMgpayNc5ex/ufTmrW+9oKyybbCw=\", "
    ++ text "\"signature\": "
    ++ text "\"NKGATyPrCAUG2DBGJwNEUTKFiltwLC2bTH++wqfjUCZwKCCc"
    ++ text "o+6d1imkZoLNpJbFby+GYCVHFwnmbz1/GlE/Bg==\"\x7d"

/-- A receipt that `from_json` accepts, with a valid signature by its own key, makes the check
raise. -/
theorem evaluateTrust_raises : ∃ r,
    fromJson hostileRecord.externals sampleDefaults hostileText true = .ok r ∧
      evaluateTrust hostileRecord.externals ⟨0, Representable.zero⟩ r [referenceAnchor]
          (some (.int 0)) =
        .error ⟨.typeError, text "'>' not supported between instances of 'str' and 'int'"⟩ := by
  have hparse : (fromJson hostileRecord.externals sampleDefaults hostileText true).isOk = true := by
    decide +kernel
  have htrust : (fromJson hostileRecord.externals sampleDefaults hostileText true >>= fun r =>
      evaluateTrust hostileRecord.externals ⟨0, Representable.zero⟩ r [referenceAnchor]
        (some (.int 0))) =
      .error ⟨.typeError, text "'>' not supported between instances of 'str' and 'int'"⟩ := by
    decide +kernel
  cases hr : fromJson hostileRecord.externals sampleDefaults hostileText true with
  | error e =>
    rw [hr] at hparse
    cases hparse
  | ok r =>
    rw [hr] at htrust
    exact ⟨r, rfl, htrust⟩

end L1Receipt
