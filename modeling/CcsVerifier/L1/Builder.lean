import CcsVerifier.L1.FromDict
import CcsVerifier.Protocol.Command

/-!
# Building L1 receipts

`L1ReceiptBuilder` fills in a receipt field by field and checks it before it is signed.

* `build_eq_ok_iff`: what `build` with a key checks, and what it signs.
* `build_isOk_iff`: when `build` with a key returns.
-/

/-- `L1ReceiptBuilder` -/
structure L1ReceiptBuilder where
  /-- `_receipt` -/
  receipt : L1Receipt

namespace L1ReceiptBuilder

/-- `L1ReceiptBuilder(trace_id, verdict)` -/
def new (env : ReceiptDefaults) (traceId : PyVal) (verdict : Verdict) : L1ReceiptBuilder where
  receipt :=
    { attr := fun f =>
        match f with
        | .traceId => traceId
        | .verdict => .str verdict.value
        | f => (f.default? env).getD .none }

/-- The builder after one field has been set. -/
def setField (f : ReceiptField) (b : L1ReceiptBuilder) (v : PyVal) : L1ReceiptBuilder :=
  ⟨b.receipt.set f v⟩

/-- The builder after one field has been set to the hash of a value. -/
def setHash (f : ReceiptField) (X : Externals) (b : L1ReceiptBuilder) (v : PyVal) :
    Except PyExc L1ReceiptBuilder := do
  let hash ← X.computeHash v
  return b.setField f (.str hash)

/-- `builder.tool(tool)` -/
abbrev tool := setField .tool

/-- `builder.tool_call_id(tool_call_id)` -/
abbrev toolCallId := setField .toolCallId

/-- `builder.params_hash(params_hash)` -/
abbrev paramsHash := setField .paramsHash

/-- `builder.args_digest(args)` -/
abbrev argsDigest := setHash .argsDigest

/-- `builder.rule_summary(summary)` -/
abbrev ruleSummary := setField .ruleSummary

/-- `builder.rule_version(version)` -/
abbrev ruleVersion := setField .ruleVersion

/-- `builder.request_hash(request)` -/
abbrev requestHash := setHash .requestHash

/-- `builder.response_hash(response)` -/
abbrev responseHash := setHash .responseHash

/-- `builder.runtime_context(context)` -/
abbrev runtimeContext := setHash .runtimeContextHash

/-- `builder.config_hash(config)` -/
abbrev configHash := setHash .configHash

/-- `builder.verifier_source_class(source_class)` -/
abbrev verifierSourceClass := setField .verifierSourceClass

/-- `builder.deployment_mode(mode)` -/
abbrev deploymentMode := setField .deploymentMode

/-- `builder.issuer(issuer)` -/
abbrev issuer := setField .issuer

/-- `builder.audience(audience)` -/
abbrev audience := setField .audience

/-- `builder.nonce(nonce)` -/
abbrev nonce := setField .nonce

/-- `builder.sequence(seq)` -/
abbrev sequence := setField .sequence

/-- `builder.time_bounds(issued_at, expiry, clock_skew)` -/
def timeBounds (b : L1ReceiptBuilder) (issuedAt expiry clockSkew : PyVal) : L1ReceiptBuilder :=
  ⟨((b.receipt.set .issuedAt issuedAt).set .expiresAt expiry).set .maxClockSkew clockSkew⟩

/-- `builder.action(action)` -/
abbrev action := setField .action

/-- `builder.latency_us(latency)` -/
abbrev latencyUs := setField .latencyUs

end L1ReceiptBuilder

namespace L1Receipt

/-- One second is a float. -/
theorem abs_oneSecond_lt : |(1 : ℤ)| < 2 ^ 53 := by norm_num

/-- Whether `issued_at > 0` and `issued_at` is less than a second after the timestamp. -/
def issuedJustAfter (r : L1Receipt) : Except PyExc Bool := do
  if ← (r.attr .issuedAt).gt (.int 0) then
    let ahead ← (r.attr .issuedAt).sub (r.attr .timestamp)
    if ← (PyVal.int 0).lt ahead then ahead.lt (.float (.ofSmallInt 1 abs_oneSecond_lt))
    else return false
  else return false

/-- The receipt with its times moved to `issued_at` when that is just after the timestamp. -/
def alignTimes (r : L1Receipt) : Except PyExc L1Receipt := do
  if ← r.issuedJustAfter then
    return (r.set .timestamp (r.attr .issuedAt)).set .verifiedAt (r.attr .issuedAt)
  else return r

/-- The check of the bindings that a signed receipt needs. -/
def checkBindings (r : L1Receipt) : Except PyExc Unit := do
  let expired ← (r.attr .expiresAt).le (.int 0)
  let missing :=
    (if (r.attr .issuer).truthy then [] else [text "issuer"])
    ++ (if (r.attr .audience).truthy then [] else [text "audience"])
    ++ (if (r.attr .action).truthy then [] else [text "action"])
    ++ (if expired then [text "expires_at (must be > 0)"] else [])
  if missing = [] then return ()
  else
    PyExc.value (text "Cannot sign receipt: missing required profile bindings: "
      ++ (text ", ").intercalate missing
      ++ text ". An unsigned or empty-binding receipt provides no security guarantee.")

/-- Whether `issued_at > 0` and the timestamp precedes `issued_at`. -/
def precedesIssue (r : L1Receipt) : Except PyExc Bool := do
  if ← (r.attr .issuedAt).gt (.int 0) then (r.attr .timestamp).lt (r.attr .issuedAt)
  else return false

/-- The check that the timestamp does not precede `issued_at`. -/
def checkTimes (X : Externals) (r : L1Receipt) : Except PyExc Unit := do
  if ← r.precedesIssue then
    PyExc.value (text "Time consistency violation: timestamp ("
      ++ (r.attr .timestamp).format X.isPrintable ++ text ") is earlier than issued_at ("
      ++ (r.attr .issuedAt).format X.isPrintable
      ++ text "). A receipt cannot claim verification before it was issued.")
  else return ()

end L1Receipt

/-- `builder.build(private_key_seed)` -/
def L1ReceiptBuilder.build (X : Externals) (b : L1ReceiptBuilder) (seed : Option Bytes) :
    Except PyExc L1Receipt := do
  let receipt ← b.receipt.alignTimes
  match seed with
  | some seed => do
    receipt.checkBindings
    receipt.checkTimes X
    signL1Receipt X receipt seed
  | none => do
    receipt.checkTimes X
    return receipt

/-! ## Building a signed receipt -/

namespace Binary64

/-- One second. -/
def oneSecond : Binary64 := .ofSmallInt 1 L1Receipt.abs_oneSecond_lt

/-- Whether a positive `issued` is less than a second after `timestamp`. -/
def justAfter (issued timestamp : Binary64) : Bool :=
  PyNum.lt (.int 0) (.float issued) && (PyNum.lt (.int 0) (.float (issued.sub timestamp))
    && PyNum.lt (.float (issued.sub timestamp)) (.float oneSecond))

/-- Whether `timestamp` precedes a positive `issued`. -/
def precedes (timestamp issued : Binary64) : Bool :=
  PyNum.lt (.int 0) (.float issued) && PyNum.lt (.float timestamp) (.float issued)

/-- The times of a receipt that can be built: the timestamp does not precede the issue, or by less
than a second. -/
def InTime (issued timestamp : Binary64) : Prop :=
  justAfter issued timestamp = true ∨ precedes timestamp issued = false

end Binary64

namespace L1Receipt

open Binary64

variable {X : Externals} {r : L1Receipt} {issued timestamp expires : Binary64}

/-- For two floats the comparison is `justAfter`. -/
theorem issuedJustAfter_eq (hissued : r.attr .issuedAt = .float issued)
    (htimestamp : r.attr .timestamp = .float timestamp) :
    r.issuedJustAfter = .ok (justAfter issued timestamp) := by
  have hpos : (r.attr .issuedAt).gt (.int 0) = .ok (PyNum.lt (.int 0) (.float issued)) := by
    rw [hissued]
    rfl
  have hahead : (r.attr .issuedAt).sub (r.attr .timestamp) = .ok (.float (issued.sub timestamp)) :=
    by rw [hissued, htimestamp]; rfl
  have hzero : (PyVal.int 0).lt (.float (issued.sub timestamp)) =
      .ok (PyNum.lt (.int 0) (.float (issued.sub timestamp))) := rfl
  rw [issuedJustAfter, hpos, justAfter]
  -- without a time of issue nothing is subtracted
  cases PyNum.lt (.int 0) (.float issued) with
  | false => rfl
  | true =>
    simp only [hahead, hzero, bind, Except.bind, ↓reduceIte]
    cases PyNum.lt (.int 0) (.float (issued.sub timestamp)) <;> rfl

/-- For two floats the comparison is `precedes`. -/
theorem precedesIssue_eq (hissued : r.attr .issuedAt = .float issued)
    (htimestamp : r.attr .timestamp = .float timestamp) :
    r.precedesIssue = .ok (precedes timestamp issued) := by
  have hpos : (r.attr .issuedAt).gt (.int 0) = .ok (PyNum.lt (.int 0) (.float issued)) := by
    rw [hissued]
    rfl
  have hlt : (r.attr .timestamp).lt (r.attr .issuedAt) =
      .ok (PyNum.lt (.float timestamp) (.float issued)) := by
    rw [hissued, htimestamp]
    rfl
  rw [precedesIssue, hpos, precedes]
  cases PyNum.lt (.int 0) (.float issued) with
  | false => rfl
  | true => exact hlt

/-- The receipt that `build` goes on with. -/
def aligned (r : L1Receipt) (issued timestamp : Binary64) : L1Receipt :=
  if justAfter issued timestamp then
    (r.set .timestamp (.float issued)).set .verifiedAt (.float issued)
  else r

/-- For two floats the timestamps are aligned. -/
theorem alignTimes_eq (hissued : r.attr .issuedAt = .float issued)
    (htimestamp : r.attr .timestamp = .float timestamp) :
    r.alignTimes = .ok (r.aligned issued timestamp) := by
  rw [alignTimes, issuedJustAfter_eq hissued htimestamp, aligned, hissued]
  cases justAfter issued timestamp <;> rfl

/-- Only the timestamp and the time of verification are moved. -/
theorem attr_aligned {f : ReceiptField} (htimestamp : f ≠ .timestamp) (hverified : f ≠ .verifiedAt) :
    (r.aligned issued timestamp).attr f = r.attr f := by
  unfold aligned
  split
  · rw [attr_set_of_ne hverified, attr_set_of_ne htimestamp]
  · rfl

/-- Every field is kept or takes the time of issue. -/
theorem attr_aligned_or (hissued : r.attr .issuedAt = .float issued) (timestamp : Binary64)
    (f : ReceiptField) :
    (r.aligned issued timestamp).attr f = r.attr f ∨
      (r.aligned issued timestamp).attr f = r.attr .issuedAt := by
  unfold aligned
  split
  · by_cases hfv : f = .verifiedAt
    · exact .inr (by rw [hfv, attr_set_self, hissued])
    by_cases hft : f = .timestamp
    · exact .inr (by rw [hft, attr_set_of_ne (by decide), attr_set_self, hissued])
    exact .inl (by rw [attr_set_of_ne hfv, attr_set_of_ne hft])
  · exact .inl rfl

/-- The bindings pass when three fields are not empty and the expiry is positive. -/
theorem checkBindings_eq_ok_iff (hexpires : r.attr .expiresAt = .float expires) :
    r.checkBindings = .ok () ↔ (r.attr .issuer).truthy = true ∧ (r.attr .audience).truthy = true ∧
      (r.attr .action).truthy = true ∧ PyNum.le (.float expires) (.int 0) = false := by
  have hle : (r.attr .expiresAt).le (.int 0) = .ok (PyNum.le (.float expires) (.int 0)) := by
    rw [hexpires]
    rfl
  rw [checkBindings, hle]
  simp only [bind, Except.bind]
  cases (r.attr .issuer).truthy <;> cases (r.attr .audience).truthy <;>
    cases (r.attr .action).truthy <;> cases PyNum.le (.float expires) (.int 0) <;>
    simp [PyExc.value, pure, Except.pure]

/-- The times pass unless the receipt precedes its issue by more than a second. -/
theorem checkTimes_eq_ok_iff (hissued : r.attr .issuedAt = .float issued)
    (htimestamp : r.attr .timestamp = .float timestamp) :
    r.checkTimes X = .ok () ↔ precedes timestamp issued = false := by
  rw [checkTimes, precedesIssue_eq hissued htimestamp]
  cases precedes timestamp issued <;> simp [PyExc.value, pure, Except.pure, bind, Except.bind]

end L1Receipt

/-- No number is less than itself. -/
theorem PyNum.lt_self (a : PyNum) : a.lt a = false := by
  unfold lt
  cases a.ext <;> simp

namespace L1ReceiptBuilder

open L1Receipt Binary64

variable {X : Externals} {r s : L1Receipt} {issued timestamp expires : Binary64} {seed : Bytes}

/-- What `build` with a key checks before it signs, and what it signs. -/
theorem build_eq_ok_iff (hissued : r.attr .issuedAt = .float issued)
    (htimestamp : r.attr .timestamp = .float timestamp)
    (hexpires : r.attr .expiresAt = .float expires) :
    build X ⟨r⟩ (some seed) = .ok s ↔ InTime issued timestamp ∧
      (r.attr .issuer).truthy = true ∧ (r.attr .audience).truthy = true ∧
      (r.attr .action).truthy = true ∧ PyNum.le (.float expires) (.int 0) = false ∧
      signL1Receipt X (r.aligned issued timestamp) seed = .ok s := by
  have hexpiry : (r.aligned issued timestamp).attr .expiresAt = .float expires := by
    rw [attr_aligned (by decide) (by decide), hexpires]
  have hbindings := checkBindings_eq_ok_iff hexpiry
  rw [attr_aligned (by decide) (by decide), attr_aligned (by decide) (by decide),
    attr_aligned (by decide) (by decide)] at hbindings
  have htimes : (r.aligned issued timestamp).checkTimes X = .ok () ↔ InTime issued timestamp := by
    unfold aligned InTime
    cases hjust : justAfter issued timestamp with
    | false => simpa using checkTimes_eq_ok_iff hissued htimestamp
    | true =>
      -- times that were moved are equal, so neither precedes the other
      have hself : precedes issued issued = false := by
        rw [precedes, PyNum.lt_self, Bool.and_false]
      have hkept : ((r.set .timestamp (.float issued)).set .verifiedAt (.float issued)).attr
          .issuedAt = .float issued := by
        rw [attr_set_of_ne (by decide), attr_set_of_ne (by decide), hissued]
      have hmoved : ((r.set .timestamp (.float issued)).set .verifiedAt (.float issued)).attr
          .timestamp = .float issued := by
        rw [attr_set_of_ne (by decide), attr_set_self]
      rw [if_pos rfl, checkTimes_eq_ok_iff hkept hmoved]
      simpa using hself
  simp only [build, alignTimes_eq hissued htimestamp, Except.bind_eq_ok_iff, Except.ok.injEq,
    exists_eq_left']
  constructor
  · rintro ⟨_, hb, _, ht, hsign⟩
    obtain ⟨hi, ha, hact, he⟩ := hbindings.mp hb
    exact ⟨htimes.mp ht, hi, ha, hact, he, hsign⟩
  · rintro ⟨ht, hi, ha, hact, he, hsign⟩
    exact ⟨(), hbindings.mpr ⟨hi, ha, hact, he⟩, (), htimes.mpr ht, hsign⟩

/-- When `build` with a key returns, for a receipt with finite readings of the clock. -/
theorem build_isOk_iff (hjcs : X.JcsAccepts) (hseed : seed.length = 32)
    (hjson : ∀ f, f.isSignature = false → (r.attr f).plain.IsJson)
    (hissued : r.attr .issuedAt = .float issued)
    (htimestamp : r.attr .timestamp = .float timestamp) (hfinite : timestamp.isFinite = true)
    {verifiedAt : Binary64} (hverified : r.attr .verifiedAt = .float verifiedAt)
    (hverifiedFinite : verifiedAt.isFinite = true) (hexpires : r.attr .expiresAt = .float expires) :
    (∃ s, build X ⟨r⟩ (some seed) = .ok s) ↔ InTime issued timestamp ∧
      (r.attr .issuer).truthy = true ∧ (r.attr .audience).truthy = true ∧
      (r.attr .action).truthy = true ∧ PyNum.le (.float expires) (.int 0) = false ∧
      ∀ f, f.isSignature = false → (r.attr f).plain.Canonical := by
  have hclock : (PyVal.float timestamp).Canonical ∧ (PyVal.float verifiedAt).Canonical :=
    ⟨PyVal.canonical_float.mpr hfinite, PyVal.canonical_float.mpr hverifiedFinite⟩
  -- moving the times puts `issued_at` in the place of two finite floats
  have hfields : ∀ P : PyVal → Prop, P (.float timestamp) → P (.float verifiedAt) →
      ((∀ f, f.isSignature = false → P ((r.aligned issued timestamp).attr f).plain) ↔
        ∀ f, f.isSignature = false → P (r.attr f).plain) := by
    intro P ht hv
    constructor
    · intro h f hf
      by_cases hft : f = .timestamp
      · rwa [hft, htimestamp]
      by_cases hfv : f = .verifiedAt
      · rwa [hfv, hverified]
      rw [← attr_aligned hft hfv]
      exact h f hf
    · intro h f hf
      rcases attr_aligned_or hissued timestamp f with heq | heq
      · rw [heq]
        exact h f hf
      · rw [heq]
        exact h .issuedAt rfl
  have hsign : (∃ s, signL1Receipt X (r.aligned issued timestamp) seed = .ok s) ↔
      ∀ f, f.isSignature = false → (r.attr f).plain.Canonical := by
    rw [signL1Receipt_isOk_iff hjcs hseed, hfields _ hclock.1 hclock.2]
    exact (hfields _ (.float _) (.float _)).mpr hjson
  simp only [build_eq_ok_iff hissued htimestamp hexpires, exists_and_left, hsign]

end L1ReceiptBuilder
