import CcsVerifier.L1.Builder
import CcsVerifier.L1.ReadBack
import CcsVerifier.L1.StrictLanguage
import CcsVerifier.L1.Trust
import CcsVerifier.Semantics.Machine

/-!
# Runs of the builder

An `L1ReceiptBuilder` as a state machine: its methods are called in any order, with any values, and
`build` may be called several times. A build moves the times of the builder's own receipt, also when
it raises afterwards, and a build without a key returns that very receipt.

* `L1ReceiptBuilder.machine`: the builder and its calls.
* `L1ReceiptBuilder.invariant_run`: the timestamp stays an exact number and the receipt unsigned.
* `L1ReceiptBuilder.build_profile`: what a build returns, at any point of a run.
* `L1ReceiptBuilder.not_readsBack`: an unsigned receipt is not read back from its own dictionary.
-/

/-! ## Exact values -/

namespace PyNum

/-- A number is exactly `q`. -/
def HasValue (n : PyNum) (q : ℚ) : Prop := n.ext = some ((q : WithTop ℚ) : WithBot (WithTop ℚ))

/-- A number has one value. -/
theorem HasValue.unique {n : PyNum} {p q : ℚ} (hp : n.HasValue p) (hq : n.HasValue q) : p = q := by
  have h := hp.symm.trans hq
  simpa using h

/-- Comparison is by value. -/
theorem HasValue.lt_iff {m n : PyNum} {p q : ℚ} (hm : m.HasValue p) (hn : n.HasValue q) :
    m.lt n = true ↔ p < q := by
  rw [HasValue] at hm hn
  simp [lt, hm, hn]

theorem hasValue_int (z : ℤ) : (PyNum.int z).HasValue z := rfl

/-- A number strictly between the integer 0 and one second has an exact value. -/
theorem exists_rat_between {d : PyNum} (hpos : lt (.int 0) d = true)
    (hlt : d.lt (.float Binary64.oneSecond) = true) :
    ∃ q : ℚ, d.HasValue q ∧ 0 < q ∧ q < 1 := by
  unfold lt at hpos hlt
  cases hd : d.ext with
  | none =>
    rw [hd] at hlt
    cases hlt
  | some e =>
    rw [hd] at hpos hlt
    have hzero := of_decide_eq_true hpos
    have hone := of_decide_eq_true hlt
    -- the infinities lie outside
    induction e using WithBot.recBotCoe with
    | bot => exact absurd hzero (not_lt_bot)
    | coe e =>
      induction e using WithTop.recTopCoe with
      | top => exact absurd hone (not_lt.mpr (WithBot.coe_le_coe.mpr le_top))
      | coe q =>
        refine ⟨q, hd, ?_, ?_⟩
        · simpa using hzero
        · have h1 : (q : WithTop ℚ) < ((1 : ℤ) : ℚ) := WithBot.coe_lt_coe.mp hone
          simpa using WithTop.coe_lt_coe.mp h1

/-- A number whose value is representable is converted exactly. -/
theorem toBinary64_of_representable {n : PyNum} {q : ℚ} (hn : n.HasValue q)
    (hq : Representable q) : ∃ x, n.toBinary64 = .ok x ∧ x.toRat? = some q := by
  cases n with
  | int z =>
    obtain rfl : (z : ℚ) = q := (hasValue_int z).unique hn
    exact ⟨_, toBinary64_int (Binary64.round_of_representable hq), rfl⟩
  | float x => exact ⟨x, rfl, Binary64.toRat?_eq_some_iff_ext.mpr hn⟩

/-- A positive integer that is less than one above a representable number, once converted to a
double, is a double itself: a larger one would be converted to an integer, and so is every double
that close to it. -/
theorem representable_of_between {z : ℤ} {q : ℚ} (hq : Representable q)
    (hround : Representable (roundToGrid z)) (hz : 0 < z) (hpos : 0 < roundToGrid z - q)
    (hlt : roundToGrid z - q < 1) : Representable z := by
  obtain hsmall | hbig := lt_or_ge z (2 ^ 53)
  · exact Representable.intCast (abs_lt.mpr ⟨by omega, hsmall⟩)
  · have hbound : Representable ((2 : ℚ) ^ 53) := ⟨1, 53, by norm_num, by norm_num, by norm_num, by
      norm_num⟩
    have hle : (2 : ℚ) ^ 53 ≤ roundToGrid z := le_roundToGrid hbound (by exact_mod_cast hbig)
    obtain ⟨m, hm⟩ := hround.exists_int (by linarith)
    obtain ⟨n, hn⟩ := hq.exists_int (by linarith)
    -- two integers are not less than one apart
    rw [hm, hn] at hpos hlt
    have hpos' : n < m := by exact_mod_cast sub_pos.mp hpos
    have hlt' : m < n + 1 := by exact_mod_cast sub_lt_iff_lt_add'.mp hlt
    omega

/-- When a positive number is found to be less than a second after one with a representable value,
it is so exactly, and its own value is representable. -/
theorem sub_between {a b d : PyNum} {q : ℚ} (hb : b.HasValue q) (hq : Representable q)
    (ha : lt (.int 0) a = true) (hd : a.sub b = .ok d) (hpos : lt (.int 0) d = true)
    (hlt : d.lt (.float Binary64.oneSecond) = true) :
    ∃ p : ℚ, a.HasValue p ∧ Representable p ∧ 0 < p - q ∧ p - q < 1 := by
  obtain ⟨e, he, hepos, helt⟩ := exists_rat_between hpos hlt
  by_cases hint : ∃ m n, a = .int m ∧ b = .int n
  · -- the difference of two integers is an integer
    obtain ⟨m, n, rfl, rfl⟩ := hint
    cases hd
    obtain rfl : ((m - n : ℤ) : ℚ) = e := (hasValue_int _).unique he
    have hpos' : 0 < m - n := by exact_mod_cast hepos
    have hlt' : m - n < 1 := by exact_mod_cast helt
    omega
  · obtain ⟨x, hx, y, hy, rfl⟩ : ∃ x, a.toBinary64 = .ok x ∧ ∃ y, b.toBinary64 = .ok y ∧
        d = .float (x.sub y) := by
      unfold sub arith at hd
      split at hd
      · next m n => exact absurd ⟨m, n, rfl, rfl⟩ hint
      · obtain ⟨x, hx, hd⟩ := Except.bind_eq_ok_iff.mp hd
        obtain ⟨y, hy, hd⟩ := Except.bind_eq_ok_iff.mp hd
        cases hd
        exact ⟨x, hx, y, hy, rfl⟩
    obtain ⟨y', hy', hyq⟩ := toBinary64_of_representable hb hq
    cases hy.symm.trans hy'
    have hfinite : (x.sub y).toRat? = some e := Binary64.toRat?_eq_some_iff_ext.mpr he
    obtain ⟨p, hp⟩ := Option.isSome_iff_exists.mp (Binary64.isFinite_of_sub hfinite)
    -- a rounded difference strictly between 0 and 1 is one of the exact difference
    have hround : (Binary64.round (p - q)).toRat? = some e := by
      rw [Binary64.toRat?_eq_some_iff_ext, ← Binary64.ext_sub hp hyq]
      exact he
    obtain ⟨hppos, hplt⟩ := Binary64.between_of_round hround hepos helt
    have hrepr := Binary64.representable_of_toRat? hp
    -- a float is its own value, and an integer is not rounded when it is this close
    cases a with
    | float x' =>
      cases hx
      exact ⟨p, Binary64.toRat?_eq_some_iff_ext.mp hp, hrepr, hppos, hplt⟩
    | int z =>
      obtain rfl : roundToGrid z = p := by
        rw [eq_double_of_toBinary64 hx, double, Binary64.round] at hp
        split at hp
        · exact Option.some.inj hp
        · cases hp
      have hz : 0 < z := by
        have hlt := ((hasValue_int 0).lt_iff (hasValue_int z)).mp ha
        exact_mod_cast hlt
      have hexact := representable_of_between hq hrepr hz hppos hplt
      rw [roundToGrid_eq_self hexact] at hppos hplt
      exact ⟨z, hasValue_int z, hexact, hppos, hplt⟩

end PyNum

/-- A value stands for the number `q`. -/
def PyVal.HasValue (v : PyVal) (q : ℚ) : Prop := ∃ n, v.num? = some n ∧ n.HasValue q

/-- A value has one rational value at most. -/
theorem PyVal.HasValue.unique {v : PyVal} {p q : ℚ} (hp : v.HasValue p) (hq : v.HasValue q) :
    p = q := by
  obtain ⟨m, hm, hmp⟩ := hp
  obtain ⟨n, hn, hnq⟩ := hq
  cases hm.symm.trans hn
  exact hmp.unique hnq

/-- A value is compared with the integer 0 by what it stands for. -/
theorem PyVal.HasValue.gt_zero_iff {v : PyVal} {q : ℚ} (h : v.HasValue q) :
    v.gt (.int 0) = .ok true ↔ 0 < q := by
  obtain ⟨n, hn, hq⟩ := h
  have hzero : PyNum.lt (.int 0) n = true ↔ 0 < q := by
    rw [(PyNum.hasValue_int 0).lt_iff hq, Int.cast_zero]
  rw [← hzero, gt, compare, hn]
  simp [num?]

/-! ## Aligned times -/

namespace L1Receipt

variable {X : Externals} {r s : L1Receipt} {q : ℚ}

/-- Exactly, `issued_at` is positive and less than a second after the timestamp. -/
def JustIssued (r : L1Receipt) : Prop :=
  ∃ issued timestamp : ℚ, (r.attr .issuedAt).HasValue issued ∧
    (r.attr .timestamp).HasValue timestamp ∧ 0 < issued ∧ 0 < issued - timestamp ∧
    issued - timestamp < 1

/-- Aligning the times moves them both to `issued_at`, or does nothing. -/
theorem alignTimes_cases (h : r.alignTimes = .ok s) :
    (r.issuedJustAfter = .ok true ∧
      s = (r.set .timestamp (r.attr .issuedAt)).set .verifiedAt (r.attr .issuedAt)) ∨
    (r.issuedJustAfter = .ok false ∧ s = r) := by
  unfold alignTimes at h
  obtain ⟨just, hjust, h⟩ := Except.bind_eq_ok_iff.mp h
  cases just with
  | true =>
    cases h
    exact .inl ⟨hjust, rfl⟩
  | false =>
    cases h
    exact .inr ⟨hjust, rfl⟩

/-- What the computed condition says, for a timestamp with a representable value. -/
theorem justIssued_of_issuedJustAfter (h : r.issuedJustAfter = .ok true)
    (htimestamp : (r.attr .timestamp).HasValue q) (hq : Representable q) :
    r.JustIssued ∧ ∃ p, (r.attr .issuedAt).HasValue p ∧ Representable p := by
  unfold issuedJustAfter at h
  obtain ⟨positive, hpositive, h⟩ := Except.bind_eq_ok_iff.mp h
  cases positive with
  | false => cases h
  | true =>
    obtain ⟨ahead, hahead, h⟩ := Except.bind_eq_ok_iff.mp h
    obtain ⟨after, hafter, h⟩ := Except.bind_eq_ok_iff.mp h
    cases after with
    | false => cases h
    | true =>
      obtain ⟨a, b, d, ha, hb, hd, rfl⟩ := PyVal.arith_eq_ok_iff.mp hahead
      obtain ⟨b', hb', hbq⟩ := htimestamp
      cases hb.symm.trans hb'
      obtain ⟨a', z, ha', hz, hpos⟩ := PyVal.compare_eq_ok_iff.mp hpositive
      cases ha.symm.trans ha'
      cases hz
      obtain ⟨z, d', hz, hd', hdpos⟩ := PyVal.compare_eq_ok_iff.mp hafter
      rw [PyVal.num?_toVal] at hd'
      cases hz
      cases hd'
      obtain ⟨d', one, hd', hone, hdlt⟩ := PyVal.compare_eq_ok_iff.mp h
      rw [PyVal.num?_toVal] at hd'
      cases hd'
      cases hone
      -- so close to the timestamp the comparison has not been misled by rounding
      obtain ⟨p, hap, hp, hbetween, hlt⟩ := PyNum.sub_between hbq hq hpos hd hdpos hdlt
      have hppos : 0 < p := by
        simpa using ((PyNum.hasValue_int 0).lt_iff hap).mp hpos
      exact ⟨⟨p, q, ⟨a, ha, hap⟩, ⟨b, hb, hbq⟩, hppos, hbetween, hlt⟩, p, ⟨a, ha, hap⟩, hp⟩

/-- The check of the times passes when the timestamp does not precede a positive `issued_at`. -/
theorem checkTimes_eq_ok_iff_precedesIssue :
    r.checkTimes X = .ok () ↔ r.precedesIssue = .ok false := by
  rw [checkTimes, Except.bind_eq_ok_iff]
  constructor
  · rintro ⟨before, hbefore, h⟩
    cases before with
    | true => cases h
    | false => exact hbefore
  · intro h
    exact ⟨false, h, rfl⟩

/-- A positive `issued_at` is compared with the timestamp. -/
theorem lt_of_precedesIssue (h : r.precedesIssue = .ok false)
    (hpositive : (r.attr .issuedAt).gt (.int 0) = .ok true) :
    (r.attr .timestamp).lt (r.attr .issuedAt) = .ok false := by
  rwa [precedesIssue, hpositive] at h

/-- A receipt that passes the check of the times is not issued after its timestamp. -/
theorem le_of_precedesIssue (h : r.precedesIssue = .ok false)
    (htimestamp : (r.attr .timestamp).HasValue q)
    (hpositive : (r.attr .issuedAt).gt (.int 0) = .ok true) :
    (r.attr .issuedAt).le (r.attr .timestamp) = .ok true := by
  obtain ⟨t, i, ht, hi, hlt⟩ := PyVal.compare_eq_ok_iff.mp (lt_of_precedesIssue h hpositive)
  obtain ⟨i', zero, hi', hzero, hpos⟩ := PyVal.compare_eq_ok_iff.mp hpositive
  obtain ⟨t', ht', htq⟩ := htimestamp
  cases hi.symm.trans hi'
  cases ht.symm.trans ht'
  refine PyVal.compare_eq_ok_iff.mpr ⟨i, t, hi, ht, ?_⟩
  have hsome : i.ext.isSome = true := by
    -- a NaN is not positive
    cases hext : i.ext with
    | some x => rfl
    | none =>
      cases hzero
      rw [PyNum.lt, hext] at hpos
      cases hpos
  rw [PyNum.le_eq_not_lt hsome (Option.isSome_iff_exists.mpr ⟨_, htq⟩), hlt]
  rfl

/-- A receipt that passes the check of the times is not just issued. -/
theorem not_justIssued_of_precedesIssue (h : r.precedesIssue = .ok false) : ¬r.JustIssued := by
  rintro ⟨issued, timestamp, hissued, htimestamp, hpos, hbetween, -⟩
  have hlt := lt_of_precedesIssue h (hissued.gt_zero_iff.mpr hpos)
  obtain ⟨t, i, ht, hi, hlt⟩ := PyVal.compare_eq_ok_iff.mp hlt
  obtain ⟨t', ht', htq⟩ := htimestamp
  obtain ⟨i', hi', hip⟩ := hissued
  cases ht.symm.trans ht'
  cases hi.symm.trans hi'
  have hless := (htq.lt_iff hip).mpr (sub_pos.mp hbetween)
  rw [hlt] at hless
  cases hless

/-- The receipt `s` has the fields of `r` that no signature fills in, but for the two times, which
are moved to `issued_at` exactly when `r` is just issued. -/
structure AlignedFrom (r s : L1Receipt) : Prop where
  /-- The times of a receipt that is just issued. -/
  moved : r.JustIssued →
    s.attr .timestamp = r.attr .issuedAt ∧ s.attr .verifiedAt = r.attr .issuedAt
  /-- The times of any other receipt. -/
  kept : ¬r.JustIssued →
    s.attr .timestamp = r.attr .timestamp ∧ s.attr .verifiedAt = r.attr .verifiedAt
  /-- All other fields. -/
  other : ∀ f : ReceiptField, f ≠ .timestamp → f ≠ .verifiedAt → f.isSignature = false →
    s.attr f = r.attr f

/-- Aligning the times and checking them. -/
theorem alignedFrom_of_checkTimes (halign : r.alignTimes = .ok s) (hcheck : s.checkTimes X = .ok ())
    (htimestamp : (r.attr .timestamp).HasValue q) (hq : Representable q) :
    r.AlignedFrom s ∧ ((s.attr .issuedAt).gt (.int 0) = .ok true →
      (s.attr .issuedAt).le (s.attr .timestamp) = .ok true) := by
  have hprecedes := checkTimes_eq_ok_iff_precedesIssue.mp hcheck
  obtain ⟨hjust, rfl⟩ | ⟨-, rfl⟩ := alignTimes_cases halign
  · obtain ⟨hissued, p, hp, -⟩ := justIssued_of_issuedJustAfter hjust htimestamp hq
    -- both times are moved to the time of issue
    have hmoved : ((r.set .timestamp (r.attr .issuedAt)).set .verifiedAt
        (r.attr .issuedAt)).attr .timestamp = r.attr .issuedAt := by
      rw [attr_set_of_ne (by decide), attr_set_self]
    refine ⟨⟨fun _ => ⟨hmoved, attr_set_self ..⟩, fun hnot => absurd hissued hnot, ?_⟩, ?_⟩
    · intro f hft hfv _
      rw [attr_set_of_ne hfv, attr_set_of_ne hft]
    · exact le_of_precedesIssue (q := p) hprecedes (hmoved ▸ hp)
  -- nothing is moved, and the check says that the receipt is not just issued
  · have hnot := not_justIssued_of_precedesIssue hprecedes
    exact ⟨⟨fun hissued => absurd hissued hnot, fun _ => ⟨rfl, rfl⟩, fun _ _ _ _ => rfl⟩,
      le_of_precedesIssue hprecedes htimestamp⟩

end L1Receipt

/-! ## Calls -/

namespace L1ReceiptBuilder

/-- `L1ReceiptBuilder(trace_id, verdict)`, for a verdict of any type; a `Verdict` counts as its
string. -/
def ofVerdict (env : ReceiptDefaults) (traceId verdict : PyVal) : L1ReceiptBuilder where
  receipt :=
    { attr := fun f =>
        match f with
        | .traceId => traceId
        | .verdict => verdict
        | f => (f.default? env).getD .none }

theorem new_eq_ofVerdict (env : ReceiptDefaults) (traceId : PyVal) (verdict : Verdict) :
    new env traceId verdict = ofVerdict env traceId (.str verdict.value) := rfl

/-- A call of a method of the builder. -/
inductive Call where
  | tool (tool : PyVal)
  | toolCallId (toolCallId : PyVal)
  | paramsHash (paramsHash : PyVal)
  | argsDigest (args : PyVal)
  | ruleSummary (summary : PyVal)
  | ruleVersion (version : PyVal)
  | requestHash (request : PyVal)
  | responseHash (response : PyVal)
  | runtimeContext (context : PyVal)
  | configHash (config : PyVal)
  | verifierSourceClass (sourceClass : PyVal)
  | deploymentMode (mode : PyVal)
  | issuer (issuer : PyVal)
  | audience (audience : PyVal)
  | nonce (nonce : PyVal)
  | sequence (seq : PyVal)
  | timeBounds (issuedAt expiry clockSkew : PyVal)
  | action (action : PyVal)
  | latencyUs (latency : PyVal)
  | build (privateKeySeed : Option Bytes)

/-- A setter that hashes its argument leaves the builder alone when hashing raises. -/
def hashed (b : L1ReceiptBuilder) :
    Except PyExc L1ReceiptBuilder → Except PyExc (Option L1Receipt) × L1ReceiptBuilder
  | .ok next => (.ok none, next)
  | .error e => (.error e, b)

/-- The builder after `build`: its own receipt has its times aligned, unless that raises. -/
def afterBuild (b : L1ReceiptBuilder) : L1ReceiptBuilder :=
  match b.receipt.alignTimes with
  | .ok receipt => ⟨receipt⟩
  | .error _ => b

variable (X : Externals)

/-- A call returns the builder itself (`none`) or a receipt, or raises, and changes the builder. -/
def step (b : L1ReceiptBuilder) : Call → Except PyExc (Option L1Receipt) × L1ReceiptBuilder
  | .tool v => (.ok none, b.tool v)
  | .toolCallId v => (.ok none, b.toolCallId v)
  | .paramsHash v => (.ok none, b.paramsHash v)
  | .argsDigest v => b.hashed (argsDigest X b v)
  | .ruleSummary v => (.ok none, b.ruleSummary v)
  | .ruleVersion v => (.ok none, b.ruleVersion v)
  | .requestHash v => b.hashed (requestHash X b v)
  | .responseHash v => b.hashed (responseHash X b v)
  | .runtimeContext v => b.hashed (runtimeContext X b v)
  | .configHash v => b.hashed (configHash X b v)
  | .verifierSourceClass v => (.ok none, b.verifierSourceClass v)
  | .deploymentMode v => (.ok none, b.deploymentMode v)
  | .issuer v => (.ok none, b.issuer v)
  | .audience v => (.ok none, b.audience v)
  | .nonce v => (.ok none, b.nonce v)
  | .sequence v => (.ok none, b.sequence v)
  | .timeBounds issuedAt expiry clockSkew => (.ok none, b.timeBounds issuedAt expiry clockSkew)
  | .action v => (.ok none, b.action v)
  | .latencyUs v => (.ok none, b.latencyUs v)
  | .build seed => ((b.build X seed).map some, b.afterBuild)

/-- The builder and its calls. -/
def machine : Machine L1ReceiptBuilder Call (Except PyExc (Option L1Receipt)) := ⟨step X⟩

end L1ReceiptBuilder

/-- The fields without a setter. -/
def ReceiptField.isFixed : ReceiptField → Bool
  | .traceId | .receiptVersion | .verdict | .timestamp | .signature | .signingAlgorithm
  | .publicKeyFingerprint | .publicKey | .verifiedAt => true
  | _ => false

namespace L1ReceiptBuilder

variable {X : Externals} {b : L1ReceiptBuilder} {f : ReceiptField}

/-- Setting a field leaves the fixed fields alone. -/
theorem attr_setField {g : ReceiptField} (hg : g.isFixed = false) (hf : f.isFixed = true)
    (b : L1ReceiptBuilder) (v : PyVal) : (b.setField g v).receipt.attr f = b.receipt.attr f := by
  refine L1Receipt.attr_set_of_ne ?_ b.receipt v
  rintro rfl
  rw [hf] at hg
  cases hg

/-- So does a hash that is stored in one. -/
theorem attr_hashed {g : ReceiptField} (hg : g.isFixed = false) (hf : f.isFixed = true)
    (b : L1ReceiptBuilder) (v : PyVal) :
    (b.hashed (setHash g X b v)).2.receipt.attr f = b.receipt.attr f := by
  cases hset : setHash g X b v with
  | error e => rfl
  | ok next =>
    obtain ⟨hash, -, hnext⟩ := Except.bind_eq_ok_iff.mp hset
    cases hnext
    exact attr_setField hg hf b _

/-- A call other than `build` leaves the fields without a setter alone. -/
theorem attr_step_of_isFixed {c : Call} (hc : ∀ seed, c ≠ .build seed) (hf : f.isFixed = true) :
    (step X b c).2.receipt.attr f = b.receipt.attr f := by
  cases c with
  | build seed => exact absurd rfl (hc seed)
  | timeBounds issuedAt expiry clockSkew =>
    have hne : f ≠ .issuedAt ∧ f ≠ .expiresAt ∧ f ≠ .maxClockSkew := by
      refine ⟨?_, ?_, ?_⟩ <;> (rintro rfl; cases hf)
    rw [step, timeBounds, L1Receipt.attr_set_of_ne hne.2.2, L1Receipt.attr_set_of_ne hne.2.1,
      L1Receipt.attr_set_of_ne hne.1]
  | _ => first | exact attr_setField rfl hf b _ | exact attr_hashed rfl hf b _

/-- What no call can spoil: the timestamp has a representable value, the receipt has the version of
the code, and there is no signature or fingerprint in it. -/
structure Invariant (b : L1ReceiptBuilder) : Prop where
  /-- The timestamp is a number with a representable value. -/
  timestamp : ∃ q, Representable q ∧ (b.receipt.attr .timestamp).HasValue q
  /-- The version is that of the code. -/
  version : b.receipt.attr .receiptVersion = .str L1.receiptVersion
  /-- There is no signature. -/
  unsigned : b.receipt.attr .signature = .str []
  /-- There is no fingerprint. -/
  anonymous : b.receipt.attr .publicKeyFingerprint = .str []

/-- A new builder keeps the invariant. -/
theorem invariant_ofVerdict (env : ReceiptDefaults) (traceId verdict : PyVal) :
    (ofVerdict env traceId verdict).Invariant where
  timestamp := ⟨env.timestamp.val, env.timestamp.representable, _, rfl, rfl⟩
  version := rfl
  unsigned := rfl
  anonymous := rfl

/-- A build moves the times only, and the timestamp only to a representable value. -/
theorem invariant_afterBuild (h : b.Invariant) : b.afterBuild.Invariant := by
  unfold afterBuild
  cases halign : b.receipt.alignTimes with
  | error e => exact h
  | ok r =>
    obtain ⟨q, hq, htimestamp⟩ := h.timestamp
    obtain ⟨hjust, rfl⟩ | ⟨-, rfl⟩ := L1Receipt.alignTimes_cases halign
    · obtain ⟨-, p, hp, hrepr⟩ := L1Receipt.justIssued_of_issuedJustAfter hjust htimestamp hq
      -- `build` moves the two times of the receipt that the builder keeps
      have hother : ∀ g : ReceiptField, g ≠ .timestamp → g ≠ .verifiedAt →
          ((b.receipt.set .timestamp (b.receipt.attr .issuedAt)).set .verifiedAt
            (b.receipt.attr .issuedAt)).attr g = b.receipt.attr g := fun g hgt hgv => by
        rw [L1Receipt.attr_set_of_ne hgv, L1Receipt.attr_set_of_ne hgt]
      refine ⟨⟨p, hrepr, ?_⟩, ?_, ?_, ?_⟩
      · rwa [L1Receipt.attr_set_of_ne (by decide), L1Receipt.attr_set_self]
      · rw [hother _ (by decide) (by decide), h.version]
      · rw [hother _ (by decide) (by decide), h.unsigned]
      · rw [hother _ (by decide) (by decide), h.anonymous]
    · exact h

/-- Every call keeps the invariant. -/
theorem invariant_step (h : b.Invariant) (c : Call) : (step X b c).2.Invariant := by
  by_cases hbuild : ∃ seed, c = .build seed
  · obtain ⟨seed, rfl⟩ := hbuild
    exact invariant_afterBuild h
  · have hc : ∀ seed, c ≠ .build seed := fun seed heq => hbuild ⟨seed, heq⟩
    refine ⟨?_, ?_, ?_, ?_⟩
    · rw [attr_step_of_isFixed hc rfl]
      exact h.timestamp
    · rw [attr_step_of_isFixed hc rfl, h.version]
    · rw [attr_step_of_isFixed hc rfl, h.unsigned]
    · rw [attr_step_of_isFixed hc rfl, h.anonymous]

/-- The invariant holds after every run. -/
theorem invariant_run (env : ReceiptDefaults) (traceId verdict : PyVal) (calls : List Call) :
    ((machine X).final (ofVerdict env traceId verdict) calls).Invariant :=
  Machine.run_induction (P := fun _ b => Invariant b) (invariant_ofVerdict env traceId verdict)
    (fun _ _ c h => invariant_step h c) calls

end L1ReceiptBuilder

/-! ## What a build returns -/

/-- The bindings that a receipt to be signed must have. -/
theorem L1Receipt.checkBindings_eq_ok_iff_le {r : L1Receipt} : r.checkBindings = .ok () ↔
    (r.attr .issuer).truthy = true ∧ (r.attr .audience).truthy = true ∧
      (r.attr .action).truthy = true ∧ (r.attr .expiresAt).le (.int 0) = .ok false := by
  rw [checkBindings]
  cases (r.attr .expiresAt).le (.int 0) with
  | error e => simp [bind, Except.bind]
  | ok expired =>
    simp only [bind, Except.bind]
    cases (r.attr .issuer).truthy <;> cases (r.attr .audience).truthy <;>
      cases (r.attr .action).truthy <;> cases expired <;>
      simp [PyExc.value, pure, Except.pure]

namespace L1ReceiptBuilder

open L1Receipt

variable {X : Externals} {b : L1ReceiptBuilder} {r : L1Receipt} {seed : Option Bytes}

/-- What `build` has done when it returns. -/
theorem build_cases (h : b.build X seed = .ok r) :
    ∃ s, b.receipt.alignTimes = .ok s ∧ s.checkTimes X = .ok () ∧
      ((seed = none ∧ r = s) ∨
        ∃ k, seed = some k ∧ s.checkBindings = .ok () ∧ signL1Receipt X s k = .ok r) := by
  obtain ⟨s, halign, h⟩ := Except.bind_eq_ok_iff.mp h
  cases seed with
  | none =>
    obtain ⟨_, htimes, h⟩ := Except.bind_eq_ok_iff.mp h
    cases h
    exact ⟨r, halign, htimes, .inl ⟨rfl, rfl⟩⟩
  | some k =>
    obtain ⟨_, hbindings, h⟩ := Except.bind_eq_ok_iff.mp h
    obtain ⟨_, htimes, hsign⟩ := Except.bind_eq_ok_iff.mp h
    exact ⟨s, halign, htimes, .inr ⟨k, rfl, hbindings, hsign⟩⟩

/-- The profile of a signed receipt: its bindings are there, it expires after time 0, and it
verifies for the key that it embeds and for the key of the seed. -/
structure SignedProfile (X : Externals) (k : Bytes) (r : L1Receipt) : Prop where
  /-- There is an issuer. -/
  issuer : (r.attr .issuer).truthy = true
  /-- There is an audience. -/
  audience : (r.attr .audience).truthy = true
  /-- There is an action. -/
  action : (r.attr .action).truthy = true
  /-- The expiry is positive. -/
  expires : (r.attr .expiresAt).gt (.int 0) = .ok true
  /-- The signature verifies for the embedded key. -/
  embedded : r.verifySignature X none = true
  /-- The signature verifies for the key of the seed. -/
  derived : ∃ key, getPublicKey X k = .ok key ∧ r.verifySignature X (some key) = true

/-- A receipt that was signed after the check of its bindings meets the profile. -/
theorem signedProfile_of_signL1Receipt {s : L1Receipt} {k : Bytes}
    (hbindings : s.checkBindings = .ok ()) (hsign : signL1Receipt X s k = .ok r)
    (hsigns : ∀ p, r.signingPayload X = .ok p → X.ed25519.SignsCorrectly k p) :
    SignedProfile X k r := by
  obtain ⟨hissuer, haudience, haction, hexpires⟩ := checkBindings_eq_ok_iff_le.mp hbindings
  obtain ⟨hnone, hsome⟩ := verifySignature_of_signL1Receipt hsign hsigns
  obtain ⟨hseed, -⟩ := signL1Receipt_eq_ok_iff.mp hsign
  have hkept := fun f : ReceiptField => attr_of_signL1Receipt (f := f) hsign
  refine ⟨?_, ?_, ?_, ?_, hnone, X.ed25519.publicKey k, if_pos hseed, hsome⟩
  · rwa [hkept .issuer rfl]
  · rwa [hkept .audience rfl]
  · rwa [hkept .action rfl]
  · -- a NaN is not signed, so the expiry is above 0 when it is not at most 0
    obtain ⟨n, zero, hn, hzero, hle⟩ := PyVal.compare_eq_ok_iff.mp hexpires
    cases hzero
    rw [← hkept .expiresAt rfl] at hn
    have hsafe := safe_of_verifySignature hnone (f := .expiresAt) (by decide) hn
    obtain ⟨x, -, hfinite, hext⟩ := hsafe.toBinary64
    have hsome : n.ext.isSome = true := hext ▸ PyNum.isSome_ext_of_isFinite hfinite
    rw [PyNum.le_eq_not_lt hsome rfl, Bool.not_eq_false'] at hle
    exact PyVal.compare_eq_ok_iff.mpr ⟨n, .int 0, hn, rfl, hle⟩

/-- After any calls of the setters and of `build` itself, a build that returns gives a receipt whose
timestamp does not precede a positive `issued_at`. Its fields are those of the builder at the time of
the call, but for the two times, which are moved to `issued_at` exactly when this is positive and
less than a second after the timestamp. With a key the receipt has the profile of a signed one. -/
theorem build_profile {env : ReceiptDefaults} {traceId verdict : PyVal} {calls : List Call}
    (hb : (machine X).final (ofVerdict env traceId verdict) calls = b)
    (hbuild : b.build X seed = .ok r)
    (hsigns : ∀ k p, seed = some k → r.signingPayload X = .ok p →
      X.ed25519.SignsCorrectly k p) :
    ((r.attr .issuedAt).gt (.int 0) = .ok true →
        (r.attr .issuedAt).le (r.attr .timestamp) = .ok true) ∧
      b.receipt.AlignedFrom r ∧ ∀ k, seed = some k → SignedProfile X k r := by
  have hinvariant : b.Invariant := hb ▸ invariant_run env traceId verdict calls
  obtain ⟨q, hq, htimestamp⟩ := hinvariant.timestamp
  obtain ⟨s, halign, htimes, hreturned⟩ := build_cases hbuild
  obtain ⟨haligned, hle⟩ := alignedFrom_of_checkTimes halign htimes htimestamp hq
  obtain ⟨rfl, rfl⟩ | ⟨k, rfl, hbindings, hsign⟩ := hreturned
  · exact ⟨hle, haligned, fun k hk => by cases hk⟩
  · -- signing changes the signature fields only
    have hkept := fun f : ReceiptField => attr_of_signL1Receipt (f := f) hsign
    refine ⟨?_, ?_, ?_⟩
    · rwa [hkept .issuedAt rfl, hkept .timestamp rfl]
    · refine ⟨?_, ?_, ?_⟩
      · rw [hkept .timestamp rfl, hkept .verifiedAt rfl]
        exact haligned.moved
      · rw [hkept .timestamp rfl, hkept .verifiedAt rfl]
        exact haligned.kept
      · intro f hft hfv hf
        rw [hkept f hf]
        exact haligned.other f hft hfv hf
    · intro k' hk'
      cases hk'
      exact signedProfile_of_signL1Receipt hbindings hsign fun p hp => hsigns k p rfl hp

/-! ## Samples -/

/-- Half a second before the reference time. -/
theorem representable_sampleTimestamp : Representable (3786911999 / 2) :=
  ⟨3786911999, -1, by norm_num, by norm_num, by norm_num, by norm_num⟩

/-- A receipt that is created half a second before the reference time. -/
def sampleEnv : ReceiptDefaults where
  timestamp := ⟨_, representable_sampleTimestamp⟩
  nonceBytes := List.replicate 16 0
  verifiedAt := ⟨_, representable_sampleTimestamp⟩
  length_nonceBytes := sampleDefaults.length_nonceBytes

/-- The calls of the sample run, up to the build. -/
def sampleCalls : List Call :=
  [.issuer (.str (text "i")), .audience (.str (text "a")), .action (.str (text "x")),
    .nonce (.str (text "n")),
    .timeBounds (seconds 1893456000 abs_referenceTime_lt) (seconds 1893456300 abs_referenceExpiry_lt)
      (.float .zero)]

/-- The builder after the sample calls. -/
def sample : L1ReceiptBuilder :=
  (machine referenceX).final (ofVerdict sampleEnv (.str (text "t")) (.str (text "allow"))) sampleCalls

/-- The receipt that is signed: its times are moved to the time of issue. -/
def sampleReceipt : L1Receipt :=
  (sample.receipt.set .timestamp (seconds 1893456000 abs_referenceTime_lt)).set .verifiedAt
    (seconds 1893456000 abs_referenceTime_lt)

/-- A signature on it by the reference key. -/
def sampleRecord : SignatureRecord where
  seed := SignatureRecord.reference.seed
  publicKey := SignatureRecord.reference.publicKey
  message := (Jcs.canonicalize (sampleReceipt.signedWith referenceX SignatureRecord.reference.seed
    []).signingData).toOption.getD []
  signature := bytesOfHex
    (text "c837cd5b09c39a4f5dadc45a90405ff1681b360028a5c5f9d7f4e9f75a268518"
    ++ text "65e69fac52c55e9cc90e2eeb66fc10e9081049a9a86cd6a97d61051149a62601")
  length_publicKey := SignatureRecord.reference.length_publicKey
  length_signature := by decide +kernel

/-- The payload of the sample is the recorded message. -/
theorem signingPayload_build_sample :
    (sample.build sampleRecord.externals (some sampleRecord.seed) >>= fun r =>
      r.signingPayload sampleRecord.externals) = .ok sampleRecord.message := by
  decide +kernel

/-- The sample run ends in a receipt that meets the profile, with the times moved. -/
theorem build_profile_sample : ∃ r,
    sample.build sampleRecord.externals (some sampleRecord.seed) = .ok r ∧
      SignedProfile sampleRecord.externals sampleRecord.seed r ∧
      r.attr .timestamp = seconds 1893456000 abs_referenceTime_lt := by
  obtain ⟨r, hbuild, hpayload⟩ := Except.bind_eq_ok_iff.mp signingPayload_build_sample
  have hrun : (machine sampleRecord.externals).final
      (ofVerdict sampleEnv (.str (text "t")) (.str (text "allow"))) sampleCalls = sample := by
    -- none of the calls hashes anything
    simp only [sample, sampleCalls, Machine.final, machine, step]
  obtain ⟨-, haligned, hprofile⟩ := build_profile hrun hbuild fun k p hk hp => by
    rw [← Option.some.inj hk, ← Except.ok.inj (hpayload.symm.trans hp)]
    exact sampleRecord.signsCorrectly
  refine ⟨r, hbuild, hprofile _ rfl, ?_⟩
  have hjust : sample.receipt.JustIssued := by
    refine ⟨1893456000, 3786911999 / 2, ⟨_, rfl, ?_⟩, ⟨_, rfl, rfl⟩, ?_, ?_, ?_⟩
    · change _ = some _
      norm_num [PyNum.ext, Binary64.ext, Binary64.ofSmallInt]
    all_goals norm_num
  exact (haligned.moved hjust).1

/-! ## Unsigned receipts -/

/-- `from_dict(r.to_dict())` in strict mode returns `r`. -/
def ReturnsFromDict (X : Externals) (env : ReceiptDefaults) (r : L1Receipt) : Prop :=
  fromDict X env r.toDict true = .ok r

/-- An unsigned receipt keeps what no setter sets. -/
theorem invariant_of_build_none (hb : b.Invariant) (hbuild : b.build X none = .ok r) :
    Invariant ⟨r⟩ := by
  obtain ⟨s, halign, -, ⟨-, rfl⟩ | ⟨k, hk, -⟩⟩ := build_cases hbuild
  · have hafter := invariant_afterBuild hb
    rwa [afterBuild, halign] at hafter
  · cases hk

/-- No receipt that the builder returns without a key is read back from its own dictionary: the empty
signature that `to_dict` writes is what `from_dict` refuses. -/
theorem not_returnsFromDict {env env' : ReceiptDefaults} {traceId verdict : PyVal}
    {calls : List Call} (hb : (machine X).final (ofVerdict env traceId verdict) calls = b)
    (hbuild : b.build X none = .ok r)
    (htrace : ∃ s, s ≠ [] ∧ r.attr .traceId = .str s)
    (hverdict : r.attr .verdict = .str (text "deny") ∨ r.attr .verdict = .str (text "escalate"))
    (hlength : ∀ f s, r.attr f = .str s → s.length ≤ maxFieldLen) :
    fromDict X env' r.toDict true = PyExc.value (text "Field signature must not be empty") ∧
      ¬ReturnsFromDict X env' r := by
  have hinvariant : b.Invariant := hb ▸ invariant_run env traceId verdict calls
  have hkept := invariant_of_build_none hinvariant hbuild
  have hgiven : ∀ f, FromDict.given? r.asdict f = some (r.attr f) := fun f => by
    rw [FromDict.given?, lookup_asdict]
    rfl
  have herror : fromDict X env' r.toDict true =
      PyExc.value (text "Field signature must not be empty") := by
    rw [toDict, fromDict, PyVal.members?_ofMembers]
    refine FromDict.fromMembers_of_emptySignature r.nodup_keys_asdict ?_ ?_ ?_ ?_ ?_
      (hgiven .signature) ?_
    · intro k hk
      obtain ⟨m, hm, rfl⟩ := List.mem_map.mp hk
      obtain ⟨f, -, rfl⟩ := List.mem_map.mp hm
      exact ⟨f, .inl rfl⟩
    · intro v hv
      rw [hgiven, Option.some.injEq] at hv
      rw [← hv]
      exact hkept.version
    · obtain ⟨s, hs, htrace⟩ := htrace
      exact ⟨s, hs, by rw [hgiven, htrace]⟩
    · intro f hf hnone
      rw [hgiven, Option.some.injEq] at hnone
      -- the critical fields are all strings
      cases f with
      | traceId =>
        obtain ⟨s, -, htrace⟩ := htrace
        exact absurd (htrace.symm.trans hnone) (by simp)
      | verdict =>
        obtain hv | hv := hverdict
        · exact absurd (hv.symm.trans hnone) (by simp)
        · exact absurd (hv.symm.trans hnone) (by simp)
      | signature => exact absurd (hkept.unsigned.symm.trans hnone) (by simp)
      | publicKeyFingerprint => exact absurd (hkept.anonymous.symm.trans hnone) (by simp)
      | _ => cases hf
    · intro f s hs
      rw [hgiven, Option.some.injEq] at hs
      exact hlength f s hs
    · rw [hkept.unsigned]
      rfl
  refine ⟨herror, ?_⟩
  rw [ReturnsFromDict, herror]
  intro h
  cases h

/-- Without a time of issue there is nothing to align or check. -/
theorem build_none_of_not_issued (h : (b.receipt.attr .issuedAt).gt (.int 0) = .ok false) :
    b.build X none = .ok b.receipt := by
  simp [build, alignTimes, issuedJustAfter, checkTimes, precedesIssue, h, bind, Except.bind, pure,
    Except.pure]

/-- The calls that describe a denied command, up to the build. -/
def denialCalls : List Call :=
  [.tool (.str (text "shell")), .ruleSummary (.str (text "no_shell=deny")),
    .issuer (.str (text "i")), .audience (.str (text "a")), .action (.str (text "x")),
    .sequence (.int 1)]

/-- The builder after these calls. -/
def deniedCommand : L1ReceiptBuilder :=
  (machine referenceX).final (ofVerdict sampleEnv (.str (text "t")) (.str (text "deny"))) denialCalls

/-- The strings of its receipt are short. -/
theorem length_deniedCommand (f : ReceiptField) (s : Text)
    (h : deniedCommand.receipt.attr f = .str s) : s.length ≤ maxFieldLen := by
  cases f <;> first | (cases h; done) | (obtain rfl := PyVal.str.inj h; decide +kernel)

/-- Built without a key, the receipt of the denied command is not read back. -/
theorem not_returnsFromDict_sample :
    deniedCommand.build referenceX none = .ok deniedCommand.receipt ∧
      ¬ReturnsFromDict referenceX sampleEnv deniedCommand.receipt := by
  have hbuild : deniedCommand.build referenceX none = .ok deniedCommand.receipt :=
    build_none_of_not_issued (by decide +kernel)
  have hrun : (machine referenceX).final
      (ofVerdict sampleEnv (.str (text "t")) (.str (text "deny"))) denialCalls = deniedCommand :=
    rfl
  exact ⟨hbuild, (not_returnsFromDict hrun hbuild ⟨text "t", by decide, rfl⟩ (.inl rfl)
    length_deniedCommand).2⟩

/-- The receipt of a denial as the builder returns it, with every other field at its default. -/
def denial : L1Receipt :=
  (ofVerdict sampleEnv (.str (text "t")) (.str (text "deny"))).receipt

/-- Without a key the builder makes an unsigned denial. -/
theorem build_denial : (ofVerdict sampleEnv (.str (text "t")) (.str (text "deny"))).build referenceX
    none = .ok denial :=
  build_none_of_not_issued (by decide +kernel)

/-- Its strings are short. -/
theorem length_denial (f : ReceiptField) (s : Text) (h : denial.attr f = .str s) :
    s.length ≤ maxFieldLen := by
  cases f <;> first | (cases h; done) | (obtain rfl := PyVal.str.inj h; decide +kernel)

/-- A denial with short strings and finite numbers, which the builder returns without a key, is
refused by the strict parser. -/
theorem denial_not_returned :
    (ofVerdict sampleEnv (.str (text "t")) (.str (text "deny"))).build referenceX none =
        .ok denial ∧
      denial.attr .traceId = .str (text "t") ∧ denial.attr .verdict = .str (text "deny") ∧
      (∀ f s, denial.attr f = .str s → s.length ≤ maxFieldLen) ∧
      (∀ f n, (denial.attr f).num? = some n → n.Safe) ∧
      ¬ReturnsFromDict referenceX sampleEnv denial := by
  refine ⟨build_denial, rfl, rfl, length_denial, ?_, ?_⟩
  -- of its fields the numbers are zero and the time
  · intro f n hn
    cases f <;> first
      | (cases hn; done)
      | (obtain rfl := Option.some.inj hn; first | rfl | exact ⟨by decide, by decide⟩)
  · intro h
    have hok : (fromDict referenceX sampleEnv denial.toDict true).isOk = false := by
      decide +kernel
    rw [ReturnsFromDict] at h
    rw [h] at hok
    cases hok

end L1ReceiptBuilder
