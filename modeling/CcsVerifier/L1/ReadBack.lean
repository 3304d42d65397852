import CcsVerifier.L1.FromDict
import CcsVerifier.Python.JsonRoundTrip

/-!
# Receipts read back

A signed receipt goes through `json.dumps`, `json.loads` and the strict parser. The signer and the
parser check different conditions.

* `L1Receipt.ReadsBack`: the receipt comes back from its JSON text with every field unchanged.
* `L1Receipt.readsBack_iff`: a signed receipt comes back when it has a trace identifier and no
  string in it is too long.
* `L1Receipt.rereads_iff`: a receipt that was read can be handed on when it is signed.
-/

/-- A scalar comes back unchanged, whatever is done with objects. -/
theorem PyVal.IsScalar.load {v : PyVal} {style : DumpStyle} (h : v.IsScalar)
    (hencodable : v.EncodableStrings) {hook : List (Text × PyVal) → Except PyExc PyVal} :
    (v.doc style).load hook = .ok v := by
  rcases h with ⟨s, rfl⟩ | ⟨z, rfl⟩ | ⟨x, rfl⟩
  · rw [doc, Text.Encodable.joinSurrogates hencodable]
    rfl
  · rfl
  · rfl

namespace L1Receipt

variable {X : Externals} {r s : L1Receipt} {seed : Bytes}

/-- The keys of the dictionary of a receipt are all different. -/
theorem nodup_keys_asdict (r : L1Receipt) : (Dict.keys r.asdict).Nodup := by
  rw [asdict, Dict.keys, List.map_map]
  exact ReceiptField.nodup_names

/-- The value of a field stands under its name. -/
theorem lookup_asdict (r : L1Receipt) (f : ReceiptField) :
    Dict.lookup r.asdict f.name = some (r.attr f) :=
  (Dict.lookup_eq_some_iff r.nodup_keys_asdict).mpr
    (List.mem_map_of_mem (ReceiptField.mem_all f))

/-- The dictionary of a receipt determines the receipt. -/
theorem toDict_injective (h : r.toDict = s.toDict) : r = s := by
  have hasdict : r.asdict = s.asdict := by
    have hmembers := congrArg PyVal.members? h
    rw [toDict, toDict, PyVal.members?_ofMembers, PyVal.members?_ofMembers] at hmembers
    exact Option.some.inj hmembers
  cases r
  cases s
  refine congrArg L1Receipt.mk (funext fun f => ?_)
  exact Option.some.inj ((lookup_asdict _ f).symm.trans ((congrArg (Dict.lookup · f.name)
    hasdict).trans (lookup_asdict _ f)))

/-- The text of the receipt, however it is dumped, is read back as the same receipt by the strict
parser. -/
def ReadsBack (X : Externals) (r : L1Receipt) : Prop :=
  ∀ (env : ReceiptDefaults) (style : DumpStyle), style.Standard → ∃ t d,
    dumps style r.toDict = .ok t ∧ loads t = .ok d ∧ fromDict X env d true = .ok r

/-- What signing leaves in the fields of a receipt of scalars. -/
theorem isScalar_of_signL1Receipt (hjcs : X.JcsAccepts) (hsign : signL1Receipt X r seed = .ok s)
    (hscalar : ∀ f, f.isSignature = false → (r.attr f).IsScalar) (f : ReceiptField) :
    (s.attr f).IsScalar ∧ (s.attr f).EncodableStrings := by
  refine ⟨?_, (isJson_of_signL1Receipt hjcs hsign (fun g hg => (hscalar g hg).isJson) f).2⟩
  cases hf : f.isSignature with
  | false =>
    rw [attr_of_signL1Receipt hsign hf]
    exact hscalar f hf
  | true =>
    obtain ⟨-, payload, -, rfl⟩ := signL1Receipt_eq_ok_iff.mp hsign
    obtain ⟨t, ht, -⟩ := attr_signedWith_of_isSignature (X := X) hf r seed _
    exact .inl ⟨t, ht⟩

/-- The fields that signing fills in are short. -/
theorem length_signature (hsign : signL1Receipt X r seed = .ok s) {f : ReceiptField}
    (hf : f.isSignature = true) {t : Text} (ht : s.attr f = .str t) : t.length ≤ 88 := by
  obtain ⟨-, payload, -, hs⟩ := signL1Receipt_eq_ok_iff.mp hsign
  rw [hs] at ht
  -- the four fields that signing sets, each with its own length
  cases f
  case signature =>
    cases ht
    rw [length_b64encode, X.ed25519.length_sign]
  case signingAlgorithm =>
    cases ht
    decide
  case publicKeyFingerprint =>
    cases ht
    rw [Externals.publicKeyFingerprint, List.length_take]
    omega
  case publicKey =>
    cases ht
    rw [length_b64encode, X.ed25519.length_publicKey]
    norm_num
  all_goals cases hf

/-- A dictionary that gives every field of a signed receipt, under either name, is accepted by the
strict parser when there is a trace identifier and no string is too long. -/
theorem fromDict_given_iff (hjcs : X.JcsAccepts) (hsign : signL1Receipt X r seed = .ok s)
    (hscalar : ∀ f, f.isSignature = false → (r.attr f).IsScalar)
    (hversion : r.attr .receiptVersion = .str L1.receiptVersion)
    (htrace : ∃ t, r.attr .traceId = .str t) {data : Dict Text PyVal} (hnodup : data.keys.Nodup)
    (hknown : ∀ k ∈ data.keys, ∃ f : ReceiptField, f.name = k ∨ f.legacyName? = some k)
    (hgiven : ∀ f, FromDict.given? data f = some (s.attr f)) (env : ReceiptDefaults) :
    fromDict X env (.ofMembers data) true = .ok s ↔
      s.attr .traceId ≠ .str [] ∧ ∀ f t, s.attr f = .str t → t.length ≤ maxFieldLen := by
  have hfields := isScalar_of_signL1Receipt hjcs hsign hscalar
  obtain ⟨-, payload, -, hs⟩ := signL1Receipt_eq_ok_iff.mp hsign
  obtain ⟨t, ht⟩ := htrace
  have htraceS : s.attr .traceId = .str t := by rw [hs, ← ht]; rfl
  rw [fromDict_ofMembers_eq_ok_iff hnodup]
  -- the parser accepts what the dictionary gives, and the receipt is then the one it was made of
  constructor
  · rintro ⟨h, -⟩
    obtain ⟨t', hne, htrace'⟩ := h.traceId
    rw [hgiven] at htrace'
    refine ⟨?_, fun f u hu => h.length f u (by rw [hgiven, hu])⟩
    rw [Option.some.inj htrace']
    simpa using hne
  · rintro ⟨hne, hlength⟩
    have htruthy : ∀ {f u}, s.attr f = .str u → u ≠ [] → ∀ v, FromDict.given? data f = some v →
        v.truthy = true := by
      intro f u hu hune v hv
      rw [hgiven, hu] at hv
      cases hv
      exact PyVal.truthy_str.mpr hune
    -- the signature, the fingerprint and the key are never empty
    have hb64 : ∀ b : Bytes, 0 < b.length → b64encode b ≠ [] := by
      intro b hb h
      have := congrArg List.length h
      rw [length_b64encode, List.length_nil] at this
      omega
    refine ⟨?_, ?_⟩
    · exact {
        known := fun _ => hknown
        version := fun _ v hv => by
          rw [hgiven, hs] at hv
          rw [← Option.some.inj hv, ← hversion]
          rfl
        traceId := ⟨t, fun h => hne (by rw [htraceS, h]), by rw [hgiven, htraceS]⟩
        critical := fun f _ h => (hfields f).1.ne_none (Option.some.inj ((hgiven f).symm.trans h))
        length := fun f u hu => hlength f u (Option.some.inj ((hgiven f).symm.trans hu))
        signature := htruthy (by rw [hs]; rfl) (hb64 _ (by rw [X.ed25519.length_sign]; norm_num))
        fingerprint := htruthy (u := X.publicKeyFingerprint (X.ed25519.publicKey seed))
          (by rw [hs]; rfl) fun h => by
            have := congrArg List.length h
            rw [Externals.publicKeyFingerprint, List.length_take, Text.length_hex,
              X.length_sha256] at this
            cases this
        publicKey := fun v hv => .inr (htruthy (by rw [hs]; rfl)
          (hb64 _ (by rw [X.ed25519.length_publicKey]; norm_num)) v hv)
        decodes := fun _ v _ hv => .inr ⟨X.ed25519.publicKey seed, X.ed25519.length_publicKey seed, by
          rw [hgiven, hs] at hv
          rw [← Option.some.inj hv]
          rfl⟩
        unsigned := fun _ => .inl ⟨_, hgiven _⟩ }
    · -- every field is given, so no default is used
      have hattr : s.attr = (FromDict.receiptOf env data).attr := by
        funext f
        have hnone : (s.attr f).isNone = false := by
          rw [← Bool.not_eq_true, PyVal.isNone_iff]
          exact (hfields f).1.ne_none
        simp [FromDict.receiptOf, hgiven, Option.filter, hnone]
      cases s
      cases hr : FromDict.receiptOf env data
      rw [hr] at hattr
      exact congrArg L1Receipt.mk hattr

/-- The dictionary of a signed receipt gives every field, in any order of its members. -/
theorem fromDict_perm_iff (hjcs : X.JcsAccepts) (hsign : signL1Receipt X r seed = .ok s)
    (hscalar : ∀ f, f.isSignature = false → (r.attr f).IsScalar)
    (hversion : r.attr .receiptVersion = .str L1.receiptVersion)
    (htrace : ∃ t, r.attr .traceId = .str t) {data : Dict Text PyVal} (hperm : data.Perm s.asdict)
    (env : ReceiptDefaults) :
    fromDict X env (.ofMembers data) true = .ok s ↔
      s.attr .traceId ≠ .str [] ∧ ∀ f t, s.attr f = .str t → t.length ≤ maxFieldLen := by
  have hnodup : (Dict.keys data).Nodup := (hperm.map Prod.fst).nodup_iff.mpr s.nodup_keys_asdict
  refine fromDict_given_iff hjcs hsign hscalar hversion htrace hnodup (fun k hk => ?_)
    (fun f => ?_) env
  · obtain ⟨⟨k, v⟩, hm, rfl⟩ := List.mem_map.mp hk
    obtain ⟨f, -, heq⟩ := List.mem_map.mp (hperm.mem_iff.mp hm)
    exact ⟨f, .inl (congrArg Prod.fst heq)⟩
  -- the order of the members does not matter to a lookup
  · have hlookup : Dict.lookup data f.name = some (s.attr f) :=
      (Dict.lookup_eq_some_iff hnodup).mpr
        (hperm.mem_iff.mpr (List.mem_map_of_mem (ReceiptField.mem_all f)))
    rw [FromDict.given?, hlookup, Option.some_or]

/-- A signed receipt is read back when it has a trace identifier and no string in it is too long. -/
theorem readsBack_iff (hjcs : X.JcsAccepts) (hsign : signL1Receipt X r seed = .ok s)
    (hscalar : ∀ f, f.isSignature = false → (r.attr f).IsScalar)
    (hversion : r.attr .receiptVersion = .str L1.receiptVersion)
    (htrace : ∃ t, r.attr .traceId = .str t) (env : ReceiptDefaults) :
    s.ReadsBack X ↔
      s.attr .traceId ≠ .str [] ∧ ∀ f t, s.attr f = .str t → t.length ≤ maxFieldLen := by
  have hfields := isScalar_of_signL1Receipt hjcs hsign hscalar
  have hname : ∀ f : ReceiptField, f.name.Encodable := fun f => by cases f <;> decide +kernel
  have hmembers : ∀ m ∈ s.asdict, ∃ f : ReceiptField, m = (f.name, s.attr f) := by
    intro m hm
    obtain ⟨f, -, rfl⟩ := List.mem_map.mp hm
    exact ⟨f, rfl⟩
  -- the text is loaded to the same members, in the order in which they were dumped
  have hload : ∀ style : DumpStyle, style.Standard → ∃ t, dumps style s.toDict = .ok t ∧
      loads t = .ok (.ofMembers (orderMembers style s.asdict)) := by
    intro style hstyle
    have hjson : s.toDict.IsJson := PyVal.isJson_ofMembers s.nodup_keys_asdict fun k v hkv => by
      obtain ⟨f, heq⟩ := hmembers _ hkv
      cases heq
      exact (hfields f).1.isJson
    obtain ⟨t, ht⟩ := dumps_isOk_of_isJson style hjson
    refine ⟨t, ht, PyVal.loads_dumps_ofMembers hstyle s.nodup_keys_asdict ?_ ?_ ht⟩
    · intro m hm
      obtain ⟨f, rfl⟩ := hmembers m hm
      exact hname f
    · intro m hm
      obtain ⟨f, rfl⟩ := hmembers m hm
      exact (hfields f).1.load (hfields f).2
  have hfrom : ∀ style env, fromDict X env (.ofMembers (orderMembers style s.asdict)) true = .ok s ↔
      s.attr .traceId ≠ .str [] ∧ ∀ f t, s.attr f = .str t → t.length ≤ maxFieldLen :=
    fun style env => fromDict_perm_iff hjcs hsign hscalar hversion htrace
      (perm_orderMembers style s.asdict) env
  constructor
  · intro h
    obtain ⟨t, d, ht, hd, hok⟩ := h env .default DumpStyle.standard_default
    obtain ⟨t', ht', hd'⟩ := hload .default DumpStyle.standard_default
    obtain rfl : t = t' := Except.ok.inj (ht.symm.trans ht')
    obtain rfl : d = _ := Except.ok.inj (hd.symm.trans hd')
    exact (hfrom .default env).mp hok
  · intro h env style hstyle
    obtain ⟨t, ht, hd⟩ := hload style hstyle
    exact ⟨t, _, ht, hd, (hfrom style env).mpr h⟩

/-! ## Receipts handed on -/

/-- In any order of members, each field is given its value. -/
theorem given?_of_perm_asdict {data : Dict Text PyVal} (hperm : data.Perm s.asdict)
    (f : ReceiptField) : FromDict.given? data f = some (s.attr f) := by
  have hnodup : (Dict.keys data).Nodup := (hperm.map Prod.fst).nodup_iff.mpr s.nodup_keys_asdict
  have hlookup : Dict.lookup data f.name = some (s.attr f) :=
    (Dict.lookup_eq_some_iff hnodup).mpr
      (hperm.mem_iff.mpr (List.mem_map_of_mem (ReceiptField.mem_all f)))
  rw [FromDict.given?, hlookup, Option.some_or]

/-- No default is used when every field is given. -/
theorem receiptOf_eq_of_given {data : Dict Text PyVal}
    (hgiven : ∀ f, FromDict.given? data f = some (s.attr f)) (hnone : ∀ f, s.attr f ≠ .none)
    (env : ReceiptDefaults) : FromDict.receiptOf env data = s := by
  have hattr : (FromDict.receiptOf env data).attr = s.attr := by
    funext f
    have hkept : (s.attr f).isNone = false := by
      rw [← Bool.not_eq_true, PyVal.isNone_iff]
      exact hnone f
    simp [FromDict.receiptOf, hgiven, Option.filter, hkept]
  cases s
  exact congrArg L1Receipt.mk hattr

/-- A default is not `None`, and no string among the defaults is too long. -/
theorem default?_accepted {env : ReceiptDefaults} {f : ReceiptField} {v : PyVal}
    (h : f.default? env = some v) : v ≠ .none ∧ ∀ t, v = .str t → t.length ≤ maxFieldLen := by
  have hnonce : env.nonce.length ≤ maxFieldLen := by
    rw [ReceiptDefaults.nonce, Text.length_hex, env.length_nonceBytes]
    decide
  have hstr : ∀ {u : Text}, u.length ≤ maxFieldLen →
      PyVal.str u ≠ .none ∧ ∀ t, PyVal.str u = .str t → t.length ≤ maxFieldLen :=
    fun hu => ⟨PyVal.noConfusion, fun t ht => PyVal.str.inj ht ▸ hu⟩
  cases f <;> simp only [ReceiptField.default?, Option.some.injEq, reduceCtorEq] at h <;> subst h
  case nonce => exact hstr hnonce
  all_goals first
    | exact hstr (by decide)
    | exact ⟨PyVal.noConfusion, fun t => PyVal.noConfusion⟩

/-- A field of a receipt that was read is what was given, or the default. -/
theorem attr_receiptOf_cases {data : Dict Text PyVal} {strict : Bool}
    (haccepts : FromDict.Accepts data strict) (env : ReceiptDefaults) (f : ReceiptField) :
    (FromDict.given? data f = some ((FromDict.receiptOf env data).attr f) ∧
      (FromDict.receiptOf env data).attr f ≠ .none) ∨
    f.default? env = some ((FromDict.receiptOf env data).attr f) := by
  simp only [FromDict.receiptOf]
  cases hgiven : FromDict.given? data f with
  | some v =>
    by_cases hv : v = .none
    · subst hv
      cases hdefault : f.default? env with
      | some w => exact .inr rfl
      | none =>
        obtain rfl := ReceiptField.default?_eq_none_iff.mp hdefault
        exact absurd hgiven (haccepts.critical .traceId rfl)
    -- a value that is given and not `None` is kept
    · have hkept : v.isNone = false := by
        rw [← Bool.not_eq_true, PyVal.isNone_iff]
        exact hv
      simp [Option.filter, hkept, hv]
  | none =>
    cases hdefault : f.default? env with
    | some w => exact .inr rfl
    | none =>
      obtain rfl := ReceiptField.default?_eq_none_iff.mp hdefault
      -- the trace identifier has no default, but has to be given
      obtain ⟨t, -, ht⟩ := haccepts.traceId
      rw [hgiven] at ht
      cases ht

/-- The fields without which a receipt that was read cannot be handed on. -/
def handedOn : List ReceiptField := [.signature, .publicKeyFingerprint, .publicKey]

/-- Whoever has read a receipt, strictly or not, can hand its dictionary on, in any order of its
members, to someone who reads it in the same mode exactly when none of the three signature fields is
empty; and nothing but the same receipt is read then, whatever the defaults are by that time. In
particular no unsigned receipt can be handed on, not even one that strict mode has accepted because
it denies. -/
theorem rereads_iff {env : ReceiptDefaults} {data other : Dict Text PyVal} {strict : Bool}
    (hdata : data.keys.Nodup) (hread : fromDict X env (.ofMembers data) strict = .ok r)
    (hother : other.Perm r.asdict) (env' : ReceiptDefaults) :
    fromDict X env' (.ofMembers other) strict = .ok s ↔
      s = r ∧ ∀ f ∈ handedOn, (r.attr f).truthy = true := by
  obtain ⟨haccepts, rfl⟩ := (fromDict_ofMembers_eq_ok_iff hdata).mp hread
  generalize hr : FromDict.receiptOf env data = r at hother
  have hcases : ∀ f, (FromDict.given? data f = some (r.attr f) ∧ r.attr f ≠ .none) ∨
      f.default? env = some (r.attr f) := hr ▸ attr_receiptOf_cases haccepts env
  have hgiven := given?_of_perm_asdict hother
  have hnone : ∀ f, r.attr f ≠ .none := fun f =>
    (hcases f).elim And.right fun h => (default?_accepted h).1
  have hnodup : (Dict.keys other).Nodup := (hother.map Prod.fst).nodup_iff.mpr r.nodup_keys_asdict
  -- a signature field that is not empty was given
  have hsigned : ∀ f ∈ handedOn, (r.attr f).truthy = true →
      FromDict.given? data f = some (r.attr f) := by
    intro f hf htruthy
    refine (hcases f).elim And.left fun h => ?_
    have hempty : f.default? env = some (.str []) := by
      simp only [handedOn, List.mem_cons, List.not_mem_nil, or_false] at hf
      rcases hf with rfl | rfl | rfl <;> rfl
    rw [← Option.some.inj (hempty.symm.trans h)] at htruthy
    cases htruthy
  rw [fromDict_ofMembers_eq_ok_iff hnodup, receiptOf_eq_of_given hgiven hnone, and_comm]
  refine and_congr_right fun _ => ?_
  simp only [handedOn, List.forall_mem_cons]
  constructor
  · intro h
    exact ⟨h.signature _ (hgiven _), h.fingerprint _ (hgiven _),
      (h.publicKey _ (hgiven _)).resolve_left (hnone _), fun f hf => absurd hf List.not_mem_nil⟩
  · rintro ⟨hsig, hfp, hpk, -⟩
    have heq : ∀ {f v}, FromDict.given? other f = some v → r.attr f = v := fun h =>
      Option.some.inj ((hgiven _).symm.trans h)
    exact {
      known := fun _ k hk => by
        obtain ⟨⟨k, v⟩, hm, rfl⟩ := List.mem_map.mp hk
        obtain ⟨f, -, hf⟩ := List.mem_map.mp (hother.mem_iff.mp hm)
        exact ⟨f, .inl (congrArg Prod.fst hf)⟩
      version := fun hstrict v hv => by
        obtain rfl := heq hv
        exact (hcases _).elim (fun h => haccepts.version hstrict _ h.1)
          fun h => (Option.some.inj h).symm
      traceId := by
        obtain ⟨t, hne, ht⟩ := haccepts.traceId
        refine ⟨t, hne, (hgiven _).trans ?_⟩
        rw [← ht]
        exact ((hcases .traceId).resolve_right nofun).1.symm
      critical := fun f _ h => hnone f (heq h)
      length := fun f t ht => by
        have hattr := heq ht
        exact (hcases f).elim (fun h => haccepts.length f t (h.1.trans (congrArg some hattr)))
          fun h => (default?_accepted h).2 t hattr
      signature := fun v hv => heq hv ▸ hsig
      fingerprint := fun v hv => heq hv ▸ hfp
      publicKey := fun v hv => .inr (heq hv ▸ hpk)
      decodes := fun _ v _ hv => by
        rw [← heq hv]
        exact haccepts.decodes _ _ (hsigned .signature (by decide) hsig)
          (hsigned .publicKey (by decide) hpk)
      unsigned := fun _ => .inl ⟨_, hgiven _⟩ }

/-- A receipt that denies without a signature: strict mode reads it once, but not again. -/
theorem rereads_iff_sample :
    fromDict referenceX sampleDefaults (.ofMembers sampleData) true =
      .ok (FromDict.receiptOf sampleDefaults sampleData) ∧
    ∀ s, fromDict referenceX sampleDefaults
      (.ofMembers (FromDict.receiptOf sampleDefaults sampleData).asdict) true ≠ .ok s := by
  have hread : fromDict referenceX sampleDefaults (.ofMembers sampleData) true =
      .ok (FromDict.receiptOf sampleDefaults sampleData) := by
    obtain ⟨members, data, hscan, hdata, hnodup, haccepts, -⟩ :=
      fromJson_eq_ok_iff.mp fromJson_sampleText
    rw [scan_sampleText] at hscan
    cases hscan
    cases hdata
    exact (fromDict_ofMembers_eq_ok_iff hnodup).mpr ⟨haccepts, rfl⟩
  refine ⟨hread, fun s hs => ?_⟩
  -- an unsigned receipt has an empty signature
  have htruthy := ((rereads_iff (by decide) hread (List.Perm.refl _) sampleDefaults).mp hs).2
    .signature (by decide)
  exact absurd htruthy (by decide +kernel)

end L1Receipt
