import CcsVerifier.Server.ArgsDigest

/-!
# What the configuration hash binds

The server hashes the class names of its rules once, when it is constructed, and hashes that hash
again for every L1 receipt. The names of the rules do not go in.

* `VerifierServer.configHash_eq_iff`: the configuration hash determines the class names.
* `VerifierServer.l1Field_configHash`: a receipt carries the hash of the configuration hash.
* `VerifierServer.configHash_binds_iff`: two receipts tell two lists of rule names apart exactly when
  the class names do.
-/

namespace PyVal

/-- Lists of strings are the same JSON value only as the same list. -/
theorem eq_of_sameJson_strings {ss ts : List Text}
    (h : (list (ss.map str)).SameJson (list (ts.map str))) : ss = ts := by
  have hvalues : ∀ us : List Text, jsonValues? (us.map str) = some (us.map JsonValue.str) := by
    intro us
    induction us with
    | nil => rfl
    | cons u us ih =>
      rw [List.map_cons, jsonValues?, ih]
      rfl
  obtain ⟨j, hs, ht⟩ := h
  rw [jsonValue?, hvalues] at hs ht
  have hlists := hs.trans ht.symm
  have hinjective : Function.Injective JsonValue.str := fun a b hab => JsonValue.str.inj hab
  exact hinjective.list_map (JsonValue.arr.inj (Option.some.inj hlists))

end PyVal

namespace VerifierServer

variable {X : Externals}

/-- The names of the rules, in the order of registration. -/
def ruleNames (srv : VerifierServer X) : List Text := srv.rules.map Rule.name

/-- The class names of the rules, in the order of registration. -/
def classNames (srv : VerifierServer X) : List Text := srv.rules.map Rule.typeName

/-- What the server describes its rules by: the class names and its own version. -/
def configData (srv : VerifierServer X) : PyVal :=
  .ofMembers [(text "rules", .list (srv.classNames.map .str)), (text "version", .str serverVersion)]

/-- What every receipt digests: the configuration hash once more. -/
def receiptConfig (srv : VerifierServer X) : PyVal :=
  .ofMembers [(text "rules", .str srv.configHash)]

/-- The configuration hash is the hash of the description. -/
theorem computeHash_configData (srv : VerifierServer X) :
    X.computeHash srv.configData = .ok srv.configHash := by
  rw [configData, classNames, List.map_map]
  exact srv.configHash_eq

/-- Descriptions that are the same JSON value list the same class names. -/
theorem classNames_eq_of_sameJson {srv₁ srv₂ : VerifierServer X}
    (h : srv₁.configData.SameJson srv₂.configData) : srv₁.classNames = srv₂.classNames := by
  have hkeys : (([text "rules", text "version"] : List Text).map id).Nodup := by decide
  have hmembers := (PyVal.sameJson_ofMembers_iff
    (u := fun k => if k = text "rules" then .list (srv₁.classNames.map .str) else .str serverVersion)
    (w := fun k => if k = text "rules" then .list (srv₂.classNames.map .str) else .str serverVersion)
    hkeys).mp h
  exact PyVal.eq_of_sameJson_strings (hmembers (text "rules") List.mem_cons_self)

/-- The description is JSON. -/
theorem isJson_configData (srv : VerifierServer X) : srv.configData.IsJson := by
  refine PyVal.isJson_ofMembers (by decide : ([text "rules", text "version"] : List Text).Nodup) ?_
  intro k v hkv
  simp only [List.mem_cons, Prod.mk.injEq, List.not_mem_nil, or_false] at hkv
  obtain ⟨-, rfl⟩ | ⟨-, rfl⟩ := hkv
  · refine .list fun x hx => ?_
    obtain ⟨t, -, rfl⟩ := List.mem_map.mp hx
    exact .str t
  · exact .str _

/-- So is what the receipts digest. -/
theorem isJson_receiptConfig (srv : VerifierServer X) : srv.receiptConfig.IsJson := by
  refine PyVal.isJson_ofMembers (List.nodup_singleton (text "rules")) fun k v hkv => ?_
  obtain ⟨-, rfl⟩ := Prod.mk.inj (List.mem_singleton.mp hkv)
  exact .str _

/-- Two objects with the same hash are the same JSON value. -/
theorem sameJson_of_computeHash_eq {ms ns : List (Text × PyVal)}
    (hms : (PyVal.ofMembers ms).IsJson) (hns : (PyVal.ofMembers ns).IsJson)
    (hsha : X.Sha256Separates (.ofMembers ms) (.ofMembers ns))
    (hjcs : X.JcsSeparates (.ofMembers ms) (.ofMembers ns)) {t : Text}
    (ht : X.computeHash (.ofMembers ms) = .ok t) (hu : X.computeHash (.ofMembers ns) = .ok t) :
    (PyVal.ofMembers ms).SameJson (.ofMembers ns) := by
  -- an object is no string, so neither spells the other
  have hspells : ∀ ks b, ¬X.Spells (.ofMembers ks) b := by
    rintro ks b ⟨s, raw, hs, -⟩
    cases hs
  exact (Externals.computeHash_binds_iff hms hns hsha hjcs ht hu).mpr
    ⟨hspells ms _, hspells ns _⟩ rfl

/-- SHA-256 and `jcs` tell the descriptions of two servers apart, and so they do their
configuration hashes. -/
structure ConfigsSeparated (srv₁ srv₂ : VerifierServer X) : Prop where
  /-- SHA-256 has no collision on the descriptions. -/
  sha256_configData : X.Sha256Separates srv₁.configData srv₂.configData
  /-- `jcs` tells the descriptions apart. -/
  jcs_configData : X.JcsSeparates srv₁.configData srv₂.configData
  /-- SHA-256 has no collision on the configuration hashes. -/
  sha256_receiptConfig : X.Sha256Separates srv₁.receiptConfig srv₂.receiptConfig
  /-- `jcs` tells the configuration hashes apart. -/
  jcs_receiptConfig : X.JcsSeparates srv₁.receiptConfig srv₂.receiptConfig

variable {srv₁ srv₂ : VerifierServer X}

/-- Two servers have the same configuration hash exactly when their rules have the same class
names. -/
theorem configHash_eq_iff (hsep : ConfigsSeparated srv₁ srv₂) :
    srv₁.configHash = srv₂.configHash ↔ srv₁.classNames = srv₂.classNames := by
  have hhash₁ := computeHash_configData srv₁
  have hhash₂ := computeHash_configData srv₂
  constructor
  · intro heq
    rw [← heq] at hhash₂
    exact classNames_eq_of_sameJson (sameJson_of_computeHash_eq (isJson_configData srv₁)
      (isJson_configData srv₂) hsep.sha256_configData hsep.jcs_configData hhash₁ hhash₂)
  · intro hnames
    rw [configData, hnames] at hhash₁
    exact Except.ok.inj (hhash₁.symm.trans hhash₂)

/-- A receipt carries the hash of the configuration hash. -/
theorem l1Field_configHash {srv : VerifierServer X} (hl1 : srv.l1Enabled = true)
    {call : CallReadings} {c : Command} {s s' : ServerState} {v : VerificationResult}
    (hverify : srv.verify call c s = (.ok v, s')) :
    ∃ t, X.computeHash srv.receiptConfig = .ok t ∧ v.l1Field .configHash = some (.str t) := by
  obtain ⟨key, hkey⟩ := Option.isSome_iff_exists.mp hl1
  obtain ⟨loop, paramsHash, parts, r, hreceipt, hissued⟩ := exists_issued_of_verify hkey hverify
  exact ⟨parts.configHash, hissued.hasParts.configHash,
    hissued.l1Field hreceipt rfl (by decide) (by decide)⟩

/-- The receipts of two servers carry the same hash exactly when the rules of the servers have the
same class names. -/
theorem l1Field_configHash_eq_iff (hsep : ConfigsSeparated srv₁ srv₂)
    (hl1₁ : srv₁.l1Enabled = true) (hl1₂ : srv₂.l1Enabled = true) {call₁ call₂ : CallReadings}
    {c₁ c₂ : Command} {s₁ s₂ s₁' s₂' : ServerState} {v₁ v₂ : VerificationResult}
    (hverify₁ : srv₁.verify call₁ c₁ s₁ = (.ok v₁, s₁'))
    (hverify₂ : srv₂.verify call₂ c₂ s₂ = (.ok v₂, s₂')) :
    v₁.l1Field .configHash = v₂.l1Field .configHash ↔ srv₁.classNames = srv₂.classNames := by
  obtain ⟨t, ht, hfield₁⟩ := l1Field_configHash hl1₁ hverify₁
  obtain ⟨u, hu, hfield₂⟩ := l1Field_configHash hl1₂ hverify₂
  rw [hfield₁, hfield₂, Option.some.injEq, PyVal.str.injEq, ← configHash_eq_iff hsep]
  constructor
  · rintro rfl
    have hsame := sameJson_of_computeHash_eq (isJson_receiptConfig srv₁) (isJson_receiptConfig srv₂)
      hsep.sha256_receiptConfig hsep.jcs_receiptConfig ht hu
    have hkeys : (([text "rules"] : List Text).map id).Nodup := by decide
    -- the hash in a receipt is that of an object with the hash of the server
    have hmember := (PyVal.sameJson_ofMembers_iff (u := fun _ => .str srv₁.configHash)
      (w := fun _ => .str srv₂.configHash) hkeys).mp hsame (text "rules") List.mem_cons_self
    exact (PyVal.str.inj (PyVal.eq_str_of_sameJson (.str _) hmember)).symm
  · intro heq
    rw [receiptConfig, heq] at ht
    exact Except.ok.inj (ht.symm.trans hu)

/-- For two servers with L1 keys and any receipts of theirs: if the lists of rule names differ then
the configuration hashes in the receipts do, exactly when the lists of names are the same or the
lists of class names differ. -/
theorem configHash_binds_iff (hsep : ConfigsSeparated srv₁ srv₂)
    (hl1₁ : srv₁.l1Enabled = true) (hl1₂ : srv₂.l1Enabled = true) {call₁ call₂ : CallReadings}
    {c₁ c₂ : Command} {s₁ s₂ s₁' s₂' : ServerState} {v₁ v₂ : VerificationResult}
    (hverify₁ : srv₁.verify call₁ c₁ s₁ = (.ok v₁, s₁'))
    (hverify₂ : srv₂.verify call₂ c₂ s₂ = (.ok v₂, s₂')) :
    (srv₁.ruleNames ≠ srv₂.ruleNames → v₁.l1Field .configHash ≠ v₂.l1Field .configHash) ↔
      srv₁.ruleNames = srv₂.ruleNames ∨ srv₁.classNames ≠ srv₂.classNames := by
  rw [ne_eq (v₁.l1Field .configHash),
    l1Field_configHash_eq_iff hsep hl1₁ hl1₂ hverify₁ hverify₂, ← or_iff_not_imp_left]

/-! ## Servers with other rules -/

/-- A server with the reference key as its L1 key and the given rules. -/
def serverWithRules (rules : List Rule) (configHash : Text)
    (h : deniedRecord.externals.computeHash (.ofMembers
      [(text "rules", .list (rules.map fun r => .str r.typeName)),
        (text "version", .str serverVersion)]) = .ok configHash) :
    VerifierServer deniedRecord.externals :=
  sampleServer deniedRecord rules configHash h (some deniedRecord.seed) length_referenceKey

/-- It answers with an L1 receipt and the results of its rules. -/
theorem verify_serverWithRules {rules : List Rule} {configHash : Text}
    (h : deniedRecord.externals.computeHash (.ofMembers
      [(text "rules", .list (rules.map fun r => .str r.typeName)),
        (text "version", .str serverVersion)]) = .ok configHash) {loop : RuleLoop}
    (hloop : evaluateRules readingsInTime (commandFor (text "shell") (text "t1")) rules .init =
      .ok loop) (hnames : ∀ r ∈ loop.results, r.ruleName.EncodableStrings)
    (hreason : loop.blockReason.EncodableStrings) :
    ∃ v s', (serverWithRules rules configHash h).verify readingsInTime
      (commandFor (text "shell") (text "t1")) .init = (.ok v, s') ∧
      v.ruleResults = loop.results := by
  obtain ⟨v, hv⟩ : ∃ v, ((serverWithRules rules configHash h).verify readingsInTime
      (commandFor (text "shell") (text "t1")) .init).1 = .ok v :=
    (verify_isOk_iff (SignatureRecord.jcsAccepts _) (fromWire_commandFor _ _) hloop).mpr
      (recordable_sampleServer canonical_ofMembers_nil (by decide) (by decide) hnames hreason
        (by decide))
  obtain ⟨loop', _, _, _, hloop', -, -, hresult, -⟩ := verify_eq_ok_iff.mp (Prod.ext hv rfl)
  obtain rfl := Except.ok.inj (hloop.symm.trans hloop')
  exact ⟨v, _, Prod.ext hv rfl, by rw [hresult, resultOf]⟩

/-- Objects with different hashes are told apart. -/
theorem separated_of_hash_ne {ms ns : List (Text × PyVal)} {t u : Text}
    (ht : X.computeHash (.ofMembers ms) = .ok t) (hu : X.computeHash (.ofMembers ns) = .ok u)
    (hne : t ≠ u) : X.Sha256Separates (.ofMembers ms) (.ofMembers ns) ∧
      X.JcsSeparates (.ofMembers ms) (.ofMembers ns) := by
  have hinput : ∀ ks, X.hashInput (.ofMembers ks) = X.canonicalJson (.ofMembers ks) := fun _ => rfl
  simp only [Externals.computeHash, Except.bind_eq_ok_iff, pure, Except.pure,
    Except.ok.injEq] at ht hu
  obtain ⟨p, hp, rfl⟩ := ht
  obtain ⟨q, hq, rfl⟩ := hu
  -- neither the digests nor the canonical forms can be the same
  constructor
  · intro p' q' hp' hq' hdigest
    rw [hp, Except.ok.injEq] at hp'
    rw [hq, Except.ok.injEq] at hq'
    rw [hp', hq', hdigest] at hne
    exact absurd rfl hne
  · intro b hb hb'
    rw [hinput] at hp hq
    have hpb := Except.ok.inj ((Externals.jcs_of_canonicalJson hp).symm.trans hb)
    have hqb := Except.ok.inj ((Externals.jcs_of_canonicalJson hq).symm.trans hb')
    rw [hpb, hqb] at hne
    exact absurd rfl hne

/-- A rule that allows every command. -/
def allowFirst : Rule := fixedRule (text "first") (text "AllowAll") .allow []

/-- A rule that escalates every command. -/
def escalateSecond : Rule :=
  fixedRule (text "second") (text "EscalateAll") .escalate (text "ask a human")

/-- The server that evaluates the first rule before the second. -/
def serverInOrder : VerifierServer deniedRecord.externals :=
  serverWithRules [allowFirst, escalateSecond]
    (text "69ece4735070831998955850999026e9655a2b5c463857a24185498a7100c7b5")
    ((deniedRecord.computeHash_externals .reference _).trans (by decide +kernel))

/-- The server that evaluates them the other way round. -/
def serverInReverse : VerifierServer deniedRecord.externals :=
  serverWithRules [escalateSecond, allowFirst]
    (text "1935bdb42cd6d00fec7ac9e5ae2e85467983856e9cce91af370cf417701a94e2")
    ((deniedRecord.computeHash_externals .reference _).trans (by decide +kernel))

/-- What the first rule says. -/
def resultFirst : RuleResult := fixedResult (text "first") .allow []

/-- What the second rule says. -/
def resultSecond : RuleResult := fixedResult (text "second") .escalate (text "ask a human")

/-- Both servers answer, each with the two results in its order. -/
theorem verify_twoRules : ∃ v₁ s₁ v₂ s₂,
    serverInOrder.verify readingsInTime (commandFor (text "shell") (text "t1")) .init =
      (.ok v₁, s₁) ∧ v₁.ruleResults = [resultFirst, resultSecond] ∧
    serverInReverse.verify readingsInTime (commandFor (text "shell") (text "t1")) .init =
      (.ok v₂, s₂) ∧ v₂.ruleResults = [resultSecond, resultFirst] := by
  have hfirst : (text "first").Encodable := by decide
  have hsecond : (text "second").Encodable := by decide
  have hreason : (text "ask a human").Encodable := by decide
  -- neither verdict ends the loop, so both rules are evaluated
  have hloop₁ : evaluateRules readingsInTime (commandFor (text "shell") (text "t1"))
      [allowFirst, escalateSecond] .init =
        .ok ⟨[resultFirst, resultSecond], .escalate, .str (text "ask a human"), .int (-32000)⟩ :=
    rfl
  have hloop₂ : evaluateRules readingsInTime (commandFor (text "shell") (text "t1"))
      [escalateSecond, allowFirst] .init =
        .ok ⟨[resultSecond, resultFirst], .escalate, .str (text "ask a human"), .int (-32000)⟩ :=
    rfl
  obtain ⟨v₁, s₁, hverify₁, hresults₁⟩ := verify_serverWithRules serverInOrder.configHash_eq hloop₁
    (List.forall_mem_cons.mpr ⟨hfirst, List.forall_mem_singleton.mpr hsecond⟩) hreason
  obtain ⟨v₂, s₂, hverify₂, hresults₂⟩ := verify_serverWithRules serverInReverse.configHash_eq
    hloop₂ (List.forall_mem_cons.mpr ⟨hsecond, List.forall_mem_singleton.mpr hfirst⟩) hreason
  exact ⟨v₁, s₁, v₂, s₂, hverify₁, hresults₁, hverify₂, hresults₂⟩

/-- The same two rules in another order are told apart. -/
theorem configHash_binds_iff_sample : ∃ v₁ s₁ v₂ s₂,
    serverInOrder.verify readingsInTime (commandFor (text "shell") (text "t1")) .init =
      (.ok v₁, s₁) ∧
    serverInReverse.verify readingsInTime (commandFor (text "shell") (text "t1")) .init =
      (.ok v₂, s₂) ∧
    v₁.l1Field .configHash ≠ v₂.l1Field .configHash := by
  have hreceipt₁ : deniedRecord.externals.computeHash serverInOrder.receiptConfig =
      .ok (text "f15ad1c2d1b13a6794c2c6c50a681eea38f13d64e98aed54e37397a9e0068401") :=
    (deniedRecord.computeHash_externals .reference _).trans (by decide +kernel)
  have hreceipt₂ : deniedRecord.externals.computeHash serverInReverse.receiptConfig =
      .ok (text "21a63fe5136c14a89c8034ed3fcfdc14d04cc62733043abf38aff06c100c1833") :=
    (deniedRecord.computeHash_externals .reference _).trans (by decide +kernel)
  obtain ⟨hsha, hjcs⟩ := separated_of_hash_ne (computeHash_configData serverInOrder)
    (computeHash_configData serverInReverse) (by decide +kernel)
  obtain ⟨hsha', hjcs'⟩ := separated_of_hash_ne hreceipt₁ hreceipt₂ (by decide +kernel)
  have hsep : ConfigsSeparated serverInOrder serverInReverse := ⟨hsha, hjcs, hsha', hjcs'⟩
  obtain ⟨v₁, s₁, v₂, s₂, hverify₁, -, hverify₂, -⟩ := verify_twoRules
  have hbinds := (configHash_binds_iff hsep rfl rfl hverify₁ hverify₂).mpr
    (.inr (by decide +kernel))
  exact ⟨v₁, s₁, v₂, s₂, hverify₁, hverify₂, hbinds (by decide +kernel)⟩

/-- The server with one rule of the given name, of the class `DenyAll`. -/
def denyAllServer (name : Text) : VerifierServer deniedRecord.externals :=
  serverWithRules [fixedRule name (text "DenyAll") .deny (text "denied")]
    denyingServerL1.configHash denyingServerL1.configHash_eq

/-- It answers with an L1 receipt. -/
theorem verify_denyAllServer {name : Text} (hname : name.Encodable) : ∃ v s',
    (denyAllServer name).verify readingsInTime (commandFor (text "shell") (text "t1")) .init =
      (.ok v, s') := by
  have hreason : (text "denied").Encodable := by decide
  have hloop : evaluateRules readingsInTime (commandFor (text "shell") (text "t1"))
      (denyAllServer name).rules .init =
        .ok ⟨[fixedResult name .deny (text "denied")], .deny, .str (text "denied"), .int (-32000)⟩ :=
    rfl
  obtain ⟨v, s', hverify, -⟩ := verify_serverWithRules (denyAllServer name).configHash_eq hloop
    (List.forall_mem_singleton.mpr hname) hreason
  exact ⟨v, s', hverify⟩

/-- Two servers whose rules have different names but one class issue receipts with the same
configuration hash. -/
theorem names_not_in_configHash :
    (denyAllServer (text "first")).ruleNames ≠ (denyAllServer (text "second")).ruleNames ∧
    ConfigsSeparated (denyAllServer (text "first")) (denyAllServer (text "second")) ∧
    ∃ v₁ s₁ v₂ s₂,
      (denyAllServer (text "first")).verify readingsInTime (commandFor (text "shell") (text "t1"))
        .init = (.ok v₁, s₁) ∧
      (denyAllServer (text "second")).verify readingsInTime (commandFor (text "shell") (text "t1"))
        .init = (.ok v₂, s₂) ∧
      v₁.l1Field .configHash = v₂.l1Field .configHash ∧ v₁.l1Field .configHash ≠ none := by
  have hsep : ConfigsSeparated (denyAllServer (text "first")) (denyAllServer (text "second")) := by
    -- the two describe themselves alike
    refine ⟨?_, fun _ _ _ => ⟨_, rfl, rfl⟩, ?_, fun _ _ _ => ⟨_, rfl, rfl⟩⟩
    · exact fun p q hp hq _ => Except.ok.inj (hp.symm.trans hq)
    · exact fun p q hp hq _ => Except.ok.inj (hp.symm.trans hq)
  obtain ⟨v₁, s₁, hverify₁⟩ := verify_denyAllServer (by decide : (text "first").Encodable)
  obtain ⟨v₂, s₂, hverify₂⟩ := verify_denyAllServer (by decide : (text "second").Encodable)
  refine ⟨by decide +kernel, hsep, v₁, s₁, v₂, s₂, hverify₁, hverify₂, ?_, ?_⟩
  · exact (l1Field_configHash_eq_iff hsep rfl rfl hverify₁ hverify₂).mpr rfl
  · obtain ⟨t, -, hfield⟩ := l1Field_configHash
      (rfl : (denyAllServer (text "first")).l1Enabled = true) hverify₁
    rw [hfield]
    exact Option.some_ne_none _

end VerifierServer
