import CcsVerifier.Encoding.Split
import CcsVerifier.Server.ConfigHash
import CcsVerifier.Server.RequestHash

/-!
# What the canonical bytes, the params hash and the rule summary bind

`json.dumps` with sorted keys spells a JSON value so that it can be read back, and the rule summary
spells the results of the rules one after the other.

* `PyVal.dumps_compact_eq_iff`: equal dumps mean equal data.
* `Command.canonicalBytes_binds_iff`: the same for commands.
* `VerifierServer.paramsHash_binds_iff`: and for the parameters behind the `params_hash` of results.
* `VerifierServer.ruleSummary_binds_iff`: which rules two receipts report, and with which verdicts.
-/

/-! ## Dumps -/

/-- Values that JSON gives back are dumped alike exactly when they are the same data. -/
theorem PyVal.dumps_compact_eq_iff {v w : PyVal} (hv : v.Reloadable) (hw : w.Reloadable) :
    dumps .compact v = dumps .compact w ↔ v.SameData w := by
  constructor
  · intro h
    obtain ⟨t, ht⟩ := dumps_isOk_of_isJson .compact hv.isJson
    -- a dump gives back the data with sorted members
    have hback := loads_dumps DumpStyle.standard_compact ht
    rw [loads_dumps DumpStyle.standard_compact (h ▸ ht), hv.reload_compact,
      hw.reload_compact] at hback
    exact (Except.ok.inj hback).symm
  · exact SameData.congr (fun x hx => dumps_sorted hx) hv.isJson hw.isJson

/-- So are the bytes of their dumps. -/
theorem PyVal.encode_dumps_eq_iff {v w : PyVal} (hv : v.Reloadable) (hw : w.Reloadable)
    {p q : Bytes} (hp : dumps .compact v >>= Text.encode = .ok p)
    (hq : dumps .compact w >>= Text.encode = .ok q) : p = q ↔ v.SameData w := by
  rw [← dumps_compact_eq_iff hv hw]
  obtain ⟨t, ht, hencode⟩ := Except.bind_eq_ok_iff.mp hp
  obtain ⟨u, hu, hencode'⟩ := Except.bind_eq_ok_iff.mp hq
  rw [ht, hu, Except.ok.injEq]
  constructor
  · rintro rfl
    exact Text.encode_injective hencode hencode'
  · rintro rfl
    exact Except.ok.inj (hencode.symm.trans hencode')

namespace Command

variable {c d : Command}

/-- The data of a command come back when its fields do. -/
theorem reloadable_canonicalData (hc : ∀ v ∈ c.values, v.Reloadable) :
    c.canonicalData.Reloadable := by
  have hnames : ∀ k ∈ Dict.keys [(text "agent_id", c.agentId), (text "tool", c.tool),
      (text "params", c.params), (text "timestamp", c.timestamp), (text "trace_id", c.traceId)],
      k.joinSurrogates = k := by
    simp only [Dict.keys, List.map_cons, List.map_nil]
    decide
  simp only [values, List.forall_mem_cons] at hc
  obtain ⟨hagent, htool, hparams, htimestamp, htrace, -⟩ := hc
  refine .obj ?_ (fun m hm => hnames m.1 (List.mem_map_of_mem hm)) ?_
  · simp only [Dict.keys, List.map_cons, List.map_nil]
    decide
  · simp only [List.forall_mem_cons]
    exact ⟨hagent, htool, hparams, htimestamp, htrace, fun m hm => absurd hm List.not_mem_nil⟩

/-- The members in the order of their names. -/
theorem sorted_canonicalData (c : Command) : c.canonicalData.sorted =
    .ofMembers [(text "agent_id", c.agentId.sorted), (text "params", c.params.sorted),
      (text "timestamp", c.timestamp.sorted), (text "tool", c.tool.sorted),
      (text "trace_id", c.traceId.sorted)] := by
  rw [canonicalData, PyVal.sorted_ofMembers]
  rfl

/-- The data of two commands are the same when those of their fields are. -/
theorem sameData_canonicalData_iff :
    c.canonicalData.SameData d.canonicalData ↔ List.Forall₂ PyVal.SameData c.values d.values := by
  rw [PyVal.SameData, sorted_canonicalData, sorted_canonicalData, PyVal.ofMembers_injective.eq_iff]
  simp only [List.cons.injEq, Prod.mk.injEq, true_and, and_true, values, List.forall₂_cons,
    List.forall₂_nil_left_iff, PyVal.SameData]
  tauto

/-- The canonical bytes of two commands are the same exactly when each field holds the same data in
both, up to the order of members in objects. -/
theorem canonicalBytes_binds_iff (hc : ∀ v ∈ c.values, v.Reloadable)
    (hd : ∀ v ∈ d.values, v.Reloadable) :
    c.canonicalBytes = d.canonicalBytes ↔ List.Forall₂ PyVal.SameData c.values d.values := by
  have hc' := reloadable_canonicalData hc
  have hd' := reloadable_canonicalData hd
  -- a dump is ASCII, so that it has bytes
  have hbytes : ∀ {v : PyVal}, v.Reloadable → ∃ p, dumps .compact v >>= Text.encode = .ok p :=
    fun {v} hv => by
      obtain ⟨t, ht⟩ := dumps_isOk_of_isJson .compact hv.isJson
      obtain ⟨p, hp⟩ := Text.encode_isOk_iff.mpr (dumps_compact_isPlain ht).isAscii.encodable
      exact ⟨p, Except.bind_eq_ok_iff.mpr ⟨t, ht, hp⟩⟩
  obtain ⟨p, hp⟩ := hbytes hc'
  obtain ⟨q, hq⟩ := hbytes hd'
  rw [← sameData_canonicalData_iff, ← PyVal.encode_dumps_eq_iff hc' hd' hp hq]
  change dumps .compact c.canonicalData >>= Text.encode =
    dumps .compact d.canonicalData >>= Text.encode ↔ p = q
  rw [hp, hq, Except.ok.injEq]

/-- The fields of the command come back when the parameters do. -/
theorem reloadable_values_commandWith {params : PyVal} (h : params.Reloadable) :
    ∀ v ∈ (VerifierServer.commandWith params).values, v.Reloadable := by
  simp only [values, List.forall_mem_cons]
  exact ⟨.str (by decide), .str (by decide), h, .int 0, .str (by decide),
    fun v hv => absurd hv List.not_mem_nil⟩

/-- The members of the parameters may come in either order. -/
theorem canonicalBytes_binds_iff_sample :
    (VerifierServer.commandWith
      (.ofMembers [(text "a", .int 1), (text "b", .int 2)])).canonicalBytes =
      (VerifierServer.commandWith
        (.ofMembers [(text "b", .int 2), (text "a", .int 1)])).canonicalBytes := by
  have hreloadable : ∀ {k l : Text} {y z : ℤ}, k ≠ l → k.joinSurrogates = k →
      l.joinSurrogates = l → (PyVal.ofMembers [(k, .int y), (l, .int z)]).Reloadable := by
    intro k l y z hne hk hl
    exact .obj (by simpa [Dict.keys] using hne) (by simp [hk, hl])
      (by simp [PyVal.Reloadable.int])
  refine (canonicalBytes_binds_iff
    (reloadable_values_commandWith (hreloadable (by decide) (by decide) (by decide)))
    (reloadable_values_commandWith (hreloadable (by decide) (by decide) (by decide)))).mpr ?_
  refine .cons rfl (.cons rfl (.cons ?_ (.cons rfl (.cons rfl .nil))))
  change (PyVal.ofMembers _).SameData (.ofMembers _)
  rw [PyVal.SameData, PyVal.sorted_ofMembers, PyVal.sorted_ofMembers]
  rfl

end Command

namespace VerifierServer

variable {X : Externals}

/-! ## The params hash -/

/-- The first sixteen digits of the digests of the two dumps are no collision. -/
def ParamsSeparated (X : Externals) (c d : Command) : Prop :=
  ∀ p q, dumps .compact c.params >>= Text.encode = .ok p →
    dumps .compact d.params >>= Text.encode = .ok q →
    (Text.hex (X.sha256 p)).take 16 = (Text.hex (X.sha256 q)).take 16 → p = q

/-- Two hashes of parameters are the same exactly when the parameters are the same data. -/
theorem paramsHash_eq_iff {c d : Command} (hc : c.params.Reloadable) (hd : d.params.Reloadable)
    (hsha : ParamsSeparated X c d) {t u : Text} (ht : c.paramsHash X = .ok t)
    (hu : d.paramsHash X = .ok u) : t = u ↔ c.params.SameData d.params := by
  simp only [Command.paramsHash, Except.bind_eq_ok_iff, pure, Except.pure, Except.ok.injEq] at ht hu
  obtain ⟨dumped, hdumped, p, hp, rfl⟩ := ht
  obtain ⟨dumped', hdumped', q, hq, rfl⟩ := hu
  have hp' := Except.bind_eq_ok_iff.mpr ⟨dumped, hdumped, hp⟩
  have hq' := Except.bind_eq_ok_iff.mpr ⟨dumped', hdumped', hq⟩
  rw [← PyVal.encode_dumps_eq_iff hc hd hp' hq']
  exact ⟨hsha p q hp' hq', fun h => by rw [h]⟩

/-- A result carries the params hash of its command. -/
theorem paramsHash_of_verify {srv : VerifierServer X} {call : CallReadings} {c : Command}
    {s s' : ServerState} {v : VerificationResult} (hverify : srv.verify call c s = (.ok v, s')) :
    ∃ t, c.paramsHash X = .ok t ∧ v.paramsHash = .str t := by
  obtain ⟨loop, hash, _, _, -, hl0, -, rfl, -⟩ := verify_eq_ok_iff.mp hverify
  obtain ⟨hash', hhash, hl0⟩ := Except.bind_eq_ok_iff.mp hl0
  obtain ⟨receipt, -, hpair⟩ := Except.bind_eq_ok_iff.mp hl0
  cases hpair
  exact ⟨hash, hhash, rfl⟩

/-- Two results, of whichever servers, carry the same params hash exactly when the parameters of
their commands are the same data: numbers count as the same only if JSON writes them alike, and the
order of members does not count. -/
theorem paramsHash_binds_iff {srv₁ srv₂ : VerifierServer X} {call₁ call₂ : CallReadings}
    {c₁ c₂ : Command} {s₁ s₂ s₁' s₂' : ServerState} {v₁ v₂ : VerificationResult}
    (hc₁ : c₁.params.Reloadable) (hc₂ : c₂.params.Reloadable) (hsha : ParamsSeparated X c₁ c₂)
    (hverify₁ : srv₁.verify call₁ c₁ s₁ = (.ok v₁, s₁'))
    (hverify₂ : srv₂.verify call₂ c₂ s₂ = (.ok v₂, s₂')) :
    v₁.paramsHash = v₂.paramsHash ↔ c₁.params.SameData c₂.params := by
  obtain ⟨t, ht, hv₁⟩ := paramsHash_of_verify hverify₁
  obtain ⟨u, hu, hv₂⟩ := paramsHash_of_verify hverify₂
  rw [← paramsHash_eq_iff hc₁ hc₂ hsha ht hu, hv₁, hv₂, PyVal.str.injEq]

/-- The empty object and a string have different hashes. -/
theorem paramsHash_binds_iff_sample : ∃ v₁ s₁ v₂ s₂,
    denyingServerL1.verify readingsInTime (commandWith (.ofMembers [])) .init = (.ok v₁, s₁) ∧
    denyingServerL1.verify readingsInTime (commandWith (.str (text "ls"))) .init = (.ok v₂, s₂) ∧
    v₁.paramsHash ≠ v₂.paramsHash := by
  have hls : (PyVal.str (text "ls")).Canonical := PyVal.canonical_str.mpr (by decide)
  obtain ⟨v₁, s₁, hverify₁⟩ := verify_commandWith isJson_ofMembers_nil canonical_ofMembers_nil
  obtain ⟨v₂, s₂, hverify₂⟩ := verify_commandWith (.str (text "ls")) hls
  have hempty : dumps .compact (.ofMembers []) >>= Text.encode = .ok [123, 125] := by
    decide +kernel
  have hstring : dumps .compact (.str (text "ls")) >>= Text.encode = .ok [34, 108, 115, 34] := by
    decide +kernel
  have hsha : ParamsSeparated deniedRecord.externals (commandWith (.ofMembers []))
      (commandWith (.str (text "ls"))) := by
    intro p q hp hq
    obtain rfl : [123, 125] = p := Except.ok.inj (hempty.symm.trans hp)
    obtain rfl : [34, 108, 115, 34] = q := Except.ok.inj (hstring.symm.trans hq)
    exact fun h => absurd h (by decide +kernel)
  refine ⟨v₁, s₁, v₂, s₂, hverify₁, hverify₂, fun h => ?_⟩
  have hnil : (PyVal.ofMembers []).Reloadable := .obj List.nodup_nil (by simp) (by simp)
  have hsame := (paramsHash_binds_iff hnil (.str (by decide)) hsha hverify₁ hverify₂).mp h
  exact PyVal.noConfusion hsame

/-! ## The rule summary -/

/-- `|`, which separates the rules in a summary. -/
def bar : CodePoint := 0x7c

/-- The part of a summary for one rule. -/
def summaryItem (X : Externals) (r : RuleResult) : Text :=
  r.ruleName.format X.isPrintable ++ text "=" ++ r.verdict.value

/-- The summary joins its parts. -/
theorem ruleSummary_eq (X : Externals) (results : List RuleResult) :
    ruleSummary X results = [bar].intercalate (results.map (summaryItem X)) := rfl

/-- A part determines the verdict by its last letter, and so the name. -/
theorem summaryItem_inj {r r' : RuleResult} (hs : ∃ s, r.ruleName = .str s)
    (ht : ∃ t, r'.ruleName = .str t) (h : summaryItem X r = summaryItem X r') :
    r.ruleName = r'.ruleName ∧ r.verdict = r'.verdict := by
  obtain ⟨s, hs⟩ := hs
  obtain ⟨t, ht⟩ := ht
  have hlast : ∀ (u : Text) (w : Verdict), (u ++ w.value).getLast? = w.value.getLast? :=
    fun u w => by
      rw [List.getLast?_append]
      cases w <;> rfl
  -- `allow`, `deny` and `escalate` end in three letters
  have hletters : ∀ v w : Verdict, v.value.getLast? = w.value.getLast? → v = w := by
    intro v w
    cases v <;> cases w <;> decide
  rw [summaryItem, summaryItem] at h
  have hverdict : r.verdict = r'.verdict := hletters _ _ (by
    rw [← hlast (r.ruleName.format X.isPrintable ++ text "="), h, hlast])
  rw [hverdict] at h
  have hname := List.append_cancel_right (List.append_cancel_right h)
  rw [hs, ht, PyVal.format_str, PyVal.format_str] at hname
  exact ⟨by rw [hs, ht, hname], hverdict⟩

/-- No part is empty. -/
theorem summaryItem_ne_nil (r : RuleResult) : summaryItem X r ≠ [] := by
  have hequals : text "=" ≠ [] := by decide
  intro h
  exact hequals (List.append_eq_nil_iff.mp (List.append_eq_nil_iff.mp h).1).2

/-- The names in the results are strings without the separator. -/
def NamesPlain (results : List RuleResult) : Prop :=
  ∀ r ∈ results, ∃ s, r.ruleName = .str s ∧ bar ∉ s

/-- No part holds the separator. -/
theorem NamesPlain.bar_not_mem {results : List RuleResult} (h : NamesPlain results) :
    ∀ part ∈ results.map (summaryItem X), bar ∉ part := by
  have hvalue : ∀ v : Verdict, bar ∉ text "=" ++ v.value := by
    intro v
    cases v <;> decide
  rintro part hpart hmem
  obtain ⟨r, hr, rfl⟩ := List.mem_map.mp hpart
  obtain ⟨s, hs, hplain⟩ := h r hr
  rw [summaryItem, hs, PyVal.format_str, List.append_assoc, List.mem_append] at hmem
  exact hmem.elim hplain (hvalue r.verdict)

/-- Only the summary of no rules is empty. -/
theorem ruleSummary_eq_nil_iff {results : List RuleResult} :
    ruleSummary X results = [] ↔ results = [] := by
  constructor
  · intro h
    cases results with
    | nil => rfl
    | cons r rest =>
      have hfirst : ∃ later, ruleSummary X (r :: rest) = summaryItem X r ++ later := by
        cases rest with
        | nil => exact ⟨[], by simp [ruleSummary_eq]⟩
        | cons r' rest =>
          exact ⟨_, List.intercalate_cons_cons.trans (List.append_assoc _ _ _)⟩
      obtain ⟨later, hlater⟩ := hfirst
      rw [hlater, List.append_eq_nil_iff] at h
      exact absurd h.1 (summaryItem_ne_nil r)
  · rintro rfl
    rfl

/-- The parts are read back off the summary. -/
theorem summaryItems_eq {rs rs' : List RuleResult} (h : NamesPlain rs) (h' : NamesPlain rs')
    (hsummary : ruleSummary X rs = ruleSummary X rs') :
    rs.map (summaryItem X) = rs'.map (summaryItem X) := by
  -- the empty text would be split into one part
  by_cases hrs : rs = []
  · subst hrs
    rw [ruleSummary_eq_nil_iff.mp (hsummary.symm.trans rfl)]
  · have hrs' : rs' ≠ [] := by
      rintro rfl
      exact hrs (ruleSummary_eq_nil_iff.mp (hsummary.trans rfl))
    have hsplit := congrArg (List.splitOn bar) hsummary
    rwa [ruleSummary_eq, ruleSummary_eq,
      List.splitOn_intercalate bar (h.bar_not_mem (X := X)) (by simpa using hrs),
      List.splitOn_intercalate bar (h'.bar_not_mem (X := X)) (by simpa using hrs')] at hsplit

/-- The name and the verdict of each rule that was evaluated, in order. -/
def decisions (results : List RuleResult) : List (PyVal × Verdict) :=
  results.map fun r => (r.ruleName, r.verdict)

/-- The parts determine the decisions. -/
theorem decisions_eq_of_summaryItems {rs rs' : List RuleResult} (h : NamesPlain rs)
    (h' : NamesPlain rs') (hitems : rs.map (summaryItem X) = rs'.map (summaryItem X)) :
    decisions rs = decisions rs' := by
  induction rs generalizing rs' with
  | nil =>
    obtain rfl := List.map_eq_nil_iff.mp hitems.symm
    rfl
  | cons r rest ih =>
    cases rs' with
    | nil => exact absurd hitems (List.cons_ne_nil _ _)
    | cons r' rest' =>
      obtain ⟨⟨s, hs, -⟩, hrest⟩ := List.forall_mem_cons.mp h
      obtain ⟨⟨t, ht, -⟩, hrest'⟩ := List.forall_mem_cons.mp h'
      obtain ⟨hitem, hitems⟩ := List.cons.inj hitems
      obtain ⟨hname, hverdict⟩ := summaryItem_inj ⟨s, hs⟩ ⟨t, ht⟩ hitem
      have hlater := ih hrest hrest' hitems
      simp only [decisions, List.map_cons, List.cons.injEq] at hlater ⊢
      exact ⟨by rw [hname, hverdict], hlater⟩

/-- Summaries without separators in the names are equal exactly when the decisions are. -/
theorem ruleSummary_eq_iff {rs rs' : List RuleResult} (h : NamesPlain rs) (h' : NamesPlain rs') :
    ruleSummary X rs = ruleSummary X rs' ↔ decisions rs = decisions rs' := by
  constructor
  · intro hsummary
    exact decisions_eq_of_summaryItems h h' (summaryItems_eq h h' hsummary)
  · intro heq
    -- a summary shows nothing but the decisions
    have hitems : ∀ results : List RuleResult, results.map (summaryItem X) =
        (decisions results).map fun d => d.1.format X.isPrintable ++ text "=" ++ d.2.value :=
      fun results => by
        rw [decisions, List.map_map]
        rfl
    rw [ruleSummary_eq, ruleSummary_eq, hitems, hitems, heq]

/-- An L1 receipt carries the summary of the rules of its result. -/
theorem l1Field_ruleSummary {srv : VerifierServer X} (hl1 : srv.l1Enabled = true)
    {call : CallReadings} {c : Command} {s s' : ServerState} {v : VerificationResult}
    (hverify : srv.verify call c s = (.ok v, s')) :
    v.l1Field .ruleSummary = some (.str (ruleSummary X v.ruleResults)) := by
  obtain ⟨key, hkey⟩ := Option.isSome_iff_exists.mp hl1
  obtain ⟨loop, _, _, _, hloop, -, -, hv, -⟩ := verify_eq_ok_iff.mp hverify
  have hresults : v.ruleResults = loop.results := by rw [hv, resultOf]
  obtain ⟨_, _, _, _, hreceipt, -⟩ := exists_issued_of_verify hkey hverify
  obtain ⟨paramsHash, parts, r, hr, hissued⟩ := exists_issued hkey hverify hloop hreceipt
  rw [hissued.l1Field (hreceipt.trans (congrArg some hr)) rfl (by decide) (by decide), hresults]
  rfl

/-- The receipts of two results, of whichever servers, carry the same rule summary exactly when the
same rules were evaluated in the same order with the same verdicts, as long as no name holds the
separator. -/
theorem ruleSummary_binds_iff {srv₁ srv₂ : VerifierServer X} (hl1₁ : srv₁.l1Enabled = true)
    (hl1₂ : srv₂.l1Enabled = true) {call₁ call₂ : CallReadings} {c₁ c₂ : Command}
    {s₁ s₂ s₁' s₂' : ServerState} {v₁ v₂ : VerificationResult}
    (hverify₁ : srv₁.verify call₁ c₁ s₁ = (.ok v₁, s₁'))
    (hverify₂ : srv₂.verify call₂ c₂ s₂ = (.ok v₂, s₂'))
    (hplain₁ : NamesPlain v₁.ruleResults) (hplain₂ : NamesPlain v₂.ruleResults) :
    v₁.l1Field .ruleSummary = v₂.l1Field .ruleSummary ↔
      decisions v₁.ruleResults = decisions v₂.ruleResults := by
  rw [l1Field_ruleSummary hl1₁ hverify₁, l1Field_ruleSummary hl1₂ hverify₂, Option.some.injEq,
    PyVal.str.injEq, ruleSummary_eq_iff hplain₁ hplain₂]

/-! ## Samples -/

/-- The same two rules in another order. -/
theorem ruleSummary_binds_iff_sample : ∃ v₁ s₁ v₂ s₂,
    serverInOrder.verify readingsInTime (commandFor (text "shell") (text "t1")) .init =
      (.ok v₁, s₁) ∧
    serverInReverse.verify readingsInTime (commandFor (text "shell") (text "t1")) .init =
      (.ok v₂, s₂) ∧
    v₁.l1Field .ruleSummary ≠ v₂.l1Field .ruleSummary := by
  obtain ⟨v₁, s₁, v₂, s₂, hverify₁, hresults₁, hverify₂, hresults₂⟩ := verify_twoRules
  refine ⟨v₁, s₁, v₂, s₂, hverify₁, hverify₂, fun h => ?_⟩
  have hfirst : ∃ s, resultFirst.ruleName = .str s ∧ bar ∉ s := ⟨_, rfl, by decide⟩
  have hsecond : ∃ s, resultSecond.ruleName = .str s ∧ bar ∉ s := ⟨_, rfl, by decide⟩
  have hplain₁ : NamesPlain v₁.ruleResults :=
    hresults₁ ▸ List.forall_mem_cons.mpr ⟨hfirst, List.forall_mem_singleton.mpr hsecond⟩
  have hplain₂ : NamesPlain v₂.ruleResults :=
    hresults₂ ▸ List.forall_mem_cons.mpr ⟨hsecond, List.forall_mem_singleton.mpr hfirst⟩
  have hdecisions := (ruleSummary_binds_iff rfl rfl hverify₁ hverify₂ hplain₁ hplain₂).mp h
  rw [hresults₁, hresults₂] at hdecisions
  have hverdicts : [Verdict.allow, .escalate] = [.escalate, .allow] :=
    congrArg (List.map Prod.snd) hdecisions
  exact absurd hverdicts (by decide)

end VerifierServer
