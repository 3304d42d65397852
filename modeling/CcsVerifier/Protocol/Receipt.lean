import CcsVerifier.Encoding.Split
import CcsVerifier.Protocol.Command
import CcsVerifier.Python.JsonText
import CcsVerifier.Reference

/-!
# L0 receipts

`signReceipt` is the HMAC-SHA256 receipt over six fields joined by `:`. The separator is not
escaped and four of the fields are free text, so the joined text can be split in more than one
way.

* `L0Fields.parts_payload`: the `:`-separated parts of a payload.
* `L0Fields.eq_of_payload_eq`: a payload with one reading determines its tuple.
* `L0Fields.bindsReceipt_iff`: a receipt determines its tuple exactly when its payload has one
  reading.
* `L0Fields.receipt_shared_by_two_tuples`: one receipt for a denial and for an approval.
-/

/-- The six fields that an L0 receipt covers. -/
structure L0Fields where
  /-- `trace_id` -/
  traceId : Text
  /-- `verdict` -/
  verdict : Verdict
  /-- `timestamp` -/
  timestamp : Binary64
  /-- `tool` -/
  tool : Text
  /-- `params_hash` -/
  paramsHash : Text
  /-- `rule_summary` -/
  ruleSummary : Text
deriving DecidableEq

/-- The separator of the payload. -/
def colon : CodePoint := 0x3a

/-- The text that is signed:
`f"{trace_id}:{verdict.value}:{timestamp}:{tool}:{params_hash}:{rule_summary}"`. -/
def receiptPayload (X : Externals) (traceId : PyVal) (verdict : Verdict) (timestamp : PyVal)
    (tool paramsHash ruleSummary : PyVal) : Text :=
  traceId.format X.isPrintable ++ colon :: verdict.value ++ colon :: timestamp.format X.isPrintable
    ++ colon :: tool.format X.isPrintable ++ colon :: paramsHash.format X.isPrintable
    ++ colon :: ruleSummary.format X.isPrintable

/-- `hmac.new(secret, payload, hashlib.sha256).hexdigest()[:32]`. -/
def receiptTag (X : Externals) (secret payload : Bytes) : Text :=
  (Text.hex (X.hmacSha256 secret payload)).take 32

/-- `sign_receipt(trace_id, verdict, timestamp, secret, tool, params_hash, rule_summary)`. -/
def signReceipt (X : Externals) (traceId : PyVal) (verdict : Verdict) (timestamp : PyVal)
    (secret : Bytes) (tool paramsHash ruleSummary : PyVal) : Except PyExc Text := do
  let payload ← (receiptPayload X traceId verdict timestamp tool paramsHash ruleSummary).encode
  return receiptTag X secret payload

namespace L0Fields

variable (X : Externals)

/-- The payload of a tuple of strings, a verdict and a float. -/
def payload (a : L0Fields) : Text :=
  a.traceId ++ colon :: a.verdict.value ++ colon :: floatRepr a.timestamp
    ++ colon :: a.tool ++ colon :: a.paramsHash ++ colon :: a.ruleSummary

/-- `sign_receipt` on a tuple. -/
def sign (secret : Bytes) (a : L0Fields) : Except PyExc Text :=
  signReceipt X (.str a.traceId) a.verdict (.float a.timestamp) secret (.str a.tool)
    (.str a.paramsHash) (.str a.ruleSummary)

/-- A receipt is a tag on the encoded payload. -/
theorem sign_eq (secret : Bytes) (a : L0Fields) :
    a.sign X secret = a.payload.encode.map (receiptTag X secret) := by
  change (do let payload ← a.payload.encode; return receiptTag X secret payload) = _
  cases a.payload.encode <;> rfl

end L0Fields

/-! ## Two tuples with one payload -/

namespace L0Fields

/-- No verdict holds the separator. -/
theorem colon_not_mem_value (v : Verdict) : colon ∉ v.value := by
  cases v <;> decide

/-- Neither does a number. -/
theorem colon_not_mem_floatRepr (x : Binary64) : colon ∉ floatRepr x := fun h =>
  absurd (floatRepr_chars x colon h) (by decide)

/-- The parts of a payload: those of the trace identifier, the verdict, the timestamp, and those
of the three fields after it. -/
theorem parts_payload (a : L0Fields) :
    a.payload.splitOn colon = a.traceId.splitOn colon ++ a.verdict.value ::
      floatRepr a.timestamp :: (a.tool.splitOn colon ++ a.paramsHash.splitOn colon
        ++ a.ruleSummary.splitOn colon) := by
  have hverdict := List.splitOn_eq_singleton (colon_not_mem_value a.verdict)
  have htime := List.splitOn_eq_singleton (colon_not_mem_floatRepr a.timestamp)
  simp only [payload, List.append_assoc, List.cons_append, List.splitOn_append_cons_self, hverdict,
    htime, List.nil_append]

/-- No verdict is spelled like a float. -/
theorem value_ne_floatRepr (v : Verdict) (x : Binary64) : v.value ≠ floatRepr x := by
  intro h
  have hchars := floatRepr_chars x
  rw [← h] at hchars
  exact absurd hchars (by cases v <;> decide)

/-- A text in which a verdict and a float follow a separator as two parts of their own. -/
def HidesVerdict (t : Text) : Prop :=
  ∃ pre verdict timestamp post, pre ≠ [] ∧
    t.splitOn colon = pre ++ Verdict.value verdict :: floatRepr timestamp :: post

/-- The fields admit only one reading of the payload. -/
structure Unambiguous (a : L0Fields) : Prop where
  /-- The tool holds no separator. -/
  tool : colon ∉ a.tool
  /-- The parameter hash holds no separator. -/
  paramsHash : colon ∉ a.paramsHash
  /-- The rule summary holds no separator. -/
  ruleSummary : colon ∉ a.ruleSummary
  /-- The trace identifier holds no second verdict and timestamp. -/
  traceId : ¬HidesVerdict a.traceId

/-- With only one reading, the payload determines the fields. -/
theorem eq_of_payload_eq {a b : L0Fields} (ha : a.Unambiguous)
    (h : b.payload = a.payload) : a = b := by
  have hparts := congrArg (List.splitOn colon) h
  rw [parts_payload, parts_payload, List.splitOn_eq_singleton ha.tool,
    List.splitOn_eq_singleton ha.paramsHash, List.splitOn_eq_singleton ha.ruleSummary] at hparts
  have htool := List.length_pos_iff.mpr (List.splitOn_ne_nil colon b.tool)
  have hhash := List.length_pos_iff.mpr (List.splitOn_ne_nil colon b.paramsHash)
  have hsummary := List.length_pos_iff.mpr (List.splitOn_ne_nil colon b.ruleSummary)
  have hlength := congrArg List.length hparts
  simp only [List.length_append, List.length_cons, List.length_nil] at hlength
  rcases lt_or_ge (b.traceId.splitOn colon).length (a.traceId.splitOn colon).length with hlt | hge
  · -- `b` reads its verdict inside the trace identifier of `a`
    exfalso
    obtain ⟨mid, hmid, hrest⟩ := (List.append_eq_append_iff.mp hparts).resolve_right (by
      rintro ⟨mid, hmid, -⟩
      have := congrArg List.length hmid
      simp only [List.length_append] at this
      omega)
    rcases mid with _ | ⟨v, _ | ⟨t, post⟩⟩
    · have := congrArg List.length hmid
      simp only [List.append_nil] at this
      omega
    · -- its timestamp would be the verdict of `a`
      simp only [List.cons_append, List.nil_append, List.cons.injEq] at hrest
      exact value_ne_floatRepr _ _ hrest.2.1.symm
    · simp only [List.cons_append, List.cons.injEq] at hrest
      refine ha.traceId ⟨_, b.verdict, b.timestamp, post, List.splitOn_ne_nil colon b.traceId, ?_⟩
      rw [hmid, hrest.1, hrest.2.1]
  · have hlen : (b.traceId.splitOn colon).length = (a.traceId.splitOn colon).length := by omega
    obtain ⟨htrace, htail⟩ := List.append_inj hparts hlen
    simp only [List.cons_append, List.nil_append, List.cons.injEq] at htail
    obtain ⟨hverdict, htime, hfields⟩ := htail
    -- three parts for three fields: one each
    have hone : (b.tool.splitOn colon).length = 1 ∧ (b.paramsHash.splitOn colon).length = 1 := by
      omega
    obtain ⟨tool, htool⟩ := List.length_eq_one_iff.mp hone.1
    obtain ⟨hash, hhash⟩ := List.length_eq_one_iff.mp hone.2
    rw [htool, hhash] at hfields
    simp only [List.cons_append, List.nil_append, List.cons.injEq] at hfields
    obtain ⟨rfl, rfl, hrs⟩ := hfields
    have hsplit : ∀ {s t : Text}, s.splitOn colon = [t] → s = t := fun {s t} hst => by
      have hjoin : [colon].intercalate (s.splitOn colon) = s := List.intercalate_splitOn colon
      rw [← hjoin, hst, List.intercalate_singleton]
    cases a
    cases b
    simp only [mk.injEq]
    exact ⟨(splitOn_injective colon htrace).symm, (Verdict.value_injective hverdict).symm,
      (floatRepr_injective htime).symm, (hsplit htool).symm, (hsplit hhash).symm, (hsplit hrs).symm⟩

/-- A second verdict in the trace identifier gives a second reading. -/
private theorem exists_ne_of_hidesVerdict {a : L0Fields} (h : HidesVerdict a.traceId) :
    ∃ b, b.payload = a.payload ∧ a ≠ b := by
  obtain ⟨pre, verdict, timestamp, post, hpre, hsplit⟩ := h
  have hpart : ∀ part ∈ pre ++ verdict.value :: floatRepr timestamp :: post, colon ∉ part :=
    fun part hmem => not_mem_of_mem_splitOn colon (hsplit ▸ hmem)
  obtain ⟨traceId, htrace⟩ :=
    exists_splitOn_eq colon hpre fun part hmem => hpart part (by simp [hmem])
  -- the rest of the trace identifier, the verdict and the timestamp become part of the tool
  have htail : ∀ part ∈ post ++ a.verdict.value :: floatRepr a.timestamp :: a.tool.splitOn colon,
      colon ∉ part := by
    intro part hmem
    simp only [List.mem_append, List.mem_cons] at hmem
    rcases hmem with hmem | rfl | rfl | hmem
    · exact hpart part (by simp [hmem])
    · exact colon_not_mem_value _
    · exact colon_not_mem_floatRepr _
    · exact not_mem_of_mem_splitOn colon hmem
  obtain ⟨tool, htool⟩ := exists_splitOn_eq colon (by simp) htail
  refine ⟨⟨traceId, verdict, timestamp, tool, a.paramsHash, a.ruleSummary⟩, ?_, ?_⟩
  · apply splitOn_injective colon
    simp only [parts_payload, htrace, htool, hsplit, List.append_assoc, List.cons_append]
  · intro heq
    have hid : a.traceId = traceId := congrArg L0Fields.traceId heq
    rw [hid, htrace] at hsplit
    have := congrArg List.length hsplit
    simp only [List.length_append, List.length_cons] at this
    omega

/-- With more than one reading, another tuple has the same payload. -/
theorem exists_ne_of_not_unambiguous {a : L0Fields} (h : ¬a.Unambiguous) :
    ∃ b, b.payload = a.payload ∧ a ≠ b := by
  -- cutting a field at its separator shortens it
  have hcut : ∀ {s u w : Text}, s = u ++ colon :: w → s ≠ u ∧ s ≠ w := fun {s u w} hs => by
    have hlength := congrArg List.length hs
    simp only [List.length_append, List.length_cons] at hlength
    constructor <;> rintro rfl <;> omega
  by_cases htool : colon ∈ a.tool
  · obtain ⟨u, w, hs⟩ := List.append_of_mem htool
    refine ⟨{ a with tool := u, paramsHash := w ++ colon :: a.paramsHash }, ?_, fun heq => ?_⟩
    · simp only [payload, hs, List.append_assoc, List.cons_append]
    · exact (hcut hs).1 (congrArg L0Fields.tool heq)
  by_cases hhash : colon ∈ a.paramsHash
  · obtain ⟨u, w, hs⟩ := List.append_of_mem hhash
    refine ⟨{ a with tool := a.tool ++ colon :: u, paramsHash := w }, ?_, fun heq => ?_⟩
    · simp only [payload, hs, List.append_assoc, List.cons_append]
    · exact (hcut hs).2 (congrArg L0Fields.paramsHash heq)
  by_cases hsummary : colon ∈ a.ruleSummary
  · obtain ⟨u, w, hs⟩ := List.append_of_mem hsummary
    refine ⟨{ a with paramsHash := a.paramsHash ++ colon :: u, ruleSummary := w }, ?_,
      fun heq => ?_⟩
    · simp only [payload, hs, List.append_assoc, List.cons_append]
    · exact (hcut hs).2 (congrArg L0Fields.ruleSummary heq)
  · exact exists_ne_of_hidesVerdict (by_contra fun htrace =>
      h ⟨htool, hhash, hsummary, htrace⟩)

/-! ## Binding -/

variable (X : Externals)

/-- Under this secret, a receipt of the tuple is the receipt of no other tuple. -/
def BindsReceipt (secret : Bytes) (a : L0Fields) : Prop :=
  ∀ b r, a.sign X secret = .ok r → b.sign X secret = .ok r → a = b

/-- Under this secret, no other payload has the truncated tag of the tuple's payload. -/
def TagIsUnique (secret : Bytes) (a : L0Fields) : Prop :=
  ∀ p, a.payload.encode = .ok p → ∀ q, receiptTag X secret q = receiptTag X secret p → q = p

/-- `sign_receipt` returns exactly when the strings have a UTF-8 encoding. -/
theorem sign_isOk_iff (secret : Bytes) (a : L0Fields) :
    (∃ r, a.sign X secret = .ok r) ↔ a.payload.Encodable := by
  rw [← Text.encode_isOk_iff, sign_eq]
  cases a.payload.encode <;> simp [Except.map]

/-- When tags do not collide, receipts bind as far as payloads do. -/
theorem bindsReceipt_iff_payload {secret : Bytes} {a : L0Fields}
    (htag : a.TagIsUnique X secret) :
    a.BindsReceipt X secret ↔ (a.payload.Encodable → ∀ b, b.payload = a.payload → a = b) := by
  constructor
  · intro hbind hencodable b hpayload
    obtain ⟨r, hr⟩ := (sign_isOk_iff X secret a).mpr hencodable
    refine hbind b r hr ?_
    rw [sign_eq, hpayload, ← sign_eq, hr]
  · intro hpayload b r ha hb
    refine hpayload ((sign_isOk_iff X secret a).mp ⟨r, ha⟩) b ?_
    rw [sign_eq] at ha hb
    -- equal receipts are tags of equal payloads
    cases hp : a.payload.encode with
    | error e => simp [hp, Except.map] at ha
    | ok p =>
      cases hq : b.payload.encode with
      | error e => simp [hq, Except.map] at hb
      | ok q =>
        simp only [hp, hq, Except.map, Except.ok.injEq] at ha hb
        rw [htag p hp q (hb.trans ha.symm)] at hq
        exact Text.encode_injective hq hp

/-- The tag of a payload is unique for parameters made so. -/
theorem tagIsUnique_withUniqueTag {a : L0Fields} {p : Bytes} (hp : a.payload.encode = .ok p)
    (secret : Bytes) : a.TagIsUnique (X.withUniqueTag p) secret := by
  intro p' hp' q hq
  rw [hp, Except.ok.injEq] at hp'
  subst hp'
  have htag : ∀ m, receiptTag (X.withUniqueTag p) secret m =
      Text.hex ((macWithoutCollision X.hmacSha256 p secret m).take 16) := fun m =>
    Text.hex_take _ 16
  rw [htag, htag] at hq
  exact (macWithoutCollision_eq_iff (X.length_hmacSha256 secret p)).mp (Text.hex_injective hq)

/-- The fields of a receipt as the server issues it. -/
def sample : L0Fields :=
  ⟨text "6f2b1c0d9e8a7b65", .allow, Binary64.ofSmallInt 1893456000 abs_referenceTime_lt, text "shell",
    text "74234e98afe7498f", text "ssrf=allow|rce=allow"⟩

/-- A receipt determines its tuple exactly when the strings cannot be encoded, so that there is
no receipt, or when the payload has only one reading. -/
theorem bindsReceipt_iff {secret : Bytes} {a : L0Fields} (htag : a.TagIsUnique X secret) :
    a.BindsReceipt X secret ↔ (¬a.payload.Encodable ∨ a.Unambiguous) := by
  rw [bindsReceipt_iff_payload X htag]
  constructor
  · intro h
    by_contra hcond
    rw [not_or, not_not] at hcond
    obtain ⟨b, hpayload, hne⟩ := exists_ne_of_not_unambiguous hcond.2
    exact hne (h hcond.1 b hpayload)
  · rintro (hencodable | hunambiguous) h b hpayload
    · exact absurd h hencodable
    · exact eq_of_payload_eq hunambiguous hpayload

/-- Parameters without a collision on one payload, on which the two sides agree. -/
theorem bindsReceipt_iff_sample : ∃ p, sample.payload.encode = .ok p ∧
    (sample.BindsReceipt (SignatureRecord.reference.externals.withUniqueTag p) [1, 2, 3] ↔
      ¬sample.payload.Encodable ∨ sample.Unambiguous) := by
  obtain ⟨p, hp⟩ := Text.encode_isOk_iff.mpr (show sample.payload.Encodable by decide +kernel)
  exact ⟨p, hp, bindsReceipt_iff _ (tagIsUnique_withUniqueTag _ hp _)⟩

/-- A trace identifier that holds a verdict and a timestamp: the receipt of a denied command is,
under every secret, also the receipt of an allowed one. -/
theorem receipt_shared_by_two_tuples :
    ∃ a b : L0Fields, a.verdict = .deny ∧ b.verdict = .allow ∧
      ∀ (X : Externals) (secret : Bytes), ∃ r, a.sign X secret = .ok r ∧ b.sign X secret = .ok r := by
  let a : L0Fields := ⟨text "t1:allow:0.0", .deny, Binary64.zero, text "shell",
    text "74234e98afe7498f", text "rce=deny"⟩
  let b : L0Fields := ⟨text "t1", .allow, Binary64.zero, text "deny:0.0:shell",
    text "74234e98afe7498f", text "rce=deny"⟩
  refine ⟨a, b, rfl, rfl, fun X secret => ?_⟩
  obtain ⟨r, hr⟩ := (sign_isOk_iff X secret a).mpr (by decide)
  refine ⟨r, hr, ?_⟩
  rw [sign_eq] at hr ⊢
  exact hr

end L0Fields
