import CcsVerifier.L1.TamperEvidence
import CcsVerifier.Python.JsonText

/-!
# Receipts from dictionaries and JSON texts

`L1Receipt.from_dict` and `L1Receipt.from_json`: duplicate keys, legacy names, unknown fields,
`None`, lengths, the embedded key and unsigned receipts.

* `fromMembers_eq_ok_iff`: everything that an accepted dictionary has passed, and the receipt made
  of it.
* `fromJson_reflects`: an accepted text has no repeated key and no unknown one, and every key of a
  field that is given once has its value in the receipt.
-/

/-- `_OLD_FIELD_MAP` -/
def oldFieldMap : List (Text × Text) :=
  [(text "issuance_bound", text "issued_at"),
    (text "expiry_bound", text "expires_at"),
    (text "clock_skew_bound", text "max_clock_skew")]

/-- `_MAX_FIELD_LEN` -/
def maxFieldLen : ℕ := 4096

/-- `_check_duplicate_keys(pairs)` -/
def checkDuplicateKeys (pairs : List (Text × PyVal)) : Except PyExc PyVal := go [] pairs
where
  /-- The loop over the remaining pairs, with the keys seen so far. -/
  go (seen : List Text) : List (Text × PyVal) → Except PyExc PyVal
    | [] => .ok (.ofMembers (Dict.ofPairs pairs))
    | (key, _) :: rest =>
      if key ∈ seen then
        PyExc.value (text "Duplicate JSON key detected: '" ++ key
          ++ text "'. RFC 8785 requires unique keys; refusing to deserialize.")
      else go (key :: seen) rest

/-- The readings that give a new receipt its defaults. -/
structure ReceiptDefaults where
  /-- `time.time()` for the field `timestamp`. -/
  timestamp : FiniteBinary64
  /-- `secrets.token_bytes(16)` for the field `nonce`. -/
  nonceBytes : Bytes
  /-- `time.time()` for the field `verified_at`. -/
  verifiedAt : FiniteBinary64
  /-- The nonce is made of 16 bytes. -/
  length_nonceBytes : nonceBytes.length = 16

/-- `secrets.token_hex(16)` -/
def ReceiptDefaults.nonce (env : ReceiptDefaults) : Text := Text.hex env.nonceBytes

namespace ReceiptField

/-- The default of a field; `trace_id` has none. -/
def default? (env : ReceiptDefaults) : ReceiptField → Option PyVal
  | .traceId => none
  | .receiptVersion => some (.str L1.receiptVersion)
  | .verdict => some (.str (text "allow"))
  | .timestamp => some (.float (.fin env.timestamp))
  | .nonce => some (.str env.nonce)
  | .sequence => some (.int 0)
  | .issuedAt | .expiresAt | .maxClockSkew | .latencyUs => some (.float .zero)
  | .signingAlgorithm => some (.str L1.signingAlgorithm)
  | .verifiedAt => some (.float (.fin env.verifiedAt))
  | _ => some (.str [])

/-- Only the trace identifier has no default. -/
theorem default?_eq_none_iff {env : ReceiptDefaults} {f : ReceiptField} :
    f.default? env = none ↔ f = .traceId := by
  cases f <;> simp [default?]

/-- The fields that `from_dict` does not accept as `None`. -/
def isCritical : ReceiptField → Bool
  | .traceId | .verdict | .signature | .publicKeyFingerprint => true
  | _ => false

end ReceiptField

namespace PyVal

/-- The members of a dictionary with string keys. -/
def members? : PyVal → Option (Dict Text PyVal)
  | .dict entries => entries.mapM fun e =>
      match e.1 with
      | .str k => some (k, e.2)
      | _ => Option.none
  | _ => Option.none

/-- `v is None` -/
def isNone : PyVal → Bool
  | .none => true
  | _ => false

/-- Only `None` is none. -/
@[simp]
theorem isNone_iff {v : PyVal} : v.isNone = true ↔ v = .none := by
  cases v <;> simp [isNone]

/-- An object has its members. -/
@[simp]
theorem members?_ofMembers (ms : List (Text × PyVal)) : (ofMembers ms).members? = some ms := by
  rw [ofMembers, members?]
  induction ms with
  | nil => rfl
  | cons m ms ih => rw [List.map_cons, List.mapM_cons, ih]; rfl

end PyVal

/-- `cls(**kw)` -/
def L1Receipt.ofKeywords (env : ReceiptDefaults) (kw : Dict Text PyVal) :
    Except PyExc L1Receipt :=
  match kw.lookup ReceiptField.traceId.name with
  | none =>
    PyExc.type (text "L1Receipt.__init__() missing 1 required positional argument: 'trace_id'")
  | some traceId =>
    .ok ⟨fun f => ((kw.lookup f.name).or (f.default? env)).getD traceId⟩

namespace FromDict

/-- One round of the loop over `_OLD_FIELD_MAP`. -/
def remapName (d : Dict Text PyVal) (old new : Text) : Dict Text PyVal :=
  match d.lookup old with
  | none => d
  | some v =>
    let d := if (d.lookup new).isSome then d else d.set new v
    d.erase old

/-- The dictionary with legacy names replaced. -/
def remap (d : Dict Text PyVal) : Dict Text PyVal :=
  oldFieldMap.foldl (fun d m => remapName d m.1 m.2) d

variable (X : Externals)

/-- The refusal of unknown fields. -/
def checkUnknown (d : Dict Text PyVal) : Except PyExc Unit :=
  let unknown := d.keys.filter fun k => (ReceiptField.ofName? k).isNone
  if unknown = [] then .ok ()
  else
    PyExc.value (text "Unknown fields in L1Receipt: "
      ++ (PyVal.list ((unknown.mergeSort (· ≤ ·)).map .str)).repr X.isPrintable
      ++ text ". Refusing to deserialize to prevent signature bypass.")

/-- The refusal of another receipt version. -/
def checkVersion (d : Dict Text PyVal) : Except PyExc Unit :=
  match d.lookup ReceiptField.receiptVersion.name with
  | none => .ok ()
  | some rv =>
    if rv.eqStr L1.receiptVersion then .ok ()
    else
      PyExc.value (text "Unsupported receipt_version: '" ++ rv.format X.isPrintable
        ++ text "'. Expected '" ++ L1.receiptVersion
        ++ text "'. Refusing to deserialize incompatible receipt.")

/-- The checks of names and version that strict mode makes. -/
def checkStrict (d : Dict Text PyVal) (strict : Bool) : Except PyExc Unit :=
  if strict then do
    checkUnknown X d
    checkVersion X d
  else .ok ()

/-- The check of the only field without a default. -/
def checkTraceId (d : Dict Text PyVal) : Except PyExc Unit :=
  match d.lookup ReceiptField.traceId.name with
  | none | some .none => PyExc.value (text "Missing required field: trace_id")
  | some (.str s) =>
    if s = [] then PyExc.value (text "Field trace_id must be a non-empty string") else .ok ()
  | some _ => PyExc.value (text "Field trace_id must be a non-empty string")

/-- The loop that drops `None` and bounds the length of strings. -/
def checkValues : Dict Text PyVal → Except PyExc (Dict Text PyVal)
  | [] => .ok []
  | (k, v) :: rest =>
    match v with
    | .none =>
      if ((ReceiptField.ofName? k).map ReceiptField.isCritical).getD false then
        PyExc.value (text "Field " ++ k ++ text " must not be None")
      else checkValues rest
    | .str s =>
      if maxFieldLen < s.length then
        PyExc.value (text "Field " ++ k ++ text " exceeds maximum length ("
          ++ intText s.length ++ text " > " ++ intText maxFieldLen ++ text ")")
      else do
        let rest ← checkValues rest
        return (k, v) :: rest
    | _ => do
        let rest ← checkValues rest
        return (k, v) :: rest

/-- The refusal of an empty value in a field that is present. -/
def checkNotEmpty (d : Dict Text PyVal) (f : ReceiptField) (message : Text) :
    Except PyExc Unit :=
  match d.lookup f.name with
  | none => .ok ()
  | some v => if v.truthy then .ok () else PyExc.value message

/-- The body of the `try` block that checks an embedded key. -/
def decodePublicKey (v : PyVal) : Except PyExc Unit := do
  let embedded ← X.b64decode v
  if embedded.length ≠ 32 then
    PyExc.value (text "Field public_key must decode to 32 raw Ed25519 bytes, got "
      ++ intText embedded.length)
  else
    let canonical ← X.canonicalBase64 v
    if v.eqStr canonical then .ok ()
    else PyExc.value (text "Field public_key is not in canonical Base64 form")

/-- The cross-check of an embedded key next to a signature. -/
def checkPublicKey (d : Dict Text PyVal) : Except PyExc Unit :=
  match d.lookup ReceiptField.signature.name, d.lookup ReceiptField.publicKey.name with
  | some sig, some pk =>
    if sig.truthy && pk.truthy then
      match decodePublicKey X pk with
      | .ok () => .ok ()
      | .error e =>
        if e.isValueError && decide (text "must decode" <:+: e.message) then .error e
        else if e.isValueError && decide (text "canonical" <:+: e.message) then .error e
        else PyExc.value (text "Field public_key is not valid Base64: " ++ e.message)
    else .ok ()
  | _, _ => .ok ()

/-- The refusal of an unsigned receipt that allows, in strict mode. -/
def checkUnsigned (d : Dict Text PyVal) (strict : Bool) : Except PyExc Unit :=
  let signature := (d.lookup ReceiptField.signature.name).getD (.str [])
  let verdict := (d.lookup ReceiptField.verdict.name).getD (.str (text "allow"))
  if strict && !signature.truthy && verdict.eqStr (text "allow") then
    PyExc.value (text "Unsigned receipt with verdict='allow' is not permitted in strict mode. "
      ++ text "An unsigned allow receipt provides no cryptographic assurance and could be trivially "
      ++ text "forged. Either provide a valid signature or use verdict='deny'.")
  else .ok ()

/-- The body of `from_dict` for a dictionary. -/
def fromMembers (env : ReceiptDefaults) (data : Dict Text PyVal) (strict : Bool) :
    Except PyExc L1Receipt := do
  let remapped := remap data
  checkStrict X remapped strict
  let filtered := remapped.filter fun m => (ReceiptField.ofName? m.1).isSome
  checkTraceId filtered
  let kept ← checkValues filtered
  checkNotEmpty kept .signature (text "Field signature must not be empty")
  checkNotEmpty kept .publicKeyFingerprint (text "Field public_key_fingerprint must not be empty")
  checkNotEmpty kept .publicKey (text "Field public_key must not be empty when present")
  checkPublicKey X kept
  checkUnsigned kept strict
  L1Receipt.ofKeywords env kept

end FromDict

/-- `L1Receipt.from_dict(data, strict)`, for dictionaries with string keys. -/
def L1Receipt.fromDict (X : Externals) (env : ReceiptDefaults) (data : PyVal) (strict : Bool) :
    Except PyExc L1Receipt :=
  match data.members? with
  | none => PyExc.value (text "from_dict requires a dict")
  | some members => FromDict.fromMembers X env members strict

/-- `L1Receipt.from_json(json_str, strict)` -/
def L1Receipt.fromJson (X : Externals) (env : ReceiptDefaults) (jsonStr : Text) (strict : Bool) :
    Except PyExc L1Receipt := do
  let data ← loadsWith checkDuplicateKeys jsonStr
  L1Receipt.fromDict X env data strict


/-! ## What a dictionary gives for a field -/

namespace ReceiptField

/-- The name of a field in version 1.1.6, for the renamed ones. -/
def legacyName? (f : ReceiptField) : Option Text :=
  (oldFieldMap.find? fun m => m.2 = f.name).map Prod.fst

/-- The legacy names are names of no field. -/
theorem name_not_mem_legacy (f : ReceiptField) : f.name ∉ oldFieldMap.map Prod.fst := by
  have hnone : ∀ old ∈ oldFieldMap.map Prod.fst, ofName? old = none := by decide +kernel
  intro hmem
  have hsome := hnone f.name hmem
  rw [ofName?_eq_some_iff.mpr rfl] at hsome
  cases hsome

end ReceiptField

namespace FromDict

/-- What a dictionary gives for a field: the value under its name, else under its legacy name. -/
def given? (d : Dict Text PyVal) (f : ReceiptField) : Option PyVal :=
  (d.lookup f.name).or (f.legacyName?.bind d.lookup)

/-- Remapping moves the value of the old name to the new one, unless this has a value. -/
theorem lookup_remapName (d : Dict Text PyVal) (old new k : Text) :
    (remapName d old new).lookup k =
      if k = old then none
      else if k = new then (d.lookup new).or (d.lookup old) else d.lookup k := by
  cases hold : d.lookup old with
  | none =>
    simp only [remapName, hold, Option.or_none]
    by_cases hk : k = old
    · rw [if_pos hk, hk, hold]
    · by_cases hnew : k = new
      · rw [if_neg hk, if_pos hnew, hnew]
      · rw [if_neg hk, if_neg hnew]
  | some v =>
    simp only [remapName, hold, Dict.lookup_erase]
    refine if_congr Iff.rfl rfl ?_
    -- the new name keeps a value that it has
    cases hnew : d.lookup new with
    | none => rw [Option.isSome_none, if_neg Bool.false_ne_true, Dict.lookup_set, Option.none_or]
    | some w =>
      rw [Option.isSome_some, if_pos rfl, Option.some_or]
      by_cases hk : k = new
      · rw [if_pos hk, hk, hnew]
      · rw [if_neg hk]

/-- After replacing names that are all different, a key that is no old name has its own value,
else that of its old name. -/
theorem lookup_foldl_remapName (names : List (Text × Text))
    (hnames : (names.flatMap fun m => [m.1, m.2]).Nodup) (d : Dict Text PyVal) {k : Text}
    (hk : k ∉ names.map Prod.fst) :
    (names.foldl (fun d m => remapName d m.1 m.2) d).lookup k =
      (d.lookup k).or ((names.find? fun m => m.2 = k).bind fun m => d.lookup m.1) := by
  induction names generalizing d with
  | nil => simp
  | cons m names ih =>
    obtain ⟨old, new⟩ := m
    simp only [List.flatMap_cons, List.cons_append, List.nil_append, List.nodup_cons,
      List.mem_cons, List.mem_flatMap, not_or, not_exists, not_and] at hnames
    obtain ⟨⟨hne, hold⟩, hnew, hnodup⟩ := hnames
    simp only [List.map_cons, List.mem_cons, not_or] at hk
    rw [List.foldl_cons, ih hnodup _ hk.2, lookup_remapName, if_neg hk.1]
    -- each name is moved at most once, since no name is in the map twice
    by_cases hkn : k = new
    · have htail : names.find? (fun m => m.2 = k) = none := by
        refine List.find?_eq_none.mpr fun m hm => ?_
        rw [decide_eq_true_eq, hkn]
        exact fun heq => (hnew m hm).2.1 heq.symm
      rw [if_pos hkn, htail, List.find?_cons_of_pos (by simp [hkn]), hkn]
      simp
    · rw [if_neg hkn, List.find?_cons_of_neg (by simpa using Ne.symm hkn)]
      congr 1
      refine Option.bind_congr fun m hm => ?_
      have hmem := List.mem_of_find?_eq_some hm
      rw [lookup_remapName, if_neg, if_neg]
      · rintro rfl
        exact (hnew m hmem).1 rfl
      · rintro rfl
        exact (hold m hmem).1 rfl

/-- After replacing names that are all different, no old name is left. -/
theorem lookup_foldl_remapName_of_mem (names : List (Text × Text))
    (hnames : (names.flatMap fun m => [m.1, m.2]).Nodup) (d : Dict Text PyVal) {k : Text}
    (hk : k ∈ names.map Prod.fst) :
    (names.foldl (fun d m => remapName d m.1 m.2) d).lookup k = none := by
  induction names generalizing d with
  | nil => cases hk
  | cons m names ih =>
    obtain ⟨old, new⟩ := m
    simp only [List.flatMap_cons, List.cons_append, List.nil_append, List.nodup_cons,
      List.mem_cons, List.mem_flatMap, not_or, not_exists, not_and] at hnames
    obtain ⟨⟨-, hold⟩, -, hnodup⟩ := hnames
    rw [List.foldl_cons]
    by_cases htail : k ∈ names.map Prod.fst
    · exact ih hnodup _ htail
    · have hko : k = old := by simpa [htail] using hk
      -- no later round brings the old name back
      have hfind : names.find? (fun m => m.2 = k) = none := by
        refine List.find?_eq_none.mpr fun m hm => ?_
        rw [decide_eq_true_eq, hko]
        exact fun heq => (hold m hm).2.1 heq.symm
      rw [lookup_foldl_remapName names hnodup _ htail, lookup_remapName, if_pos hko, hfind]
      rfl

/-- After the replacement a field has under its name what the dictionary gives for it. -/
theorem lookup_remap_name (d : Dict Text PyVal) (f : ReceiptField) :
    (remap d).lookup f.name = given? d f := by
  rw [remap, lookup_foldl_remapName oldFieldMap (by decide +kernel) d f.name_not_mem_legacy, given?,
    ReceiptField.legacyName?, Option.bind_map]
  rfl

/-- A key that is no name in the table of legacy names keeps its value. -/
theorem lookup_remap_of_not_mem (d : Dict Text PyVal) {k : Text}
    (hk : ∀ m ∈ oldFieldMap, k ≠ m.1 ∧ k ≠ m.2) : (remap d).lookup k = d.lookup k := by
  have hold : k ∉ oldFieldMap.map Prod.fst := by
    rintro hmem
    obtain ⟨m, hm, rfl⟩ := List.mem_map.mp hmem
    exact (hk m hm).1 rfl
  have hfind : oldFieldMap.find? (fun m => m.2 = k) = none :=
    List.find?_eq_none.mpr fun m hm => by simpa using Ne.symm (hk m hm).2
  rw [remap, lookup_foldl_remapName oldFieldMap (by decide +kernel) d hold, hfind]
  simp

/-- Remapping repeats no key. -/
theorem nodup_keys_remap {d : Dict Text PyVal} (hd : d.keys.Nodup) : (remap d).keys.Nodup := by
  -- one round of the loop sets one key and erases another
  have hround : ∀ (d : Dict Text PyVal) (old new : Text), d.keys.Nodup →
      (remapName d old new).keys.Nodup := by
    intro d old new hd
    unfold remapName
    cases d.lookup old with
    | none => exact hd
    | some v =>
      refine Dict.nodup_keys_erase ?_
      split
      · exact hd
      · exact Dict.nodup_keys_set hd
  unfold remap
  generalize oldFieldMap = names
  induction names generalizing d with
  | nil => exact hd
  | cons m names ih => exact ih (hround d m.1 m.2 hd)

/-! ## What each check lets through -/

variable {X : Externals} {d data : Dict Text PyVal}

/-- Strict mode accepts the names of fields only. -/
theorem checkUnknown_eq_ok_iff :
    checkUnknown X d = .ok () ↔ ∀ k ∈ d.keys, ∃ f : ReceiptField, f.name = k := by
  -- a key is known when it is the name of a field
  have hknown : ∀ k, (ReceiptField.ofName? k).isNone = false ↔ ∃ f : ReceiptField, f.name = k := by
    intro k
    cases h : ReceiptField.ofName? k with
    | none =>
      simp only [Option.isNone_none, Bool.true_eq_false, false_iff, not_exists]
      rintro f rfl
      rw [ReceiptField.ofName?_eq_some_iff.mpr rfl] at h
      cases h
    | some f => simpa using ⟨f, ReceiptField.ofName?_eq_some_iff.mp h⟩
  have hnil : (d.keys.filter fun k => (ReceiptField.ofName? k).isNone) = [] ↔
      ∀ k ∈ d.keys, ∃ f : ReceiptField, f.name = k := by
    simp only [List.filter_eq_nil_iff, Bool.not_eq_true, hknown]
  rw [← hnil, checkUnknown]
  split
  · next h => simp [h]
  · next h => simp [h, PyExc.value]

/-- Strict mode accepts one version only. -/
theorem checkVersion_eq_ok_iff : checkVersion X d = .ok () ↔
    ∀ v, d.lookup ReceiptField.receiptVersion.name = some v → v = .str L1.receiptVersion := by
  unfold checkVersion
  cases d.lookup ReceiptField.receiptVersion.name with
  | none => simp
  | some v =>
    simp only [PyVal.eqStr_iff, Option.some.injEq, forall_eq']
    split <;> simp_all [PyExc.value]

/-- Both checks are made in strict mode only. -/
theorem checkStrict_eq_ok_iff {strict : Bool} : checkStrict X d strict = .ok () ↔
    (strict = true → checkUnknown X d = .ok () ∧ checkVersion X d = .ok ()) := by
  unfold checkStrict
  cases strict
  · simp
  · rw [if_pos rfl, Except.bind_eq_ok_iff]
    exact ⟨fun ⟨_, h⟩ _ => h, fun h => ⟨(), h rfl⟩⟩

/-- The trace identifier has to be a string that is not empty. -/
theorem checkTraceId_eq_ok_iff : checkTraceId d = .ok () ↔
    ∃ s, s ≠ [] ∧ d.lookup ReceiptField.traceId.name = some (.str s) := by
  unfold checkTraceId
  split
  · next h => simp [PyExc.value, h]
  · next h => simp [PyExc.value, h]
  · next s h =>
    rw [h]
    by_cases hs : s = [] <;> simp [PyExc.value, hs]
  · next v hnone hstr h =>
    simp only [PyExc.value, reduceCtorEq, false_iff, not_exists, not_and]
    intro s _ hs
    rw [hs, Option.some.injEq] at h
    exact hstr s h.symm

/-- What the loop asks of one entry. -/
def EntryAccepted (m : Text × PyVal) : Prop :=
  (∀ f : ReceiptField, f.name = m.1 → f.isCritical = true → m.2 ≠ .none) ∧
    ∀ s, m.2 = .str s → s.length ≤ maxFieldLen

/-- An accepted entry is kept unless its value is `None`. -/
private theorem checkValues_cons_eq_ok_iff {m : Text × PyVal} {kept : Dict Text PyVal} :
    checkValues (m :: d) = .ok kept ↔
      EntryAccepted m ∧ ∃ rest, checkValues d = .ok rest ∧
        kept = if m.2.isNone then rest else m :: rest := by
  obtain ⟨k, v⟩ := m
  have hkeep : (do let rest ← checkValues d; return (k, v) :: rest) = Except.ok (ε := PyExc) kept ↔
      ∃ rest, checkValues d = .ok rest ∧ kept = (k, v) :: rest := by
    simp only [Except.bind_eq_ok_iff, pure, Except.pure, Except.ok.injEq, eq_comm (b := kept)]
  have hplain : v ≠ .none → (∀ s, v ≠ .str s) → EntryAccepted (k, v) := fun hnone hstr =>
    ⟨fun _ _ _ => hnone, fun s hs => absurd hs (hstr s)⟩
  -- `None` and strings are checked, everything else is kept
  cases v
  case none =>
    have hcritical : ((ReceiptField.ofName? k).map ReceiptField.isCritical).getD false = true ↔
        ∃ f : ReceiptField, f.name = k ∧ f.isCritical = true := by
      cases h : ReceiptField.ofName? k with
      | none =>
        simp only [Option.map_none, Option.getD_none, Bool.false_eq_true, false_iff, not_exists,
          not_and]
        rintro f rfl
        rw [ReceiptField.ofName?_eq_some_iff.mpr rfl] at h
        cases h
      | some f =>
        obtain rfl := ReceiptField.ofName?_eq_some_iff.mp h
        simp [ReceiptField.name_injective.eq_iff]
    rw [checkValues]
    by_cases hk : ((ReceiptField.ofName? k).map ReceiptField.isCritical).getD false = true
    · obtain ⟨f, hf, hfc⟩ := hcritical.mp hk
      rw [if_pos hk]
      simp only [PyExc.value, reduceCtorEq, false_iff, not_and]
      exact fun h => absurd rfl (h.1 f hf hfc)
    · rw [if_neg hk]
      have hentry : EntryAccepted (k, .none) :=
        ⟨fun f hf hfc => absurd (hcritical.mpr ⟨f, hf, hfc⟩) hk, fun s hs => by cases hs⟩
      simp [hentry, PyVal.isNone]
  case str s =>
    rw [checkValues]
    by_cases hs : maxFieldLen < s.length
    · rw [if_pos hs]
      simp only [PyExc.value, reduceCtorEq, false_iff, not_and]
      exact fun h => absurd (h.2 s rfl) (by omega)
    · have hentry : EntryAccepted (k, .str s) :=
        ⟨fun _ _ _ h => (by cases h), fun t ht => by cases ht; omega⟩
      rw [if_neg hs, hkeep]
      simp [hentry, PyVal.isNone]
  all_goals
    rw [checkValues, hkeep]
    · simp only [hplain (by simp) (by simp), PyVal.isNone, true_and, Bool.false_eq_true, ↓reduceIte]
    all_goals simp

/-- The loop refuses `None` in a critical field and long strings, and drops any other `None`. -/
theorem checkValues_eq_ok_iff {kept : Dict Text PyVal} : checkValues d = .ok kept ↔
    (∀ m ∈ d, EntryAccepted m) ∧ kept = d.filter fun m => !m.2.isNone := by
  induction d generalizing kept with
  | nil => simp only [checkValues, Except.ok.injEq, List.not_mem_nil, false_imp_iff, implies_true,
      List.filter_nil, true_and, eq_comm]
  | cons m d ih =>
    rw [checkValues_cons_eq_ok_iff, List.forall_mem_cons, and_assoc, List.filter_cons]
    -- the head is accepted on both sides, and is kept unless it is `None`
    refine and_congr_right fun _ => ?_
    simp only [ih]
    constructor
    · rintro ⟨rest, ⟨hall, rfl⟩, rfl⟩
      refine ⟨hall, ?_⟩
      cases m.2.isNone <;> rfl
    · rintro ⟨hall, rfl⟩
      refine ⟨_, ⟨hall, rfl⟩, ?_⟩
      cases m.2.isNone <;> rfl

/-- A field that is given has to have a true value. -/
theorem checkNotEmpty_eq_ok_iff {f : ReceiptField} {message : Text} :
    checkNotEmpty d f message = .ok () ↔ ∀ v, d.lookup f.name = some v → v.truthy = true := by
  unfold checkNotEmpty
  cases d.lookup f.name with
  | none => simp
  | some v =>
    simp only [Option.some.injEq, forall_eq']
    split
    · next h => simp [h]
    · next h => simp [h, PyExc.value]

/-- A public key has to be the canonical Base64 of 32 bytes. -/
theorem decodePublicKey_eq_ok_iff {v : PyVal} : decodePublicKey X v = .ok () ↔
    ∃ key : Bytes, key.length = 32 ∧ v = .str (b64encode key) := by
  unfold decodePublicKey
  constructor
  · intro h
    obtain ⟨key, hkey, h⟩ := Except.bind_eq_ok_iff.mp h
    split at h
    · cases h
    next hlength =>
    obtain ⟨canonical, hcanonical, h⟩ := Except.bind_eq_ok_iff.mp h
    split at h
    -- the value is the encoding of the 32 bytes that it decodes to
    · next heq =>
      simp only [Externals.canonicalBase64, hkey, bind, Except.bind, pure, Except.pure,
        Except.ok.injEq] at hcanonical
      subst hcanonical
      exact ⟨key, not_not.mp hlength, PyVal.eqStr_iff.mp heq⟩
    · cases h
  · rintro ⟨key, hlength, rfl⟩
    simp [hlength, bind, Except.bind, PyVal.eqStr]

/-- The public key is checked when there is a signature too. -/
theorem checkPublicKey_eq_ok_iff : checkPublicKey X d = .ok () ↔
    ∀ sig pk, d.lookup ReceiptField.signature.name = some sig →
      d.lookup ReceiptField.publicKey.name = some pk → sig.truthy = true → pk.truthy = true →
      ∃ key : Bytes, key.length = 32 ∧ pk = .str (b64encode key) := by
  unfold checkPublicKey
  cases d.lookup ReceiptField.signature.name with
  | none => simp
  | some sig =>
    cases d.lookup ReceiptField.publicKey.name with
    | none => simp
    | some pk =>
      have hdecode := decodePublicKey_eq_ok_iff (X := X) (v := pk)
      constructor
      · rintro h _ _ ⟨⟩ ⟨⟩ hsig hpk
        rw [← hdecode]
        simp only [hsig, hpk, Bool.and_self, ↓reduceIte] at h
        -- whatever the decoding raises becomes a refusal
        cases hresult : decodePublicKey X pk with
        | ok => rfl
        | error e =>
          simp only [hresult] at h
          split at h
          · cases h
          · split at h <;> cases h
      · intro h
        by_cases hboth : (sig.truthy && pk.truthy) = true
        · obtain ⟨hsig, hpk⟩ := Bool.and_eq_true_iff.mp hboth
          simp only [hboth, ↓reduceIte, hdecode.mpr (h sig pk rfl rfl hsig hpk)]
        · simp only [hboth, Bool.false_eq_true, ↓reduceIte]

/-- Strict mode refuses an unsigned receipt that allows. -/
theorem checkUnsigned_eq_ok_iff {strict : Bool} : checkUnsigned d strict = .ok () ↔
    (strict = true →
      ((d.lookup ReceiptField.signature.name).getD (.str [])).truthy = true ∨
      (d.lookup ReceiptField.verdict.name).getD (.str (text "allow")) ≠ .str (text "allow")) := by
  rw [checkUnsigned, ← PyVal.eqStr_eq_false_iff]
  cases strict
  · simp
  · cases ((d.lookup ReceiptField.signature.name).getD (.str [])).truthy
    · cases ((d.lookup ReceiptField.verdict.name).getD (.str (text "allow"))).eqStr (text "allow")
      · simp
      · simp [PyExc.value]
    · simp

/-! ## What is accepted -/

/-- What `from_dict` asks of what a dictionary gives for each field. -/
structure Accepts (data : Dict Text PyVal) (strict : Bool) : Prop where
  /-- In strict mode every key names a field, or named one in version 1.1.6. -/
  known : strict = true → ∀ k ∈ data.keys, ∃ f : ReceiptField, f.name = k ∨ f.legacyName? = some k
  /-- In strict mode the version is the supported one, if given. -/
  version : strict = true → ∀ v, given? data .receiptVersion = some v → v = .str L1.receiptVersion
  /-- There is a trace identifier. -/
  traceId : ∃ s, s ≠ [] ∧ given? data .traceId = some (.str s)
  /-- Critical fields are not `None`. -/
  critical : ∀ f : ReceiptField, f.isCritical = true → given? data f ≠ some .none
  /-- Strings are not too long. -/
  length : ∀ f s, given? data f = some (.str s) → s.length ≤ maxFieldLen
  /-- A signature is not empty. -/
  signature : ∀ v, given? data .signature = some v → v.truthy = true
  /-- A fingerprint is not empty. -/
  fingerprint : ∀ v, given? data .publicKeyFingerprint = some v → v.truthy = true
  /-- An embedded key is not empty, unless it is `None`. -/
  publicKey : ∀ v, given? data .publicKey = some v → v = .none ∨ v.truthy = true
  /-- An embedded key next to a signature is the standard encoding of 32 bytes. -/
  decodes : ∀ sig v, given? data .signature = some sig → given? data .publicKey = some v →
    v = .none ∨ ∃ key : Bytes, key.length = 32 ∧ v = .str (b64encode key)
  /-- In strict mode an unsigned receipt does not allow. -/
  unsigned : strict = true → (∃ sig, given? data .signature = some sig) ∨
    ∃ v, given? data .verdict = some v ∧ v ≠ .str (text "allow")

/-- The receipt that `from_dict` makes: what is given and not `None`, else the default. -/
def receiptOf (env : ReceiptDefaults) (data : Dict Text PyVal) : L1Receipt where
  attr f := (((given? data f).filter (!·.isNone)).or (f.default? env)).getD .none

/-- Each old name in the table belongs to a field. -/
private theorem exists_of_mem_oldFieldMap {m : Text × Text} (hm : m ∈ oldFieldMap) :
    ∃ f : ReceiptField, f.name = m.2 ∧ f.legacyName? = some m.1 := by
  simp only [oldFieldMap, List.mem_cons, List.not_mem_nil, or_false] at hm
  rcases hm with rfl | rfl | rfl
  · exact ⟨.issuedAt, rfl, by decide +kernel⟩
  · exact ⟨.expiresAt, rfl, by decide +kernel⟩
  · exact ⟨.maxClockSkew, rfl, by decide +kernel⟩

/-- The keys of the replaced dictionary name fields when those of the dictionary do, in one version
or the other. -/
theorem known_remap_iff :
    (∀ k ∈ (remap data).keys, ∃ f : ReceiptField, f.name = k) ↔
      ∀ k ∈ data.keys, ∃ f : ReceiptField, f.name = k ∨ f.legacyName? = some k := by
  constructor
  · intro h k hk
    -- a key that the map does not mention is kept
    by_cases hmap : ∀ m ∈ oldFieldMap, k ≠ m.1 ∧ k ≠ m.2
    · have hkept : k ∈ (remap data).keys := by
        by_contra hnot
        rw [← Dict.lookup_eq_none_iff, lookup_remap_of_not_mem data hmap] at hnot
        exact Dict.lookup_eq_none_iff.mp hnot hk
      obtain ⟨f, hf⟩ := h k hkept
      exact ⟨f, .inl hf⟩
    · push Not at hmap
      obtain ⟨m, hm, heq⟩ := hmap
      obtain ⟨f, hname, hlegacy⟩ := exists_of_mem_oldFieldMap hm
      by_cases hold : k = m.1
      · exact ⟨f, .inr (hold ▸ hlegacy)⟩
      · exact ⟨f, .inl (hname.trans (heq hold).symm)⟩
  · intro h k hk
    -- no old name is left
    by_cases hold : k ∈ oldFieldMap.map Prod.fst
    · have hnone := lookup_foldl_remapName_of_mem oldFieldMap (by decide +kernel) data hold
      exact absurd hk (Dict.lookup_eq_none_iff.mp hnone)
    · by_cases hnew : ∃ m ∈ oldFieldMap, k = m.2
      · obtain ⟨m, hm, rfl⟩ := hnew
        obtain ⟨f, hname, -⟩ := exists_of_mem_oldFieldMap hm
        exact ⟨f, hname⟩
      · have hmap : ∀ m ∈ oldFieldMap, k ≠ m.1 ∧ k ≠ m.2 := fun m hm =>
          ⟨fun heq => hold (heq ▸ List.mem_map_of_mem hm), fun heq => hnew ⟨m, hm, heq⟩⟩
        have hgiven : k ∈ data.keys := by
          by_contra hnot
          rw [← Dict.lookup_eq_none_iff, ← lookup_remap_of_not_mem data hmap] at hnot
          exact Dict.lookup_eq_none_iff.mp hnot hk
        obtain ⟨f, hf | hf⟩ := h k hgiven
        · exact ⟨f, hf⟩
        · obtain ⟨m, hm, rfl⟩ := Option.map_eq_some_iff.mp hf
          exact absurd (List.mem_map_of_mem (List.mem_of_find?_eq_some hm)) hold

/-- The dictionary that is left after the loop over the values. -/
private def keptValues (data : Dict Text PyVal) : Dict Text PyVal :=
  ((remap data).filter fun m => (ReceiptField.ofName? m.1).isSome).filter fun m => !m.2.isNone

/-- Under the name of a field stands what is given for it. -/
private theorem lookup_known (f : ReceiptField) :
    Dict.lookup ((remap data).filter fun m => (ReceiptField.ofName? m.1).isSome) f.name =
      given? data f := by
  have hname : (ReceiptField.ofName? f.name).isSome = true := by
    rw [ReceiptField.ofName?_eq_some_iff.mpr rfl]
    rfl
  rw [Dict.lookup_filter_key fun k => (ReceiptField.ofName? k).isSome, if_pos hname,
    lookup_remap_name]

/-- Of what is given, `None` is dropped. -/
private theorem lookup_keptValues (hdata : data.keys.Nodup) (f : ReceiptField) :
    (keptValues data).lookup f.name = (given? data f).filter fun v => !v.isNone := by
  rw [keptValues, Dict.lookup_filter_value (Dict.nodup_keys_filter (nodup_keys_remap hdata) _)
    fun v => !v.isNone, lookup_known]

private theorem lookup_keptValues_eq_some_iff (hdata : data.keys.Nodup) {f : ReceiptField}
    {v : PyVal} : (keptValues data).lookup f.name = some v ↔ given? data f = some v ∧ v ≠ .none := by
  rw [lookup_keptValues hdata, Option.filter_eq_some_iff, Bool.not_eq_true', ← Bool.not_eq_true,
    PyVal.isNone_iff]

/-- The entries are accepted when no critical field is `None` and no string is too long. -/
private theorem entryAccepted_iff (hdata : data.keys.Nodup) :
    (∀ m ∈ (remap data).filter fun m => (ReceiptField.ofName? m.1).isSome, EntryAccepted m) ↔
      (∀ f : ReceiptField, f.isCritical = true → given? data f ≠ some .none) ∧
        ∀ f s, given? data f = some (.str s) → s.length ≤ maxFieldLen := by
  -- the entries that are checked are the values that are given for the fields
  have hmem : ∀ (f : ReceiptField) v, given? data f = some v ↔
      (f.name, v) ∈ (remap data).filter fun m => (ReceiptField.ofName? m.1).isSome := by
    intro f v
    rw [← lookup_known,
      Dict.lookup_eq_some_iff (Dict.nodup_keys_filter (nodup_keys_remap hdata) _)]
  constructor
  · intro h
    exact ⟨fun f hf hnone => (h _ ((hmem f _).mp hnone)).1 f rfl hf rfl,
      fun f s hs => (h _ ((hmem f _).mp hs)).2 s rfl⟩
  · rintro ⟨hcritical, hlength⟩ ⟨k, v⟩ hm
    obtain ⟨f, hf⟩ := Option.isSome_iff_exists.mp (List.mem_filter.mp hm).2
    obtain rfl := ReceiptField.ofName?_eq_some_iff.mp hf
    refine ⟨?_, ?_⟩
    · rintro g hg hgc rfl
      obtain rfl := ReceiptField.name_injective hg
      exact hcritical g hgc ((hmem g _).mpr hm)
    · rintro s rfl
      exact hlength f s ((hmem f _).mpr hm)

/-- The constructor makes the receipt of what is given and of the defaults. -/
private theorem ofKeywords_eq_ok_iff {env : ReceiptDefaults} {r : L1Receipt}
    (hdata : data.keys.Nodup) {s : Text} (htrace : given? data .traceId = some (.str s)) :
    L1Receipt.ofKeywords env (keptValues data) = .ok r ↔ r = receiptOf env data := by
  have hlookup : (keptValues data).lookup ReceiptField.traceId.name = some (.str s) := by
    rw [lookup_keptValues hdata, htrace]
    rfl
  -- the trace identifier is the only field without a default, and it is given
  have hattr : (⟨fun f => (((keptValues data).lookup f.name).or (f.default? env)).getD (.str s)⟩ :
      L1Receipt) = receiptOf env data := by
    unfold receiptOf
    congr 1
    funext f
    rw [← lookup_keptValues hdata]
    cases hdefault : f.default? env with
    | none =>
      rw [ReceiptField.default?_eq_none_iff.mp hdefault, hlookup]
      rfl
    | some v => cases (keptValues data).lookup f.name <;> rfl
  simp only [L1Receipt.ofKeywords, hlookup, hattr, Except.ok.injEq, eq_comm]

/-- The same check, on what is given. -/
private theorem checkNotEmpty_keptValues (hdata : data.keys.Nodup) {f : ReceiptField}
    {message : Text} : checkNotEmpty (keptValues data) f message = .ok () ↔
      ∀ v, given? data f = some v → v = .none ∨ v.truthy = true := by
  rw [checkNotEmpty_eq_ok_iff, lookup_keptValues hdata]
  cases given? data f with
  | none => simp
  | some v =>
    cases hv : v.isNone
    · simp [Option.filter, hv, ← PyVal.isNone_iff]
    · simp [Option.filter, PyVal.isNone_iff.mp hv]

/-- The same for unsigned receipts. -/
private theorem checkUnsigned_keptValues (hdata : data.keys.Nodup) {strict : Bool}
    (hverdict : given? data .verdict ≠ some .none)
    (hsig : ∀ v, given? data .signature = some v → v.truthy = true) :
    checkUnsigned (keptValues data) strict = .ok () ↔
      (strict = true → (∃ sig, given? data .signature = some sig) ∨
        ∃ v, given? data .verdict = some v ∧ v ≠ .str (text "allow")) := by
  rw [checkUnsigned_eq_ok_iff]
  refine imp_congr_right fun _ => or_congr ?_ ?_
  · -- a value that is `None` has been dropped before
    rw [lookup_keptValues hdata]
    cases hgiven : given? data .signature with
    | none => simp [PyVal.truthy]
    | some v =>
      have hv := hsig v hgiven
      have hnone : v.isNone = false := by
        rw [← Bool.not_eq_true, PyVal.isNone_iff]
        rintro rfl
        cases hv
      simp [Option.filter, hnone, hv]
  · rw [lookup_keptValues hdata]
    cases hgiven : given? data .verdict with
    | none => simp
    | some v =>
      have hnone : v.isNone = false := by
        rw [← Bool.not_eq_true, PyVal.isNone_iff]
        rintro rfl
        exact hverdict hgiven
      simp [Option.filter, hnone]

/-- The same for the public key. -/
private theorem checkPublicKey_keptValues (hdata : data.keys.Nodup)
    (hsig : ∀ v, given? data .signature = some v → v.truthy = true)
    (hpk : ∀ v, given? data .publicKey = some v → v = .none ∨ v.truthy = true) :
    checkPublicKey X (keptValues data) = .ok () ↔
      ∀ sig v, given? data .signature = some sig → given? data .publicKey = some v →
        v = .none ∨ ∃ key : Bytes, key.length = 32 ∧ v = .str (b64encode key) := by
  rw [checkPublicKey_eq_ok_iff]
  simp only [lookup_keptValues_eq_some_iff hdata]
  constructor
  · intro h sig v hsome hv
    by_cases hnone : v = .none
    · exact .inl hnone
    -- both values are kept, and neither is empty
    · have hsigNone : sig ≠ .none := by
        rintro rfl
        cases hsig _ hsome
      exact .inr (h sig v ⟨hsome, hsigNone⟩ ⟨hv, hnone⟩ (hsig sig hsome)
        ((hpk v hv).resolve_left hnone))
  · rintro h sig v ⟨hsome, -⟩ ⟨hv, hnone⟩ - -
    exact (h sig v hsome hv).resolve_left hnone

/-- The same for unknown names, among which the old ones are known. -/
private theorem checkStrict_remap {strict : Bool} :
    checkStrict X (remap data) strict = .ok () ↔ (strict = true →
      (∀ k ∈ data.keys, ∃ f : ReceiptField, f.name = k ∨ f.legacyName? = some k) ∧
        ∀ v, given? data .receiptVersion = some v → v = .str L1.receiptVersion) := by
  rw [checkStrict_eq_ok_iff, checkUnknown_eq_ok_iff, checkVersion_eq_ok_iff, known_remap_iff,
    lookup_remap_name]

/-- The same for the trace identifier. -/
private theorem checkTraceId_known :
    checkTraceId ((remap data).filter fun m => (ReceiptField.ofName? m.1).isSome) = .ok () ↔
      ∃ s, s ≠ [] ∧ given? data .traceId = some (.str s) := by
  rw [checkTraceId_eq_ok_iff, lookup_known]

/-- The values that are kept when all entries are accepted. -/
private theorem checkValues_known (hdata : data.keys.Nodup) {kept : Dict Text PyVal} :
    checkValues ((remap data).filter fun m => (ReceiptField.ofName? m.1).isSome) = .ok kept ↔
      ((∀ f : ReceiptField, f.isCritical = true → given? data f ≠ some .none) ∧
        ∀ f s, given? data f = some (.str s) → s.length ≤ maxFieldLen) ∧
      kept = keptValues data := by
  rw [checkValues_eq_ok_iff, entryAccepted_iff hdata, keptValues]

/-- `from_dict` accepts exactly the dictionaries that meet `Accepts`. -/
theorem fromMembers_eq_ok_iff {env : ReceiptDefaults} {strict : Bool} {r : L1Receipt}
    (hdata : data.keys.Nodup) :
    fromMembers X env data strict = .ok r ↔ Accepts data strict ∧ r = receiptOf env data := by
  constructor
  · intro h
    simp only [fromMembers, Except.bind_eq_ok_iff] at h
    obtain ⟨_, h₁, _, h₂, kept, h₃, _, h₄, _, h₅, _, h₆, _, h₇, _, h₈, h⟩ := h
    -- each check, with what was known when it was made
    obtain ⟨⟨hcritical, hlength⟩, rfl⟩ := (checkValues_known hdata).mp h₃
    obtain ⟨s, hs, hgiven⟩ := checkTraceId_known.mp h₂
    have hsig : ∀ v, given? data .signature = some v → v.truthy = true := fun v hv =>
      ((checkNotEmpty_keptValues hdata).mp h₄ v hv).resolve_left fun hnone =>
        hcritical .signature rfl (hnone ▸ hv)
    have hpk := (checkNotEmpty_keptValues hdata).mp h₆
    exact ⟨{
      known := fun hmode => (checkStrict_remap.mp h₁ hmode).1
      version := fun hmode => (checkStrict_remap.mp h₁ hmode).2
      traceId := ⟨s, hs, hgiven⟩
      critical := hcritical
      length := hlength
      signature := hsig
      fingerprint := fun v hv =>
        ((checkNotEmpty_keptValues hdata).mp h₅ v hv).resolve_left fun hnone =>
          hcritical .publicKeyFingerprint rfl (hnone ▸ hv)
      publicKey := hpk
      decodes := (checkPublicKey_keptValues hdata hsig hpk).mp h₇
      unsigned := (checkUnsigned_keptValues hdata (hcritical .verdict rfl) hsig).mp h₈ },
      (ofKeywords_eq_ok_iff hdata hgiven).mp h⟩
  · rintro ⟨haccepts, rfl⟩
    obtain ⟨s, hs, hgiven⟩ := haccepts.traceId
    have h₁ : checkStrict X (remap data) strict = .ok () :=
      checkStrict_remap.mpr fun hmode => ⟨haccepts.known hmode, haccepts.version hmode⟩
    have h₂ := checkTraceId_known.mpr haccepts.traceId
    have h₃ := (checkValues_known hdata).mpr ⟨⟨haccepts.critical, haccepts.length⟩, rfl⟩
    have h₇ := (checkPublicKey_keptValues (X := X) hdata haccepts.signature
      haccepts.publicKey).mpr haccepts.decodes
    have h₈ := (checkUnsigned_keptValues hdata (haccepts.critical .verdict rfl)
      haccepts.signature).mpr haccepts.unsigned
    simp only [fromMembers, Except.bind_eq_ok_iff]
    exact ⟨(), h₁, (), h₂, _, h₃,
      (), (checkNotEmpty_keptValues hdata).mpr fun v hv => .inr (haccepts.signature v hv),
      (), (checkNotEmpty_keptValues hdata).mpr fun v hv => .inr (haccepts.fingerprint v hv),
      (), (checkNotEmpty_keptValues hdata).mpr haccepts.publicKey,
      (), h₇, (), h₈, (ofKeywords_eq_ok_iff hdata hgiven).mpr rfl⟩

/-- A dictionary that passes the checks up to the one of the signature, and gives an empty one, is
refused for it. -/
theorem fromMembers_of_emptySignature {env : ReceiptDefaults} {strict : Bool} {v : PyVal}
    (hdata : data.keys.Nodup)
    (hknown : ∀ k ∈ data.keys, ∃ f : ReceiptField, f.name = k ∨ f.legacyName? = some k)
    (hversion : ∀ v, given? data .receiptVersion = some v → v = .str L1.receiptVersion)
    (htrace : ∃ s, s ≠ [] ∧ given? data .traceId = some (.str s))
    (hcritical : ∀ f : ReceiptField, f.isCritical = true → given? data f ≠ some .none)
    (hlength : ∀ f s, given? data f = some (.str s) → s.length ≤ maxFieldLen)
    (hsig : given? data .signature = some v) (hempty : v.truthy = false) :
    fromMembers X env data strict = PyExc.value (text "Field signature must not be empty") := by
  have h₁ : checkStrict X (remap data) strict = .ok () :=
    checkStrict_remap.mpr fun _ => ⟨hknown, hversion⟩
  have h₂ := checkTraceId_known.mpr htrace
  have h₃ := (checkValues_known hdata).mpr ⟨⟨hcritical, hlength⟩, rfl⟩
  have hnone : v.isNone = false := by
    rw [← Bool.not_eq_true, PyVal.isNone_iff]
    rintro rfl
    exact hcritical .signature rfl hsig
  -- everything before is passed, and the signature is the first to be refused
  have h₄ : ∀ message, checkNotEmpty (keptValues data) .signature message =
      PyExc.value message := fun message => by
    rw [checkNotEmpty, lookup_keptValues hdata, hsig]
    simp [Option.filter, hnone, hempty]
  simp only [fromMembers, h₁, h₂, h₃, h₄, bind, Except.bind]
  rfl

end FromDict

/-! ## Texts -/

/-- The hook lets through the objects without a repeated key. -/
theorem checkDuplicateKeys_eq_ok_iff {pairs : List (Text × PyVal)} {v : PyVal} :
    checkDuplicateKeys pairs = .ok v ↔ (pairs.map Prod.fst).Nodup ∧ v = .ofMembers pairs := by
  -- the loop refuses a key that it has seen
  have hgo : ∀ (rest : List (Text × PyVal)) (seen : List Text),
      checkDuplicateKeys.go pairs seen rest = .ok v ↔ (rest.map Prod.fst).Nodup ∧
        (∀ k ∈ seen, k ∉ rest.map Prod.fst) ∧ v = .ofMembers (Dict.ofPairs pairs) := by
    intro rest
    induction rest with
    | nil => simp [checkDuplicateKeys.go, eq_comm]
    | cons m rest ih =>
      intro seen
      rw [checkDuplicateKeys.go]
      split
      · next hseen =>
        simp only [PyExc.value, reduceCtorEq, false_iff, not_and]
        exact fun _ h => absurd (List.mem_map_of_mem (List.mem_cons_self ..)) (h m.1 hseen)
      · next hseen =>
        rw [ih]
        simp only [List.map_cons, List.nodup_cons, List.mem_cons, forall_eq_or_imp, not_or]
        constructor
        · rintro ⟨hnodup, ⟨hm, hdisjoint⟩, hv⟩
          exact ⟨⟨hm, hnodup⟩, fun k hk => ⟨fun heq => hseen (heq ▸ hk), hdisjoint k hk⟩, hv⟩
        · rintro ⟨⟨hm, hnodup⟩, hdisjoint, hv⟩
          exact ⟨hnodup, ⟨hm, fun k hk => (hdisjoint k hk).2⟩, hv⟩
  rw [checkDuplicateKeys, hgo]
  constructor
  · rintro ⟨hnodup, -, rfl⟩
    exact ⟨hnodup, by rw [Dict.ofPairs_eq_self hnodup]⟩
  · rintro ⟨hnodup, rfl⟩
    exact ⟨hnodup, by simp, by rw [Dict.ofPairs_eq_self hnodup]⟩

namespace JsonDoc

variable {hook : List (Text × PyVal) → Except PyExc PyVal}

/-- The members of an object keep their keys, and each gets its value. -/
theorem loadMembers_eq_ok {members : List (Text × JsonDoc)} {data : List (Text × PyVal)}
    (h : loadMembers hook members = .ok data) :
    data.map Prod.fst = members.map Prod.fst ∧
      ∀ k x, (k, x) ∈ members → ∃ v, x.load hook = .ok v ∧ (k, v) ∈ data := by
  induction members generalizing data with
  | nil =>
    cases h
    simp
  | cons m members ih =>
    obtain ⟨l, y⟩ := m
    simp only [loadMembers, Except.bind_eq_ok_iff, pure, Except.pure, Except.ok.injEq] at h
    obtain ⟨w, hw, rest, hrest, rfl⟩ := h
    obtain ⟨hkeys, hvalues⟩ := ih hrest
    refine ⟨by rw [List.map_cons, List.map_cons, hkeys], fun k x hmem => ?_⟩
    rcases List.mem_cons.mp hmem with heq | hmem
    · cases heq
      exact ⟨w, hw, List.mem_cons_self ..⟩
    · obtain ⟨v, hv, hvmem⟩ := hvalues k x hmem
      exact ⟨v, hv, List.mem_cons_of_mem _ hvmem⟩

end JsonDoc

namespace L1Receipt

variable {X : Externals} {env : ReceiptDefaults} {jsonStr : Text} {strict : Bool} {r : L1Receipt}

/-- `from_dict` on a dictionary display. -/
theorem fromDict_ofMembers_eq_ok_iff {data : Dict Text PyVal} (hdata : data.keys.Nodup) :
    fromDict X env (.ofMembers data) strict = .ok r ↔
      FromDict.Accepts data strict ∧ r = FromDict.receiptOf env data := by
  rw [fromDict, PyVal.members?_ofMembers]
  exact FromDict.fromMembers_eq_ok_iff hdata

/-- The texts that `from_json` accepts are objects without a repeated key that `from_dict`
accepts. -/
theorem fromJson_eq_ok_iff : fromJson X env jsonStr strict = .ok r ↔
    ∃ members data, JsonScan.scan jsonStr = some (.obj members) ∧
      JsonDoc.loadMembers checkDuplicateKeys members = .ok data ∧ (Dict.keys data).Nodup ∧
      FromDict.Accepts data strict ∧ r = FromDict.receiptOf env data := by
  have hother : ∀ v : PyVal, v.members? = none → fromDict X env v strict ≠ .ok r := by
    intro v hv
    simp [fromDict, hv, PyExc.value]
  simp only [fromJson, loadsWith, Except.bind_eq_ok_iff]
  cases JsonScan.scan jsonStr with
  | none => simp
  | some doc =>
    constructor
    · rintro ⟨v, hv, hr⟩
      -- what is not an object is refused
      cases doc with
      | obj members =>
        simp only [JsonDoc.load, Except.bind_eq_ok_iff] at hv
        obtain ⟨data, hdata, hv⟩ := hv
        obtain ⟨hnodup, rfl⟩ := checkDuplicateKeys_eq_ok_iff.mp hv
        exact ⟨members, data, rfl, hdata, hnodup, (fromDict_ofMembers_eq_ok_iff hnodup).mp hr⟩
      | arr xs =>
        simp only [JsonDoc.load, Except.bind_eq_ok_iff, pure, Except.pure, Except.ok.injEq] at hv
        obtain ⟨vs, -, rfl⟩ := hv
        exact absurd hr (hother _ rfl)
      | num n =>
        cases hv
        cases n <;> exact absurd hr (hother _ rfl)
      | _ =>
        cases hv
        exact absurd hr (hother _ rfl)
    · rintro ⟨members, data, heq, hdata, hnodup, hr⟩
      cases heq
      refine ⟨.ofMembers data, ?_, (fromDict_ofMembers_eq_ok_iff hnodup).mpr hr⟩
      simp only [JsonDoc.load, Except.bind_eq_ok_iff]
      exact ⟨data, hdata, checkDuplicateKeys_eq_ok_iff.mpr ⟨hnodup, rfl⟩⟩

/-- A field is given under both of its names. -/
def GivenTwice (keys : List Text) (f : ReceiptField) : Prop :=
  ∃ old, f.legacyName? = some old ∧ f.name ∈ keys ∧ old ∈ keys

/-- Defaults of a receipt made at time 0. -/
def sampleDefaults : ReceiptDefaults where
  timestamp := ⟨0, Representable.zero⟩
  nonceBytes := List.replicate 16 0
  verifiedAt := ⟨0, Representable.zero⟩
  length_nonceBytes := List.length_replicate

/-- A receipt text with a legacy name and a `null`. -/
def sampleText : Text :=
  text "\x7b\"trace_id\": \"t\", \"verdict\": \"deny\", \"expiry_bound\": 5, \"issued_at\": null\x7d"

/-- The members of the sample text. -/
def sampleMembers : List (Text × JsonDoc) :=
  [(text "trace_id", .str (text "t")), (text "verdict", .str (text "deny")),
    (text "expiry_bound", .num (.int 5)), (text "issued_at", .null)]

/-- The dictionary of the sample text. -/
def sampleData : Dict Text PyVal :=
  [(text "trace_id", .str (text "t")), (text "verdict", .str (text "deny")),
    (text "expiry_bound", .int 5), (text "issued_at", .none)]

theorem scan_sampleText : JsonScan.scan sampleText = some (.obj sampleMembers) := rfl

theorem fromJson_sampleText : fromJson referenceX sampleDefaults sampleText true =
    .ok (FromDict.receiptOf sampleDefaults sampleData) := by
  have hok : (fromJson referenceX sampleDefaults sampleText true).isOk = true := by decide +kernel
  cases hr : fromJson referenceX sampleDefaults sampleText true with
  | error e =>
    rw [hr] at hok
    cases hok
  | ok r =>
    obtain ⟨members, data, hscan, hdata, -, -, rfl⟩ := fromJson_eq_ok_iff.mp hr
    rw [scan_sampleText] at hscan
    cases hscan
    cases hdata
    rfl

/-- No field of the sample text is given twice. -/
theorem not_givenTwice_sampleMembers (f : ReceiptField) :
    ¬GivenTwice (sampleMembers.map Prod.fst) f := by
  rintro ⟨old, hold, hname, hlegacy⟩
  have honce : ∀ g : ReceiptField, g.name ∈ sampleMembers.map Prod.fst →
      ∀ old ∈ g.legacyName?, old ∉ sampleMembers.map Prod.fst := by
    intro g
    cases g <;> decide +kernel
  exact honce f hname old hold hlegacy

/-- In strict mode an accepted text is an object without a repeated key in which every key names a
field, now or in version 1.1.6. Unless the text gives that field under both names, the receipt has
for the key the value that the text gives, but for a `null` in an optional field, which gets its
default. -/
theorem fromJson_reflects (h : fromJson X env jsonStr true = .ok r) :
    ∃ members, JsonScan.scan jsonStr = some (.obj members) ∧ (members.map Prod.fst).Nodup ∧
      ∀ k x, (k, x) ∈ members → ∃ (f : ReceiptField) (v : PyVal),
        (f.name = k ∨ f.legacyName? = some k) ∧ x.load checkDuplicateKeys = .ok v ∧
          (¬GivenTwice (members.map Prod.fst) f →
            r.attr f = v ∨
              v = .none ∧ f.isCritical = false ∧ f.default? env = some (r.attr f)) := by
  obtain ⟨members, data, hscan, hdata, hnodup, haccepts, rfl⟩ := fromJson_eq_ok_iff.mp h
  obtain ⟨hkeys, hvalues⟩ := JsonDoc.loadMembers_eq_ok hdata
  refine ⟨members, hscan, hkeys ▸ hnodup, fun k x hmem => ?_⟩
  obtain ⟨v, hv, hvmem⟩ := hvalues k x hmem
  obtain ⟨f, hf⟩ := haccepts.known rfl k (List.mem_map_of_mem (f := Prod.fst) hvmem)
  refine ⟨f, v, hf, hv, fun htwice => ?_⟩
  have hlookup : Dict.lookup data k = some v := (Dict.lookup_eq_some_iff hnodup).mpr hvmem
  have hgiven : FromDict.given? data f = some v := by
    rcases hf with rfl | hold
    · rw [FromDict.given?, hlookup]
      rfl
    · -- without the new name the value stays under the old one
      have hname : Dict.lookup data f.name = none := by
        rw [Dict.lookup_eq_none_iff, Dict.keys, hkeys]
        exact fun hboth => htwice ⟨k, hold, hboth, List.mem_map_of_mem (f := Prod.fst) hmem⟩
      rw [FromDict.given?, hname, hold]
      exact hlookup
  -- a `None` is dropped, so that the default takes its place
  by_cases hnone : v = .none
  · subst hnone
    have hcritical : f.isCritical = false := by
      rw [← Bool.not_eq_true]
      exact fun hc => haccepts.critical f hc hgiven
    refine .inr ⟨rfl, hcritical, ?_⟩
    cases hdefault : f.default? env with
    | none =>
      rw [ReceiptField.default?_eq_none_iff] at hdefault
      subst hdefault
      cases hcritical
    | some w => simp [FromDict.receiptOf, hgiven, hdefault, Option.filter, PyVal.isNone]
  · have hkept : v.isNone = false := by
      rw [← Bool.not_eq_true, PyVal.isNone_iff]
      exact hnone
    exact .inl (by simp [FromDict.receiptOf, hgiven, Option.filter, hkept])

/-- The sample is accepted, and its value under the legacy name becomes the expiry. -/
theorem fromJson_reflects_sample :
    (FromDict.receiptOf sampleDefaults sampleData).attr .expiresAt = .int 5 := by
  obtain ⟨members, hscan, -, hreflects⟩ := fromJson_reflects fromJson_sampleText
  obtain rfl : members = sampleMembers := by
    rw [scan_sampleText] at hscan
    cases hscan
    rfl
  obtain ⟨f, v, hf, hv, hattr⟩ := hreflects (text "expiry_bound") (.num (.int 5))
    (by simp [sampleMembers])
  -- the legacy name names one field
  have hfield : ∀ g : ReceiptField, g.name = text "expiry_bound" ∨
      g.legacyName? = some (text "expiry_bound") → g = .expiresAt := by
    intro g
    cases g <;> decide +kernel
  obtain rfl := hfield f hf
  cases hv
  obtain hexpiry | ⟨hnone, -⟩ := hattr (not_givenTwice_sampleMembers _)
  · exact hexpiry
  · cases hnone

/-- The accepted sample gives the time of issue as `null`, and the receipt has the number zero. -/
theorem null_field_not_reflected :
    fromJson referenceX sampleDefaults sampleText true =
        .ok (FromDict.receiptOf sampleDefaults sampleData) ∧
      JsonScan.scan sampleText = some (.obj sampleMembers) ∧
      (ReceiptField.issuedAt.name, JsonDoc.null) ∈ sampleMembers ∧
      JsonDoc.null.load checkDuplicateKeys = .ok .none ∧
      (FromDict.receiptOf sampleDefaults sampleData).attr .issuedAt = .float .zero := by
  refine ⟨fromJson_sampleText, scan_sampleText, ?_, rfl, rfl⟩
  simp only [sampleMembers, List.mem_cons]
  exact .inr (.inr (.inr (.inl rfl)))

end L1Receipt
