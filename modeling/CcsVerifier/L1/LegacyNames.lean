import CcsVerifier.L1.ReadBack

/-!
# Receipts under legacy names

Version 1.1.7 renamed three fields of a receipt; the parser still reads the old names. A signed
receipt survives `json.dumps` and `from_json` with any of the three under its old name.

* `ReceiptField.keyUnder`: the key of a field when some fields keep their legacy names.
* `L1Receipt.dictUnder`: the dictionary of a receipt with these keys.
* `L1Receipt.roundTrip_under_names`: the parser gives back every field, and the receipt verifies.
-/

namespace ReceiptField

/-- The key of a field when the fields in `legacy` go by their names of version 1.1.6. The other
fields have only one name. -/
def keyUnder (legacy : Finset ReceiptField) (f : ReceiptField) : Text :=
  if f ∈ legacy then f.legacyName?.getD f.name else f.name

variable {legacy : Finset ReceiptField} {f g : ReceiptField} {old : Text}

/-- The old name of a field is in the table. -/
theorem mem_oldFieldMap_of_legacyName? (h : f.legacyName? = some old) :
    (old, f.name) ∈ oldFieldMap := by
  obtain ⟨⟨k, name⟩, hfind, rfl⟩ := Option.map_eq_some_iff.mp h
  have hname : name = f.name := by simpa using List.find?_some hfind
  exact hname ▸ List.mem_of_find?_eq_some hfind

/-- A legacy name is the name of no field. -/
theorem legacyName?_ne_name (h : f.legacyName? = some old) (g : ReceiptField) : old ≠ g.name := by
  rintro rfl
  exact g.name_not_mem_legacy (List.mem_map_of_mem (mem_oldFieldMap_of_legacyName? h))

/-- The key of a field is its name or its legacy name. -/
theorem keyUnder_cases (legacy : Finset ReceiptField) (f : ReceiptField) :
    f.keyUnder legacy = f.name ∨ f.legacyName? = some (f.keyUnder legacy) := by
  rw [keyUnder]
  split
  · cases f.legacyName? with
    | none => exact .inl rfl
    | some old => exact .inr rfl
  · exact .inl rfl

/-- Keys are plain ASCII. -/
theorem encodable_keyUnder (legacy : Finset ReceiptField) (f : ReceiptField) :
    (f.keyUnder legacy).Encodable := by
  have hnames : ∀ g : ReceiptField, g.name.Encodable := fun g => by cases g <;> decide +kernel
  rcases keyUnder_cases legacy f with hf | hf
  · rw [hf]
    exact hnames f
  · have hold : ∀ m ∈ oldFieldMap, m.1.Encodable := by decide +kernel
    exact hold _ (mem_oldFieldMap_of_legacyName? hf)

/-- No two fields share a key. -/
theorem keyUnder_injective (legacy : Finset ReceiptField) :
    Function.Injective (keyUnder legacy) := by
  intro f g h
  have hkeys : (oldFieldMap.map Prod.fst).Nodup := by decide +kernel
  rcases keyUnder_cases legacy f with hf | hf <;> rcases keyUnder_cases legacy g with hg | hg
  · exact name_injective (hf.symm.trans (h.trans hg))
  · exact absurd (h.symm.trans hf) (legacyName?_ne_name hg f)
  · exact absurd (h.trans hg) (legacyName?_ne_name hf g)
  · -- both are under legacy names, which the table maps to one name each
    rw [h] at hf
    have hpair := List.inj_on_of_nodup_map hkeys (mem_oldFieldMap_of_legacyName? hf)
      (mem_oldFieldMap_of_legacyName? hg) rfl
    exact name_injective (congrArg Prod.snd hpair)

end ReceiptField

namespace FromDict

/-- Keys under names old and new are known to the parser, and give every field. -/
theorem given?_of_keyUnder {legacy : Finset ReceiptField} {data : Dict Text PyVal}
    (hnodup : data.keys.Nodup) (hkeys : ∀ k ∈ data.keys, ∃ g : ReceiptField, g.keyUnder legacy = k)
    {f : ReceiptField} {v : PyVal} (hmem : (f.keyUnder legacy, v) ∈ data) :
    given? data f = some v := by
  have hlookup := (Dict.lookup_eq_some_iff hnodup).mpr hmem
  rcases ReceiptField.keyUnder_cases legacy f with hname | hlegacy
  · rw [hname] at hlookup
    rw [given?, hlookup, Option.some_or]
  · -- the new name is then the key of no field
    have hnone : data.lookup f.name = none := by
      refine Dict.lookup_eq_none_iff.mpr fun hk => ?_
      obtain ⟨g, hg⟩ := hkeys _ hk
      rcases ReceiptField.keyUnder_cases legacy g with hname' | hlegacy'
      · obtain rfl : g = f := ReceiptField.name_injective (hname'.symm.trans hg)
        exact ReceiptField.legacyName?_ne_name hlegacy g hname'
      · exact ReceiptField.legacyName?_ne_name hlegacy' f hg
    rw [given?, hnone, Option.none_or, hlegacy]
    exact hlookup

end FromDict

namespace L1Receipt

variable {X : Externals} {r s : L1Receipt} {seed : Bytes}

/-- `to_dict()` with the fields in `legacy` under their legacy names. -/
def dictUnder (legacy : Finset ReceiptField) (r : L1Receipt) : Dict Text PyVal :=
  ReceiptField.all.map fun f => (f.keyUnder legacy, r.attr f)

/-- Under whichever names, no name is repeated. -/
theorem nodup_keys_dictUnder (legacy : Finset ReceiptField) (r : L1Receipt) :
    (Dict.keys (r.dictUnder legacy)).Nodup := by
  have hall : ReceiptField.all.Nodup := .of_map _ ReceiptField.nodup_names
  rw [dictUnder, Dict.keys, List.map_map]
  exact hall.map (ReceiptField.keyUnder_injective legacy)

/-- With no field under its legacy name this is `to_dict()`. -/
theorem dictUnder_empty (r : L1Receipt) : r.dictUnder ∅ = r.asdict := rfl

/-- The parser accepts the dictionary of a signed receipt under any names when it accepts it under the
new ones. -/
theorem fromDict_under_names_iff (hjcs : X.JcsAccepts) (hsign : signL1Receipt X r seed = .ok s)
    (hscalar : ∀ f, f.isSignature = false → (r.attr f).IsScalar)
    (hversion : r.attr .receiptVersion = .str L1.receiptVersion)
    (htrace : ∃ t, r.attr .traceId = .str t) {legacy : Finset ReceiptField} {data : Dict Text PyVal}
    (hperm : data.Perm (s.dictUnder legacy)) (env : ReceiptDefaults) :
    fromDict X env (.ofMembers data) true = .ok s ↔
      s.attr .traceId ≠ .str [] ∧ ∀ f t, s.attr f = .str t → t.length ≤ maxFieldLen := by
  have hnodup : (Dict.keys data).Nodup :=
    (hperm.map Prod.fst).nodup_iff.mpr (nodup_keys_dictUnder legacy s)
  -- every key is the one name that is used for its field
  have hkeys : ∀ k ∈ Dict.keys data, ∃ g : ReceiptField, g.keyUnder legacy = k := by
    intro k hk
    obtain ⟨m, hm, rfl⟩ := List.mem_map.mp hk
    obtain ⟨g, -, rfl⟩ := List.mem_map.mp (hperm.mem_iff.mp hm)
    exact ⟨g, rfl⟩
  refine fromDict_given_iff hjcs hsign hscalar hversion htrace hnodup (fun k hk => ?_)
    (fun f => ?_) env
  · obtain ⟨g, rfl⟩ := hkeys k hk
    rcases ReceiptField.keyUnder_cases legacy g with hname | hlegacy
    · exact ⟨g, .inl hname.symm⟩
    · exact ⟨g, .inr hlegacy⟩
  · exact FromDict.given?_of_keyUnder hnodup hkeys
      (hperm.mem_iff.mpr (List.mem_map_of_mem (ReceiptField.mem_all f)))

/-- A signed receipt whose strings are short, but for the ones that signing fills in, has only short
strings. -/
theorem length_le_of_signL1Receipt (hsign : signL1Receipt X r seed = .ok s)
    (hlength : ∀ f t, f.isSignature = false → r.attr f = .str t → t.length ≤ maxFieldLen)
    {f : ReceiptField} {t : Text} (ht : s.attr f = .str t) : t.length ≤ maxFieldLen := by
  cases hf : f.isSignature with
  | true => exact (length_signature hsign hf ht).trans (by decide)
  | false =>
    rw [attr_of_signL1Receipt hsign hf] at ht
    exact hlength f t hf ht

/-- A signed receipt comes back from the text of its dictionary, however its members are ordered and
whichever fields are under their legacy names: every field is as it was, and the signature verifies
with the embedded key and with the public key of the seed. -/
theorem roundTrip_under_names (hjcs : X.JcsAccepts) (hsign : signL1Receipt X r seed = .ok s)
    (hscalar : ∀ f, f.isSignature = false → (r.attr f).IsScalar)
    (hlength : ∀ f t, f.isSignature = false → r.attr f = .str t → t.length ≤ maxFieldLen)
    (hversion : r.attr .receiptVersion = .str L1.receiptVersion)
    (htrace : ∃ t, t ≠ [] ∧ r.attr .traceId = .str t)
    (hsigns : ∀ p, s.signingPayload X = .ok p → X.ed25519.SignsCorrectly seed p)
    (legacy : Finset ReceiptField) {data : Dict Text PyVal} (hperm : data.Perm (s.dictUnder legacy))
    (env : ReceiptDefaults) {style : DumpStyle} (hstyle : style.Standard) :
    ∃ jsonStr restored, dumps style (.ofMembers data) = .ok jsonStr ∧
      fromJson X env jsonStr true = .ok restored ∧ (∀ f, restored.attr f = s.attr f) ∧
      restored.verifySignature X none = true ∧
      restored.verifySignature X (some (X.ed25519.publicKey seed)) = true := by
  have hfields := isScalar_of_signL1Receipt hjcs hsign hscalar
  have hnodup : (Dict.keys data).Nodup :=
    (hperm.map Prod.fst).nodup_iff.mpr (nodup_keys_dictUnder legacy s)
  have hmembers : ∀ m ∈ data, ∃ f : ReceiptField, m = (f.keyUnder legacy, s.attr f) := by
    intro m hm
    obtain ⟨f, -, rfl⟩ := List.mem_map.mp (hperm.mem_iff.mp hm)
    exact ⟨f, rfl⟩
  -- the text holds the members of the dictionary, in the order of the dump
  obtain ⟨jsonStr, hdumps⟩ := dumps_isOk_of_isJson style (PyVal.isJson_ofMembers hnodup
    fun k v hkv => by
      obtain ⟨f, heq⟩ := hmembers _ hkv
      cases heq
      exact (hfields f).1.isJson)
  have hloads : loadsWith checkDuplicateKeys jsonStr =
      .ok (.ofMembers (orderMembers style data)) := by
    have hload : loadsWith checkDuplicateKeys jsonStr =
        checkDuplicateKeys (orderMembers style data) := by
      refine PyVal.loadsWith_dumps_ofMembers hstyle (fun m hm => ?_) (fun m hm => ?_) hdumps
      · obtain ⟨f, rfl⟩ := hmembers m hm
        exact f.encodable_keyUnder legacy
      · obtain ⟨f, rfl⟩ := hmembers m hm
        exact (hfields f).1.load (hfields f).2
    rw [hload, checkDuplicateKeys_eq_ok_iff]
    exact ⟨((perm_orderMembers style data).map Prod.fst).nodup_iff.mpr hnodup, rfl⟩
  -- the parser finds every field in it
  have hordered : (orderMembers style data).Perm (s.dictUnder legacy) :=
    (perm_orderMembers style data).trans hperm
  have hfrom : fromDict X env (.ofMembers (orderMembers style data)) true = .ok s := by
    obtain ⟨t, hne, ht⟩ := htrace
    refine (fromDict_under_names_iff hjcs hsign hscalar hversion ⟨t, ht⟩ hordered env).mpr
      ⟨fun hempty => ?_, fun f t ht => length_le_of_signL1Receipt hsign hlength ht⟩
    rw [attr_of_signL1Receipt hsign rfl, ht] at hempty
    exact hne (PyVal.str.inj hempty)
  obtain ⟨hembedded, hkey⟩ := verifySignature_of_signL1Receipt hsign hsigns
  refine ⟨jsonStr, s, hdumps, ?_, fun _ => rfl, hembedded, hkey⟩
  rw [fromJson, hloads]
  exact hfrom

/-- The reference receipt comes back with two of the three renamed fields under their old names. -/
theorem roundTrip_under_names_sample : ∃ jsonStr restored,
    dumps .default (.ofMembers (referenceSigned.dictUnder {.issuedAt, .maxClockSkew})) = .ok jsonStr ∧
      fromJson referenceX sampleDefaults jsonStr true = .ok restored ∧
      (∀ f, restored.attr f = referenceSigned.attr f) ∧
      restored.verifySignature referenceX none = true ∧
      restored.verifySignature referenceX
        (some (referenceX.ed25519.publicKey SignatureRecord.reference.seed)) = true := by
  refine roundTrip_under_names (SignatureRecord.jcsAccepts _) signL1Receipt_reference ?_ ?_ rfl
    ⟨text "ref-vector-001", by decide, rfl⟩ ?_ _ (List.Perm.refl _) sampleDefaults
    DumpStyle.standard_default
  · intro f _
    cases f <;> first | exact .inl ⟨_, rfl⟩ | exact .inr (.inl ⟨_, rfl⟩) | exact .inr (.inr ⟨_, rfl⟩)
  · intro f t _ ht
    cases f <;> cases ht <;> decide +kernel
  · intro p hp
    rw [signingPayload_referenceSigned] at hp
    cases hp
    exact SignatureRecord.signsCorrectly _

end L1Receipt
