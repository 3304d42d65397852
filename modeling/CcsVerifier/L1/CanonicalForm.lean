import CcsVerifier.L1.MemberOrder
import CcsVerifier.L1.Recanonical

/-!
# The canonical form of a JSON value

Two JSON values have the same canonical bytes exactly when they are the same JSON value: numbers are
compared by value, and the order of members does not matter. The bytes that a receipt is signed on
determine each of its signed fields as a JSON value, and nothing beside them.

* `Jcs.exists_intText_of_integral`: the integer that a double is printed as rounds to the double.
* `PyVal.reread_eq_iff`: two values come back equal exactly when they are the same JSON value.
* `Externals.canonicalJson_eq_iff`: when two values have the same canonical bytes.
* `L1Receipt.signingPayload_eq_iff`: when two receipts are signed on the same bytes.
-/

/-! ## Numbers -/

namespace Jcs

/-- An integral double below `10 ^ 21` is printed as an integer that rounds to it. -/
theorem exists_intText_of_integral {x : FiniteBinary64} {z : ℤ} (hx : x.val = z)
    (hlt : |z| < 10 ^ 21) : ∃ w : ℤ, number x = intText w ∧ x.val = roundToGrid w := by
  by_cases hz : z = 0
  · have hzero : x.val = 0 := by rw [hx, hz, Int.cast_zero]
    exact ⟨0, by rw [number, if_pos hzero]; rfl, by rw [hzero, Int.cast_zero, roundToGrid_zero]⟩
  have hnz : x.val ≠ 0 := by
    rw [hx]
    exact_mod_cast hz
  have hsig := significand_shortestDecimal_ne_zero hnz
  have hexp := exponent_shortestDecimal_nonneg hx hz
  have hvalue := Decimal.value_eq_natCast hexp
  obtain ⟨k, hk⟩ := Int.eq_ofNat_of_zero_le hexp
  rw [hk, Int.toNat_natCast] at hvalue
  generalize hN : (shortestDecimal x).significand * 10 ^ k = N at hvalue
  have hreads := shortestDecimal_reads x
  -- a shortest decimal does not cross `10 ^ 21`, which is a double itself
  have hbelow : N < 10 ^ 21 := by
    by_contra hge
    have hle := Decimal.le_abs_of_le_value hreads representable_tenPow21 (by
      rw [hvalue]
      exact_mod_cast not_lt.mp hge)
    rw [hx, ← Int.cast_abs] at hle
    exact absurd (by exact_mod_cast hle : (10 : ℤ) ^ 21 ≤ |z|) (not_le.mpr hlt)
  have hNpos : 0 < N := by
    rw [← hN]
    exact Nat.mul_pos (Nat.pos_of_ne_zero hsig) (by positivity)
  have htext : number x = (if x.val < 0 then text "-" else []) ++ decimal N := by
    rw [number, if_neg hnz]
    dsimp only
    rw [hk, layout_eq_decimal hsig (hN ▸ hbelow), hN]
  -- the decimal with its sign is what the double is rounded from
  have hround := Binary64.val_of_round hreads
  rw [hvalue] at hround
  by_cases hneg : x.val < 0
  · refine ⟨-N, ?_, ?_⟩
    · rw [htext, if_pos hneg, intText, if_pos (by omega), Int.natAbs_neg, Int.natAbs_natCast]
    · rw [hround, if_pos hneg]
      push_cast
      rfl
  · refine ⟨N, ?_, ?_⟩
    · rw [htext, if_neg hneg, intText, if_neg (by omega), Int.natAbs_natCast, List.nil_append]
    · rw [hround, if_neg hneg]
      push_cast
      rfl

/-- The text of an integer determines it. -/
theorem intText_injective {z w : ℤ} (h : intText z = intText w) : z = w := by
  have hread : ∀ z : ℤ, JsonScan.number? (intText z ++ []) = some (.int z, []) := fun z =>
    JsonScan.number?_intText z (by simp [JsonScan.Delimited])
  have hz := hread z
  rw [h, hread w] at hz
  exact (PyNum.int.inj (congrArg Prod.fst (Option.some.inj hz))).symm

/-- A double that comes back as an integer is the one that the integer rounds to. -/
theorem val_of_rereadNumber_eq_int {x : FiniteBinary64} {w : ℤ} (h : rereadNumber x = .int w) :
    x.val = roundToGrid w := by
  obtain ⟨z, w', hz, hlt, hw', -, -, hreread⟩ | ⟨-, -, hreread⟩ := rereadNumber_cases x
  · obtain ⟨w'', hw'', hval⟩ := exists_intText_of_integral hz hlt
    obtain rfl : w' = w := PyNum.int.inj (hreread.symm.trans h)
    rw [hval, intText_injective (hw''.symm.trans hw')]
  · cases hreread.symm.trans h

/-- What comes back determines the value of a double. -/
theorem val_eq_of_rereadNumber_eq {x y : FiniteBinary64} (h : rereadNumber x = rereadNumber y) :
    x.val = y.val := by
  obtain ⟨z, w, -, -, -, -, -, hx⟩ | ⟨-, -, hx⟩ := rereadNumber_cases x
  · rw [val_of_rereadNumber_eq_int hx, val_of_rereadNumber_eq_int (h.symm.trans hx)]
  · obtain ⟨z, w, -, -, -, -, -, hy⟩ | ⟨-, -, hy⟩ := rereadNumber_cases y
    · cases hx.symm.trans (h.trans hy)
    · have hfin := PyNum.float.inj (hx.symm.trans (h.trans hy))
      rw [Binary64.fin.inj hfin]

/-- A finite float comes back as a safe integer exactly when it has its value. -/
theorem rereadFloat_eq_int_iff {x : Binary64} {z : ℤ} (hz : |z| < 2 ^ 53) :
    rereadFloat x = .int z ↔ x.toRat? = some (z : ℚ) := by
  rcases x with _ | _ | _ | x
  · simp [rereadFloat, Binary64.toRat?]
  · simp [rereadFloat, Binary64.toRat?]
  · simp [rereadFloat, Binary64.toRat?, eq_comm]
  show rereadNumber x = .int z ↔ some x.val = some (z : ℚ)
  rw [Option.some.injEq]
  constructor
  · intro h
    have hgrid := val_of_rereadNumber_eq_int h
    rwa [roundToGrid_eq_self (Representable.intCast hz)] at hgrid
  · intro h
    have hbig : (2 : ℤ) ^ 53 ≤ 10 ^ 21 := by norm_num
    obtain ⟨z', w, hz', -, -, hsmall, -, hreread⟩ | ⟨-, hfloat, -⟩ := rereadNumber_cases x
    · obtain rfl : z' = z := by exact_mod_cast hz'.symm.trans h
      rw [hreread, hsmall hz]
    · exact absurd (hfloat z h) (not_le.mpr (hz.trans_le hbig))

/-- Finite floats come back equal exactly when they have one value. -/
theorem rereadFloat_eq_iff {x y : Binary64} (hx : x.isFinite = true) (hy : y.isFinite = true) :
    rereadFloat x = rereadFloat y ↔ x.toRat? = y.toRat? := by
  have hzero : |(0 : ℤ)| < 2 ^ 53 := by norm_num
  -- negative zero comes back as the integer zero, and is compared as one
  rcases x with _ | _ | _ | x
  · cases hx
  · cases hx
  · have h := rereadFloat_eq_int_iff (x := y) hzero
    rw [Int.cast_zero] at h
    exact eq_comm.trans (h.trans eq_comm)
  rcases y with _ | _ | _ | y
  · cases hy
  · cases hy
  · have h := rereadFloat_eq_int_iff (x := .fin x) hzero
    rw [Int.cast_zero] at h
    exact h
  show rereadNumber x = rereadNumber y ↔ some x.val = some y.val
  rw [Option.some.injEq]
  refine ⟨val_eq_of_rereadNumber_eq, fun h => ?_⟩
  -- a finite double is determined by its value
  obtain rfl : x = y := by
    cases x
    cases y
    cases h
    rfl
  rfl

end Jcs

/-! ## Values -/

/-- What a JSON value is, leaving its parts aside. -/
inductive JsonKind where
  | null
  | bool
  | num
  | str
  | arr
  | obj

/-- The kind of a JSON value. -/
def JsonValue.kind : JsonValue → JsonKind
  | .null => .null
  | .bool _ => .bool
  | .num _ => .num
  | .str _ => .str
  | .arr _ => .arr
  | .obj _ => .obj

namespace PyVal

/-- The elements of an array in order. -/
theorem jsonValue?_list {xs : List PyVal} (h : ∀ x ∈ xs, ∃ j, x.jsonValue? = some j) :
    ∃ js, (PyVal.list xs).jsonValue? = some (.arr js) ∧ js.map some = xs.map jsonValue? := by
  have hitems : ∃ js, jsonValues? xs = some js ∧ js.map some = xs.map jsonValue? := by
    induction xs with
    | nil => exact ⟨[], rfl, rfl⟩
    | cons x xs ih =>
      obtain ⟨j, hj⟩ := h x (List.mem_cons_self ..)
      obtain ⟨js, hjs, hmap⟩ := ih fun y hy => h y (List.mem_cons_of_mem _ hy)
      refine ⟨j :: js, ?_, ?_⟩
      · rw [jsonValues?, hj, hjs]
        rfl
      · rw [List.map_cons, List.map_cons, hj, hmap]
  obtain ⟨js, hjs, hmap⟩ := hitems
  exact ⟨js, by rw [jsonValue?, hjs]; rfl, hmap⟩

/-- The members of an object under their keys. -/
theorem jsonValue?_ofMembers {ms : List (Text × PyVal)}
    (h : ∀ m ∈ ms, ∃ j, m.2.jsonValue? = some j) :
    (ofMembers ms).jsonValue? = some (.obj fun k => (Dict.lookup ms k).bind jsonValue?) := by
  -- the members keep their keys, so looking one up before or after is the same
  have hmembers : ∃ js, jsonMembers? (ms.map fun m => (.str m.1, m.2)) = some js ∧
      ∀ k, js.lookup k = (Dict.lookup ms k).bind jsonValue? := by
    induction ms with
    | nil => exact ⟨[], rfl, fun k => rfl⟩
    | cons m ms ih =>
      obtain ⟨j, hj⟩ := h m (List.mem_cons_self ..)
      obtain ⟨js, hjs, hlookup⟩ := ih fun n hn => h n (List.mem_cons_of_mem _ hn)
      refine ⟨(m.1, j) :: js, ?_, fun k => ?_⟩
      · rw [List.map_cons, jsonMembers?, hj, hjs]
        rfl
      · by_cases hk : k = m.1
        · rw [hk, List.lookup_cons_self, Dict.lookup_cons_self, Option.bind_some, hj]
        · rw [List.lookup_cons, beq_false_of_ne hk, Dict.lookup_cons_of_ne hk, ← hlookup]
  obtain ⟨js, hjs, hlookup⟩ := hmembers
  rw [ofMembers, jsonValue?, hjs, Option.map_some, funext hlookup]

/-- A JSON value with finite numbers stands for one. -/
theorem exists_jsonValue? {v : PyVal} (hv : v.IsJson) (hfinite : v.FiniteFloats) :
    ∃ j, v.jsonValue? = some j := by
  induction v, hv using isJson_induct with
  | none | bool b | int z | str s => exact ⟨_, rfl⟩
  | float x =>
    obtain ⟨q, hq⟩ := Option.isSome_iff_exists.mp hfinite
    exact ⟨.num q, by rw [jsonValue?, hq]; rfl⟩
  | list xs h ih =>
    obtain ⟨js, hjs, -⟩ := jsonValue?_list fun x hx => ih x hx (finiteItems_iff.mp hfinite x hx)
    exact ⟨_, hjs⟩
  | obj ms hkeys h ih =>
    exact ⟨_, jsonValue?_ofMembers fun m hm =>
      ih m hm (finiteFloats_ofMembers_iff.mp hfinite m hm).2⟩

/-- Objects come back equal exactly when what comes back under each key is. -/
theorem reread_ofMembers_eq_iff {ms ns : List (Text × PyVal)} (hms : (Dict.keys ms).Nodup)
    (hns : (Dict.keys ns).Nodup) (hencodable : ∀ m ∈ ms, m.1.Encodable) :
    (ofMembers ms).reread = (ofMembers ns).reread ↔
      ∀ k, (Dict.lookup ms k).map reread = (Dict.lookup ns k).map reread := by
  have hmapped : ∀ {l : List (Text × PyVal)}, (Dict.keys l).Nodup →
      (Dict.keys (l.map fun m => (m.1, m.2.reread))).Nodup := fun {l} hl => by
    rwa [Dict.keys, List.map_map]
  have hlookup : ∀ {l : List (Text × PyVal)}, (Dict.keys l).Nodup → ∀ k,
      Dict.lookup ((Jcs.sortMembers l).map fun m => (m.1, m.2.reread)) k =
        (Dict.lookup l k).map reread := fun {l} hl k => by
    have hperm : l.Perm (Jcs.sortMembers l) := (List.perm_insertionSort _ l).symm
    rw [Dict.lookup_map, Dict.lookup_perm hperm hl]
  rw [reread_ofMembers, reread_ofMembers]
  constructor
  · intro h k
    have hmembers := ofMembers_injective h
    rw [← hlookup hms, ← hlookup hns, hmembers]
  · intro h
    -- the same entries, in the order of the keys
    have hperm : (ms.map fun m => (m.1, m.2.reread)).Perm (ns.map fun m => (m.1, m.2.reread)) := by
      refine (List.perm_ext_iff_of_nodup (hmapped hms).of_map (hmapped hns).of_map).mpr ?_
      rintro ⟨k, v⟩
      rw [← Dict.lookup_eq_some_iff (hmapped hms), ← Dict.lookup_eq_some_iff (hmapped hns),
        Dict.lookup_map, Dict.lookup_map, h k]
    have hsort := Jcs.sortMembers_perm hperm (hmapped hms)
      (List.forall_mem_map.mpr fun m hm => hencodable m hm)
    have hmap := Jcs.sortMembers_map fun m : Text × PyVal => m.2.reread
    rw [← hmap, ← hmap, hsort]

/-- Two lists come back equal exactly when their elements do, one by one. -/
theorem reread_list_eq_iff {xs ys : List PyVal} :
    (PyVal.list xs).reread = (PyVal.list ys).reread ↔ xs.map reread = ys.map reread := by
  rw [reread, reread, rereadItems_eq, rereadItems_eq, PyVal.list.injEq]

/-- Functions that agree on whether two elements are equal agree on whether two lists are. -/
theorem map_eq_map_iff_of_forall {α β γ : Type} {f : α → β} {g : α → γ} {xs ys : List α}
    (h : ∀ x ∈ xs, ∀ y ∈ ys, (f x = f y ↔ g x = g y)) :
    xs.map f = ys.map f ↔ xs.map g = ys.map g := by
  induction xs generalizing ys with
  | nil => simp only [List.map_nil, List.nil_eq, List.map_eq_nil_iff]
  | cons x xs ih =>
    cases ys with
    | nil => simp only [List.map_cons, List.map_nil, reduceCtorEq]
    | cons y ys =>
      have hrest := ih fun a ha b hb =>
        h a (List.mem_cons_of_mem _ ha) b (List.mem_cons_of_mem _ hb)
      rw [List.map_cons, List.map_cons, List.map_cons, List.map_cons, List.cons.injEq,
        List.cons.injEq, h x (List.mem_cons_self ..) y (List.mem_cons_self ..), hrest]

/-- Under a key there are two values, one or none. -/
theorem map_eq_map_iff_bind_eq_bind {α β γ : Type} {f : α → β} {g : α → Option γ} {a b : Option α}
    (ha : ∀ x ∈ a, ∃ j, g x = some j) (hb : ∀ y ∈ b, ∃ j, g y = some j)
    (h : ∀ x ∈ a, ∀ y ∈ b, (f x = f y ↔ g x = g y)) : a.map f = b.map f ↔ a.bind g = b.bind g := by
  -- both sides tell an absent value from a present one
  cases a with
  | none =>
    cases b with
    | none => exact iff_of_true rfl rfl
    | some y =>
      obtain ⟨j, hj⟩ := hb y rfl
      simp [hj]
  | some x =>
    cases b with
    | none =>
      obtain ⟨j, hj⟩ := ha x rfl
      simp [hj]
    | some y =>
      rw [Option.map_some, Option.map_some, Option.some.injEq]
      exact h x rfl y rfl

/-- A safe number comes back as the only safe number of its value. -/
theorem reread_num_eq_iff {a b : PyNum} (ha : a.Safe) (hb : b.Safe) :
    a.toVal.reread = b.toVal.reread ↔ a.toVal.jsonValue? = b.toVal.jsonValue? := by
  have hsmall : ∀ {z : ℤ}, (PyNum.int z).Safe → |z| < 2 ^ 53 := fun {z} hz => by
    simp only [PyNum.Safe, minSafeInteger, maxSafeInteger] at hz
    exact abs_lt.mpr ⟨by omega, by omega⟩
  have htoVal : ∀ {m n : PyNum}, m.toVal = n.toVal ↔ m = n := fun {m n} =>
    ⟨fun h => by cases m <;> cases n <;> cases h <;> rfl, fun h => h ▸ rfl⟩
  have hnum : ∀ {p q : ℚ}, some (JsonValue.num p) = some (.num q) ↔ p = q := fun {p q} => by
    rw [Option.some.injEq, JsonValue.num.injEq]
  -- an integer is compared with what a float comes back as
  have hmixed : ∀ {z : ℤ} {x : Binary64}, (PyNum.int z).Safe →
      (Jcs.rereadFloat x = .int z ↔ (PyVal.float x).jsonValue? = (PyVal.int z).jsonValue?) :=
    fun {z x} hz => by
      rw [Jcs.rereadFloat_eq_int_iff (hsmall hz), jsonValue?, jsonValue?, Option.map_eq_some_iff]
      simp only [JsonValue.num.injEq, exists_eq_right]
  cases a with
  | int z =>
    cases b with
    | int w =>
      show PyVal.int z = PyVal.int w ↔ some (JsonValue.num z) = some (.num w)
      rw [hnum, PyVal.int.injEq, Int.cast_inj]
    | float y =>
      show (PyNum.int z).toVal = (Jcs.rereadFloat y).toVal ↔ _
      rw [htoVal]
      exact eq_comm.trans ((hmixed ha).trans eq_comm)
  | float x =>
    cases b with
    | int w =>
      show (Jcs.rereadFloat x).toVal = (PyNum.int w).toVal ↔ _
      rw [htoVal]
      exact hmixed hb
    | float y =>
      show (Jcs.rereadFloat x).toVal = (Jcs.rereadFloat y).toVal ↔
        x.toRat?.map JsonValue.num = y.toRat?.map JsonValue.num
      rw [htoVal, Jcs.rereadFloat_eq_iff ha hb]
      exact (Option.map_injective fun _ _ h => JsonValue.num.inj h).eq_iff.symm

/-- The kind of a value that `json.loads` returns. -/
def kind : PyVal → Option JsonKind
  | .none => some .null
  | .bool _ => some .bool
  | .int _ | .float _ => some .num
  | .str _ => some .str
  | .list _ => some .arr
  | .dict _ => some .obj
  | _ => Option.none

/-- A value comes back as one of its kind. -/
theorem kind_reread {v : PyVal} (hv : v.IsJson) : v.reread.kind = v.kind := by
  cases hv with
  | float x =>
    show ((Jcs.rereadFloat x).toVal).kind = _
    cases Jcs.rereadFloat x <;> rfl
  | _ => rfl

/-- The kind of a value is the one of the JSON value that it stands for. -/
theorem kind_of_jsonValue? {v : PyVal} (hv : v.IsJson) {j : JsonValue}
    (h : v.jsonValue? = some j) : v.kind = some j.kind := by
  cases hv with
  | none | bool | int | str =>
    cases h
    rfl
  | float | list | dict =>
    obtain ⟨-, -, rfl⟩ := Option.map_eq_some_iff.mp h
    rfl

/-- Values of two kinds neither come back equal nor are the same JSON value. -/
theorem reread_eq_iff_of_kind {v w : PyVal} (hv : v.IsJson) (hw : w.IsJson) (hcv : v.Canonical)
    (h : v.kind = w.kind → (v.reread = w.reread ↔ v.jsonValue? = w.jsonValue?)) :
    v.reread = w.reread ↔ v.jsonValue? = w.jsonValue? := by
  by_cases hkind : v.kind = w.kind
  · exact h hkind
  · obtain ⟨j, hj⟩ := exists_jsonValue? hv hcv.safeNumbers.finiteFloats
    refine iff_of_false (fun heq => hkind ?_) fun heq => hkind ?_
    · rw [← kind_reread hv, heq, kind_reread hw]
    · rw [kind_of_jsonValue? hv hj, kind_of_jsonValue? hw (heq.symm.trans hj)]

/-- Two values with canonical forms come back equal exactly when they are the same JSON value. -/
theorem reread_eq_iff {v w : PyVal} (hv : v.IsJson) (hw : w.IsJson) (hcv : v.Canonical)
    (hcw : w.Canonical) : v.reread = w.reread ↔ v.jsonValue? = w.jsonValue? := by
  -- values of two kinds differ on both sides, so that each case is about values of one kind
  induction v, hv using isJson_induct generalizing w with
  | none =>
    refine reread_eq_iff_of_kind .none hw hcv fun hkind => ?_
    cases hw with
    | none => exact iff_of_true rfl rfl
    | _ => cases hkind
  | bool b =>
    refine reread_eq_iff_of_kind (.bool b) hw hcv fun hkind => ?_
    cases hw with
    | bool c =>
      show PyVal.bool b = .bool c ↔ some (JsonValue.bool b) = some (.bool c)
      rw [PyVal.bool.injEq, Option.some.injEq, JsonValue.bool.injEq]
    | _ => cases hkind
  | int z =>
    refine reread_eq_iff_of_kind (.int z) hw hcv fun hkind => ?_
    cases hw with
    | int y => exact @reread_num_eq_iff (.int z) (.int y) hcv.safeNumbers hcw.safeNumbers
    | float y => exact @reread_num_eq_iff (.int z) (.float y) hcv.safeNumbers hcw.safeNumbers
    | _ => cases hkind
  | float x =>
    refine reread_eq_iff_of_kind (.float x) hw hcv fun hkind => ?_
    cases hw with
    | int y => exact @reread_num_eq_iff (.float x) (.int y) hcv.safeNumbers hcw.safeNumbers
    | float y => exact @reread_num_eq_iff (.float x) (.float y) hcv.safeNumbers hcw.safeNumbers
    | _ => cases hkind
  | str s =>
    refine reread_eq_iff_of_kind (.str s) hw hcv fun hkind => ?_
    cases hw with
    | str t =>
      show PyVal.str s = .str t ↔ some (JsonValue.str s) = some (.str t)
      rw [PyVal.str.injEq, Option.some.injEq, JsonValue.str.injEq]
    | _ => cases hkind
  | list xs h ih =>
    refine reread_eq_iff_of_kind (.list h) hw hcv fun hkind => ?_
    cases hw with
    | @list ys hys =>
      have hxs := canonical_list_iff.mp hcv
      have hcys := canonical_list_iff.mp hcw
      obtain ⟨js, hjs, hmap⟩ := jsonValue?_list fun x hx =>
        exists_jsonValue? (h x hx) (hxs x hx).safeNumbers.finiteFloats
      obtain ⟨is, his, hmap'⟩ := jsonValue?_list fun y hy =>
        exists_jsonValue? (hys y hy) (hcys y hy).safeNumbers.finiteFloats
      have hvalues : js = is ↔ xs.map jsonValue? = ys.map jsonValue? := by
        rw [← hmap, ← hmap']
        exact (List.map_injective_iff.mpr (Option.some_injective _)).eq_iff.symm
      rw [reread_list_eq_iff, hjs, his, Option.some.injEq, JsonValue.arr.injEq, hvalues]
      exact map_eq_map_iff_of_forall fun x hx y hy => ih x hx (hys y hy) (hxs x hx) (hcys y hy)
    | _ => cases hkind
  | obj ms hkeys h ih =>
    refine reread_eq_iff_of_kind (isJson_ofMembers hkeys fun k v hkv => h (k, v) hkv) hw hcv
      fun hkind => ?_
    cases hw with
    | dict hstr hnodup hvals =>
      obtain ⟨ns, hns, hkeys', h'⟩ := exists_members_of_isJson (.dict hstr hnodup hvals)
      rw [hns] at hcw ⊢
      have hms := canonical_ofMembers_iff.mp hcv
      have hcns := canonical_ofMembers_iff.mp hcw
      have hvals := fun m hm => exists_jsonValue? (h m hm) (hms m hm).2.safeNumbers.finiteFloats
      have hvals' := fun m hm => exists_jsonValue? (h' m hm) (hcns m hm).2.safeNumbers.finiteFloats
      rw [reread_ofMembers_eq_iff hkeys hkeys' fun m hm => (hms m hm).1, jsonValue?_ofMembers hvals,
        jsonValue?_ofMembers hvals', Option.some.injEq, JsonValue.obj.injEq, funext_iff]
      -- under each key by induction, in whichever order the keys come
      refine forall_congr' fun k => map_eq_map_iff_bind_eq_bind
        (fun v hv => hvals (k, v) (Dict.mem_of_lookup_eq_some hv))
        (fun w hw => hvals' (k, w) (Dict.mem_of_lookup_eq_some hw)) fun v hv w hw => ?_
      have hvms := Dict.mem_of_lookup_eq_some hv
      have hwns := Dict.mem_of_lookup_eq_some hw
      exact ih (k, v) hvms (h' (k, w) hwns) (hms (k, v) hvms).2 (hcns (k, w) hwns).2
    | _ => cases hkind

end PyVal

/-! ## Canonical bytes -/

/-- What comes back has the same canonical text, also when a float has come back as an integer that
is not safe. -/
theorem Jcs.serialize_reread_of_canonical {v : PyVal} (hv : v.IsJson) (hcanonical : v.Canonical) :
    serialize v.reread = serialize v := by
  induction v, hv using PyVal.isJson_induct with
  | none | bool b | int z | str s => rfl
  | float x =>
    rcases x with _ | _ | _ | x
    · cases hcanonical.safeNumbers
    · cases hcanonical.safeNumbers
    · rfl
    show serialize (rereadNumber x).toVal = .ok (number x)
    -- the integer that comes back was the text of the float
    obtain ⟨z, w, -, -, hw, -, -, hreread⟩ | ⟨-, -, hreread⟩ := rereadNumber_cases x
    · rw [hreread, hw]
      rfl
    · rw [hreread]
      rfl
  | list xs h ih =>
    have hitems := PyVal.canonical_list_iff.mp hcanonical
    rw [PyVal.reread, PyVal.rereadItems_eq, serialize, serialize,
      serializeItems_congr fun x hx => ih x hx (hitems x hx)]
  | obj ms hkeys h ih =>
    have hparts := PyVal.canonical_ofMembers_iff.mp hcanonical
    rw [PyVal.reread_ofMembers]
    -- the members come back in the order in which they are serialized
    exact serialize_ofMembers_congr (List.perm_insertionSort _ ms) hkeys
      (fun m hm => (hparts m hm).1)
      (fun m hm => ⟨h m hm, (hparts m hm).2.safeNumbers.finiteFloats⟩)
      fun m hm => ih m hm (hparts m hm).2

/-- Values that stand for JSON values are the same when these are equal. -/
theorem PyVal.sameJson_iff {v w : PyVal} (hv : v.IsJson) (hcv : v.Canonical) :
    v.SameJson w ↔ v.jsonValue? = w.jsonValue? := by
  obtain ⟨j, hj⟩ := exists_jsonValue? hv hcv.safeNumbers.finiteFloats
  constructor
  · rintro ⟨i, hi, hi'⟩
    rw [hi, hi']
  · exact fun h => ⟨j, hj, h ▸ hj⟩

namespace Externals

variable {X : Externals} {v w : PyVal} {b c : Bytes}

/-- Canonical bytes are equal exactly when what they are parsed to is. -/
theorem canonicalJson_eq_iff_reread (hjcs : X.JcsConforms) (hv : v.IsJson) (hw : w.IsJson)
    (hb : X.canonicalJson v = .ok b) (hc : X.canonicalJson w = .ok c) :
    b = c ↔ v.reread = w.reread := by
  obtain ⟨hcv, hbytes, hparse⟩ := parsePayload_canonicalJson hjcs hv hb
  obtain ⟨hcw, hbytes', hparse'⟩ := parsePayload_canonicalJson hjcs hw hc
  constructor
  · rintro rfl
    exact Except.ok.inj (hparse.symm.trans hparse')
  · intro h
    rw [Jcs.canonicalize, ← Jcs.serialize_reread_of_canonical hv hcv, h,
      Jcs.serialize_reread_of_canonical hw hcw, ← Jcs.canonicalize, hbytes'] at hbytes
    exact (Except.ok.inj hbytes).symm

/-- The canonical bytes that come back from `json.loads` the same are those of the same JSON
value. -/
theorem reread_eq_iff_sameJson (hjcs : X.JcsConforms) (hv : v.IsJson) (hw : w.IsJson)
    (hb : X.canonicalJson v = .ok b) (hc : X.canonicalJson w = .ok c) :
    v.reread = w.reread ↔ v.SameJson w := by
  have hcv := (canonicalJson_isOk_iff hjcs.accepts hv).mp ⟨b, hb⟩
  have hcw := (canonicalJson_isOk_iff hjcs.accepts hw).mp ⟨c, hc⟩
  rw [PyVal.sameJson_iff hv hcv, PyVal.reread_eq_iff hv hw hcv hcw]

/-- Two JSON values have the same canonical bytes exactly when they are the same JSON value. -/
theorem canonicalJson_eq_iff (hjcs : X.JcsConforms) (hv : v.IsJson) (hw : w.IsJson)
    (hb : X.canonicalJson v = .ok b) (hc : X.canonicalJson w = .ok c) : b = c ↔ v.SameJson w := by
  rw [canonicalJson_eq_iff_reread hjcs hv hw hb hc, reread_eq_iff_sameJson hjcs hv hw hb hc]

/-- An integer and a fraction. -/
def sampleObject : PyVal :=
  .ofMembers [(text "a", .int 1), (text "b", .float (.fin ⟨1 / 2, representable_half⟩))]

/-- The same members, with the integer spelled as a float, in another order. -/
def sampleReordered : PyVal :=
  .ofMembers [(text "b", .float (.fin ⟨1 / 2, representable_half⟩)),
    (text "a", .float (Binary64.ofSmallInt 1 (by norm_num)))]

theorem isJson_sampleObject : sampleObject.IsJson := by
  refine PyVal.isJson_ofMembers (by decide) fun k v hkv => ?_
  simp only [List.mem_cons, List.not_mem_nil, or_false, Prod.mk.injEq] at hkv
  rcases hkv with ⟨-, rfl⟩ | ⟨-, rfl⟩
  · exact .int 1
  · exact .float _

theorem isJson_sampleReordered : sampleReordered.IsJson := by
  refine PyVal.isJson_ofMembers (by decide) fun k v hkv => ?_
  simp only [List.mem_cons, List.not_mem_nil, or_false, Prod.mk.injEq] at hkv
  rcases hkv with ⟨-, rfl⟩ | ⟨-, rfl⟩ <;> exact .float _

theorem canonical_sampleObject : sampleObject.Canonical := by
  refine PyVal.canonical_ofMembers_iff.mpr ?_
  simp only [List.forall_mem_cons, List.not_mem_nil, false_implies, implies_true, and_true]
  exact ⟨⟨by decide, PyVal.canonical_int.mpr (by decide)⟩, by decide, PyVal.canonical_float.mpr rfl⟩

theorem canonical_sampleReordered : sampleReordered.Canonical := by
  refine PyVal.canonical_ofMembers_iff.mpr ?_
  simp only [List.forall_mem_cons, List.not_mem_nil, false_implies, implies_true, and_true]
  exact ⟨⟨by decide, PyVal.canonical_float.mpr rfl⟩, by decide, PyVal.canonical_float.mpr rfl⟩

/-- The two objects are the same JSON value. -/
theorem sameJson_samples : sampleObject.SameJson sampleReordered := by
  have hone : (PyVal.int 1).jsonValue? = some (.num 1) := by
    rw [PyVal.jsonValue?, Int.cast_one]
  have hone' : (PyVal.float (Binary64.ofSmallInt 1 (by norm_num))).jsonValue? = some (.num 1) := by
    rfl
  have hhalf : (PyVal.float (.fin ⟨1 / 2, representable_half⟩)).jsonValue? = some (.num (1 / 2)) :=
    rfl
  have hne : text "b" ≠ text "a" := by decide
  rw [PyVal.sameJson_iff isJson_sampleObject canonical_sampleObject, sampleObject, sampleReordered,
    PyVal.jsonValue?_ofMembers (List.forall_mem_cons.mpr ⟨⟨_, hone⟩,
      List.forall_mem_singleton.mpr ⟨_, hhalf⟩⟩),
    PyVal.jsonValue?_ofMembers (List.forall_mem_cons.mpr ⟨⟨_, hhalf⟩,
      List.forall_mem_singleton.mpr ⟨_, hone'⟩⟩)]
  -- the objects are compared key by key
  refine congrArg (fun f => some (JsonValue.obj f)) (funext fun k => ?_)
  by_cases ha : k = text "a"
  · rw [ha, Dict.lookup_cons_self, Dict.lookup_cons_of_ne hne.symm, Dict.lookup_cons_self]
    exact hone.trans hone'.symm
  · by_cases hb : k = text "b"
    · rw [hb, Dict.lookup_cons_of_ne hne, Dict.lookup_cons_self, Dict.lookup_cons_self]
    · rw [Dict.lookup_cons_of_ne ha, Dict.lookup_cons_of_ne hb, Dict.lookup_cons_of_ne hb,
        Dict.lookup_cons_of_ne ha]

/-- The two objects have the same canonical bytes. -/
theorem canonicalJson_eq_iff_sample : ∃ b,
    L1Receipt.referenceX.canonicalJson sampleObject = .ok b ∧
      L1Receipt.referenceX.canonicalJson sampleReordered = .ok b := by
  have hjcs := jcsConforms_externals .reference
  obtain ⟨b, hb⟩ := (canonicalJson_isOk_iff hjcs.accepts isJson_sampleObject).mpr
    canonical_sampleObject
  obtain ⟨c, hc⟩ := (canonicalJson_isOk_iff hjcs.accepts isJson_sampleReordered).mpr
    canonical_sampleReordered
  refine ⟨b, hb, ?_⟩
  rwa [(canonicalJson_eq_iff hjcs isJson_sampleObject isJson_sampleReordered hb hc).mpr
    sameJson_samples]

end Externals

/-! ## What a receipt is signed on -/

namespace L1Receipt

variable {X : Externals} {r s : L1Receipt} {b c : Bytes}

/-- Every signed field is a JSON value, seen through `Enum` members. -/
def SignedFieldsAreJson (r : L1Receipt) : Prop :=
  ∀ f ≠ ReceiptField.signature, (r.attr f).plain.IsJson

/-- Then the signed object is JSON. -/
theorem SignedFieldsAreJson.signingData (h : r.SignedFieldsAreJson) : r.signingData.IsJson := by
  refine PyVal.isJson_ofMembers ?_ fun k v hkv => ?_
  · rw [List.map_map]
    exact ReceiptField.nodup_signed_names
  · obtain ⟨f, hf, heq⟩ := List.mem_map.mp hkv
    cases heq
    exact h f (ReceiptField.mem_signed.mp hf)

/-- Two receipts are signed on the same bytes exactly when they hold the same JSON value in every
signed field. -/
theorem signingPayload_eq_iff (hjcs : X.JcsConforms) (hr : r.SignedFieldsAreJson)
    (hs : s.SignedFieldsAreJson) (hb : r.signingPayload X = .ok b)
    (hc : s.signingPayload X = .ok c) :
    b = c ↔ ∀ f ≠ ReceiptField.signature, (r.attr f).plain.SameJson (s.attr f).plain := by
  rw [← sameJson_signingData_iff,
    Externals.canonicalJson_eq_iff_reread hjcs hr.signingData hs.signingData hb hc,
    Externals.reread_eq_iff_sameJson hjcs hr.signingData hs.signingData hb hc]

/-- Changing one signed field to a JSON value leaves JSON values. -/
theorem SignedFieldsAreJson.set (hr : r.SignedFieldsAreJson) {f : ReceiptField} {v : PyVal}
    (hv : v.plain.IsJson) : (r.set f v).SignedFieldsAreJson := by
  intro g hg
  by_cases hgf : g = f
  · rw [hgf, attr_set_self]
    exact hv
  · rw [attr_set_of_ne hgf]
    exact hr g hg

/-- The signed bytes stay when a field is spelled in another way, as a float for an integer. -/
theorem signingPayload_set (hjcs : X.JcsConforms) (hr : r.SignedFieldsAreJson)
    (hb : r.signingPayload X = .ok b) {f : ReceiptField} {v : PyVal} (hv : v.plain.IsJson)
    (hcanonical : v.plain.Canonical) (hsame : (r.attr f).plain.SameJson v.plain) :
    (r.set f v).signingPayload X = .ok b := by
  -- both objects have canonical forms
  have hmembers := PyVal.canonical_ofMembers_iff.mp
    ((Externals.canonicalJson_isOk_iff hjcs.accepts hr.signingData).mp ⟨b, hb⟩)
  have hfield : ∀ g ≠ ReceiptField.signature, (r.attr g).plain.Canonical := fun g hg =>
    (hmembers _ (List.mem_map_of_mem (ReceiptField.mem_signed.mpr hg))).2
  have hset : (r.set f v).signingData.Canonical := by
    refine PyVal.canonical_ofMembers_iff.mpr fun m hm => ?_
    obtain ⟨g, hg, rfl⟩ := List.mem_map.mp hm
    refine ⟨(hmembers _ (List.mem_map_of_mem hg)).1, ?_⟩
    by_cases hgf : g = f
    · rw [hgf, attr_set_self]
      exact hcanonical
    · rw [attr_set_of_ne hgf]
      exact hfield g (ReceiptField.mem_signed.mp hg)
  obtain ⟨c, hc⟩ := (Externals.canonicalJson_isOk_iff hjcs.accepts (hr.set hv).signingData).mpr hset
  -- and hold the same JSON value in every field
  have hbytes : b = c := (signingPayload_eq_iff hjcs hr (hr.set hv) hb hc).mpr fun g hg => by
    by_cases hgf : g = f
    · rw [hgf, attr_set_self]
      exact hsame
    · rw [attr_set_of_ne hgf]
      exact (PyVal.sameJson_iff (hr g hg) (hfield g hg)).mpr rfl
  exact hbytes ▸ hc

end L1Receipt
