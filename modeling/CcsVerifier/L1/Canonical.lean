import CcsVerifier.Reference
import CcsVerifier.Python.Jcs

/-!
# Canonical JSON and hashes

`canonical_json` checks every number in a value and hands the value to the `jcs` package.

* `PyVal.SafeNumbers`: integers within `±(2 ^ 53 - 1)` and finite floats, at every depth.
* `validateSafeIntegers_eq_ok_iff`: the check accepts exactly the values with safe numbers.
* `Externals.JcsAccepts`: what is relied on of `jcs`.
* `canonicalJson_isOk_iff`, `computeHash_isOk_iff`: which JSON values have a canonical form.
-/

/-- `_MAX_SAFE_INTEGER` -/
def maxSafeInteger : ℤ := 2 ^ 53 - 1

/-- `_MIN_SAFE_INTEGER` -/
def minSafeInteger : ℤ := -2 ^ 53 + 1

/-- The error for an integer out of range. -/
def unsafeIntegerError (z : ℤ) : PyExc :=
  ⟨.valueError, text "Integer " ++ intText z ++ text " exceeds RFC 8785 safe integer range ("
    ++ intText minSafeInteger ++ text " to " ++ intText maxSafeInteger
    ++ text "). Use a string or float for values outside this range."⟩

/-- The error for an infinity or a NaN. -/
def nonFiniteError (x : Binary64) : PyExc :=
  ⟨.valueError, text "Non-finite float " ++ floatRepr x
    ++ text " is not a valid JSON number and cannot be canonicalized for signing "
    ++ text "(RFC 8785 / RFC 8259). Use None, a string, or a finite number."⟩

mutual

/-- `_validate_safe_integers(v)` -/
def validateSafeIntegers : PyVal → Except PyExc Unit
  | .int z =>
    if z > maxSafeInteger ∨ z < minSafeInteger then .error (unsafeIntegerError z) else .ok ()
  | .float x => if x.isFinite then .ok () else .error (nonFiniteError x)
  | .list xs => validateItems xs
  | .tuple xs => validateItems xs
  | .dict entries => validateEntries entries
  | _ => .ok ()

/-- The check of every element of a list. -/
def validateItems : List PyVal → Except PyExc Unit
  | [] => .ok ()
  | x :: xs => do
      validateSafeIntegers x
      validateItems xs

/-- The check of every key and value of a dictionary. -/
def validateEntries : List (PyVal × PyVal) → Except PyExc Unit
  | [] => .ok ()
  | (k, v) :: rest => do
      validateSafeIntegers k
      validateSafeIntegers v
      validateEntries rest

end

namespace PyVal

mutual

/-- Every integer in the value is safe and every float is finite. -/
def SafeNumbers : PyVal → Prop
  | .int z => minSafeInteger ≤ z ∧ z ≤ maxSafeInteger
  | .float x => x.isFinite
  | .list xs => SafeItems xs
  | .tuple xs => SafeItems xs
  | .dict entries => SafeEntries entries
  | _ => True

/-- `SafeNumbers` of every element. -/
def SafeItems : List PyVal → Prop
  | [] => True
  | x :: xs => SafeNumbers x ∧ SafeItems xs

/-- `SafeNumbers` of every key and value. -/
def SafeEntries : List (PyVal × PyVal) → Prop
  | [] => True
  | (k, v) :: rest => (SafeNumbers k ∧ SafeNumbers v) ∧ SafeEntries rest

end

end PyVal

/-- Two checks pass when both do. -/
private theorem bind_unit_eq_ok_iff {x y : Except PyExc Unit} :
    (do x; y) = .ok () ↔ x = .ok () ∧ y = .ok () := by
  rw [Except.bind_eq_ok_iff]
  exact ⟨fun ⟨_, hx, hy⟩ => ⟨hx, hy⟩, fun ⟨hx, hy⟩ => ⟨(), hx, hy⟩⟩

/-- The check accepts exactly the values with safe numbers. -/
theorem validateSafeIntegers_eq_ok_iff (v : PyVal) :
    validateSafeIntegers v = .ok () ↔ v.SafeNumbers := by
  have hitems : ∀ xs : List PyVal, (∀ x ∈ xs, validateSafeIntegers x = .ok () ↔ x.SafeNumbers) →
      (validateItems xs = .ok () ↔ PyVal.SafeItems xs) := by
    intro xs h
    induction xs with
    | nil => simp [validateItems, PyVal.SafeItems]
    | cons x xs ih =>
      rw [validateItems, bind_unit_eq_ok_iff, h x (by simp), ih fun y hy => h y (by simp [hy]),
        PyVal.SafeItems]
  induction v using PyVal.induct with
  | int z =>
    rw [validateSafeIntegers, PyVal.SafeNumbers]
    split
    · next h => simp only [reduceCtorEq, false_iff]; omega
    · next h => simp only [true_iff]; omega
  | float x =>
    rw [validateSafeIntegers, PyVal.SafeNumbers]
    cases x.isFinite <;> simp
  | list xs ih => exact hitems xs ih
  | tuple xs ih => exact hitems xs ih
  | dict entries ih =>
    rw [validateSafeIntegers, PyVal.SafeNumbers]
    -- keys are checked like values
    induction entries with
    | nil => simp [validateEntries, PyVal.SafeEntries]
    | cons entry rest ihrest =>
      obtain ⟨k, v⟩ := entry
      have hk : validateSafeIntegers k = .ok () ↔ k.SafeNumbers :=
        (ih k v (List.mem_cons_self ..)).1
      have hv : validateSafeIntegers v = .ok () ↔ v.SafeNumbers :=
        (ih k v (List.mem_cons_self ..)).2
      have hrest : validateEntries rest = .ok () ↔ PyVal.SafeEntries rest :=
        ihrest fun k v hkv => ih k v (List.mem_cons_of_mem _ hkv)
      rw [validateEntries, bind_unit_eq_ok_iff, bind_unit_eq_ok_iff, hk, hv, hrest,
        PyVal.SafeEntries, and_assoc]
  | _ => simp [validateSafeIntegers, PyVal.SafeNumbers]

/-- An object has safe numbers when every member has. -/
theorem PyVal.safeNumbers_ofMembers_iff {ms : List (Text × PyVal)} :
    (PyVal.ofMembers ms).SafeNumbers ↔ ∀ m ∈ ms, m.2.SafeNumbers := by
  rw [PyVal.ofMembers, PyVal.SafeNumbers]
  induction ms with
  | nil => simp [PyVal.SafeEntries]
  | cons m ms ih =>
    have hkey : (PyVal.str m.1).SafeNumbers := trivial
    rw [List.map_cons, PyVal.SafeEntries, ih, List.forall_mem_cons, and_iff_right hkey]

/-- Safe numbers are finite. -/
theorem PyVal.SafeNumbers.finiteFloats {v : PyVal} (h : v.SafeNumbers) : v.FiniteFloats := by
  have hitems : ∀ xs : List PyVal, (∀ x ∈ xs, x.SafeNumbers → x.FiniteFloats) →
      SafeItems xs → FiniteItems xs := by
    intro xs ih h
    induction xs with
    | nil => trivial
    | cons x xs ihxs => exact ⟨ih x (by simp) h.1, ihxs (fun y hy => ih y (by simp [hy])) h.2⟩
  -- `SafeNumbers` and `FiniteFloats` recurse alike and differ at the integers
  induction v using PyVal.induct with
  | float x => exact h
  | list xs ih => exact hitems xs ih h
  | tuple xs ih => exact hitems xs ih h
  | dict entries ih =>
    rw [PyVal.SafeNumbers] at h
    rw [PyVal.FiniteFloats]
    induction entries with
    | nil => trivial
    | cons entry rest ihrest =>
      obtain ⟨k, v⟩ := entry
      obtain ⟨hk, hv⟩ := ih k v (List.mem_cons_self ..)
      exact ⟨⟨hk h.1.1, hv h.1.2⟩,
        ihrest (fun k v hkv => ih k v (List.mem_cons_of_mem _ hkv)) h.2⟩
  | _ => trivial

/-- The numbers in the value are safe and its strings can be encoded. -/
structure PyVal.Canonical (v : PyVal) : Prop where
  /-- The numbers are safe. -/
  safeNumbers : v.SafeNumbers
  /-- The strings can be encoded. -/
  encodableStrings : v.EncodableStrings

namespace PyVal

/-- An object has a canonical form when its keys and values have one. -/
theorem canonical_ofMembers_iff {ms : List (Text × PyVal)} :
    (ofMembers ms).Canonical ↔ ∀ m ∈ ms, m.1.Encodable ∧ m.2.Canonical := by
  constructor
  · intro h m hm
    obtain ⟨hkey, hvalue⟩ := encodableStrings_ofMembers_iff.mp h.encodableStrings m hm
    exact ⟨hkey, safeNumbers_ofMembers_iff.mp h.safeNumbers m hm, hvalue⟩
  · intro h
    exact ⟨safeNumbers_ofMembers_iff.mpr fun m hm => (h m hm).2.safeNumbers,
      encodableStrings_ofMembers_iff.mpr fun m hm => ⟨(h m hm).1, (h m hm).2.encodableStrings⟩⟩

/-- A string has a canonical form when it can be encoded. -/
@[simp]
theorem canonical_str {s : Text} : (PyVal.str s).Canonical ↔ s.Encodable :=
  ⟨fun h => h.encodableStrings, fun h => ⟨trivial, h⟩⟩

/-- The same for a value that is a string. -/
theorem canonical_iff_of_str {v : PyVal} (h : ∃ s, v = .str s) :
    v.Canonical ↔ v.EncodableStrings := by
  obtain ⟨s, rfl⟩ := h
  exact canonical_str

/-- A float has a canonical form when it is finite. -/
@[simp]
theorem canonical_float {x : Binary64} : (PyVal.float x).Canonical ↔ x.isFinite = true :=
  ⟨fun h => h.safeNumbers, fun h => ⟨h, trivial⟩⟩

/-- An integer has one when it is safe. -/
@[simp]
theorem canonical_int {z : ℤ} :
    (PyVal.int z).Canonical ↔ minSafeInteger ≤ z ∧ z ≤ maxSafeInteger :=
  ⟨fun h => h.safeNumbers, fun h => ⟨h, trivial⟩⟩

/-- The numbers of a list, element by element. -/
theorem safeItems_iff {xs : List PyVal} : SafeItems xs ↔ ∀ x ∈ xs, x.SafeNumbers := by
  induction xs with
  | nil => simp [SafeItems]
  | cons x xs ih => rw [SafeItems, ih, List.forall_mem_cons]

/-- A list has a canonical form when its elements have one. -/
theorem canonical_list_iff {xs : List PyVal} :
    (PyVal.list xs).Canonical ↔ ∀ x ∈ xs, x.Canonical := by
  constructor
  · intro h x hx
    exact ⟨safeItems_iff.mp h.safeNumbers x hx, encodableItems_iff.mp h.encodableStrings x hx⟩
  · intro h
    exact ⟨safeItems_iff.mpr fun x hx => (h x hx).safeNumbers,
      encodableItems_iff.mpr fun x hx => (h x hx).encodableStrings⟩

/-- A list of strings is canonical when each can be encoded. -/
theorem canonical_list_str_iff {xs : List PyVal} (h : ∀ x ∈ xs, ∃ s, x = .str s) :
    (PyVal.list xs).Canonical ↔ ∀ x ∈ xs, x.EncodableStrings := by
  rw [canonical_list_iff]
  exact forall₂_congr fun x hx => canonical_iff_of_str (h x hx)

end PyVal

/-! ## Safe numbers -/

namespace PyNum

/-- An integer in the safe range or a finite float. -/
def Safe : PyNum → Prop
  | .int z => minSafeInteger ≤ z ∧ z ≤ maxSafeInteger
  | .float x => x.isFinite

/-- A safe number is a finite double of the same value. -/
theorem Safe.toBinary64 {n : PyNum} (h : n.Safe) :
    ∃ x, n.toBinary64 = .ok x ∧ x.isFinite = true ∧ x.ext = n.ext := by
  cases n with
  | int z =>
    have hz : |z| < 2 ^ 53 := by
      simp only [Safe, minSafeInteger, maxSafeInteger] at h
      exact abs_lt.mpr ⟨by omega, by omega⟩
    have hround := Binary64.round_of_representable (Representable.intCast hz)
    exact ⟨_, toBinary64_int hround, rfl, rfl⟩
  | float x => exact ⟨x, rfl, h, rfl⟩

/-- Safe numbers can be added, and the sum is not a NaN. -/
theorem Safe.add {a b : PyNum} (ha : a.Safe) (hb : b.Safe) :
    ∃ n, a.add b = .ok n ∧ n.ext.isSome = true := by
  obtain ⟨x, hx, hxf, -⟩ := ha.toBinary64
  obtain ⟨y, hy, hyf, -⟩ := hb.toBinary64
  have hsum : (PyNum.float (x.add y)).ext.isSome = true := Binary64.isSome_ext_add hxf hyf
  by_cases hint : ∃ m n, a = .int m ∧ b = .int n
  · obtain ⟨m, n, rfl, rfl⟩ := hint
    exact ⟨.int (m + n), rfl, rfl⟩
  · exact ⟨_, add_eq_float hx hy hint, hsum⟩

/-- Adding a zero to a safe number keeps its value. -/
theorem Safe.add_zero {a b : PyNum} (ha : a.Safe) (hb : b.Safe) (hzero : b.ext = ext (.int 0)) :
    ∃ n, a.add b = .ok n ∧ n.ext = a.ext := by
  obtain ⟨x, hx, hxf, hxext⟩ := ha.toBinary64
  obtain ⟨y, hy, -, hyext⟩ := hb.toBinary64
  by_cases hint : ∃ m n, a = .int m ∧ b = .int n
  · obtain ⟨m, n, rfl, rfl⟩ := hint
    obtain rfl : n = 0 := by
      simpa [ext] using hzero
    exact ⟨.int (m + 0), rfl, by rw [Int.add_zero]⟩
  · have hyzero : y.toRat? = some 0 :=
      Binary64.toRat?_eq_some_iff_ext.mpr (by rw [hyext, hzero]; rfl)
    exact ⟨_, add_eq_float hx hy hint, (Binary64.ext_add_zero hxf hyzero).trans hxext⟩

end PyNum

/-- A number as a value is canonical when it is safe. -/
theorem PyVal.canonical_toVal {n : PyNum} : n.toVal.Canonical ↔ n.Safe := by
  cases n with
  | int z => exact PyVal.canonical_int
  | float x => exact PyVal.canonical_float

/-- The numbers in a value with safe numbers. -/
theorem PyVal.SafeNumbers.safe {v : PyVal} {n : PyNum} (h : v.SafeNumbers) (hn : v.num? = some n) :
    n.Safe := by
  cases v with
  | bool b =>
    cases hn
    cases b <;> exact ⟨by decide, by decide⟩
  | int z => cases hn; exact h
  | float x => cases hn; exact h
  | _ => cases hn

/-! ## Canonical JSON -/

namespace Externals

variable (X : Externals)

/-- `canonical_json(v)` -/
def canonicalJson (v : PyVal) : Except PyExc Bytes := do
  validateSafeIntegers v
  X.jcs v

/-- The bytes that `compute_hash` digests. -/
def hashInput : PyVal → Except PyExc Bytes
  | .bytes b => .ok b
  | .str s => s.encode
  | v => X.canonicalJson v

/-- `compute_hash(v)` -/
def computeHash (v : PyVal) : Except PyExc Text := do
  let raw ← X.hashInput v
  return Text.hex (X.sha256 raw)

/-- `jcs` accepts a JSON value with safe numbers exactly when its strings have a UTF-8 encoding. -/
def JcsAccepts : Prop :=
  ∀ v : PyVal, v.IsJson → v.SafeNumbers → ((∃ b, X.jcs v = .ok b) ↔ v.EncodableStrings)

variable {X}

/-- A JSON value has a canonical form exactly when its numbers are safe and its strings can be
encoded. -/
theorem canonicalJson_isOk_iff (hjcs : X.JcsAccepts) {v : PyVal} (hv : v.IsJson) :
    (∃ b, X.canonicalJson v = .ok b) ↔ v.Canonical := by
  simp only [canonicalJson, Except.bind_eq_ok_iff]
  constructor
  · rintro ⟨b, ⟨⟩, hvalid, hb⟩
    have hsafe := (validateSafeIntegers_eq_ok_iff v).mp hvalid
    exact ⟨hsafe, (hjcs v hv hsafe).mp ⟨b, hb⟩⟩
  · rintro ⟨hsafe, hstrings⟩
    obtain ⟨b, hb⟩ := (hjcs v hv hsafe).mpr hstrings
    exact ⟨b, (), (validateSafeIntegers_eq_ok_iff v).mpr hsafe, hb⟩

/-- Of a JSON value that is not a string, the canonical form is digested. -/
theorem hashInput_of_ne_str {v : PyVal} (hv : v.IsJson) (hne : ∀ t, v ≠ .str t) :
    X.hashInput v = X.canonicalJson v := by
  cases hv with
  | str s => exact absurd rfl (hne s)
  | _ => rfl

/-- A JSON value has a hash exactly when its numbers are safe and its strings can be encoded. -/
theorem computeHash_isOk_iff (hjcs : X.JcsAccepts) {v : PyVal} (hv : v.IsJson) :
    (∃ t, X.computeHash v = .ok t) ↔ v.Canonical := by
  have hinput : (∃ t, X.computeHash v = .ok t) ↔ ∃ b, X.hashInput v = .ok b := by
    simp only [computeHash, Except.bind_eq_ok_iff, pure, Except.pure, Except.ok.injEq]
    constructor
    · rintro ⟨_, b, hb, -⟩
      exact ⟨b, hb⟩
    · rintro ⟨b, hb⟩
      exact ⟨_, b, hb, rfl⟩
  -- a string is hashed as it is, any other value in its canonical form
  rw [hinput]
  cases hv with
  | str s => simp [Externals.hashInput, Text.encode_isOk_iff]
  | none => exact canonicalJson_isOk_iff hjcs .none
  | bool b => exact canonicalJson_isOk_iff hjcs (.bool b)
  | int z => exact canonicalJson_isOk_iff hjcs (.int z)
  | float x => exact canonicalJson_isOk_iff hjcs (.float x)
  | list h => exact canonicalJson_isOk_iff hjcs (.list h)
  | dict hkeys hnodup h => exact canonicalJson_isOk_iff hjcs (.dict hkeys hnodup h)

/-- A hash has 64 hexadecimal digits. -/
theorem computeHash_eq_ok {v : PyVal} {t : Text} (h : X.computeHash v = .ok t) :
    t.length = 64 ∧ t.IsAscii := by
  simp only [computeHash, Except.bind_eq_ok_iff, pure, Except.pure, Except.ok.injEq] at h
  obtain ⟨raw, -, rfl⟩ := h
  exact ⟨by rw [Text.length_hex, X.length_sha256], Text.hex_isAscii _⟩

end Externals

/-- The concrete parameters accept as much as they should. -/
theorem SignatureRecord.jcsAccepts (r : SignatureRecord) : r.externals.JcsAccepts :=
  fun _ hv hsafe => Jcs.canonicalize_isOk_iff hv hsafe.finiteFloats

/-- Hashes do not depend on the recorded signature. -/
theorem SignatureRecord.computeHash_externals (r s : SignatureRecord) (v : PyVal) :
    r.externals.computeHash v = s.externals.computeHash v := rfl
