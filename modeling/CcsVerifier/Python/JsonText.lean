import CcsVerifier.Python.Dict
import CcsVerifier.Python.Json

/-!
# `json.loads`

The JSON grammar as Python's `json` module reads it, in two steps: `scan` turns a text into its
syntax tree, which keeps the members of an object as written, repeated keys included, and
`JsonDoc.load` builds the Python value, handing the members of every object to an
`object_pairs_hook`.

* `number?_floatRepr`: a finite double is read back from its `repr`.
* `floatRepr_injective`: different doubles have different spellings.
-/

/-- The syntax tree of a JSON text. An object keeps its members in the order of the text. -/
inductive JsonDoc where
  | null
  | bool (b : Bool)
  | num (n : PyNum)
  | str (s : Text)
  | arr (xs : List JsonDoc)
  | obj (members : List (Text × JsonDoc))

/-! ## Scanning -/

namespace JsonScan

/-- Drop JSON white space. -/
def skipSpace (t : Text) : Text :=
  t.dropWhile fun c => c.val = 0x20 || c.val = 0x09 || c.val = 0x0a || c.val = 0x0d

/-- The rest of `t` after the literal `lit`. -/
def literal? (lit t : Text) : Option Text :=
  if lit.isPrefixOf t then some (t.drop lit.length) else none

/-- The value of a hexadecimal digit. -/
def hexValue? (c : CodePoint) : Option ℕ :=
  if 0x30 ≤ c.val ∧ c.val ≤ 0x39 then some (c.val - 0x30)
  else if 0x41 ≤ c.val ∧ c.val ≤ 0x46 then some (c.val - 0x37)
  else if 0x61 ≤ c.val ∧ c.val ≤ 0x66 then some (c.val - 0x57)
  else none

/-- Four hexadecimal digits, as a 16-bit code unit. -/
def codeUnit? : Text → Option (ℕ × Text)
  | a :: b :: c :: d :: rest => do
      let w ← hexValue? a
      let x ← hexValue? b
      let y ← hexValue? c
      let z ← hexValue? d
      return (w * 4096 + x * 256 + y * 16 + z, rest)
  | _ => none

/-- The rest of an escape `\uXXXX`: a high surrogate joins a low one that follows it, any other
code unit is a code point by itself. -/
def unicodeEscape? (t : Text) : Option (CodePoint × Text) := do
  let (high, rest) ← codeUnit? t
  if 0xd800 ≤ high ∧ high ≤ 0xdbff then
    match literal? (text "\\u") rest with
    | none => return (Fin.ofNat _ high, rest)
    | some rest' =>
      let (low, rest'') ← codeUnit? rest'
      if 0xdc00 ≤ low ∧ low ≤ 0xdfff then
        return (Fin.ofNat _ (0x10000 + (high - 0xd800) * 0x400 + (low - 0xdc00)), rest'')
      else return (Fin.ofNat _ high, rest)
  else return (Fin.ofNat _ high, rest)

/-- The code point of a one-letter escape. -/
def shortEscape? (c : CodePoint) : Option CodePoint :=
  if c.val = 0x22 ∨ c.val = 0x5c ∨ c.val = 0x2f then some c
  else if c.val = 0x62 then some 0x08
  else if c.val = 0x66 then some 0x0c
  else if c.val = 0x6e then some 0x0a
  else if c.val = 0x72 then some 0x0d
  else if c.val = 0x74 then some 0x09
  else none

/-- The rest of a string literal after its opening quote; control characters are refused. -/
def stringTail? : ℕ → Text → Option (Text × Text)
  | 0, _ => none
  | _, [] => none
  | fuel + 1, c :: t =>
    if c.val = 0x22 then some ([], t)
    else if c.val = 0x5c then
      match t with
      | [] => none
      | e :: t' => do
          let (d, rest) ← if e.val = 0x75 then unicodeEscape? t'
            else (shortEscape? e).map (·, t')
          let (s, rest) ← stringTail? fuel rest
          return (d :: s, rest)
    else if c.val < 0x20 then none
    else do
      let (s, rest) ← stringTail? fuel t
      return (c :: s, rest)

/-- Whether a code point is a decimal digit. -/
def isDigit (c : CodePoint) : Bool := 0x30 ≤ c.val && c.val ≤ 0x39

/-- The number that a list of decimal digits spells. -/
def digitsValue (ds : Text) : ℕ := ds.foldl (fun n c => n * 10 + (c.val - 0x30)) 0

/-- A non-empty run of digits. -/
def digits? (t : Text) : Option (Text × Text) :=
  match t.takeWhile isDigit with
  | [] => none
  | ds => some (ds, t.drop ds.length)

/-- The integer part: `0`, or digits that do not start with `0`. -/
def intPart? (t : Text) : Option (Text × Text) :=
  match t with
  | c :: rest => if c.val = 0x30 then some ([c], rest) else digits? t
  | [] => none

/-- The optional fraction of a number. -/
def fraction (t : Text) : Option Text × Text :=
  match t with
  | c :: rest =>
    if c.val = 0x2e then
      match digits? rest with
      | some (ds, rest') => (some ds, rest')
      | none => (none, t)
    else (none, t)
  | [] => (none, t)

/-- The optional sign of an exponent: whether it is a minus. -/
def exponentSign (t : Text) : Bool × Text :=
  match t with
  | s :: rest =>
    if s.val = 0x2d then (true, rest) else if s.val = 0x2b then (false, rest) else (false, t)
  | [] => (false, t)

/-- The optional exponent of a number. -/
def exponent (t : Text) : Option ℤ × Text :=
  match t with
  | c :: rest =>
    if c.val = 0x65 ∨ c.val = 0x45 then
      let (neg, rest') := exponentSign rest
      match digits? rest' with
      | some (ds, rest'') =>
        (some (if neg then -(digitsValue ds : ℤ) else digitsValue ds), rest'')
      | none => (none, t)
    else (none, t)
  | [] => (none, t)

/-- The double nearest to a decimal. A negative zero keeps its sign, and so does a negative decimal
that is too small for a double. -/
def decimalFloat (neg : Bool) (significand : ℕ) (exp : ℤ) : Binary64 :=
  if significand = 0 then if neg then .negZero else Binary64.zero
  else
    let q : ℚ := significand * 10 ^ exp
    let x := Binary64.round (if neg then -q else q)
    if neg && x = Binary64.zero then .negZero else x

/-- The optional minus sign of a number. -/
def numberSign (t : Text) : Bool × Text :=
  match t with
  | c :: rest => if c.val = 0x2d then (true, rest) else (false, t)
  | [] => (false, t)

/-- A number: an integer unless it has a fraction or an exponent. -/
def number? (t : Text) : Option (PyNum × Text) := do
  let (neg, t') := numberSign t
  let (whole, rest) ← intPart? t'
  let (frac, rest) := fraction rest
  let (exp, rest) := exponent rest
  match frac, exp with
  | none, none =>
    return (.int (if neg then -(digitsValue whole : ℤ) else digitsValue whole), rest)
  | _, _ =>
    let ds := frac.getD []
    return (.float (decimalFloat neg (digitsValue (whole ++ ds)) (exp.getD 0 - ds.length)), rest)

mutual

/-- A JSON value at the start of `t`; `fuel` bounds the nesting and the length. -/
def value? : ℕ → Text → Option (JsonDoc × Text)
  | 0, _ => none
  | _, [] => none
  | fuel + 1, c :: t =>
    if c.val = 0x22 then (stringTail? (t.length + 1) t).map fun r => (.str r.1, r.2)
    else if c.val = 0x7b then
      match skipSpace t with
      | [] => none
      | d :: rest =>
        if d.val = 0x7d then some (.obj [], rest)
        else (members? fuel (d :: rest)).map fun r => (.obj r.1, r.2)
    else if c.val = 0x5b then
      match skipSpace t with
      | [] => none
      | d :: rest =>
        if d.val = 0x5d then some (.arr [], rest)
        else (items? fuel (d :: rest)).map fun r => (.arr r.1, r.2)
    else
      match literal? (text "null") (c :: t), literal? (text "true") (c :: t),
        literal? (text "false") (c :: t), literal? (text "NaN") (c :: t),
        literal? (text "Infinity") (c :: t), literal? (text "-Infinity") (c :: t) with
      | some rest, _, _, _, _, _ => some (.null, rest)
      | _, some rest, _, _, _, _ => some (.bool true, rest)
      | _, _, some rest, _, _, _ => some (.bool false, rest)
      | _, _, _, some rest, _, _ => some (.num (.float .nan), rest)
      | _, _, _, _, some rest, _ => some (.num (.float (.inf false)), rest)
      | _, _, _, _, _, some rest => some (.num (.float (.inf true)), rest)
      | _, _, _, _, _, _ => (number? (c :: t)).map fun r => (.num r.1, r.2)

/-- The items of an array up to its closing bracket. -/
def items? : ℕ → Text → Option (List JsonDoc × Text)
  | 0, _ => none
  | fuel + 1, t => do
      let (x, rest) ← value? fuel t
      match skipSpace rest with
      | [] => none
      | c :: rest' =>
        if c.val = 0x5d then return ([x], rest')
        else if c.val = 0x2c then
          let (xs, rest'') ← items? fuel (skipSpace rest')
          return (x :: xs, rest'')
        else none

/-- The members of an object up to its closing brace. -/
def members? : ℕ → Text → Option (List (Text × JsonDoc) × Text)
  | 0, _ => none
  | _, [] => none
  | fuel + 1, q :: t =>
    if q.val ≠ 0x22 then none
    else do
      let (key, rest) ← stringTail? (t.length + 1) t
      match skipSpace rest with
      | [] => none
      | colon :: rest' =>
        if colon.val ≠ 0x3a then none
        else do
          let (x, rest) ← value? fuel (skipSpace rest')
          match skipSpace rest with
          | [] => none
          | c :: rest' =>
            if c.val = 0x7d then return ([(key, x)], rest')
            else if c.val = 0x2c then
              let (ms, rest'') ← members? fuel (skipSpace rest')
              return ((key, x) :: ms, rest'')
            else none

end

/-- The syntax tree of a whole text. -/
def scan (t : Text) : Option JsonDoc := do
  let (doc, rest) ← value? (2 * t.length + 2) (skipSpace t)
  if skipSpace rest = [] then some doc else none

end JsonScan

/-! ## Building the value -/

namespace JsonDoc

section Load

variable (hook : List (Text × PyVal) → Except PyExc PyVal)

mutual

/-- The value of a syntax tree; the hook makes the value of an object from its members, whose
values it finds built. -/
def load : JsonDoc → Except PyExc PyVal
  | .null => .ok .none
  | .bool b => .ok (.bool b)
  | .num n => .ok n.toVal
  | .str s => .ok (.str s)
  | .arr xs => do
      let vs ← loadItems xs
      return .list vs
  | .obj ms => do
      let pairs ← loadMembers ms
      hook pairs

/-- The values of the items of an array. -/
def loadItems : List JsonDoc → Except PyExc (List PyVal)
  | [] => .ok []
  | x :: xs => do
      let v ← load x
      let vs ← loadItems xs
      return v :: vs

/-- The members of an object with their values. -/
def loadMembers : List (Text × JsonDoc) → Except PyExc (List (Text × PyVal))
  | [] => .ok []
  | (k, x) :: rest => do
      let v ← load x
      let ms ← loadMembers rest
      return (k, v) :: ms

end

end Load

end JsonDoc

/-- `json.loads(s, object_pairs_hook=hook)`. -/
def loadsWith (hook : List (Text × PyVal) → Except PyExc PyVal) (s : Text) : Except PyExc PyVal :=
  match JsonScan.scan s with
  | none => .error ⟨.jsonDecodeError, text "Expecting value"⟩
  | some doc => doc.load hook

/-- `json.loads(s)`. -/
def loads (s : Text) : Except PyExc PyVal :=
  loadsWith (fun pairs => .ok (PyVal.ofMembers (Dict.ofPairs pairs))) s

/-! ## Numbers read back -/

namespace JsonScan

@[simp]
theorem isDigit_iff {c : CodePoint} : isDigit c = true ↔ IsDigitChar c := by
  simp [isDigit, IsDigitChar]

/-- The text does not start with a digit. -/
def NoDigit (t : Text) : Prop := ∀ c ∈ t.head?, ¬IsDigitChar c

/-- The text does not start with a character that would continue a number. -/
def Delimited (t : Text) : Prop :=
  ∀ c ∈ t.head?, ¬IsDigitChar c ∧ c.val ≠ 0x2e ∧ c.val ≠ 0x65 ∧ c.val ≠ 0x45

theorem Delimited.noDigit {t : Text} (h : Delimited t) : NoDigit t := fun c hc => (h c hc).1

/-- Digits are read up to the first other character. -/
theorem digits?_append {ds rest : Text} (hds : ∀ c ∈ ds, IsDigitChar c) (hne : ds ≠ [])
    (hrest : NoDigit rest) : digits? (ds ++ rest) = some (ds, rest) := by
  -- the digits end where the rest begins
  have htake : (ds ++ rest).takeWhile isDigit = ds := by
    rw [List.takeWhile_append_of_pos fun c hc => isDigit_iff.mpr (hds c hc)]
    cases rest with
    | nil => simp
    | cons c rest =>
      have hc : isDigit c = false := by
        rw [← Bool.not_eq_true, isDigit_iff]
        exact hrest c rfl
      simp [hc]
  unfold digits?
  rw [htake]
  cases ds with
  | nil => exact absurd rfl hne
  | cons c ds => simp

/-- One more digit. -/
theorem digitsValue_append_singleton (ds : Text) (c : CodePoint) :
    digitsValue (ds ++ [c]) = digitsValue ds * 10 + (c.val - 0x30) := by
  simp [digitsValue]

/-- The value of digits that are joined. -/
theorem digitsValue_append (a b : Text) :
    digitsValue (a ++ b) = digitsValue a * 10 ^ b.length + digitsValue b := by
  induction b using List.reverseRecOn with
  | nil => simp [digitsValue]
  | append_singleton b c ih =>
    rw [← List.append_assoc, digitsValue_append_singleton, digitsValue_append_singleton, ih,
      List.length_append, List.length_singleton]
    ring

/-- Zeros have no value. -/
theorem digitsValue_zeros (k : ℕ) : digitsValue (List.replicate k (digitChar 0)) = 0 := by
  induction k with
  | zero => rfl
  | succ k ih =>
    rw [List.replicate_succ', digitsValue_append_singleton, ih, val_digitChar (by norm_num)]

/-- The digits of an expansion have its value. -/
private theorem digitsValue_digitChars {ds : List ℕ} (h : ∀ d ∈ ds, d < 10) :
    digitsValue (ds.reverse.map digitChar) = Nat.ofDigits 10 ds := by
  induction ds with
  | nil => rfl
  | cons d ds ih =>
    rw [List.reverse_cons, List.map_append, List.map_singleton, digitsValue_append_singleton,
      ih fun x hx => h x (by simp [hx]), val_digitChar (h d (by simp)), Nat.ofDigits_cons]
    omega

/-- The significant digits of a number have its value. -/
@[simp]
theorem digitsValue_significantDigits (n : ℕ) : digitsValue (significantDigits n) = n := by
  rw [significantDigits, digitsValue_digitChars fun d => Nat.digits_lt_base (by norm_num),
    Nat.ofDigits_digits]

/-- So has its decimal text. -/
@[simp]
theorem digitsValue_decimal (n : ℕ) : digitsValue (decimal n) = n := by
  unfold decimal
  split
  · next h => rw [h]; rfl
  · exact digitsValue_significantDigits n

/-- The first digit of a positive number is not zero. -/
theorem head?_significantDigits {n : ℕ} (h : n ≠ 0) :
    ∃ c, (significantDigits n).head? = some c ∧ c.val ≠ 0x30 := by
  have hne : Nat.digits 10 n ≠ [] := Nat.digits_ne_nil_iff_ne_zero.mpr h
  refine ⟨digitChar ((Nat.digits 10 n).getLast hne), ?_, ?_⟩
  · rw [significantDigits, List.head?_map, List.head?_reverse, List.getLast?_eq_some_getLast hne]
    rfl
  · have hlt := Nat.digits_lt_base (by norm_num : 1 < 10) (List.getLast_mem hne)
    have hnz := Nat.getLast_digit_ne_zero 10 h
    rw [val_digitChar hlt]
    omega

/-- An integer part that does not start with a zero. -/
theorem intPart?_append {ds rest : Text} (hds : ∀ c ∈ ds, IsDigitChar c)
    (hhead : ∃ c, ds.head? = some c ∧ c.val ≠ 0x30) (hrest : NoDigit rest) :
    intPart? (ds ++ rest) = some (ds, rest) := by
  obtain ⟨c, hc, hnz⟩ := hhead
  cases ds with
  | nil => cases hc
  | cons d ds =>
    cases hc
    rw [List.cons_append, intPart?, if_neg hnz, ← List.cons_append,
      digits?_append hds (by simp) hrest]

theorem intPart?_zero (rest : Text) :
    intPart? (digitChar 0 :: rest) = some ([digitChar 0], rest) := by
  rw [intPart?, if_pos (val_digitChar (by norm_num))]

/-- A fraction is a point with digits. -/
theorem fraction_dot {ds rest : Text} (hds : ∀ c ∈ ds, IsDigitChar c) (hne : ds ≠ [])
    (hrest : NoDigit rest) : fraction (text "." ++ ds ++ rest) = (some ds, rest) := by
  change fraction (Fin.ofNat _ 0x2e :: (ds ++ rest)) = _
  rw [fraction, if_pos (by decide), digits?_append hds hne hrest]

theorem fraction_dot_zero {rest : Text} (hrest : NoDigit rest) :
    fraction (text ".0" ++ rest) = (some [digitChar 0], rest) := by
  have hdigits : ∀ c ∈ [digitChar 0], IsDigitChar c := by simp [isDigitChar_digitChar]
  exact fraction_dot hdigits (List.cons_ne_nil _ _) hrest

/-- Without a point there is no fraction. -/
theorem fraction_none {t : Text} (h : ∀ c ∈ t.head?, c.val ≠ 0x2e) : fraction t = (none, t) := by
  cases t with
  | nil => rfl
  | cons c t => rw [fraction, if_neg (h c rfl)]

theorem noDigit_point (t : Text) : NoDigit (text "." ++ t) := by
  intro c hc
  cases hc
  unfold IsDigitChar
  decide

/-- Without an `e` there is no exponent. -/
theorem exponent_none {t : Text} (h : Delimited t) : exponent t = (none, t) := by
  cases t with
  | nil => rfl
  | cons c t =>
    obtain ⟨-, -, hlower, hupper⟩ := h c rfl
    simp only [exponent]
    rw [if_neg (by omega)]

/-- An exponent is an `e` with a sign and digits. -/
theorem exponent_some {neg : Bool} {ds rest : Text} (hds : ∀ c ∈ ds, IsDigitChar c) (hne : ds ≠ [])
    (hrest : NoDigit rest) :
    exponent (text (if neg then "e-" else "e+") ++ ds ++ rest) =
      (some (if neg then -(digitsValue ds : ℤ) else digitsValue ds), rest) := by
  have hsplit : ∃ e s, text (if neg then "e-" else "e+") = [e, s] ∧ (e.val = 0x65 ∨ e.val = 0x45) ∧
      ∀ t, exponentSign (s :: t) = (neg, t) := by
    cases neg
    · exact ⟨_, _, rfl, Or.inl rfl, fun _ => rfl⟩
    · exact ⟨_, _, rfl, Or.inl rfl, fun _ => rfl⟩
  obtain ⟨e, s, htext, he, hs⟩ := hsplit
  rw [htext]
  simp only [List.cons_append, List.nil_append, exponent, he, ↓reduceIte, hs,
    digits?_append hds hne hrest]

/-- The sign of a number is read first. -/
theorem numberSign_append {neg : Bool} {t : Text} (h : ∀ c ∈ t.head?, c.val ≠ 0x2d) :
    numberSign ((if neg then text "-" else []) ++ t) = (neg, t) := by
  cases neg
  · cases t with
    | nil => rfl
    | cons c t =>
      have hc := h c rfl
      simp [numberSign, hc]
  · rfl

/-- A number is its sign, its integer part and the two optional parts after it. -/
theorem number?_of_parts (neg : Bool) {t whole rest₁ rest₂ rest : Text} {frac : Option Text}
    {exp : Option ℤ} (hwhole : intPart? t = some (whole, rest₁))
    (hfrac : fraction rest₁ = (frac, rest₂)) (hexp : exponent rest₂ = (exp, rest))
    (hfloat : frac.isSome ∨ exp.isSome) :
    number? ((if neg then text "-" else []) ++ t) =
      some (.float (decimalFloat neg (digitsValue (whole ++ frac.getD []))
        (exp.getD 0 - (frac.getD []).length)), rest) := by
  have hminus : ∀ c ∈ t.head?, c.val ≠ 0x2d := by
    -- an integer part starts with a digit
    rintro c hc hval
    cases t with
    | nil => cases hc
    | cons d t =>
      cases hc
      rw [intPart?, if_neg (by omega), digits?, List.takeWhile_cons_of_neg] at hwhole
      · cases hwhole
      · simp [IsDigitChar, hval]
  unfold number?
  simp only [numberSign_append hminus, Option.bind_eq_bind, hwhole, Option.bind_some, hfrac, hexp]
  rcases frac with _ | ds <;> rcases exp with _ | e
  · simp at hfloat
  all_goals rfl

/-- `t` in front of `rest` is read as an unsigned float with exact value `q`. -/
def SpellsFloat (t rest : Text) (q : ℚ) : Prop :=
  ∃ whole frac exp rest₁ rest₂, intPart? (t ++ rest) = some (whole, rest₁) ∧
    fraction rest₁ = (frac, rest₂) ∧ exponent rest₂ = (exp, rest) ∧
    (frac.isSome ∨ exp.isSome) ∧
    (digitsValue (whole ++ frac.getD []) : ℚ) * 10 ^ (exp.getD 0 - (frac.getD []).length : ℤ) = q

section Layout

variable {ds rest : Text}

/-- Digits with zeros appended and an empty fraction. -/
private theorem spellsFloat_zeros (k : ℕ) (hds : ∀ c ∈ ds, IsDigitChar c)
    (hhead : ∃ c, ds.head? = some c ∧ c.val ≠ 0x30) (hrest : Delimited rest) :
    SpellsFloat (ds ++ List.replicate k (digitChar 0) ++ text ".0") rest
      (digitsValue ds * 10 ^ (k : ℤ)) := by
  obtain ⟨c, hc, hnz⟩ := hhead
  have hdigits : ∀ c ∈ ds ++ List.replicate k (digitChar 0), IsDigitChar c := by
    intro c hc
    rcases List.mem_append.mp hc with hc | hc
    · exact hds c hc
    · exact List.eq_of_mem_replicate hc ▸ isDigitChar_digitChar (by norm_num)
  refine ⟨ds ++ List.replicate k (digitChar 0), some [digitChar 0], none,
    text ".0" ++ rest, rest, ?_, ?_, exponent_none hrest, Or.inl rfl, ?_⟩
  · rw [List.append_assoc _ (text ".0")]
    refine intPart?_append hdigits ⟨c, ?_, hnz⟩ ?_
    · rw [List.head?_append, hc]
      rfl
    · intro c hc
      cases hc
      unfold IsDigitChar
      decide
  · exact fraction_dot_zero hrest.noDigit
  · -- the point shifts the value by one digit, which is a zero
    rw [Option.getD_some, digitsValue_append_singleton, digitsValue_append, digitsValue_zeros,
      val_digitChar (by norm_num)]
    simp only [List.length_replicate, Option.getD_none, List.length_singleton]
    push_cast
    rw [zpow_neg_one, zpow_natCast]
    ring

/-- Digits with a point among them. -/
theorem spellsFloat_split {n : ℕ} (hn : 0 < n) (hlt : n < ds.length)
    (hds : ∀ c ∈ ds, IsDigitChar c) (hhead : ∃ c, ds.head? = some c ∧ c.val ≠ 0x30)
    (hrest : Delimited rest) :
    SpellsFloat (ds.take n ++ text "." ++ ds.drop n) rest
      (digitsValue ds * 10 ^ ((n : ℤ) - ds.length)) := by
  refine ⟨ds.take n, some (ds.drop n), none, text "." ++ ds.drop n ++ rest, rest, ?_,
    fraction_dot (fun c hc => hds c (List.mem_of_mem_drop hc)) ?_ hrest.noDigit,
    exponent_none hrest, Or.inl rfl, ?_⟩
  · rw [List.append_assoc, List.append_assoc, ← List.append_assoc (text ".")]
    refine intPart?_append (fun c hc => hds c (List.mem_of_mem_take hc)) ?_ (noDigit_point _)
    rwa [List.head?_take, if_neg hn.ne']
  · simpa using hlt
  · rw [Option.getD_some, List.take_append_drop, List.length_drop, Option.getD_none]
    congr 2
    omega

/-- A point, zeros and digits after an integer part of zero. -/
theorem spellsFloat_small (k : ℕ) (hne : ds ≠ []) (hds : ∀ c ∈ ds, IsDigitChar c)
    (hrest : Delimited rest) :
    SpellsFloat (text "0." ++ List.replicate k (digitChar 0) ++ ds) rest
      (digitsValue ds * 10 ^ (-(k : ℤ) - ds.length)) := by
  refine ⟨[digitChar 0], some (List.replicate k (digitChar 0) ++ ds), none,
    text "." ++ (List.replicate k (digitChar 0) ++ ds) ++ rest, rest, ?_,
    fraction_dot ?_ (by simp [hne]) hrest.noDigit, exponent_none hrest, Or.inl rfl, ?_⟩
  · rw [List.append_assoc (text "0.")]
    exact intPart?_zero _
  · intro c hc
    rcases List.mem_append.mp hc with hc | hc
    · exact List.eq_of_mem_replicate hc ▸ isDigitChar_digitChar (by norm_num)
    · exact hds c hc
  -- the zeros before the digits add nothing but places after the point
  · rw [Option.getD_some, ← List.append_assoc, ← List.replicate_one, ← List.replicate_add,
      digitsValue_append, digitsValue_zeros, Option.getD_none, List.length_append,
      List.length_replicate]
    push_cast
    rw [zero_mul, zero_add]
    congr 2
    ring

/-- One digit, the others after a point, and an exponent. -/
theorem spellsFloat_scientific (neg : Bool) {digits : Text} (hdigits : ∀ c ∈ digits, IsDigitChar c)
    (hdigits_ne : digits ≠ []) (hne : ds ≠ []) (hds : ∀ c ∈ ds, IsDigitChar c)
    (hhead : ∃ c, ds.head? = some c ∧ c.val ≠ 0x30) (hrest : Delimited rest) :
    SpellsFloat (ds.take 1 ++ (if ds.length ≤ 1 then [] else text "." ++ ds.drop 1)
        ++ text (if neg then "e-" else "e+") ++ digits) rest
      (digitsValue ds * 10 ^ ((if neg then -(digitsValue digits : ℤ) else digitsValue digits) + 1
        - ds.length)) := by
  set mark := text (if neg then "e-" else "e+") with hmark
  have hmark_noDigit : ∀ t, NoDigit (mark ++ t) := by
    intro t c hc
    rw [hmark] at hc
    cases neg <;> cases hc <;> unfold IsDigitChar <;> decide
  have hexp : exponent (mark ++ digits ++ rest) =
      (some (if neg then -(digitsValue digits : ℤ) else digitsValue digits), rest) :=
    exponent_some hdigits hdigits_ne hrest.noDigit
  have htake : ∀ c ∈ ds.take 1, IsDigitChar c := fun c hc => hds c (List.mem_of_mem_take hc)
  have htake_head : ∃ c, (ds.take 1).head? = some c ∧ c.val ≠ 0x30 := by
    rwa [List.head?_take, if_neg one_ne_zero]
  -- a single digit is written without a point
  split
  · next hshort =>
    have hone : ds.length = 1 := le_antisymm hshort (List.length_pos_iff.mpr hne)
    refine ⟨ds.take 1, none, some (if neg then -(digitsValue digits : ℤ) else digitsValue digits),
      mark ++ digits ++ rest, mark ++ digits ++ rest, ?_, fraction_none ?_, hexp, Or.inr rfl, ?_⟩
    · rw [List.append_nil, List.append_assoc, List.append_assoc, ← List.append_assoc mark]
      refine intPart?_append htake htake_head ?_
      rw [List.append_assoc]
      exact hmark_noDigit _
    · intro c hc
      rw [List.append_assoc, hmark] at hc
      cases neg <;> cases hc <;> decide
    · rw [Option.getD_none, List.append_nil, List.take_of_length_le hshort, hone]
      simp
  · next hlong =>
    have hdrop_ne : ds.drop 1 ≠ [] := by
      rw [Ne, List.drop_eq_nil_iff]
      exact hlong
    refine ⟨ds.take 1, some (ds.drop 1),
      some (if neg then -(digitsValue digits : ℤ) else digitsValue digits),
      text "." ++ ds.drop 1 ++ (mark ++ digits ++ rest), mark ++ digits ++ rest, ?_,
      fraction_dot (fun c hc => hds c (List.mem_of_mem_drop hc)) hdrop_ne ?_, hexp,
      Or.inl rfl, ?_⟩
    · simp only [List.append_assoc]
      exact intPart?_append htake htake_head (noDigit_point _)
    · rw [List.append_assoc]
      exact hmark_noDigit _
    · rw [Option.getD_some, List.take_append_drop, List.length_drop, Option.getD_some]
      congr 2
      omega

/-- An exponent of two digits at least. -/
private theorem padded_spec (n : ℕ) :
    (∀ c ∈ (if n < 10 then [digitChar 0] else []) ++ decimal n, IsDigitChar c) ∧
      (if n < 10 then [digitChar 0] else []) ++ decimal n ≠ [] ∧
      digitsValue ((if n < 10 then [digitChar 0] else []) ++ decimal n) = n := by
  refine ⟨fun c hc => ?_, by simp [decimal_ne_nil], ?_⟩
  · rcases List.mem_append.mp hc with hc | hc
    · split at hc
      · rw [List.mem_singleton.mp hc]
        exact isDigitChar_digitChar (by norm_num)
      · cases hc
    · exact isDigitChar_of_mem_decimal hc
  · split
    · rw [digitsValue_append, digitsValue_decimal]
      exact Nat.add_eq_right.mpr (by rw [show digitsValue [digitChar 0] = 0 from rfl, zero_mul])
    · rw [List.nil_append, digitsValue_decimal]

/-- A laid out float is read back with its exact value. -/
theorem spellsFloat_layoutDigits (point : ℤ) (hds : ∀ c ∈ ds, IsDigitChar c)
    (hhead : ∃ c, ds.head? = some c ∧ c.val ≠ 0x30) (hrest : Delimited rest) :
    SpellsFloat (layoutDigits ds point) rest (digitsValue ds * 10 ^ (point - ds.length)) := by
  have hne : ds ≠ [] := by
    rintro rfl
    obtain ⟨c, hc, -⟩ := hhead
    cases hc
  unfold layoutDigits
  split
  · next hpos =>
    split
    · next hle =>
      have hlayout := spellsFloat_zeros (point - ds.length).toNat hds hhead hrest
      rwa [Int.toNat_of_nonneg (by omega)] at hlayout
    · have hlayout := spellsFloat_split (n := point.toNat) (by omega) (by omega) hds hhead hrest
      rwa [Int.toNat_of_nonneg (by omega)] at hlayout
  · split
    · have hlayout := spellsFloat_small (-point).toNat hne hds hrest
      rwa [Int.toNat_of_nonneg (by omega), neg_neg] at hlayout
    · -- the exponent is padded to two digits
      obtain ⟨hchars, hpad_ne, hvalue⟩ := padded_spec (point - 1).natAbs
      have hlayout := spellsFloat_scientific (decide (point - 1 < 0)) hchars hpad_ne hne hds hhead
        hrest
      rw [hvalue] at hlayout
      have hexp : (if decide (point - 1 < 0) then -((point - 1).natAbs : ℤ)
          else (point - 1).natAbs) + 1 - ds.length = point - ds.length := by
        split <;> simp only [decide_eq_true_eq] at * <;> omega
      rw [hexp] at hlayout
      simpa only [decide_eq_true_eq, List.append_assoc] using hlayout

end Layout

/-- A decimal that rounds to `x` is read as `x`, whatever significand and exponent spell it. -/
private theorem decimalFloat_eq {d : Decimal} {x : FiniteBinary64} {s : ℕ} {k : ℤ}
    (hreads : d.Reads x) (hvalue : (s : ℚ) * 10 ^ k = d.value) (hs : s ≠ 0) (hx : x.val ≠ 0) :
    decimalFloat (decide (x.val < 0)) s k = .fin x := by
  have hround : Binary64.round (if decide (x.val < 0) = true then -d.value else d.value) =
      .fin x := by
    rw [← hreads]
    simp only [decide_eq_true_eq]
  have hne : Binary64.fin x ≠ .zero := fun h =>
    hx (congrArg FiniteBinary64.val (Binary64.fin.inj h))
  rw [decimalFloat, if_neg hs, hvalue]
  simp only [hround, hne, decide_false, Bool.and_false, Bool.false_eq_true, if_false]

/-- The two zeros are read back. -/
private theorem number?_zero (neg : Bool) {rest : Text} (hrest : Delimited rest) :
    number? ((if neg then text "-" else []) ++ (text "0.0" ++ rest)) =
      some (.float (if neg then .negZero else Binary64.zero), rest) := by
  exact number?_of_parts neg (intPart?_zero _) (fraction_dot_zero hrest.noDigit)
    (exponent_none hrest) (Or.inl rfl)

/-- A double is read back from a text that spells its shortest decimal. -/
theorem number?_of_spellsFloat {x : FiniteBinary64} (hx : x.val ≠ 0) {t rest : Text}
    (ht : SpellsFloat t rest (shortestDecimal x).value) :
    number? ((if x.val < 0 then text "-" else []) ++ t ++ rest) = some (.float (.fin x), rest) := by
  obtain ⟨whole, frac, exp, rest₁, rest₂, hwhole, hfrac, hexp, hfloat, hvalue⟩ := ht
  have hparts := number?_of_parts (decide (x.val < 0)) hwhole hfrac hexp hfloat
  have hnonzero : digitsValue (whole ++ frac.getD []) ≠ 0 := by
    intro hzero
    rw [hzero, Nat.cast_zero, zero_mul, Decimal.value, eq_comm, mul_eq_zero] at hvalue
    rcases hvalue with h | h
    · exact significand_shortestDecimal_ne_zero hx (by exact_mod_cast h)
    · exact absurd h (zpow_ne_zero _ (by norm_num))
  rw [decimalFloat_eq (shortestDecimal_reads x) hvalue hnonzero hx] at hparts
  simpa only [decide_eq_true_eq, List.append_assoc] using hparts

/-- A finite double is read back from its `repr`. -/
theorem number?_floatRepr {x : Binary64} {rest : Text} (hx : x.isFinite) (hrest : Delimited rest) :
    number? (floatRepr x ++ rest) = some (.float x, rest) := by
  rcases x with _ | _ | _ | x
  · cases hx
  · cases hx
  · exact number?_zero true hrest
  -- zero is spelled by itself, any other number by its digits and the place of the point
  · change number? (finiteRepr x ++ rest) = _
    unfold finiteRepr
    split
    · next hzero =>
      have hx0 : Binary64.zero = .fin x := by
        rcases x with ⟨v, hv⟩
        subst hzero
        rfl
      rw [← hx0]
      exact number?_zero false hrest
    · next hnz =>
      refine number?_of_spellsFloat hnz ?_
      have hlayout := spellsFloat_layoutDigits
        ((significantDigits (shortestDecimal x).significand).length + (shortestDecimal x).exponent)
        (fun _ => isDigitChar_of_mem_significantDigits)
        (head?_significantDigits (significand_shortestDecimal_ne_zero hnz)) hrest
      rwa [digitsValue_significantDigits, add_sub_cancel_left, ← Decimal.value] at hlayout

end JsonScan

/-- Two doubles with the same `repr` are the same; NaN counts as one value. -/
theorem floatRepr_injective : Function.Injective floatRepr := by
  -- a finite float is read back from its text, the others are told apart by theirs
  have hread : ∀ {x : Binary64}, x.isFinite →
      JsonScan.number? (floatRepr x) = some (.float x, []) := fun {x} hx => by
    have hdelimited : JsonScan.Delimited [] := by simp [JsonScan.Delimited]
    simpa using JsonScan.number?_floatRepr hx hdelimited
  have hnone : ∀ {x : Binary64}, x.isFinite = false → JsonScan.number? (floatRepr x) = none := by
    rintro (_ | (_ | _) | _ | _) hx
    any_goals cases hx
    all_goals decide
  intro x y hxy
  cases hx : x.isFinite <;> cases hy : y.isFinite
  · rcases x with _ | (_ | _) | _ | _ <;> rcases y with _ | (_ | _) | _ | _
    any_goals cases hx
    any_goals cases hy
    all_goals first | rfl | exact absurd hxy (by decide)
  · have := hnone hx
    rw [hxy, hread hy] at this
    cases this
  · have := hread hx
    rw [hxy, hnone hy] at this
    cases this
  · have := hread hx
    rw [hxy, hread hy] at this
    cases this
    rfl
