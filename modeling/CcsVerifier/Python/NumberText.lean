import CcsVerifier.Encoding.Text
import CcsVerifier.Numeric.Binary64

/-!
# Decimal numerals

How Python spells numbers: `str` of an integer and `repr` of a float, which is the shortest
decimal that reads back as the same double.

* `decimal`, `intText`: the digits of an integer.
* `shortestDecimal x`: a decimal that rounds to `x`, found by trying one digit, two digits, ….
* `shortestDecimal_reads`: the search always ends at a decimal that rounds to `x`.
* `floatRepr_chars`: a float is spelled with digits and `. + - e`, or as `inf` or `nan`.
-/

/-! ## Integers -/

/-- The character of a decimal digit. -/
def digitChar (d : ℕ) : CodePoint := Fin.ofNat _ (48 + d)

/-- The decimal digits of a number, most significant first, without leading zeros. -/
def significantDigits (n : ℕ) : Text := (Nat.digits 10 n).reverse.map digitChar

/-- `str(n)` for a natural number. -/
def decimal (n : ℕ) : Text := if n = 0 then [digitChar 0] else significantDigits n

/-- `str(z)` for an integer. -/
def intText (z : ℤ) : Text :=
  if z < 0 then text "-" ++ decimal z.natAbs else decimal z.natAbs

/-- The characters that numerals are made of. -/
def IsDigitChar (c : CodePoint) : Prop := 48 ≤ c.val ∧ c.val ≤ 57

/-- The code points of the digits follow each other. -/
theorem val_digitChar {d : ℕ} (h : d < 10) : (digitChar d).val = 48 + d := by
  simp only [digitChar, Fin.val_ofNat]
  omega

/-- They are digits. -/
theorem isDigitChar_digitChar {d : ℕ} (h : d < 10) : IsDigitChar (digitChar d) := by
  rw [IsDigitChar, val_digitChar h]
  omega

/-- The significant digits are digits. -/
theorem isDigitChar_of_mem_significantDigits {n : ℕ} {c : CodePoint}
    (h : c ∈ significantDigits n) : IsDigitChar c := by
  obtain ⟨d, hd, rfl⟩ := List.mem_map.mp h
  exact isDigitChar_digitChar (Nat.digits_lt_base (by norm_num) (List.mem_reverse.mp hd))

/-- So are those of a decimal number. -/
theorem isDigitChar_of_mem_decimal {n : ℕ} {c : CodePoint} (h : c ∈ decimal n) :
    IsDigitChar c := by
  unfold decimal at h
  split at h
  · rw [List.mem_singleton.mp h]
    exact isDigitChar_digitChar (by norm_num)
  · exact isDigitChar_of_mem_significantDigits h

/-- A number has at least one digit. -/
theorem decimal_ne_nil (n : ℕ) : decimal n ≠ [] := by
  unfold decimal
  split
  · simp
  · next h => simpa [significantDigits, Nat.digits_eq_nil_iff_eq_zero] using h

/-! ## Floats -/

/-- A decimal fraction: a significand and a power of ten. -/
structure Decimal where
  /-- The significand. -/
  significand : ℕ
  /-- The power of ten that scales it. -/
  exponent : ℤ

namespace Decimal

/-- The number a decimal stands for. -/
def value (d : Decimal) : ℚ := d.significand * 10 ^ d.exponent

/-- The decimal without trailing zeros in its significand. -/
def stripZeros (d : Decimal) : Decimal :=
  let zeros := (Nat.digits 10 d.significand).takeWhile (· = 0)
  ⟨d.significand / 10 ^ zeros.length, d.exponent + zeros.length⟩

/-- Whether a decimal, with the sign of `x`, rounds to `x`. -/
def Reads (d : Decimal) (x : FiniteBinary64) : Prop :=
  Binary64.round (if x.val < 0 then -d.value else d.value) = .fin x

instance (d : Decimal) (x : FiniteBinary64) : Decidable (d.Reads x) := by
  unfold Reads
  infer_instance

/-- The exponent of a decimal with `n` significant digits near `q`. -/
def exponentFor (q : ℚ) (n : ℕ) : ℤ := Int.log 10 q + 1 - n

/-- The decimal of `n` digits nearest to `q`. -/
def nearest (q : ℚ) (n : ℕ) : Decimal :=
  ⟨(roundHalfEven (q / 10 ^ exponentFor q n)).toNat, exponentFor q n⟩

/-- The other of the two decimals of `n` digits around `q`. -/
def secondNearest (q : ℚ) (n : ℕ) : Decimal :=
  let y := q / 10 ^ exponentFor q n
  ⟨(if roundHalfEven y = ⌊y⌋ then ⌊y⌋ + 1 else ⌊y⌋).toNat, exponentFor q n⟩

end Decimal

/-- The shortest decimal of at least `n` digits that rounds to `x`; the exact value of `x` has
at most `n + fuel` digits. -/
def shortestFrom (x : FiniteBinary64) : ℕ → ℕ → Decimal
  | 0, n => .nearest |x.val| n
  | fuel + 1, n =>
    if (Decimal.nearest |x.val| n).Reads x then .nearest |x.val| n
    else if (Decimal.secondNearest |x.val| n).Reads x then .secondNearest |x.val| n
    else shortestFrom x fuel (n + 1)

/-- The shortest decimal that rounds to `x`, the nearest one to `x` among these. A double has no
digit beyond `10 ^ (-1074)`. -/
def shortestDecimal (x : FiniteBinary64) : Decimal :=
  (shortestFrom x (Int.log 10 |x.val| + 1075).toNat 1).stripZeros

/-- The layout of `float.__repr__` for a number `0.d₁d₂… * 10 ^ point` with digits `ds`:
positional for `-4 < point ≤ 16`, otherwise scientific. -/
def layoutDigits (ds : Text) (point : ℤ) : Text :=
  if 0 < point ∧ point ≤ 16 then
    if ds.length ≤ point then
      ds ++ List.replicate (point - ds.length).toNat (digitChar 0) ++ text ".0"
    else ds.take point.toNat ++ text "." ++ ds.drop point.toNat
  else if -4 < point ∧ point ≤ 0 then
    text "0." ++ List.replicate (-point).toNat (digitChar 0) ++ ds
  else
    let exp := (point - 1).natAbs
    ds.take 1 ++ (if ds.length ≤ 1 then [] else text "." ++ ds.drop 1)
      ++ text (if point - 1 < 0 then "e-" else "e+")
      ++ (if exp < 10 then [digitChar 0] else []) ++ decimal exp

/-- `repr(x)` of a finite double other than negative zero. -/
def finiteRepr (x : FiniteBinary64) : Text :=
  if x.val = 0 then text "0.0"
  else
    let d := shortestDecimal x
    let ds := significantDigits d.significand
    (if x.val < 0 then text "-" else []) ++ layoutDigits ds (ds.length + d.exponent)

/-- `repr(x)`. -/
def floatRepr : Binary64 → Text
  | .nan => text "nan"
  | .inf false => text "inf"
  | .inf true => text "-inf"
  | .negZero => text "-0.0"
  | .fin x => finiteRepr x

/-! ### The search for the shortest decimal -/

namespace Decimal

/-- Stripping zeros keeps the number. -/
theorem value_stripZeros (d : Decimal) : d.stripZeros.value = d.value := by
  set zeros := (Nat.digits 10 d.significand).takeWhile (· = 0) with hzeros
  have hreplicate : zeros = List.replicate zeros.length 0 :=
    List.eq_replicate_of_mem fun a ha => by simpa using List.mem_takeWhile_imp ha
  have hdigits : Nat.digits 10 d.significand =
      List.replicate zeros.length 0 ++ (Nat.digits 10 d.significand).dropWhile (· = 0) := by
    conv_lhs => rw [← List.takeWhile_append_dropWhile (p := (· = 0))
      (l := Nat.digits 10 d.significand), ← hzeros, hreplicate]
  -- the zeros at the end of a decimal are a power of ten that divides it
  have hdvd : 10 ^ zeros.length ∣ d.significand := by
    rw [← Nat.ofDigits_digits 10 d.significand, hdigits, Nat.ofDigits_append,
      Nat.ofDigits_replicate_zero, List.length_replicate, zero_add]
    exact dvd_mul_right _ _
  have hmul : ((d.significand / 10 ^ zeros.length : ℕ) : ℚ) * 10 ^ zeros.length =
      d.significand := by
    exact_mod_cast Nat.div_mul_cancel hdvd
  calc d.stripZeros.value
      = ((d.significand / 10 ^ zeros.length : ℕ) : ℚ) * 10 ^ (d.exponent + zeros.length) := rfl
    _ = ((d.significand / 10 ^ zeros.length : ℕ) : ℚ) * 10 ^ zeros.length * 10 ^ d.exponent := by
        rw [zpow_add₀ (by norm_num), zpow_natCast]
        ring
    _ = d.value := by rw [hmul, value]

end Decimal

/-- Far enough to the right, the digits of a double are exact. -/
private theorem value_nearest_of_le {x : FiniteBinary64} {n : ℕ}
    (h : Decimal.exponentFor |x.val| n ≤ -1074) : (Decimal.nearest |x.val| n).value = |x.val| := by
  obtain ⟨m, e, -, hlo, -, hval⟩ := x.representable
  generalize hk : Decimal.exponentFor |x.val| n = k at h
  -- the scaled number is an integer
  have hint : |x.val| / 10 ^ k = ((|m| * 2 ^ (e - k).toNat * 5 ^ (-k).toNat : ℤ) : ℚ) := by
    have htwo : (2 : ℚ) ^ (e - k).toNat = 2 ^ (e - k) := by
      rw [← zpow_natCast, Int.toNat_of_nonneg (by omega)]
    have hfive : (5 : ℚ) ^ (-k).toNat = 5 ^ (-k) := by
      rw [← zpow_natCast, Int.toNat_of_nonneg (by omega)]
    push_cast
    rw [htwo, hfive, hval, abs_mul, abs_of_pos (zpow_pos (by norm_num : (0 : ℚ) < 2) e),
      div_eq_mul_inv, ← zpow_neg, show (10 : ℚ) = 2 * 5 by norm_num, mul_zpow,
      sub_eq_add_neg, zpow_add₀ (by norm_num)]
    ring
  have hnonneg : 0 ≤ |m| * 2 ^ (e - k).toNat * 5 ^ (-k).toNat := by positivity
  have hround : roundHalfEven (|x.val| / 10 ^ k) = |m| * 2 ^ (e - k).toNat * 5 ^ (-k).toNat := by
    rw [hint]
    exact le_antisymm (roundHalfEven_le le_rfl) (le_roundHalfEven le_rfl)
  have hpos : (0 : ℚ) < 10 ^ k := zpow_pos (by norm_num) k
  rw [Decimal.value, Decimal.nearest, hk, hround]
  have hcast : (((|m| * 2 ^ (e - k).toNat * 5 ^ (-k).toNat).toNat : ℕ) : ℚ) =
      |x.val| / 10 ^ k := by
    rw [hint]
    exact_mod_cast congrArg (Int.cast (R := ℚ)) (Int.toNat_of_nonneg hnonneg)
  rw [hcast, div_mul_cancel₀ _ hpos.ne']

/-- A decimal of the same magnitude reads as the double. -/
theorem reads_of_value_eq {d : Decimal} {x : FiniteBinary64} (h : d.value = |x.val|) :
    d.Reads x := by
  have hsigned : (if x.val < 0 then -d.value else d.value) = x.val := by
    rw [h]
    split
    · next hneg => rw [abs_of_neg hneg, neg_neg]
    · next hneg => exact abs_of_nonneg (not_lt.mp hneg)
  rw [Decimal.Reads, hsigned, Binary64.round_of_representable x.representable]

/-- The search ends with a decimal that reads as the double. -/
private theorem shortestFrom_reads (x : FiniteBinary64) (fuel n : ℕ)
    (h : Decimal.exponentFor |x.val| (n + fuel) ≤ -1074) : (shortestFrom x fuel n).Reads x := by
  induction fuel generalizing n with
  | zero => exact reads_of_value_eq (value_nearest_of_le h)
  | succ fuel ih =>
    unfold shortestFrom
    split
    · assumption
    · split
      · assumption
      · exact ih (n + 1) (by rwa [Nat.add_assoc, Nat.add_comm 1])

/-- The search for the shortest decimal ends at one that rounds to the double. -/
theorem shortestDecimal_reads (x : FiniteBinary64) : (shortestDecimal x).Reads x := by
  have hfrom := shortestFrom_reads x (Int.log 10 |x.val| + 1075).toNat 1 (by
    unfold Decimal.exponentFor
    omega)
  rwa [Decimal.Reads, shortestDecimal, Decimal.value_stripZeros, ← Decimal.Reads]

/-- The shortest decimal of a nonzero double is not zero. -/
theorem significand_shortestDecimal_ne_zero {x : FiniteBinary64} (hx : x.val ≠ 0) :
    (shortestDecimal x).significand ≠ 0 := by
  intro hzero
  have hreads := shortestDecimal_reads x
  have hvalue : (shortestDecimal x).value = 0 := by simp [Decimal.value, hzero]
  rw [Decimal.Reads, hvalue, neg_zero, ite_self,
    Binary64.round_of_representable Representable.zero] at hreads
  injection hreads with hfin
  exact hx (congrArg FiniteBinary64.val hfin).symm

/-! ### The characters of a float -/

/-- A character that a float may be spelled with. -/
def IsFloatChar (c : CodePoint) : Prop := IsDigitChar c ∨ c ∈ text ".+-einfa"

instance (c : CodePoint) : Decidable (IsFloatChar c) := by
  unfold IsFloatChar IsDigitChar
  infer_instance

/-- A text of characters that a float may be spelled with. -/
def FloatChars (t : Text) : Prop := ∀ c ∈ t, IsFloatChar c

namespace FloatChars

instance (t : Text) : Decidable (FloatChars t) := List.decidableBAll IsFloatChar t

/-- Texts that are joined have such characters when both have. -/
@[simp]
theorem append {s t : Text} : FloatChars (s ++ t) ↔ FloatChars s ∧ FloatChars t := by
  simp [FloatChars, or_imp, forall_and]

@[simp]
theorem nil : FloatChars [] := by simp [FloatChars]

/-- Digits are such characters. -/
theorem of_digits {t : Text} (h : ∀ c ∈ t, IsDigitChar c) : FloatChars t :=
  fun c hc => Or.inl (h c hc)

@[simp]
theorem zeros (k : ℕ) : FloatChars (List.replicate k (digitChar 0)) :=
  of_digits fun _ hc => List.eq_of_mem_replicate hc ▸ isDigitChar_digitChar (by norm_num)

@[simp]
theorem zero : FloatChars [digitChar 0] := zeros 1

end FloatChars

/-- Laying digits out adds only zeros, a point and an exponent. -/
private theorem layoutDigits_chars {ds : Text} {point : ℤ} (h : FloatChars ds) :
    FloatChars (layoutDigits ds point) := by
  have htake : ∀ n, FloatChars (ds.take n) := fun n c hc => h c (List.mem_of_mem_take hc)
  have hdrop : ∀ n, FloatChars (ds.drop n) := fun n c hc => h c (List.mem_of_mem_drop hc)
  have htail : FloatChars ds.tail := fun c hc => h c (List.mem_of_mem_tail hc)
  have hexp : ∀ n, FloatChars (decimal n) := fun n =>
    .of_digits fun _ hc => isDigitChar_of_mem_decimal hc
  have hlit : FloatChars (text ".") ∧ FloatChars (text ".0") ∧ FloatChars (text "0.")
      ∧ FloatChars (text "e-") ∧ FloatChars (text "e+") := by decide
  have hpad : ∀ n : ℕ, FloatChars (if n < 10 then [digitChar 0] else []) := fun n => by
    split <;> simp
  unfold layoutDigits
  split_ifs <;> simp [h, htake, hdrop, htail, hexp, hpad, hlit]

/-- A float is spelled with digits, punctuation and the letters of `inf`, `nan` and `e`. -/
theorem floatRepr_chars (x : Binary64) : FloatChars (floatRepr x) := by
  rcases x with _ | (_ | _) | _ | x
  case fin =>
    change FloatChars (finiteRepr x)
    unfold finiteRepr
    split
    · decide
    · rw [FloatChars.append]
      refine ⟨?_, layoutDigits_chars ?_⟩
      · split <;> decide
      · exact .of_digits fun _ hc => isDigitChar_of_mem_significantDigits hc
  all_goals decide
