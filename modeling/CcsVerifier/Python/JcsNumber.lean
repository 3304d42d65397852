import CcsVerifier.Python.Jcs
import CcsVerifier.Python.JsonRoundTrip

/-!
# Canonical numbers read back

RFC 8785 prints an integral double below `10 ^ 21` without fraction and exponent, so that it is read
back as an integer. Every other double is read back as itself.

* `exponent_shortestDecimal_nonneg`: the shortest decimal of an integral double is an integer.
* `Jcs.exists_number_eq_intText`: the integer that an integral double is printed as.
* `Jcs.number?_number`: any other double is read back.
-/

/-! ## What rounding says of a decimal -/

/-- A number that rounds to a finite double rounds to its value on the grid. -/
theorem Binary64.val_of_round {q : ℚ} {x : FiniteBinary64} (h : round q = .fin x) :
    x.val = roundToGrid q := by
  unfold round at h
  split at h
  · exact (congrArg FiniteBinary64.val (fin.inj h)).symm
  · cases h

namespace Decimal

variable {d : Decimal} {x : FiniteBinary64}

/-- A decimal with digits is positive. -/
theorem value_pos (h : d.significand ≠ 0) : 0 < d.value :=
  mul_pos (by exact_mod_cast Nat.pos_of_ne_zero h) (zpow_pos (by norm_num) _)

/-- Apart from the sign, a decimal is rounded to the double that it is read as. -/
theorem abs_eq_roundToGrid (h : d.Reads x) : |x.val| = roundToGrid d.value := by
  have hround := Binary64.val_of_round h
  split at hround
  · next hneg => rw [abs_of_neg hneg, hround, roundToGrid_neg, neg_neg]
  · next hpos => rw [abs_of_nonneg (not_lt.mp hpos), hround]

/-- A decimal that is at most a double rounds to at most this double. -/
theorem abs_le_of_value_le (h : d.Reads x) {r : ℚ} (hr : Representable r) (hle : d.value ≤ r) :
    |x.val| ≤ r := by
  rw [abs_eq_roundToGrid h]
  exact roundToGrid_le hr hle

/-- A decimal that is at least a double rounds to at least this double. -/
theorem le_abs_of_le_value (h : d.Reads x) {r : ℚ} (hr : Representable r) (hle : r ≤ d.value) :
    r ≤ |x.val| := by
  rw [abs_eq_roundToGrid h]
  exact le_roundToGrid hr hle

/-- A decimal that is a double rounds to it. -/
theorem abs_eq_of_representable (h : d.Reads x) (hd : Representable d.value) : |x.val| = d.value :=
  le_antisymm (abs_le_of_value_le h hd le_rfl) (le_abs_of_le_value h hd le_rfl)

/-- Stripping zeros raises the exponent. -/
theorem exponent_le_stripZeros (d : Decimal) : d.exponent ≤ d.stripZeros.exponent := by
  unfold stripZeros
  dsimp only
  omega

/-- A decimal without digits after the point is a natural number. -/
theorem value_eq_natCast (h : 0 ≤ d.exponent) :
    d.value = (d.significand * 10 ^ d.exponent.toNat : ℕ) := by
  obtain ⟨e, he⟩ := Int.eq_ofNat_of_zero_le h
  rw [value, he, Int.toNat_natCast, zpow_natCast]
  push_cast
  rfl

end Decimal

/-! ## The shortest decimal of an integral double -/

/-- As many digits as an integer has before its point spell it exactly. -/
private theorem reads_nearest_of_integral {x : FiniteBinary64} {z : ℤ} (hx : x.val = z) {n : ℕ}
    (hn : Decimal.exponentFor |x.val| n = 0) : (Decimal.nearest |x.val| n).Reads x := by
  apply reads_of_value_eq
  have habs : |x.val| = ((|z| : ℤ) : ℚ) := by
    rw [hx, Int.cast_abs]
  have hround : roundHalfEven (((|z| : ℤ) : ℚ)) = |z| :=
    le_antisymm (roundHalfEven_le le_rfl) (le_roundHalfEven le_rfl)
  rw [Decimal.value, Decimal.nearest, hn, zpow_zero, div_one, mul_one, habs, hround]
  exact_mod_cast congrArg (Int.cast (R := ℚ)) (Int.toNat_of_nonneg (abs_nonneg z))

/-- The search for the shortest decimal of an integer ends before the point. -/
private theorem exponent_shortestFrom_nonneg {x : FiniteBinary64} {z : ℤ} (hx : x.val = z)
    (fuel n : ℕ) (hn : (n : ℤ) ≤ Int.log 10 |x.val| + 1)
    (hfuel : Int.log 10 |x.val| + 1 ≤ n + fuel) : 0 ≤ (shortestFrom x fuel n).exponent := by
  induction fuel generalizing n with
  | zero =>
    show 0 ≤ Decimal.exponentFor |x.val| n
    unfold Decimal.exponentFor
    omega
  | succ fuel ih =>
    unfold shortestFrom
    split
    · show 0 ≤ Decimal.exponentFor |x.val| n
      unfold Decimal.exponentFor
      omega
    next hfirst =>
    split
    · show 0 ≤ Decimal.exponentFor |x.val| n
      unfold Decimal.exponentFor
      omega
    · refine ih (n + 1) ?_ (by push_cast at hfuel ⊢; omega)
      -- all digits before the point would have been enough
      by_contra hlast
      refine hfirst (reads_nearest_of_integral hx ?_)
      unfold Decimal.exponentFor
      push_cast at hlast
      omega

/-- The shortest decimal of an integral double has no digits after the point. -/
theorem exponent_shortestDecimal_nonneg {x : FiniteBinary64} {z : ℤ} (hx : x.val = z)
    (hz : z ≠ 0) : 0 ≤ (shortestDecimal x).exponent := by
  have hone : (1 : ℚ) ≤ |x.val| := by
    rw [hx, ← Int.cast_abs]
    exact_mod_cast Int.one_le_abs hz
  have hlog : 0 ≤ Int.log 10 |x.val| := by
    have hmono := Int.log_mono_right (b := 10) one_pos hone
    rwa [Int.log_one_right] at hmono
  exact (exponent_shortestFrom_nonneg hx _ 1 (by omega) (by push_cast; omega)).trans
    (Decimal.exponent_le_stripZeros _)

/-! ## Integral doubles -/

theorem representable_twoPow53 : Representable (2 ^ 53) :=
  ⟨2 ^ 52, 1, by norm_num, by norm_num, by norm_num, by norm_num⟩

theorem representable_tenPow21 : Representable (10 ^ 21) :=
  ⟨5 ^ 21, 21, by norm_num, by norm_num, by norm_num, by norm_num⟩

/-- A large double is an integer. -/
theorem FiniteBinary64.exists_int_of_le (x : FiniteBinary64) (h : 2 ^ 52 ≤ |x.val|) :
    ∃ z : ℤ, x.val = z := by
  have habs : Representable |x.val| := by
    rcases abs_choice x.val with h | h <;> rw [h]
    · exact x.representable
    · exact x.representable.neg
  obtain ⟨y, hy⟩ := habs.exists_int h
  rcases abs_choice x.val with h | h
  · exact ⟨y, by rw [← hy, h]⟩
  · exact ⟨-y, by rw [Int.cast_neg, ← hy, h, neg_neg]⟩

/-- Trailing zeros. -/
theorem significantDigits_mul_pow {m : ℕ} (hm : m ≠ 0) (k : ℕ) :
    significantDigits (m * 10 ^ k) = significantDigits m ++ List.replicate k (digitChar 0) := by
  rw [significantDigits, significantDigits, mul_comm,
    Nat.digits_base_pow_mul (by norm_num) (Nat.pos_of_ne_zero hm), List.reverse_append,
    List.map_append, List.reverse_replicate, List.map_replicate]

/-- The number of digits is that of the decimal expansion. -/
theorem length_significantDigits (m : ℕ) :
    (significantDigits m).length = (Nat.digits 10 m).length := by
  rw [significantDigits, List.length_map, List.length_reverse]

namespace Jcs

/-- A natural number with at most 21 digits is laid out as its digits. -/
theorem layout_eq_decimal {m k : ℕ} (hm : m ≠ 0) (hlt : m * 10 ^ k < 10 ^ 21) :
    layout (significantDigits m) ((significantDigits m).length + k) = decimal (m * 10 ^ k) := by
  have hpoint : (significantDigits m).length + k ≤ 21 := by
    have hlength := Nat.base_pow_length_digits_le 10 m (by norm_num) hm
    rw [← length_significantDigits] at hlength
    have hpow : 10 ^ ((significantDigits m).length + k) < 10 ^ 22 := by
      calc 10 ^ ((significantDigits m).length + k)
          = 10 ^ (significantDigits m).length * 10 ^ k := pow_add _ _ _
        _ ≤ 10 * m * 10 ^ k := Nat.mul_le_mul_right _ hlength
        _ = 10 * (m * 10 ^ k) := by ring
        _ < 10 * 10 ^ 21 := by omega
    exact Nat.lt_succ_iff.mp ((Nat.pow_lt_pow_iff_right (by norm_num)).mp hpow)
  have hne : m * 10 ^ k ≠ 0 := Nat.mul_ne_zero hm (pow_ne_zero _ (by norm_num))
  -- with the point behind them the digits are followed by `k` zeros
  have hzeros :
      ((significantDigits m).length + (k : ℤ) - (significantDigits m).length).toNat = k := by
    omega
  rw [layout, if_pos ⟨by omega, by exact_mod_cast hpoint⟩, hzeros, decimal, if_neg hne,
    significantDigits_mul_pow hm]

/-- The integer that a decimal without digits after the point is, next to the integral double that
it rounds to. -/
private theorem natValue_bounds {d : Decimal} {x : FiniteBinary64} (hreads : d.Reads x) {N : ℕ}
    (hvalue : d.value = N) {z : ℤ} (hx : x.val = z) :
    (|z| < 2 ^ 53 → |z| = N) ∧ (2 ^ 53 ≤ |z| → 2 ^ 53 ≤ N) ∧ (|z| < 10 ^ 21 → N < 10 ^ 21) := by
  have habs : |x.val| = ((|z| : ℤ) : ℚ) := by rw [hx, Int.cast_abs]
  -- rounding an integer of at most 53 bits does nothing
  have hexact : N < 2 ^ 53 → |z| = N := fun hsmall => by
    have hrepresentable : Representable d.value := by
      rw [hvalue]
      exact_mod_cast Representable.intCast (z := (N : ℤ)) (by
        rw [abs_of_nonneg (Int.natCast_nonneg N)]
        exact_mod_cast hsmall)
    have heq := Decimal.abs_eq_of_representable hreads hrepresentable
    rw [habs, hvalue] at heq
    exact_mod_cast heq
  have hbelow : ∀ {b : ℕ}, Representable b → |z| < b → N < b := fun {b} hb hlt => by
    by_contra hge
    have hle := Decimal.le_abs_of_le_value hreads hb (by
      rw [hvalue]
      exact_mod_cast not_lt.mp hge)
    rw [habs] at hle
    exact absurd (by exact_mod_cast hle : (b : ℤ) ≤ |z|) (not_le.mpr hlt)
  refine ⟨fun h => hexact ?_, fun h => ?_, fun h => ?_⟩
  · exact hbelow (by exact_mod_cast representable_twoPow53) (by exact_mod_cast h)
  · by_contra hlt
    have heq := hexact (not_le.mp hlt)
    have hsmall := not_le.mp hlt
    omega
  · exact hbelow (by exact_mod_cast representable_tenPow21) (by exact_mod_cast h)

/-- The integer that an integral double below `10 ^ 21` is printed as: the double itself if it is
below `2 ^ 53`, else one that is not below `2 ^ 53` either. -/
theorem exists_number_eq_intText {x : FiniteBinary64} {z : ℤ} (hx : x.val = z)
    (hlt : |z| < 10 ^ 21) : ∃ w : ℤ, number x = intText w ∧ (|z| < 2 ^ 53 → w = z) ∧
      (2 ^ 53 ≤ |z| → 2 ^ 53 ≤ |w|) := by
  -- zero is printed without its sign
  by_cases hz : z = 0
  · have hzero : x.val = 0 := by rw [hx, hz, Int.cast_zero]
    exact ⟨0, by rw [number, if_pos hzero]; rfl, fun _ => hz.symm, fun hle => by simp [hz] at hle⟩
  have hnz : x.val ≠ 0 := by
    rw [hx]
    exact_mod_cast hz
  have hsig := significand_shortestDecimal_ne_zero hnz
  have hexp := exponent_shortestDecimal_nonneg hx hz
  have hvalue := Decimal.value_eq_natCast hexp
  obtain ⟨k, hk⟩ := Int.eq_ofNat_of_zero_le hexp
  rw [hk, Int.toNat_natCast] at hvalue
  generalize hN : (shortestDecimal x).significand * 10 ^ k = N at hvalue
  obtain ⟨hexact, hlarge, hbelow⟩ := natValue_bounds (shortestDecimal_reads x) hvalue hx
  have hNpos : N ≠ 0 := by
    rw [← hN]
    exact Nat.mul_ne_zero hsig (pow_ne_zero _ (by norm_num))
  -- below 10^21 the digits are written out, with zeros after them
  have htext : number x = (if x.val < 0 then text "-" else []) ++ decimal N := by
    rw [number, if_neg hnz]
    dsimp only
    rw [hk, layout_eq_decimal hsig (hN ▸ hbelow hlt), hN]
  have hsign : x.val < 0 ↔ z < 0 := by
    rw [hx]
    exact_mod_cast Iff.rfl
  by_cases hneg : z < 0
  · refine ⟨-N, ?_, fun h => ?_, fun h => ?_⟩
    · rw [htext, if_pos (hsign.mpr hneg), intText, if_pos (by omega), Int.natAbs_neg,
        Int.natAbs_natCast]
    · have heq := hexact h
      rw [abs_of_neg hneg] at heq
      omega
    · rw [abs_neg, Nat.abs_cast]
      exact_mod_cast hlarge h
  · refine ⟨N, ?_, fun h => ?_, fun h => ?_⟩
    · rw [htext, if_neg (hsign.not.mpr hneg), intText, if_neg (by omega), Int.natAbs_natCast,
        List.nil_append]
    · have heq := hexact h
      rw [abs_of_nonneg (not_lt.mp hneg)] at heq
      exact heq.symm
    · rw [Nat.abs_cast]
      exact_mod_cast hlarge h

/-! ## The other doubles -/

/-- The shortest decimal of `10 ^ 21` has one digit. -/
theorem value_shortestDecimal_tenPow21 {x : FiniteBinary64} (hx : |x.val| = 10 ^ 21) :
    (shortestDecimal x).value = 10 ^ 21 := by
  have hlog : Int.log 10 |x.val| = 21 := by
    rw [hx]
    exact_mod_cast Int.log_zpow (R := ℚ) (by norm_num : 1 < 10) 21
  have hexp : Decimal.exponentFor |x.val| 1 = 21 := by
    rw [Decimal.exponentFor, hlog]
    norm_num
  -- one digit is enough
  have hvalue : (Decimal.nearest |x.val| 1).value = |x.val| := by
    have hone : |x.val| / 10 ^ (21 : ℤ) = ((1 : ℤ) : ℚ) := by
      rw [hx]
      norm_num
    have hround : roundHalfEven ((1 : ℤ) : ℚ) = 1 :=
      le_antisymm (roundHalfEven_le le_rfl) (le_roundHalfEven le_rfl)
    rw [Decimal.value, Decimal.nearest, hexp, hone, hround, hx]
    norm_num
  have hfrom : shortestFrom x (Int.log 10 |x.val| + 1075).toNat 1 = .nearest |x.val| 1 := by
    rw [hlog]
    show shortestFrom x (1095 + 1) 1 = _
    rw [shortestFrom, if_pos (reads_of_value_eq hvalue)]
  rw [shortestDecimal, Decimal.value_stripZeros, hfrom, hvalue, hx]

/-- A double whose shortest decimal is an integer is one itself. -/
theorem integral_of_exponent_nonneg {x : FiniteBinary64} (h : 0 ≤ (shortestDecimal x).exponent) :
    ∃ z : ℤ, x.val = z := by
  have hvalue := Decimal.value_eq_natCast h
  generalize (shortestDecimal x).significand * 10 ^ (shortestDecimal x).exponent.toNat = N at hvalue
  have hreads := shortestDecimal_reads x
  -- small integers are floats themselves, and large floats are integers
  rcases lt_or_ge N (2 ^ 53) with hsmall | hlarge
  · have hrepresentable : Representable (shortestDecimal x).value := by
      rw [hvalue]
      exact_mod_cast Representable.intCast (z := (N : ℤ)) (by
        rw [Nat.abs_cast]
        exact_mod_cast hsmall)
    have heq := Decimal.abs_eq_of_representable hreads hrepresentable
    rw [hvalue] at heq
    rcases abs_eq (Nat.cast_nonneg N) |>.mp heq with h | h
    · exact ⟨N, by rw [h]; norm_cast⟩
    · exact ⟨-N, by rw [h]; norm_cast⟩
  · have hlarge' : (2 : ℚ) ^ 53 ≤ (shortestDecimal x).value := by
      rw [hvalue]
      exact_mod_cast hlarge
    have hle := Decimal.le_abs_of_le_value hreads representable_twoPow53 hlarge'
    exact x.exists_int_of_le (le_trans (by norm_num) hle)

/-- A double that is not integral or not below `10 ^ 21` is not laid out as an integer. -/
theorem not_integer_layout {x : FiniteBinary64}
    (hfloat : ∀ z : ℤ, x.val = z → 10 ^ 21 ≤ |z|) :
    ¬((significantDigits (shortestDecimal x).significand).length ≤
        (significantDigits (shortestDecimal x).significand).length + (shortestDecimal x).exponent ∧
      (significantDigits (shortestDecimal x).significand).length + (shortestDecimal x).exponent ≤
        21) := by
  rintro ⟨hexp, hpoint⟩
  have hvalue := Decimal.value_eq_natCast (by omega : 0 ≤ (shortestDecimal x).exponent)
  obtain ⟨k, hk⟩ := Int.eq_ofNat_of_zero_le (by omega : 0 ≤ (shortestDecimal x).exponent)
  rw [hk, Int.toNat_natCast] at hvalue
  rw [hk] at hpoint
  have hreads := shortestDecimal_reads x
  -- with at most 21 digits the decimal is below 10^21, which the double is then not
  have hlt : (shortestDecimal x).significand * 10 ^ k < 10 ^ 21 := by
    have hdigits := Nat.lt_base_pow_length_digits (b := 10) (m := (shortestDecimal x).significand)
      (by norm_num)
    rw [← length_significantDigits] at hdigits
    calc (shortestDecimal x).significand * 10 ^ k
        < 10 ^ (significantDigits (shortestDecimal x).significand).length * 10 ^ k :=
          Nat.mul_lt_mul_of_pos_right hdigits (by positivity)
      _ = 10 ^ ((significantDigits (shortestDecimal x).significand).length + k) :=
          (pow_add _ _ _).symm
      _ ≤ 10 ^ 21 := Nat.pow_le_pow_right (by norm_num) (by exact_mod_cast hpoint)
  generalize (shortestDecimal x).significand * 10 ^ k = N at hvalue hlt
  have hupper : |x.val| ≤ 10 ^ 21 := Decimal.abs_le_of_value_le hreads representable_tenPow21 (by
    rw [hvalue]
    exact_mod_cast hlt.le)
  obtain ⟨z, hz⟩ := integral_of_exponent_nonneg (by omega : 0 ≤ (shortestDecimal x).exponent)
  have hge := hfloat z hz
  have heq : |x.val| = 10 ^ 21 := le_antisymm hupper (by
    rw [hz, ← Int.cast_abs]
    exact_mod_cast hge)
  -- 10^21 itself has 22 digits
  have htop := value_shortestDecimal_tenPow21 heq
  rw [hvalue] at htop
  have hN : N = 10 ^ 21 := by exact_mod_cast htop
  omega

/-- A double that is not integral or not below `10 ^ 21` is read back. -/
theorem number?_number {x : FiniteBinary64} (hx : x.val ≠ 0)
    (hfloat : ∀ z : ℤ, x.val = z → 10 ^ 21 ≤ |z|) {rest : Text} (hrest : JsonScan.Delimited rest) :
    JsonScan.number? (number x ++ rest) = some (.float (.fin x), rest) := by
  have hsig := significand_shortestDecimal_ne_zero hx
  have hnot := not_integer_layout hfloat
  rw [number, if_neg hx]
  refine JsonScan.number?_of_spellsFloat hx ?_
  set ds := significantDigits (shortestDecimal x).significand with hds
  have hchars : ∀ c ∈ ds, IsDigitChar c := fun _ => isDigitChar_of_mem_significantDigits
  have hhead : ∃ c, ds.head? = some c ∧ c.val ≠ 0x30 := JsonScan.head?_significantDigits hsig
  have hne : ds ≠ [] := by
    intro hnil
    obtain ⟨c, hc, -⟩ := hhead
    rw [hnil] at hc
    cases hc
  have hvalue : (shortestDecimal x).value =
      JsonScan.digitsValue ds * 10 ^ (ds.length + (shortestDecimal x).exponent - ds.length) := by
    rw [hds, JsonScan.digitsValue_significantDigits, add_sub_cancel_left, Decimal.value]
  rw [hvalue]
  generalize (ds.length : ℤ) + (shortestDecimal x).exponent = point at hnot
  -- the three layouts that are not those of an integer
  rw [layout, if_neg hnot]
  split
  · next hpos =>
    have hlayout := JsonScan.spellsFloat_split (n := point.toNat) (by omega) (by omega) hchars hhead
      hrest
    rwa [Int.toNat_of_nonneg (by omega)] at hlayout
  split
  · next hsmall =>
    have hlayout := JsonScan.spellsFloat_small (-point).toNat hne hchars hrest
    rwa [Int.toNat_of_nonneg (by omega), neg_neg] at hlayout
  · have hdigits : ∀ c ∈ decimal (point - 1).natAbs, IsDigitChar c := fun _ =>
      isDigitChar_of_mem_decimal
    have hlayout := JsonScan.spellsFloat_scientific (decide (point - 1 < 0)) hdigits
      (decimal_ne_nil _) hne hchars hhead hrest
    have hexp : (if decide (point - 1 < 0) then
        -(JsonScan.digitsValue (decimal (point - 1).natAbs) : ℤ)
          else JsonScan.digitsValue (decimal (point - 1).natAbs)) + 1 - ds.length =
        point - ds.length := by
      rw [JsonScan.digitsValue_decimal]
      split <;> simp only [decide_eq_true_eq] at * <;> omega
    rw [hexp] at hlayout
    simpa only [decide_eq_true_eq] using hlayout

end Jcs
