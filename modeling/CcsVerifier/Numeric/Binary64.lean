import Mathlib

/-!
# IEEE 754 binary64 numbers

The number format behind a double: the finite values, rounding of an exact rational to
nearest (ties to even), and addition and comparison of the extended values.

* `Representable q`: `q` is a finite binary64 value.
* `Binary64.round q`: the double nearest to `q`, an infinity on overflow.
* `roundToGrid_le`, `le_roundToGrid`: rounding never crosses a representable number.
* `Binary64.round_of_representable`: rounding is exact on representable numbers.
-/

/-- `q` is a finite binary64 value: a significand of 53 bits times a power of two whose
exponent is in range. -/
def Representable (q : ℚ) : Prop :=
  ∃ m e : ℤ, |m| < 2 ^ 53 ∧ -1074 ≤ e ∧ e ≤ 971 ∧ q = m * 2 ^ e

namespace Representable

/-- An integer of at most 53 bits is representable. -/
theorem intCast {z : ℤ} (h : |z| < 2 ^ 53) : Representable z :=
  ⟨z, 0, h, by norm_num, by norm_num, by simp⟩

/-- Zero is representable. -/
theorem zero : Representable 0 := by
  simpa using intCast (z := 0) (by norm_num)

/-- The sign does not matter. -/
theorem neg {q : ℚ} (h : Representable q) : Representable (-q) := by
  obtain ⟨m, e, hm, hlo, hhi, rfl⟩ := h
  exact ⟨-m, e, by rwa [abs_neg], hlo, hhi, by push_cast; ring⟩

/-- A representable number from `2 ^ 52` on is an integer. -/
theorem exists_int {q : ℚ} (h : Representable q) (hq : 2 ^ 52 ≤ q) : ∃ z : ℤ, q = z := by
  obtain ⟨m, e, hm, -, -, rfl⟩ := h
  have he : 0 ≤ e := by
    by_contra hneg
    have hmq : (m : ℚ) < 2 ^ 53 := by exact_mod_cast (abs_lt.mp hm).2
    have hpow : (2 : ℚ) ^ e ≤ 2 ^ (-1 : ℤ) := zpow_le_zpow_right₀ (by norm_num) (by omega)
    have hpos : (0 : ℚ) < 2 ^ e := zpow_pos (by norm_num) e
    have hlt : (m : ℚ) * 2 ^ e < 2 ^ 53 * 2 ^ e := mul_lt_mul_of_pos_right hmq hpos
    norm_num at hpow
    linarith
  obtain ⟨k, rfl⟩ := Int.eq_ofNat_of_zero_le he
  exact ⟨m * 2 ^ k, by push_cast; rfl⟩

end Representable

/-! ## Rounding to an integer grid -/

/-- The integer nearest to `x`, ties to even. -/
def roundHalfEven (x : ℚ) : ℤ :=
  if x - ⌊x⌋ < 1 / 2 then ⌊x⌋
  else if 1 / 2 < x - ⌊x⌋ then ⌊x⌋ + 1
  else if ⌊x⌋ % 2 = 0 then ⌊x⌋ else ⌊x⌋ + 1

/-- Rounding does not go below an integer that is below. -/
theorem le_roundHalfEven {x : ℚ} {n : ℤ} (h : (n : ℚ) ≤ x) : n ≤ roundHalfEven x := by
  have hfloor : n ≤ ⌊x⌋ := Int.le_floor.mpr h
  unfold roundHalfEven
  split_ifs <;> omega

/-- Nor above one that is above. -/
theorem roundHalfEven_le {x : ℚ} {n : ℤ} (h : x ≤ n) : roundHalfEven x ≤ n := by
  have hfloor : ⌊x⌋ ≤ n := by
    have := Int.floor_mono h
    rwa [Int.floor_intCast] at this
  rcases hfloor.lt_or_eq with hlt | heq
  · unfold roundHalfEven
    split_ifs <;> omega
  · -- `x` is the integer `n` itself, so the fractional part is zero.
    have hx : x = n := le_antisymm h (heq ▸ Int.floor_le x)
    subst hx
    simp [roundHalfEven]

/-- Rounding keeps the order. -/
theorem roundHalfEven_mono {x y : ℚ} (h : x ≤ y) : roundHalfEven x ≤ roundHalfEven y := by
  rcases (Int.floor_mono h).lt_or_eq with hlt | heq
  · have hx : roundHalfEven x ≤ ⌊x⌋ + 1 := roundHalfEven_le (by
      push_cast
      exact (Int.lt_floor_add_one x).le)
    exact hx.trans ((Int.add_one_le_iff.mpr hlt).trans (le_roundHalfEven (Int.floor_le y)))
  · -- the same integer part, so the fractional parts decide
    unfold roundHalfEven
    rw [heq]
    split_ifs <;> first | omega | (exfalso; linarith)

/-- Rounding is symmetric: ties go to even integers on both sides. -/
theorem roundHalfEven_neg (x : ℚ) : roundHalfEven (-x) = -roundHalfEven x := by
  by_cases hx : x = ⌊x⌋
  · have hexact : ∀ n : ℤ, roundHalfEven n = n := fun n =>
      le_antisymm (roundHalfEven_le le_rfl) (le_roundHalfEven le_rfl)
    rw [hx, ← Int.cast_neg, hexact, hexact]
  · have hlt : (⌊x⌋ : ℚ) < x := lt_of_le_of_ne (Int.floor_le x) (Ne.symm hx)
    have hfloor : ⌊-x⌋ = -⌊x⌋ - 1 := by
      rw [Int.floor_eq_iff]
      push_cast
      have := Int.lt_floor_add_one x
      constructor <;> linarith
    unfold roundHalfEven
    rw [hfloor]
    push_cast
    split_ifs <;> first | omega | (exfalso; linarith)

/-- The exponent of the grid that a double of `q`'s magnitude lies on: one unit in the last
place of the binade of `q`, and at least the subnormal spacing. -/
def gridExponent (q : ℚ) : ℤ := max (Int.log 2 |q| - 52) (-1074)

/-- `q` rounded to its grid, ignoring overflow. -/
def roundToGrid (q : ℚ) : ℚ := roundHalfEven (q / 2 ^ gridExponent q) * 2 ^ gridExponent q

/-- Zero is on every grid. -/
@[simp]
theorem roundToGrid_zero : roundToGrid 0 = 0 := by
  simp [roundToGrid, roundHalfEven]

private theorem grid_pos (e : ℤ) : (0 : ℚ) < 2 ^ e := zpow_pos (by norm_num) e

/-- Rounding does not go above a point of the grid. -/
private theorem roundToGrid_le_of_grid {q : ℚ} {k : ℤ} (h : q ≤ k * 2 ^ gridExponent q) :
    roundToGrid q ≤ k * 2 ^ gridExponent q := by
  have hpos := grid_pos (gridExponent q)
  have hk : roundHalfEven (q / 2 ^ gridExponent q) ≤ k :=
    roundHalfEven_le ((div_le_iff₀ hpos).mpr h)
  exact mul_le_mul_of_nonneg_right (by exact_mod_cast hk) hpos.le

/-- Rounding does not go below a point of the grid. -/
private theorem le_roundToGrid_of_grid {q : ℚ} {k : ℤ} (h : k * 2 ^ gridExponent q ≤ q) :
    k * 2 ^ gridExponent q ≤ roundToGrid q := by
  have hpos := grid_pos (gridExponent q)
  have hk : k ≤ roundHalfEven (q / 2 ^ gridExponent q) :=
    le_roundHalfEven ((le_div_iff₀ hpos).mpr h)
  exact mul_le_mul_of_nonneg_right (by exact_mod_cast hk) hpos.le

/-- A representable number is on the grid of `q`, or it is smaller in magnitude than the
power of two below `q`, which is on that grid. -/
private theorem grid_or_lt {q x : ℚ} (hq : q ≠ 0) (hx : Representable x) :
    (∃ k : ℤ, x = k * 2 ^ gridExponent q) ∨
      (|x| < (2 ^ 52 : ℤ) * 2 ^ gridExponent q ∧ (2 ^ 52 : ℤ) * 2 ^ gridExponent q ≤ |q|) := by
  obtain ⟨m, e, hm, hlo, -, rfl⟩ := hx
  -- the number lies on the grid of `q`, or is too small for it
  rcases le_or_gt (gridExponent q) e with hle | hlt
  · left
    refine ⟨m * 2 ^ (e - gridExponent q).toNat, ?_⟩
    have hexp : ((2 : ℚ) ^ (e - gridExponent q).toNat) = 2 ^ (e - gridExponent q) := by
      rw [← zpow_natCast, Int.toNat_of_nonneg (by omega)]
    push_cast
    rw [hexp, mul_assoc, ← zpow_add₀ (by norm_num)]
    congr 2
    omega
  · right
    have hgrid : gridExponent q = Int.log 2 |q| - 52 := by
      unfold gridExponent at hlt ⊢
      omega
    have hscale : ((2 ^ 52 : ℤ) : ℚ) * 2 ^ gridExponent q = 2 ^ (gridExponent q + 52) := by
      rw [zpow_add₀ (by norm_num)]
      norm_num
      ring
    refine ⟨?_, ?_⟩
    · have hmq : |(m : ℚ)| < 2 ^ 53 := by exact_mod_cast hm
      have hpow : (2 : ℚ) ^ e ≤ 2 ^ (gridExponent q - 1) :=
        zpow_le_zpow_right₀ (by norm_num) (by omega)
      calc |(m : ℚ) * 2 ^ e| = |(m : ℚ)| * 2 ^ e := by rw [abs_mul, abs_of_pos (grid_pos e)]
        _ < 2 ^ 53 * 2 ^ e := mul_lt_mul_of_pos_right hmq (grid_pos e)
        _ ≤ 2 ^ 53 * 2 ^ (gridExponent q - 1) := by gcongr
        _ = ((2 ^ 52 : ℤ) : ℚ) * 2 ^ gridExponent q := by
            rw [zpow_sub_one₀ (by norm_num)]
            push_cast
            ring
    · rw [hscale, hgrid, sub_add_cancel]
      exact Int.zpow_log_le_self (by norm_num) (abs_pos.mpr hq)

/-- Rounding does not cross a representable number from below. -/
theorem roundToGrid_le {q x : ℚ} (hx : Representable x) (h : q ≤ x) : roundToGrid q ≤ x := by
  by_cases hq : q = 0
  · simpa [hq] using hq ▸ h
  rcases grid_or_lt hq hx with ⟨k, hk⟩ | ⟨hsmall, hbig⟩
  · rw [hk] at h ⊢
    exact roundToGrid_le_of_grid h
  · -- `q` is negative and its power of two separates it from `x`.
    have hneg : q < 0 := by
      by_contra hnn
      have hqx : |q| ≤ |x| := by
        rw [abs_of_nonneg (not_lt.mp hnn)]
        exact h.trans (le_abs_self x)
      linarith
    rw [abs_of_neg hneg] at hbig
    have hround := roundToGrid_le_of_grid (q := q) (k := -2 ^ 52) (by push_cast at hbig ⊢; linarith)
    have hlow := (abs_lt.mp hsmall).1
    push_cast at hround hlow
    linarith

/-- Rounding does not cross a representable number from above. -/
theorem le_roundToGrid {q x : ℚ} (hx : Representable x) (h : x ≤ q) : x ≤ roundToGrid q := by
  by_cases hq : q = 0
  · simpa [hq] using hq ▸ h
  rcases grid_or_lt hq hx with ⟨k, hk⟩ | ⟨hsmall, hbig⟩
  · rw [hk] at h ⊢
    exact le_roundToGrid_of_grid h
  · have hpos : 0 < q := by
      by_contra hnp
      have hqx : |q| ≤ |x| := by
        rw [abs_of_nonpos (not_lt.mp hnp)]
        exact (neg_le_neg h).trans (neg_le_abs x)
      linarith
    rw [abs_of_pos hpos] at hbig
    have hround := le_roundToGrid_of_grid (q := q) (k := 2 ^ 52) hbig
    exact ((abs_lt.mp hsmall).2.le).trans hround

/-- Rounding a representable number returns it. -/
theorem roundToGrid_eq_self {x : ℚ} (hx : Representable x) : roundToGrid x = x :=
  le_antisymm (roundToGrid_le hx le_rfl) (le_roundToGrid hx le_rfl)

/-- A number and its negative lie on one grid. -/
theorem roundToGrid_neg (q : ℚ) : roundToGrid (-q) = -roundToGrid q := by
  have hgrid : gridExponent (-q) = gridExponent q := by rw [gridExponent, gridExponent, abs_neg]
  rw [roundToGrid, roundToGrid, hgrid, neg_div, roundHalfEven_neg, Int.cast_neg, neg_mul]

/-- Rounding keeps the order of positive numbers. -/
theorem roundToGrid_mono {q r : ℚ} (hq : 0 < q) (h : q ≤ r) : roundToGrid q ≤ roundToGrid r := by
  have hr : 0 < r := hq.trans_le h
  have hgrid : gridExponent q ≤ gridExponent r := by
    have hlog := Int.log_mono_right (b := 2) hq h
    rw [gridExponent, gridExponent, abs_of_pos hq, abs_of_pos hr]
    omega
  rcases hgrid.lt_or_eq with hlt | heq
  · -- the power of two below `r` is on both grids and between the two numbers
    have hexp : gridExponent r = Int.log 2 r - 52 := by
      unfold gridExponent at hlt ⊢
      rw [abs_of_pos hr] at hlt ⊢
      omega
    have hscale : ((2 ^ 52 : ℤ) : ℚ) * 2 ^ gridExponent r = 2 ^ Int.log 2 r := by
      rw [hexp, zpow_sub₀ (by norm_num)]
      norm_num
      ring
    have hlog : Int.log 2 q < Int.log 2 r := by
      unfold gridExponent at hlt
      rw [abs_of_pos hq, abs_of_pos hr] at hlt
      omega
    have hscale' : (2 ^ (Int.log 2 r - gridExponent q).toNat : ℤ) * (2 : ℚ) ^ gridExponent q =
        2 ^ Int.log 2 r := by
      push_cast
      rw [← zpow_natCast, Int.toNat_of_nonneg (by omega), ← zpow_add₀ (by norm_num),
        sub_add_cancel]
    have hbelow : (2 : ℚ) ^ Int.log 2 r ≤ r := Int.zpow_log_le_self (by norm_num) hr
    have habove : q ≤ 2 ^ Int.log 2 r := (Int.lt_zpow_iff_log_lt (by norm_num) hq).mpr hlog |>.le
    calc roundToGrid q ≤ 2 ^ Int.log 2 r := by
          rw [← hscale'] at habove ⊢
          exact roundToGrid_le_of_grid habove
      _ ≤ roundToGrid r := by
          rw [← hscale] at hbelow ⊢
          exact le_roundToGrid_of_grid hbelow
  -- on one grid both are rounded to multiples of the same power
  · unfold roundToGrid
    rw [heq]
    have hpos := grid_pos (gridExponent r)
    have hround := roundHalfEven_mono ((div_le_div_iff_of_pos_right hpos).mpr h)
    exact mul_le_mul_of_nonneg_right (by exact_mod_cast hround) hpos.le

private theorem abs_roundHalfEven_le {x : ℚ} {n : ℤ} (h : |x| ≤ n) : |roundHalfEven x| ≤ n := by
  obtain ⟨hlo, hhi⟩ := abs_le.mp h
  exact abs_le.mpr ⟨le_roundHalfEven (by push_cast; exact hlo), roundHalfEven_le hhi⟩

private theorem le_abs_roundHalfEven {x : ℚ} {n : ℤ} (h : (n : ℚ) ≤ |x|) :
    n ≤ |roundHalfEven x| := by
  rcases le_abs.mp h with hx | hx
  · exact (le_roundHalfEven hx).trans (le_abs_self _)
  · have hneg : roundHalfEven x ≤ -n := roundHalfEven_le (by push_cast; linarith)
    exact (le_neg.mpr hneg).trans (neg_le_abs _)

/-- The significand that rounding to the grid selects has at most 53 bits, or is `2 ^ 53`
itself; above the subnormal range it has at least 53 bits. -/
private theorem significand_bounds {q : ℚ} (hq : q ≠ 0) :
    |roundHalfEven (q / 2 ^ gridExponent q)| ≤ 2 ^ 53 ∧
      (gridExponent q = -1074 ∨ 2 ^ 52 ≤ |roundHalfEven (q / 2 ^ gridExponent q)|) := by
  have hpos := grid_pos (gridExponent q)
  have habs : |q / 2 ^ gridExponent q| = |q| / 2 ^ gridExponent q := by
    rw [abs_div, abs_of_pos hpos]
  constructor
  · apply abs_roundHalfEven_le
    rw [habs, div_le_iff₀ hpos]
    have hlog : |q| < 2 ^ (Int.log 2 |q| + 1) := by
      exact_mod_cast Int.lt_zpow_succ_log_self (b := 2) (by norm_num) |q|
    calc |q| ≤ 2 ^ (Int.log 2 |q| + 1) := hlog.le
      _ ≤ 2 ^ (53 + gridExponent q) :=
          zpow_le_zpow_right₀ (by norm_num) (by unfold gridExponent; omega)
      _ = ((2 ^ 53 : ℤ) : ℚ) * 2 ^ gridExponent q := by
          rw [zpow_add₀ (by norm_num)]
          norm_num
  · rcases eq_or_ne (gridExponent q) (-1074) with hsub | hnormal
    · exact Or.inl hsub
    · right
      apply le_abs_roundHalfEven
      rw [habs, le_div_iff₀ hpos]
      -- a normal number fills all 53 bits
      have hgrid : 52 + gridExponent q = Int.log 2 |q| := by
        unfold gridExponent at hnormal ⊢
        omega
      have hlog : ((2 : ℕ) : ℚ) ^ Int.log 2 |q| ≤ |q| :=
        Int.zpow_log_le_self (by norm_num) (abs_pos.mpr hq)
      rw [← hgrid, zpow_add₀ (by norm_num)] at hlog
      push_cast
      exact_mod_cast hlog

/-- A rounded number that does not overflow is representable. -/
theorem representable_roundToGrid {q : ℚ} (h : |roundToGrid q| < 2 ^ 1024) :
    Representable (roundToGrid q) := by
  by_cases hq : q = 0
  · simpa [hq] using Representable.zero
  obtain ⟨hle, hge⟩ := significand_bounds hq
  have hlo : -1074 ≤ gridExponent q := le_max_right _ _
  unfold roundToGrid at h ⊢
  generalize roundHalfEven (q / 2 ^ gridExponent q) = m at h hle hge ⊢
  generalize gridExponent q = e at h hge hlo ⊢
  rw [abs_mul, abs_of_pos (grid_pos e), ← zpow_natCast] at h
  -- The exponent bound: a significand of at least `2 ^ k` keeps `e + k` below `1024`.
  have hbound : ∀ k : ℕ, 2 ^ k ≤ |m| → e + k < 1024 := by
    intro k hk
    have hkq : (2 : ℚ) ^ k ≤ |(m : ℚ)| := by exact_mod_cast hk
    have hprod : (2 : ℚ) ^ (e + k) < 2 ^ ((1024 : ℕ) : ℤ) := by
      rw [add_comm, zpow_add₀ (by norm_num), zpow_natCast]
      exact (mul_le_mul_of_nonneg_right hkq (grid_pos e).le).trans_lt h
    exact_mod_cast (zpow_lt_zpow_iff_right₀ (by norm_num)).mp hprod
  rcases hle.lt_or_eq with hlt | heq
  · refine ⟨m, e, hlt, hlo, ?_, rfl⟩
    rcases hge with hsub | hbig
    · omega
    · have := hbound 52 hbig
      omega
  · -- The significand was rounded up to `2 ^ 53`: move one factor of two to the exponent.
    have he := hbound 53 heq.ge
    rcases abs_eq (by norm_num) |>.mp heq with rfl | rfl
    · exact ⟨2 ^ 52, e + 1, by norm_num, by omega, by omega, by
        rw [zpow_add_one₀ (by norm_num)]; push_cast; ring⟩
    · exact ⟨-2 ^ 52, e + 1, by norm_num, by omega, by omega, by
        rw [zpow_add_one₀ (by norm_num)]; push_cast; ring⟩

/-! ## Extended values -/

/-- A finite double other than negative zero, as the rational it stands for. -/
structure FiniteBinary64 where
  /-- The value of the double. -/
  val : ℚ
  /-- The value has a 53-bit significand and an exponent in range. -/
  representable : Representable val
deriving DecidableEq

/-- A double. The two zeros are `negZero` and `fin 0`. -/
inductive Binary64 where
  | nan
  | inf (neg : Bool)
  | negZero
  | fin (x : FiniteBinary64)
deriving DecidableEq

namespace Binary64

/-- The double nearest to `q`, ties to even; an infinity when `q` is out of range. -/
def round (q : ℚ) : Binary64 :=
  if h : |roundToGrid q| < 2 ^ 1024 then .fin ⟨roundToGrid q, representable_roundToGrid h⟩
  else .inf (decide (q < 0))

/-- Positive zero. -/
def zero : Binary64 := .fin ⟨0, Representable.zero⟩

/-- The integer `z` as a double, for an integer of at most 53 bits. -/
def ofSmallInt (z : ℤ) (h : |z| < 2 ^ 53) : Binary64 := .fin ⟨z, Representable.intCast h⟩

/-- The rational value of a finite double; both zeros have value `0`. -/
def toRat? : Binary64 → Option ℚ
  | .negZero => some 0
  | .fin x => some x.val
  | _ => none

/-- A double as a point of the rationals extended by two infinities; a NaN has none. -/
def ext : Binary64 → Option (WithBot (WithTop ℚ))
  | .nan => none
  | .inf true => some ⊥
  | .inf false => some ((⊤ : WithTop ℚ) : WithBot (WithTop ℚ))
  | .negZero => some ((0 : ℚ) : WithTop ℚ)
  | .fin x => some ((x.val : WithTop ℚ) : WithBot (WithTop ℚ))

/-- Whether a double is neither an infinity nor a NaN. -/
def isFinite (x : Binary64) : Bool := x.toRat?.isSome

/-- Negation flips the sign bit. -/
def neg : Binary64 → Binary64
  | .nan => .nan
  | .inf s => .inf !s
  | .negZero => zero
  | .fin x => if x.val = 0 then .negZero else .fin ⟨-x.val, x.representable.neg⟩

/-- Addition: the exact sum rounded once; a sum of zeros is negative only when both are. -/
def add : Binary64 → Binary64 → Binary64
  | .nan, _ => .nan
  | _, .nan => .nan
  | .inf s, .inf t => if s = t then .inf s else .nan
  | .inf s, _ => .inf s
  | _, .inf t => .inf t
  | .negZero, .negZero => .negZero
  | .negZero, .fin y => round y.val
  | .fin x, .negZero => round x.val
  | .fin x, .fin y => round (x.val + y.val)

/-- Subtraction is addition of the negation. -/
def sub (x y : Binary64) : Binary64 := add x (neg y)

/-- Rounding a representable number is exact. -/
theorem round_of_representable {q : ℚ} (hq : Representable q) :
    round q = .fin ⟨q, hq⟩ := by
  have hlt : |q| < 2 ^ 1024 := by
    obtain ⟨m, e, hm, -, hhi, rfl⟩ := hq
    have hmq : |(m : ℚ)| < 2 ^ 53 := by exact_mod_cast hm
    calc |(m : ℚ) * 2 ^ e| = |(m : ℚ)| * 2 ^ e := by rw [abs_mul, abs_of_pos (grid_pos e)]
      _ < 2 ^ 53 * 2 ^ e := mul_lt_mul_of_pos_right hmq (grid_pos e)
      _ ≤ 2 ^ 53 * 2 ^ (971 : ℤ) := by gcongr; norm_num
      _ = 2 ^ 1024 := by
          rw [show (971 : ℤ) = ((971 : ℕ) : ℤ) from rfl, zpow_natCast, ← pow_add]
  simp [round, roundToGrid_eq_self hq, hlt]

/-- Sums of small integers are exact. -/
theorem add_ofSmallInt {a b c : ℤ} (ha : |a| < 2 ^ 53) (hb : |b| < 2 ^ 53) (hc : |c| < 2 ^ 53)
    (h : a + b = c) : (ofSmallInt a ha).add (ofSmallInt b hb) = ofSmallInt c hc := by
  have hsum : (a : ℚ) + b = c := by exact_mod_cast h
  rw [ofSmallInt, ofSmallInt, add, hsum, round_of_representable (Representable.intCast hc)]
  rfl

/-- Differences of small integers are exact, apart from the sign of a zero. -/
theorem sub_ofSmallInt {a b c : ℤ} (ha : |a| < 2 ^ 53) (hb : |b| < 2 ^ 53) (hc : |c| < 2 ^ 53)
    (hne : b ≠ 0) (h : a - b = c) : (ofSmallInt a ha).sub (ofSmallInt b hb) = ofSmallInt c hc := by
  have hneg : (ofSmallInt b hb).neg = ofSmallInt (-b) (by rwa [abs_neg]) := by
    have hb' : (b : ℚ) ≠ 0 := by exact_mod_cast hne
    simp [ofSmallInt, neg, hb']
  rw [sub, hneg]
  exact add_ofSmallInt ha _ hc (by omega)

/-- The finite doubles are the points of the rationals. -/
theorem toRat?_eq_some_iff_ext {x : Binary64} {q : ℚ} :
    x.toRat? = some q ↔ x.ext = some ((q : WithTop ℚ) : WithBot (WithTop ℚ)) := by
  constructor
  · intro h
    cases x <;> cases h <;> rfl
  · intro h
    cases x with
    | nan => cases h
    | inf s => cases s <;> cases h
    | negZero => cases h; rfl
    | fin x => cases h; rfl

/-- A rounded number is never a NaN. -/
theorem isSome_ext_round (q : ℚ) : (round q).ext.isSome = true := by
  unfold round
  split
  · rfl
  · cases decide (q < 0) <;> rfl

/-- The value of a negated double. -/
theorem toRat?_neg {x : Binary64} {q : ℚ} (h : x.toRat? = some q) : x.neg.toRat? = some (-q) := by
  cases x with
  | nan => cases h
  | inf s => cases h
  | negZero =>
    cases h
    rfl
  | fin x =>
    cases h
    rw [neg]
    split
    · next hzero => rw [hzero]; rfl
    · rfl

/-- The value of a finite double is representable. -/
theorem representable_of_toRat? {x : Binary64} {q : ℚ} (h : x.toRat? = some q) :
    Representable q := by
  cases x with
  | nan => cases h
  | inf s => cases h
  | negZero =>
    cases h
    exact Representable.zero
  | fin x =>
    cases h
    exact x.representable

/-- The sum of two finite doubles is their exact sum, rounded. -/
theorem ext_add {x y : Binary64} {p q : ℚ} (hx : x.toRat? = some p) (hy : y.toRat? = some q) :
    (x.add y).ext = (round (p + q)).ext := by
  cases x with
  | nan => cases hx
  | inf s => cases hx
  | negZero =>
    cases hx
    -- the sum of two negative zeros is one too, which is the value zero
    cases y with
    | negZero =>
      cases hy
      rw [Rat.add_zero, round_of_representable Representable.zero]
      rfl
    | fin y =>
      cases hy
      rw [zero_add]
      rfl
    | _ => cases hy
  | fin x =>
    cases hx
    cases y with
    | negZero =>
      cases hy
      rw [Rat.add_zero]
      rfl
    | fin y =>
      cases hy
      rfl
    | _ => cases hy

/-- A finite sum is never a NaN. -/
theorem isSome_ext_add {x y : Binary64} (hx : x.isFinite = true) (hy : y.isFinite = true) :
    (x.add y).ext.isSome = true := by
  obtain ⟨p, hp⟩ := Option.isSome_iff_exists.mp hx
  obtain ⟨q, hq⟩ := Option.isSome_iff_exists.mp hy
  rw [ext_add hp hq]
  exact isSome_ext_round _

/-- The difference of two finite doubles is their exact difference, rounded. -/
theorem ext_sub {x y : Binary64} {p q : ℚ} (hx : x.toRat? = some p) (hy : y.toRat? = some q) :
    (x.sub y).ext = (round (p - q)).ext := by
  rw [sub, ext_add hx (toRat?_neg hy), sub_eq_add_neg]

/-- Adding a zero to a finite double keeps its value. -/
theorem ext_add_zero {x y : Binary64} (hx : x.isFinite = true) (hy : y.toRat? = some 0) :
    (x.add y).ext = x.ext := by
  obtain ⟨p, hp⟩ := Option.isSome_iff_exists.mp hx
  rw [ext_add hp hy, Rat.add_zero, round_of_representable (representable_of_toRat? hp),
    toRat?_eq_some_iff_ext.mp hp]
  rfl

/-- A finite difference is one of a finite double. -/
theorem isFinite_of_sub {x y : Binary64} {q : ℚ} (h : (x.sub y).toRat? = some q) :
    x.isFinite = true := by
  rw [sub] at h
  generalize y.neg = y at h
  cases x with
  | nan => cases h
  | inf s =>
    cases y with
    | inf t =>
      rw [add] at h
      split at h <;> cases h
    | _ => cases h
  | _ => rfl

/-- A rounded value strictly between 0 and 1 comes from an exact one. -/
theorem between_of_round {q d : ℚ} (hd : (round q).toRat? = some d) (hpos : 0 < d) (hlt : d < 1) :
    0 < q ∧ q < 1 := by
  unfold round at hd
  split at hd
  · cases hd
    have hone : Representable 1 := by simpa using Representable.intCast (z := 1) (by norm_num)
    refine ⟨?_, ?_⟩
    · by_contra hle
      exact absurd (roundToGrid_le Representable.zero (not_lt.mp hle)) (not_le.mpr hpos)
    · by_contra hge
      exact absurd (le_roundToGrid hone (not_lt.mp hge)) (not_le.mpr hlt)
  · cases hd

end Binary64
