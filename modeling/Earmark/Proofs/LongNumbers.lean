import Earmark.Proofs.Differences
import Earmark.Proofs.Numerals

/-!
Arithmetic on numbers of any length. Only the digits of a result are limited, not those of its
operands: a product of numbers and a sum of numbers that are not negative are the exact ones,
rounded to the nearest number of as many digits as are kept (`mul_isRounded`, `add_isRounded`). The
one exception is a result below the least normal number, where the places run out before the digits
do.
-/

namespace Earmark.Decimal

variable {a b d r : Decimal} {neg : Bool} {coeff ca cb : Nat} {exp ea eb : Int} {x y s : ℚ}

/-- The least number with a place for each of the digits that are kept. -/
def leastNormal : ℚ := 10 ^ (minExponent + 27)

/-- The second number is the first one rounded, or neither is greater than the least normal one. -/
def IsRounded (x r : ℚ) : Prop := Rounds x r ∨ |x| ≤ leastNormal ∧ |r| ≤ leastNormal

theorem leastNormal_lt : leastNormal < 10 ^ (-28 : ℤ) :=
  zpow_lt_zpow_right₀ (by norm_num) (by decide)

/-- A number of no more digits than are kept is its own rounding. -/
theorem rounds_self {m : ℤ} (small : m.natAbs < 10 ^ precision) (exp : Int) :
    Rounds (m * 10 ^ exp) (m * 10 ^ exp) := by
  have magnitude (positive : 0 < m.natAbs) :
      Rounds (m.natAbs * 10 ^ exp) (m.natAbs * 10 ^ exp) := by
    refine rounds_of_near positive small ?_
    rw [sub_self, abs_zero]
    positivity
  rw [Nat.cast_natAbs] at magnitude
  rcases lt_trichotomy m 0 with negative | rfl | positive
  · have flipped := (magnitude (by omega)).neg
    rwa [abs_of_neg negative, Int.cast_neg, neg_mul, neg_neg] at flipped
  · exact .inl ⟨by simp, by simp⟩
  · have own := magnitude (by omega)
    rwa [abs_of_pos positive] at own

/-! ### Results -/

/-- A result of arithmetic is the exact one, rounded. -/
theorem isRounded_of_round (rounded : round neg coeff exp = .ok r) :
    IsRounded (finite neg coeff exp).toRat r.toRat := by
  rcases le_total leastNormal (coeff * 10 ^ exp) with normal | tiny
  · have places := (zpow_lt_zpow_iff_right₀ (by norm_num : (1 : ℚ) < 10)).mp
      (normal.trans_lt (value_lt coeff exp))
    exact .inl (rounds_of_round (by omega) rounded).2
  · have one : ((1 : ℕ) : ℚ) * 10 ^ (minExponent + 27) = leastNormal := by
      rw [Nat.cast_one, one_mul, leastNormal]
    obtain ⟨kept, exp', rfl, le⟩ := round_le (by decide : 1 < 10 ^ precision)
      (by omega : minExponent ≤ minExponent + 27) (tiny.trans_eq one.symm) rounded
    exact .inr ⟨abs_toRat.trans_le tiny, abs_toRat.trans_le (le.trans_eq one)⟩

/-- A product is the exact one, rounded. -/
theorem mul_isRounded (finite : a.isFinite) (finite' : b.isFinite) (multiplied : a.mul b = .ok r) :
    IsRounded (a.toRat * b.toRat) r.toRat := by
  obtain ⟨na, ca, ea, rfl⟩ := exists_of_isFinite finite
  obtain ⟨nb, cb, eb, rfl⟩ := exists_of_isFinite finite'
  rw [← toRat_product]
  exact isRounded_of_round multiplied

/-! ### Sums -/

/-- Behind a whole number of units no tie between even counts of them is near, so whatever little
follows it is rounded alike. -/
private theorem near_of_tenth {m half k : ℤ} {t : ℚ} (positive : 0 < half) (some : 0 < t)
    (le : t ≤ 1 / 10) (nearest : IsNearest ((m + 1 / 10) / (2 * half)) k) :
    |(m + t) / (2 * half) - k| < 1 / 2 := by
  have unit : (0 : ℚ) < half := by exact_mod_cast positive
  have off (t : ℚ) : (m + t) / (2 * half) - k = ((m - 2 * half * k : ℤ) + t) / (2 * half) := by
    push_cast
    field_simp
    ring
  have near := nearest.abs_le
  rw [off, abs_div, abs_of_pos (by linarith : 2 * (half : ℚ) > 0), div_le_iff₀ (by linarith),
    abs_le] at near
  rw [off, abs_div, abs_of_pos (by linarith : 2 * (half : ℚ) > 0), div_lt_iff₀ (by linarith),
    abs_lt]
  generalize (m - 2 * half * k : ℤ) = rest at near
  have low : -half ≤ rest := by
    have : -half - 1 < rest := by exact_mod_cast (by linarith : -(half : ℚ) - 1 < rest)
    omega
  have high : rest + 1 ≤ half := by exact_mod_cast (by linarith : (rest : ℚ) < half)
  have low : (-half : ℚ) ≤ rest := by exact_mod_cast low
  have high : (rest : ℚ) + 1 ≤ half := by exact_mod_cast high
  constructor <;> linarith

/-- What is less than a unit of the last digit brings no further place. -/
private theorem value_add_bounds (coeff : Nat) (exp : Int) {t : ℚ} (positive : 0 < coeff)
    (nonneg : 0 ≤ t) (less : t < 1) :
    10 ^ (exp + digitCount coeff - 1) ≤ coeff * 10 ^ exp + t * 10 ^ exp ∧
      coeff * 10 ^ exp + t * 10 ^ exp < 10 ^ (exp + digitCount coeff) := by
  have unit : (0 : ℚ) < 10 ^ exp := by positivity
  have low := le_value coeff exp positive
  have high : (coeff : ℚ) * 10 ^ exp + 1 * 10 ^ exp ≤ 10 ^ (exp + digitCount coeff) := by
    rw [zpow_add₀ (by norm_num), mul_comm (10 ^ exp), zpow_natCast, ← add_mul]
    exact mul_le_mul_of_nonneg_right (by exact_mod_cast lt_pow_digitCount coeff) unit.le
  have behind := mul_lt_mul_of_pos_right less unit
  have front : 0 ≤ t * 10 ^ exp := by positivity
  constructor <;> linarith

/-- Behind more digits than are kept, what is that little is rounded alike. -/
private theorem rounds_behind (nonzero : 0 < coeff) (many : 28 < digitCount coeff)
    (positive : 0 < y) (le : y ≤ 10 ^ (exp - 1))
    (rounds : Rounds (coeff * 10 ^ exp + 10 ^ (exp - 1)) s) : Rounds (coeff * 10 ^ exp + y) s := by
  have unit : (0 : ℚ) < 10 ^ exp := by positivity
  have tenth : (10 : ℚ) ^ (exp - 1) = 1 / 10 * 10 ^ exp := by
    rw [zpow_sub_one₀ (by norm_num)]
    ring
  obtain ⟨t, follows⟩ : ∃ t, y = t * 10 ^ exp := ⟨y / 10 ^ exp, by field_simp⟩
  rw [tenth] at le rounds
  subst follows
  have some : 0 < t := (mul_pos_iff_of_pos_right unit).mp positive
  have few : t ≤ 1 / 10 := le_of_mul_le_mul_right le unit
  have value : (0 : ℚ) < coeff * 10 ^ exp := by positivity
  obtain ⟨place, k, least, below, nearest, rfl⟩ :=
    rounds.resolve_left fun zero => by linarith [zero.1]
  rw [abs_of_pos (by linarith)] at least below
  obtain ⟨low, high⟩ := value_add_bounds coeff exp nonzero some.le (by linarith)
  obtain ⟨low', high'⟩ := value_add_bounds coeff exp nonzero (by norm_num)
    (by norm_num : (1 / 10 : ℚ) < 1)
  have up := (zpow_lt_zpow_iff_right₀ (by norm_num : (1 : ℚ) < 10)).mp (least.trans_lt high')
  have down := (zpow_lt_zpow_iff_right₀ (by norm_num : (1 : ℚ) < 10)).mp (low'.trans_lt below)
  -- The last digit kept is worth `2 * half` units of the last digit there is.
  obtain ⟨n, count⟩ := Nat.exists_eq_add_of_le many
  have worth : (10 : ℚ) ^ place = 2 * (5 * 10 ^ n : ℤ) * 10 ^ exp := by
    rw [show place = exp + (n + 1 : ℕ) by omega, zpow_add₀ (by norm_num), zpow_natCast, pow_succ]
    push_cast
    ring
  have scaled (t : ℚ) : ((coeff : ℚ) * 10 ^ exp + t * 10 ^ exp) / 10 ^ place =
      ((coeff : ℤ) + t) / (2 * (5 * 10 ^ n : ℤ)) := by
    rw [worth, ← add_mul, mul_div_mul_right _ _ unit.ne', Int.cast_natCast]
  rw [scaled] at nearest
  refine .inr ⟨place, k, ?_, ?_, .of_near ?_, rfl⟩
  · rwa [abs_of_pos (by linarith), show place + 27 = exp + digitCount coeff - 1 by omega]
  · rwa [abs_of_pos (by linarith), show place + 28 = exp + digitCount coeff by omega]
  · rw [scaled]
    exact near_of_tenth (by positivity) some few nearest

/-- Behind no more digits than are kept, what is that little is dropped. -/
private theorem rounds_ahead (nonzero : 0 < coeff) (few : digitCount coeff ≤ 28)
    (positive : 0 < y) (le : y ≤ 10 ^ (exp + digitCount coeff - 30))
    (rounds : Rounds (coeff * 10 ^ exp + 10 ^ (exp + digitCount coeff - 30)) s) :
    Rounds (coeff * 10 ^ exp + y) s := by
  have small : coeff < 10 ^ precision := (digitCount_le_iff coeff 28 (by omega)).mp few
  have alone {t : ℚ} (sign : 0 < t) (tiny : t ≤ 10 ^ (exp + digitCount coeff - 30)) :
      Rounds (coeff * 10 ^ exp + t) (coeff * 10 ^ exp) := by
    have far : Rounds ((finite false coeff exp).toRat + t) (finite false coeff exp).toRat :=
      rounds_add_far nonzero small ((abs_of_pos sign).trans_le tiny)
    rwa [toRat_finite_false] at far
  rw [rounds.unique (alone (by positivity) le_rfl)]
  exact alone positive le

private theorem isRounded_addAligned (positive : 0 < ca) (positive' : 0 < cb) (order : eb ≤ ea)
    (added : addAligned false ca ea false cb eb = .ok r) :
    IsRounded (ca * 10 ^ ea + cb * 10 ^ eb) r.toRat := by
  simp only [addAligned] at added
  split_ifs at added with far
  · have rounded := isRounded_of_round added
    simp only [precision] at far
    rw [toRat_signed_add, toRat_shift false ca (by omega), toRat_finite_false, toRat_finite_false,
      Nat.cast_one, one_mul] at rounded
    change IsRounded (_ + 10 ^ (ea + min (-1) ((digitCount ca : Int) - 28 - 2))) _ at rounded
    generalize start : ea + min (-1) ((digitCount ca : Int) - 28 - 2) = unit at far rounded
    have last : (0 : ℚ) < 10 ^ unit := by positivity
    have some : (0 : ℚ) < cb * 10 ^ eb := by positivity
    have tiny : (cb : ℚ) * 10 ^ eb ≤ 10 ^ unit :=
      (value_lt cb eb).le.trans (zpow_le_zpow_right₀ (by norm_num) (by omega))
    rcases rounded with rounds | ⟨least, small⟩
    · left
      rcases Nat.lt_or_ge 28 (digitCount ca) with many | few
      · obtain rfl : unit = ea - 1 := by omega
        exact rounds_behind positive many some tiny rounds
      · obtain rfl : unit = ea + digitCount ca - 30 := by omega
        exact rounds_ahead positive few some tiny rounds
    · refine .inr ⟨?_, small⟩
      rw [abs_of_pos (by positivity)] at least ⊢
      linarith
  · have rounded := isRounded_of_round added
    rwa [toRat_signed_add, toRat_shift false ca order, toRat_finite_false, toRat_finite_false]
      at rounded

/-- A sum of finite numbers is finite, where there is one. -/
theorem add_isFinite (finite : a.isFinite) (finite' : b.isFinite) (added : a.add b = .ok r) :
    r.isFinite := by
  obtain ⟨na, ca, ea, rfl⟩ := exists_of_isFinite finite
  obtain ⟨nb, cb, eb, rfl⟩ := exists_of_isFinite finite'
  obtain ⟨neg, coeff, exp, rounded⟩ := exists_round_of_addFinite added
  cases r with
  | finite neg coeff exp => rfl
  | infinity neg => exact (isWritten_of_round rounded).elim
  | nan neg signalling payload => exact (isWritten_of_round rounded).elim

/-- A sum of numbers that are not negative is the exact one, rounded. -/
theorem add_isRounded (finite : a.isFinite) (finite' : b.isFinite) (nonneg : 0 ≤ a.toRat)
    (nonneg' : 0 ≤ b.toRat) (added : a.add b = .ok r) :
    IsRounded (a.toRat + b.toRat) r.toRat := by
  obtain ⟨na, ca, ea, rfl⟩ := exists_of_isFinite finite
  obtain ⟨nb, cb, eb, rfl⟩ := exists_of_isFinite finite'
  simp only [add, isNaN, Bool.or_self, Bool.false_eq_true, ↓reduceIte, addFinite] at added
  split_ifs at added with zeros zeroA zeroB order
  · obtain ⟨rfl, rfl⟩ := zeros
    have rounded := isRounded_of_round added
    rw [toRat_finite_zero] at rounded
    rwa [toRat_finite_zero, toRat_finite_zero, add_zero]
  · subst zeroA
    have rounded := isRounded_of_round added
    rw [toRat_shift nb cb (by omega)] at rounded
    rwa [toRat_finite_zero, zero_add]
  · subst zeroB
    have rounded := isRounded_of_round added
    rw [toRat_shift na ca (by omega)] at rounded
    rwa [toRat_finite_zero, add_zero]
  all_goals
    obtain rfl : na = false := (toRat_eq_zero_or nonneg).resolve_left zeroA
    obtain rfl : nb = false := (toRat_eq_zero_or nonneg').resolve_left zeroB
    have positiveA := Nat.pos_of_ne_zero zeroA
    have positiveB := Nat.pos_of_ne_zero zeroB
    rw [toRat_finite_false, toRat_finite_false]
  · exact isRounded_addAligned positiveA positiveB order added
  · rw [add_comm]
    exact isRounded_addAligned positiveB positiveA (by omega) added

end Earmark.Decimal
