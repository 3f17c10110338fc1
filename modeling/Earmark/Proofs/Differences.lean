import Earmark.Proofs.MonotoneSums

/-!
Differences that cannot fail. Every finite result of arithmetic lies in its range, and with a number
everything smaller does. So what is left of a difference is always told when a part of it that is no
greater is taken away (`exists_sub_of_le`), be the difference as large as it may.
-/

namespace Earmark.Decimal

variable {a b d r : Decimal} {neg : Bool} {coeff ca cb : Nat} {exp ea eb : Int} {x y : ℚ}

/-- The value is no greater than a number of as many digits as are kept, at a place that the
greatest exponent leaves room for. -/
def InRange (x : ℚ) : Prop :=
  ∃ (k : Nat) (place : Int), k < 10 ^ precision ∧ minExponent ≤ place ∧
    place ≤ maxExponent - (precision - 1) ∧ x ≤ k * 10 ^ place

theorem InRange.mono (range : InRange y) (le : x ≤ y) : InRange x := by
  obtain ⟨k, place, small, low, top, bound⟩ := range
  exact ⟨k, place, small, low, top, le.trans bound⟩

theorem inRange_zero : InRange 0 := ⟨0, 0, by decide, by decide, by decide, by simp⟩

theorem InRange.exists_round (neg : Bool) (range : InRange (coeff * 10 ^ exp)) :
    ∃ r, round neg coeff exp = .ok r := by
  obtain ⟨k, place, small, low, top, bound⟩ := range
  exact exists_round_of_le neg small low top bound

/-- What is rounded lies in the range. -/
theorem inRange_of_round (rounded : round neg coeff exp = .ok r) : InRange r.toRat := by
  rcases Nat.eq_zero_or_pos coeff with rfl | positive
  · simp only [round, ↓reduceIte, Except.ok.injEq] at rounded
    subst rounded
    rw [toRat_finite_zero]
    exact inRange_zero
  -- a sign only takes from the value
  have unsigned {kept : Nat} {place : Int} (neg : Bool) (range : InRange (kept * 10 ^ place)) :
      InRange (finite neg kept place).toRat := by
    cases neg with
    | false => rwa [toRat_finite_false]
    | true =>
      rw [toRat_finite_true]
      have value : (0 : ℚ) ≤ kept * 10 ^ place := by positivity
      exact inRange_zero.mono (by linarith)
  have room : minExponent ≤ maxExponent - (precision - 1) := by decide
  simp only [round, positive.ne', ↓reduceIte] at rounded
  generalize exact : max (exp + (digitCount coeff : Int) - precision) minExponent = floor at rounded
  split_ifs at rounded with beyond whole tiny few more
  · cases rounded
    refine unsigned neg ⟨coeff * 10 ^ (exp - floor).toNat, floor, ?_, by omega, by omega, ?_⟩
    · have count := digitCount_shift_le coeff (exp - floor).toNat
      exact (digitCount_le_iff _ _ (by decide)).mp (by omega)
    · rw [shift_value coeff floor exp whole]
  · cases rounded
    rw [toRat_finite_zero]
    exact inRange_zero
  · cases rounded
    exact unsigned neg
      ⟨_, floor, (digitCount_le_iff _ _ (by decide)).mp few, by omega, by omega, le_rfl⟩
  · cases rounded
    obtain ⟨left, gained⟩ : ∃ left : Nat, exp + (digitCount coeff : Int) - floor = left :=
      ⟨_, (Int.toNat_of_nonneg (by omega)).symm⟩
    have kept : dropDigits .toEven coeff (floor - exp).toNat ≤ 10 ^ left :=
      dropDigits_le_pow (by omega)
    have most : (10 : ℕ) ^ left ≤ 10 ^ precision := Nat.pow_le_pow_right (by omega) (by omega)
    have pos : 0 < 10 ^ precision := by positivity
    exact unsigned neg ⟨_, floor + 1, by omega, by omega, by omega, le_rfl⟩

/-! ### Sums of opposite signs -/

private theorem natAbs_opposite_le (neg : Bool) (m n : Nat) :
    (signed neg m + signed (!neg) n).natAbs ≤ max m n := by
  cases neg <;> simp only [signed, Bool.not_true, Bool.not_false, ↓reduceIte,
    Bool.false_eq_true] <;> omega

private theorem inRange_opposite (neg : Bool) (order : eb ≤ ea) (rangeA : InRange (ca * 10 ^ ea))
    (rangeB : InRange (cb * 10 ^ eb)) :
    InRange ((signed neg (ca * 10 ^ (ea - eb).toNat) + signed (!neg) cb).natAbs * 10 ^ eb) := by
  have unit : (0 : ℚ) ≤ 10 ^ eb := by positivity
  have most := natAbs_opposite_le neg (ca * 10 ^ (ea - eb).toNat) cb
  rcases le_total (ca * 10 ^ (ea - eb).toNat) cb with less | less
  · rw [max_eq_right less] at most
    exact rangeB.mono (mul_le_mul_of_nonneg_right (by exact_mod_cast most) unit)
  · rw [max_eq_left less] at most
    refine rangeA.mono ?_
    rw [← shift_value ca eb ea order]
    exact mul_le_mul_of_nonneg_right (by exact_mod_cast most) unit

private theorem exists_addAligned_opposite (neg : Bool) (positive : 0 < ca) (order : eb ≤ ea)
    (rangeA : InRange (ca * 10 ^ ea)) (rangeB : InRange (cb * 10 ^ eb)) :
    ∃ r, addAligned neg ca ea (!neg) cb eb = .ok r := by
  simp only [addAligned]
  split
  · -- The single unit that stands for the second number is less than the first one.
    have unit :
        InRange ((1 : ℕ) * 10 ^ (ea + min (-1) ((digitCount ca : Int) - precision - 2))) := by
      refine rangeA.mono ?_
      have one : (1 : ℚ) ≤ ca := by exact_mod_cast positive
      rw [Nat.cast_one]
      exact mul_le_mul one (zpow_le_zpow_right₀ (by norm_num) (by omega)) (by positivity)
        (by positivity)
    exact (inRange_opposite neg (by omega) rangeA unit).exists_round _
  · exact (inRange_opposite neg order rangeA rangeB).exists_round _

theorem exists_of_isFinite (finite : d.isFinite) :
    ∃ neg coeff exp, d = .finite neg coeff exp := by
  cases d with
  | finite neg coeff exp => exact ⟨neg, coeff, exp, rfl⟩
  | infinity neg => cases finite
  | nan neg signalling payload => cases finite

theorem exists_finite_of_pos (positive : 0 < d.toRat) :
    ∃ coeff exp, d = .finite false coeff exp ∧ 0 < coeff := by
  cases d with
  | finite neg coeff exp =>
    have nonzero : coeff ≠ 0 := by
      rintro rfl
      simp at positive
    cases neg with
    | false => exact ⟨coeff, exp, rfl, Nat.pos_of_ne_zero nonzero⟩
    | true =>
      rw [toRat_finite_true] at positive
      have value : (0 : ℚ) ≤ coeff * 10 ^ exp := by positivity
      linarith
  | infinity => simp [toRat] at positive
  | nan => simp [toRat] at positive

/-- A number in the range has a difference with every positive number that is no greater. -/
theorem InRange.exists_sub (range : InRange r.toRat) (positive : 0 < d.toRat)
    (le : d.toRat ≤ r.toRat) : ∃ left, r.sub d = .ok left := by
  have rangeD := range.mono le
  obtain ⟨ca, ea, rfl, posA⟩ := exists_finite_of_pos (positive.trans_le le)
  obtain ⟨cb, eb, rfl, posB⟩ := exists_finite_of_pos positive
  rw [toRat_finite_false] at range rangeD
  simp only [Decimal.sub, isNaN, Bool.or_self, Bool.false_eq_true, ↓reduceIte, add, negate,
    Bool.not_false, addFinite, posA.ne', posB.ne', and_self]
  split
  · rename_i order
    exact exists_addAligned_opposite false posA order range rangeD
  · rename_i order
    exact exists_addAligned_opposite true posB (by omega) rangeD range

/-! ### What is left of a difference -/

theorem exists_round_of_addFinite {na nb : Bool}
    (added : addFinite na ca ea nb cb eb = .ok r) :
    ∃ neg coeff exp, round neg coeff exp = .ok r := by
  simp only [addFinite, addAligned] at added
  split_ifs at added
  all_goals exact ⟨_, _, _, added⟩

private theorem isFinite_of_propagate (unordered : (a.isNaN || b.isNaN) = true)
    (told : a.propagate b = .ok r) : r.isFinite = false := by
  simp only [propagate] at told
  split at told
  · cases told
  · cases told
    cases a <;> cases b <;> first | rfl | cases unordered

/-- A difference is finite only of finite numbers. -/
theorem isFinite_of_sub (subtracted : a.sub b = .ok r) (finite : r.isFinite) :
    a.isFinite ∧ b.isFinite := by
  simp only [Decimal.sub] at subtracted
  split at subtracted
  · rename_i unordered
    rw [isFinite_of_propagate unordered subtracted] at finite
    cases finite
  · rename_i ordered
    cases a <;> cases b
    case finite.finite => exact ⟨rfl, rfl⟩
    case infinity.infinity =>
      simp only [negate, add, isNaN, Bool.or_self, Bool.false_eq_true, ↓reduceIte] at subtracted
      split at subtracted
      · cases subtracted
        cases finite
      · cases subtracted
    all_goals first
      | exact absurd rfl ordered
      | cases subtracted
        cases finite

/-- A difference that is finite lies in the range. -/
theorem inRange_of_sub (subtracted : a.sub b = .ok r) (finite : r.isFinite) :
    InRange r.toRat := by
  obtain ⟨finiteA, finiteB⟩ := isFinite_of_sub subtracted finite
  obtain ⟨na, ca, ea, rfl⟩ := exists_of_isFinite finiteA
  obtain ⟨nb, cb, eb, rfl⟩ := exists_of_isFinite finiteB
  obtain ⟨neg, coeff, exp, rounded⟩ := exists_round_of_addFinite subtracted
  exact inRange_of_round rounded

/-- What a difference leaves beyond a positive number that is no greater is told. -/
theorem exists_sub_of_le (subtracted : a.sub b = .ok r) (positive : 0 < d.toRat)
    (le : d.le? r = .ok true) : ∃ left, r.sub d = .ok left := by
  obtain ⟨coeff, exp, rfl, -⟩ := exists_finite_of_pos positive
  cases r with
  | finite neg c e =>
    rw [le?_finite rfl rfl, Except.ok.injEq, decide_eq_true_eq] at le
    exact (inRange_of_sub subtracted rfl).exists_sub positive le
  | infinity neg => exact ⟨.infinity neg, rfl⟩
  | nan => cases le

/-- Not to be greater is to be at most as great. -/
theorem gt?_eq_false_iff (finite : d.isFinite) : d.gt? r = .ok false ↔ d.le? r = .ok true := by
  cases d with
  | infinity => cases finite
  | nan => cases finite
  | finite neg coeff exp =>
    cases r with
    | finite =>
      rw [gt?, lt?_finite rfl rfl, le?_finite rfl rfl]
      simp
    | infinity neg =>
      cases neg <;>
        simp [gt?, lt?, le?, compare?, compareNumbers, isNaN, Except.map, Functor.map]
    | nan => simp [gt?, lt?, le?, compare?, isNaN, Except.map, Functor.map]

end Earmark.Decimal
