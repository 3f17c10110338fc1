import Earmark.Amount
import Mathlib

/-!
The values of decimals. Numbers compare as the rationals they stand for, and amounts, which have two
places and at most 28 digits, are added and subtracted without rounding as long as the result is an
amount again.
-/

namespace Earmark

private theorem pow_mono {m n : Nat} (le : m ≤ n) : 10 ^ m ≤ 10 ^ n :=
  Nat.pow_le_pow_right (by omega) le

/-- A number has at most `k` digits exactly when it is below ten to the `k`. -/
theorem digitCount_le_iff (n k : Nat) (positive : 0 < k) : digitCount n ≤ k ↔ n < 10 ^ k := by
  constructor
  · intro few
    exact lt_of_lt_of_le (lt_pow_digitCount n) (pow_mono few)
  · intro small
    by_cases zero : n = 0
    · subst zero
      rw [digitCount]
      simp only [Nat.ofNat_pos, ↓reduceIte]
      omega
    · by_contra many
      have low := pow_digitCount_le n (by omega)
      have high : 10 ^ k ≤ 10 ^ (digitCount n - 1) := pow_mono (by omega)
      omega

namespace Decimal

/-- The exact value; infinities and not-a-number have none and count as zero. -/
def toRat : Decimal → ℚ
  | .finite neg coeff exp => signed neg coeff * 10 ^ exp
  | _ => 0

/-- The coefficient under its sign: of an amount, the number of its cents. -/
def cents : Decimal → Int
  | .finite neg coeff _ => signed neg coeff
  | _ => 0

/-- Two places and at most as many digits as arithmetic keeps: whole cents. -/
def IsAmount : Decimal → Prop
  | .finite _ coeff exp => exp = -2 ∧ coeff < 10 ^ precision
  | _ => False

theorem IsAmount.exists_finite {d : Decimal} (amount : d.IsAmount) :
    ∃ neg coeff, d = .finite neg coeff (-2) ∧ coeff < 10 ^ precision := by
  cases d with
  | finite neg coeff exp =>
    obtain ⟨rfl, small⟩ := amount
    exact ⟨neg, coeff, rfl, small⟩
  | infinity neg => exact amount.elim
  | nan neg signalling payload => exact amount.elim

theorem signed_natAbs (neg : Bool) (coeff : Nat) : (signed neg coeff).natAbs = coeff := by
  cases neg <;> simp [signed]

theorem signed_natAbs_self (x : Int) : signed (decide (x < 0)) x.natAbs = x := by
  by_cases negative : x < 0
  · simp only [signed, negative, decide_true, ↓reduceIte]
    omega
  · simp only [signed, negative, decide_false, Bool.false_eq_true, ↓reduceIte]
    omega

theorem IsAmount.toRat_eq {d : Decimal} (amount : d.IsAmount) : d.toRat = d.cents / 100 := by
  obtain ⟨neg, coeff, rfl, -⟩ := amount.exists_finite
  simp only [toRat, cents, zpow_neg, div_eq_mul_inv]
  norm_num

theorem IsAmount.isNaN_eq {d : Decimal} (amount : d.IsAmount) : d.isNaN = false := by
  obtain ⟨neg, coeff, rfl, -⟩ := amount.exists_finite
  rfl

theorem IsAmount.isSignalling_eq {d : Decimal} (amount : d.IsAmount) : d.isSignalling = false := by
  obtain ⟨neg, coeff, rfl, -⟩ := amount.exists_finite
  rfl

theorem IsAmount.natAbs_lt {d : Decimal} (amount : d.IsAmount) :
    d.cents.natAbs < 10 ^ precision := by
  obtain ⟨neg, coeff, rfl, small⟩ := amount.exists_finite
  simpa only [cents, signed_natAbs] using small

theorem isAmount_zero : zero.IsAmount := ⟨rfl, by decide⟩

@[simp] theorem cents_zero : zero.cents = 0 := rfl

/-! ### Order -/

private theorem compare_zero_left (b : Nat) (eb : Int) :
    compare 0 b = compare (0 : ℚ) (b * 10 ^ eb) := by
  rcases Nat.eq_zero_or_pos b with rfl | positive
  · simp
  · have value : (0 : ℚ) < b * 10 ^ eb := by positivity
    rw [compare_lt_iff_lt.mpr value, compare_lt_iff_lt.mpr positive]

theorem value_lt (a : Nat) (ea : Int) : (a : ℚ) * 10 ^ ea < 10 ^ (ea + digitCount a) := by
  have small : (a : ℚ) < 10 ^ digitCount a := by exact_mod_cast lt_pow_digitCount a
  rw [zpow_add₀ (by norm_num), zpow_natCast, mul_comm]
  exact mul_lt_mul_of_pos_left small (by positivity)

theorem le_value (b : Nat) (eb : Int) (positive : 0 < b) :
    (10 : ℚ) ^ (eb + digitCount b - 1) ≤ b * 10 ^ eb := by
  have large : ((10 : ℚ) ^ (digitCount b - 1)) ≤ b := by
    exact_mod_cast pow_digitCount_le b positive
  have count := digitCount_pos b
  have split : eb + digitCount b - 1 = eb + ((digitCount b - 1 : Nat) : Int) := by omega
  rw [split, zpow_add₀ (by norm_num), zpow_natCast, mul_comm]
  exact mul_le_mul_of_nonneg_right large (by positivity)

private theorem value_lt_of_place_lt {a b : Nat} {ea eb : Int} (positive : 0 < b)
    (places : ea + digitCount a < eb + digitCount b) : (a : ℚ) * 10 ^ ea < b * 10 ^ eb := by
  have between : (10 : ℚ) ^ (ea + digitCount a) ≤ 10 ^ (eb + digitCount b - 1) :=
    zpow_le_zpow_right₀ (by norm_num) (by omega)
  exact lt_of_lt_of_le (value_lt a ea) (between.trans (le_value b eb positive))

private theorem compare_scaled (a b : Nat) (factor : ℚ) (positive : 0 < factor) :
    compare a b = compare (a * factor) (b * factor) := by
  rcases lt_trichotomy a b with less | rfl | greater
  · have value : (a : ℚ) * factor < b * factor :=
      mul_lt_mul_of_pos_right (by exact_mod_cast less) positive
    rw [compare_lt_iff_lt.mpr less, compare_lt_iff_lt.mpr value]
  · rw [compare_eq_iff_eq.mpr rfl, compare_eq_iff_eq.mpr rfl]
  · have value : (b : ℚ) * factor < a * factor :=
      mul_lt_mul_of_pos_right (by exact_mod_cast greater) positive
    rw [compare_gt_iff_gt.mpr greater, compare_gt_iff_gt.mpr value]

theorem shift_value (b : Nat) (ea eb : Int) (le : ea ≤ eb) :
    ((b * 10 ^ (eb - ea).toNat : Nat) : ℚ) * 10 ^ ea = b * 10 ^ eb := by
  have exponent : ((eb - ea).toNat : Int) + ea = eb := by omega
  rw [Nat.cast_mul, Nat.cast_pow, mul_assoc, Nat.cast_ofNat, ← zpow_natCast,
    ← zpow_add₀ (by norm_num), exponent]

/-- Magnitudes compare as their values. -/
theorem compareMagnitude_eq (a : Nat) (ea : Int) (b : Nat) (eb : Int) :
    compareMagnitude a ea b eb = compare ((a : ℚ) * 10 ^ ea) (b * 10 ^ eb) := by
  unfold compareMagnitude
  by_cases aZero : a = 0
  · subst aZero
    simpa using compare_zero_left b eb
  · have aPositive : (0 : ℚ) < a * 10 ^ ea := by
      have : 0 < a := by omega
      positivity
    simp only [aZero, ↓reduceIte]
    by_cases bZero : b = 0
    · subst bZero
      simpa using (compare_gt_iff_gt.mpr aPositive).symm
    · simp only [bZero, ↓reduceIte]
      by_cases below : ea + digitCount a < eb + digitCount b
      · have value := value_lt_of_place_lt (by omega) below
        simpa only [below, ↓reduceIte] using (compare_lt_iff_lt.mpr value).symm
      · simp only [below, ↓reduceIte]
        by_cases above : eb + digitCount b < ea + digitCount a
        · have value := value_lt_of_place_lt (by omega) above
          simpa only [above, ↓reduceIte] using (compare_gt_iff_gt.mpr value).symm
        · simp only [above, ↓reduceIte]
          by_cases order : ea ≤ eb
          · simp only [order, ↓reduceIte]
            rw [compare_scaled _ _ ((10 : ℚ) ^ ea) (by positivity), shift_value b ea eb order]
          · simp only [order, ↓reduceIte]
            rw [compare_scaled _ _ ((10 : ℚ) ^ eb) (by positivity),
              shift_value a eb ea (by omega)]

private theorem toRat_finite_of_pos {neg : Bool} {coeff : Nat} {exp : Int}
    (sign : (neg && coeff != 0) = false) :
    (finite neg coeff exp).toRat = coeff * 10 ^ exp := by
  cases neg with
  | false => simp [toRat, signed]
  | true =>
    have zero : coeff = 0 := by simpa using sign
    simp [toRat, signed, zero]

private theorem toRat_finite_of_neg {neg : Bool} {coeff : Nat} {exp : Int}
    (sign : (neg && coeff != 0) = true) :
    (finite neg coeff exp).toRat = -(coeff * 10 ^ exp) ∧ (finite neg coeff exp).toRat < 0 := by
  obtain ⟨rfl, nonzero⟩ : neg = true ∧ coeff ≠ 0 := by simpa using sign
  have positive : (0 : ℚ) < coeff * 10 ^ exp := by
    have : 0 < coeff := by omega
    positivity
  have value : (finite true coeff exp).toRat = -(coeff * 10 ^ exp) := by
    simp [toRat, signed]
  exact ⟨value, by rw [value]; linarith⟩

private theorem toRat_finite_nonneg {neg : Bool} {coeff : Nat} {exp : Int}
    (sign : (neg && coeff != 0) = false) : 0 ≤ (finite neg coeff exp).toRat := by
  rw [toRat_finite_of_pos sign]
  positivity

/-- Finite numbers compare as their values. -/
theorem compareNumbers_finite (na : Bool) (a : Nat) (ea : Int) (nb : Bool) (b : Nat) (eb : Int) :
    compareNumbers (.finite na a ea) (.finite nb b eb) =
      compare (finite na a ea).toRat (finite nb b eb).toRat := by
  simp only [compareNumbers]
  cases signA : (na && a != 0) <;> cases signB : (nb && b != 0)
  · rw [compareMagnitude_eq, toRat_finite_of_pos signA, toRat_finite_of_pos signB]
  · have less : (finite nb b eb).toRat < (finite na a ea).toRat :=
      lt_of_lt_of_le (toRat_finite_of_neg signB).2 (toRat_finite_nonneg signA)
    exact (compare_gt_iff_gt.mpr less).symm
  · have less : (finite na a ea).toRat < (finite nb b eb).toRat :=
      lt_of_lt_of_le (toRat_finite_of_neg signA).2 (toRat_finite_nonneg signB)
    exact (compare_lt_iff_lt.mpr less).symm
  · dsimp only
    rw [compareMagnitude_eq, (toRat_finite_of_neg signA).1, (toRat_finite_of_neg signB).1]
    rcases lt_trichotomy ((b : ℚ) * 10 ^ eb) (a * 10 ^ ea) with less | same | greater
    · rw [compare_lt_iff_lt.mpr less, compare_lt_iff_lt.mpr (neg_lt_neg less)]
    · rw [same, compare_eq_iff_eq.mpr rfl, compare_eq_iff_eq.mpr rfl]
    · rw [compare_gt_iff_gt.mpr greater, compare_gt_iff_gt.mpr (neg_lt_neg greater)]

/-- Finite numbers compare without a fault, as their values. -/
theorem compare?_finite {a b : Decimal} (finiteA : a.isFinite) (finiteB : b.isFinite) :
    compare? a b = .ok (compare a.toRat b.toRat) := by
  obtain ⟨na, ca, ea, rfl⟩ : ∃ neg coeff exp, a = .finite neg coeff exp := by
    cases a with
    | finite neg coeff exp => exact ⟨neg, coeff, exp, rfl⟩
    | infinity neg => cases finiteA
    | nan neg signalling payload => cases finiteA
  obtain ⟨nb, cb, eb, rfl⟩ : ∃ neg coeff exp, b = .finite neg coeff exp := by
    cases b with
    | finite neg coeff exp => exact ⟨neg, coeff, exp, rfl⟩
    | infinity neg => cases finiteB
    | nan neg signalling payload => cases finiteB
  simp only [compare?, isNaN, Bool.or_self, Bool.false_eq_true, ↓reduceIte, compareNumbers_finite]

theorem lt?_finite {a b : Decimal} (finiteA : a.isFinite) (finiteB : b.isFinite) :
    lt? a b = .ok (decide (a.toRat < b.toRat)) := by
  rw [lt?, compare?_finite finiteA finiteB]
  by_cases less : a.toRat < b.toRat
  · simp [Functor.map, Except.map, less, compare_lt_iff_lt.mpr less]
  · have other : compare a.toRat b.toRat ≠ .lt := fun eq => less (compare_lt_iff_lt.mp eq)
    simp [Functor.map, Except.map, less, other]

theorem le?_finite {a b : Decimal} (finiteA : a.isFinite) (finiteB : b.isFinite) :
    le? a b = .ok (decide (a.toRat ≤ b.toRat)) := by
  rw [le?, compare?_finite finiteA finiteB]
  by_cases le : a.toRat ≤ b.toRat
  · have other : compare a.toRat b.toRat ≠ .gt :=
      fun eq => absurd (compare_gt_iff_gt.mp eq) (not_lt.mpr le)
    simp [Functor.map, Except.map, le, other]
  · simp [Functor.map, Except.map, le, compare_gt_iff_gt.mpr (not_le.mp le)]

theorem eq?_finite {a b : Decimal} (finiteA : a.isFinite) (finiteB : b.isFinite) :
    eq? a b = .ok (decide (a.toRat = b.toRat)) := by
  cases a with
  | infinity neg => cases finiteA
  | nan neg signalling payload => cases finiteA
  | finite na ca ea =>
    cases b with
    | infinity neg => cases finiteB
    | nan neg signalling payload => cases finiteB
    | finite nb cb eb =>
      simp only [eq?, isSignalling, isNaN, Bool.or_self, Bool.false_eq_true, ↓reduceIte,
        compareNumbers_finite, Except.ok.injEq]
      by_cases same : (finite na ca ea).toRat = (finite nb cb eb).toRat
      · simp [same]
      · simp [same]

theorem IsAmount.isFinite_eq {d : Decimal} (amount : d.IsAmount) : d.isFinite = true := by
  obtain ⟨neg, coeff, rfl, -⟩ := amount.exists_finite
  rfl

@[simp] theorem toRat_ofNat_zero : (ofNat 0).toRat = 0 := by simp [ofNat, toRat, signed]

private theorem div_hundred_lt_iff (x y : Int) : (x : ℚ) / 100 < y / 100 ↔ x < y := by
  rw [div_lt_div_iff_of_pos_right (by norm_num)]
  exact Int.cast_lt

theorem IsAmount.toRat_le_iff {a b : Decimal} (amountA : a.IsAmount) (amountB : b.IsAmount) :
    a.toRat ≤ b.toRat ↔ a.cents ≤ b.cents := by
  rw [amountA.toRat_eq, amountB.toRat_eq, ← not_lt, div_hundred_lt_iff, not_lt]

theorem IsAmount.toRat_pos {d : Decimal} (amount : d.IsAmount) (positive : 0 < d.cents) :
    0 < d.toRat := by
  rw [amount.toRat_eq]
  exact div_pos (by exact_mod_cast positive) (by norm_num)

theorem sum_toRat {ds : List Decimal} (amounts : ∀ d ∈ ds, d.IsAmount) :
    (ds.map toRat).sum = ((ds.map cents).sum : ℤ) / 100 := by
  induction ds with
  | nil => simp
  | cons d rest ih =>
    have tail := ih fun other mem => amounts other (by simp [mem])
    simp only [List.map_cons, List.sum_cons, tail, (amounts d (by simp)).toRat_eq, Int.cast_add]
    ring

theorem IsAmount.le_max_zero {d : Decimal} (amount : d.IsAmount) {x : ℤ}
    (le : x ≤ max d.cents 0) : (x : ℚ) / 100 ≤ max d.toRat 0 := by
  rw [amount.toRat_eq]
  rcases le_max_iff.mp le with within | negative
  · have cast : (x : ℚ) ≤ d.cents := by exact_mod_cast within
    exact le_max_of_le_left (by linarith)
  · have cast : (x : ℚ) ≤ 0 := by exact_mod_cast negative
    exact le_max_of_le_right (by linarith)

/-- Whether an amount is greater than another one, in cents. -/
theorem IsAmount.gt?_eq {a b : Decimal} (amountA : a.IsAmount) (amountB : b.IsAmount) :
    a.gt? b = .ok (decide (b.cents < a.cents)) := by
  rw [gt?, lt?_finite amountB.isFinite_eq amountA.isFinite_eq, amountA.toRat_eq, amountB.toRat_eq]
  simp only [div_hundred_lt_iff]

theorem IsAmount.le?_zero {a : Decimal} (amount : a.IsAmount) :
    a.le? (ofNat 0) = .ok (decide (a.cents ≤ 0)) := by
  rw [le?_finite amount.isFinite_eq rfl, amount.toRat_eq, toRat_ofNat_zero]
  have scale := div_hundred_lt_iff 0 a.cents
  simp only [Int.cast_zero, zero_div] at scale
  simp only [← not_lt, scale]

theorem IsAmount.gt?_zero {a : Decimal} (amount : a.IsAmount) :
    a.gt? (ofNat 0) = .ok (decide (0 < a.cents)) := by
  rw [gt?, lt?_finite rfl amount.isFinite_eq, amount.toRat_eq, toRat_ofNat_zero]
  have scale := div_hundred_lt_iff 0 a.cents
  simp only [Int.cast_zero, zero_div] at scale
  simp only [scale]

theorem IsAmount.eq?_eq {a b : Decimal} (amountA : a.IsAmount) (amountB : b.IsAmount) :
    a.eq? b = .ok (decide (a.cents = b.cents)) := by
  have compared := compare?_finite amountA.isFinite_eq amountB.isFinite_eq
  simp only [compare?, amountA.isNaN_eq, amountB.isNaN_eq, Bool.or_self, Bool.false_eq_true,
    ↓reduceIte, Except.ok.injEq] at compared
  simp only [eq?, amountA.isNaN_eq, amountB.isNaN_eq, amountA.isSignalling_eq,
    amountB.isSignalling_eq, Bool.or_self, Bool.false_eq_true, ↓reduceIte, compared,
    amountA.toRat_eq, amountB.toRat_eq]
  by_cases same : a.cents = b.cents
  · simp [same]
  · have other : (a.cents : ℚ) / 100 ≠ b.cents / 100 := by
      intro eq
      exact same (by exact_mod_cast (div_left_inj' (by norm_num)).mp eq)
    have unequal : compare ((a.cents : ℚ) / 100) (b.cents / 100) ≠ .eq :=
      fun eq => other (compare_eq_iff_eq.mp eq)
    simp [same, unequal]

/-! ### Sums and differences -/

private theorem round_cents (neg : Bool) (coeff : Nat) (small : coeff < 10 ^ precision) :
    round neg coeff (-2) = .ok (.finite neg coeff (-2)) := by
  unfold round
  by_cases zero : coeff = 0
  · simp [zero, minExponent, maxExponent, precision]
  · have digits : digitCount coeff ≤ 28 :=
      (digitCount_le_iff coeff 28 (by decide)).mpr (by simpa only [precision] using small)
    have inRange :
        ¬(maxExponent - (precision - 1) < -2 + (digitCount coeff : Int) - precision) := by
      simp only [maxExponent, precision]
      omega
    have kept : max (-2 + (digitCount coeff : Int) - precision) minExponent ≤ -2 := by
      simp only [minExponent, precision]
      omega
    simp only [zero, ↓reduceIte, inRange, kept]

theorem addAligned_cents (na : Bool) (a : Nat) (nb : Bool) (b : Nat)
    (small : (signed na a + signed nb b).natAbs < 10 ^ precision) :
    addAligned na a (-2) nb b (-2) =
      .ok (.finite (decide (signed na a + signed nb b < 0)) (signed na a + signed nb b).natAbs
        (-2)) := by
  have countA := digitCount_pos a
  have countB := digitCount_pos b
  have near : ¬((digitCount b : Int) + -2 - 1 <
      -2 + min (-1) ((digitCount a : Int) - precision - 2)) := by omega
  simp only [addAligned, near, ↓reduceIte]
  simpa using round_cents _ _ small

/-- Amounts are added exactly as long as the sum is an amount. -/
theorem IsAmount.exists_add {a b : Decimal} (amountA : a.IsAmount) (amountB : b.IsAmount)
    (small : (a.cents + b.cents).natAbs < 10 ^ precision) :
    ∃ sum, a.add b = .ok sum ∧ sum.IsAmount ∧ sum.cents = a.cents + b.cents := by
  obtain ⟨na, ca, rfl, smallA⟩ := amountA.exists_finite
  obtain ⟨nb, cb, rfl, smallB⟩ := amountB.exists_finite
  simp only [cents] at small ⊢
  simp only [add, isNaN, Bool.or_self, Bool.false_eq_true, ↓reduceIte, addFinite, min_self, le_refl]
  by_cases aZero : ca = 0
  · by_cases bZero : cb = 0
    · subst aZero bZero
      refine ⟨.finite (na && nb) 0 (-2), ?_, ⟨rfl, by decide⟩, by simp [signed]⟩
      simpa using round_cents (na && nb) 0 (by decide)
    · subst aZero
      have exponent : max (-2 : Int) (-2 - (precision : Int) - 1) = -2 := by
        simp only [precision]; omega
      refine ⟨.finite nb cb (-2), ?_, ⟨rfl, smallB⟩, by simp [signed]⟩
      simpa [bZero, exponent] using round_cents nb cb smallB
  · by_cases bZero : cb = 0
    · subst bZero
      have exponent : max (-2 : Int) (-2 - (precision : Int) - 1) = -2 := by
        simp only [precision]; omega
      refine ⟨.finite na ca (-2), ?_, ⟨rfl, smallA⟩, by simp [signed]⟩
      simpa [aZero, exponent] using round_cents na ca smallA
    · simp only [aZero, bZero, and_self, ↓reduceIte]
      exact ⟨_, addAligned_cents na ca nb cb small, ⟨rfl, small⟩, signed_natAbs_self _⟩

theorem IsAmount.negate {d : Decimal} (amount : d.IsAmount) :
    d.negate.IsAmount ∧ d.negate.cents = -d.cents := by
  obtain ⟨neg, coeff, rfl, small⟩ := amount.exists_finite
  exact ⟨⟨rfl, small⟩, by cases neg <;> simp [Decimal.negate, cents, signed]⟩

/-- Amounts are subtracted exactly as long as the difference is an amount. -/
theorem IsAmount.exists_sub {a b : Decimal} (amountA : a.IsAmount) (amountB : b.IsAmount)
    (small : (a.cents - b.cents).natAbs < 10 ^ precision) :
    ∃ difference, a.sub b = .ok difference ∧ difference.IsAmount ∧
      difference.cents = a.cents - b.cents := by
  obtain ⟨negated, opposite⟩ := amountB.negate
  obtain ⟨sum, added, amount, value⟩ :=
    amountA.exists_add negated (by rw [opposite]; simpa [sub_eq_add_neg] using small)
  refine ⟨sum, ?_, amount, by rw [value, opposite, sub_eq_add_neg]⟩
  simpa only [Decimal.sub, amountA.isNaN_eq, amountB.isNaN_eq, Bool.or_self, Bool.false_eq_true,
    ↓reduceIte] using added

theorem isAmount_ofCents {c : Int} (small : c.natAbs < 10 ^ precision) : (ofCents c).IsAmount :=
  ⟨rfl, small⟩

@[simp] theorem cents_ofCents (c : Int) : (ofCents c).cents = c := signed_natAbs_self c

/-- An amount other than nothing is told by its cents; only a zero may have a sign of its own. -/
theorem IsAmount.eq_ofCents {d : Decimal} (amount : d.IsAmount) (something : d.cents ≠ 0) :
    d = ofCents d.cents := by
  obtain ⟨neg, coeff, rfl, -⟩ := amount.exists_finite
  cases neg with
  | false => simp [cents, ofCents, signed]
  | true =>
    have positive : 0 < coeff := by simpa [cents, signed, Nat.pos_iff_ne_zero] using something
    simp [cents, ofCents, signed, positive]

/-- Where something is added to an amount, the sum is told by its cents, be it zero or not. -/
theorem IsAmount.add_eq_ofCents {a b : Decimal} (amountA : a.IsAmount) (amountB : b.IsAmount)
    (something : b.cents ≠ 0) (small : (a.cents + b.cents).natAbs < 10 ^ precision) :
    a.add b = .ok (ofCents (a.cents + b.cents)) := by
  by_cases cancels : a.cents + b.cents = 0
  · obtain ⟨na, ca, rfl, -⟩ := amountA.exists_finite
    obtain ⟨nb, cb, rfl, -⟩ := amountB.exists_finite
    simp only [cents] at something cancels small ⊢
    have nonzeroA : ca ≠ 0 := by
      rintro rfl
      simp only [signed, Nat.cast_zero, neg_zero, ite_self, zero_add] at cancels something
      exact something cancels
    have nonzeroB : cb ≠ 0 := by
      rintro rfl
      simp [signed] at something
    simp only [add, isNaN, Bool.or_self, Bool.false_eq_true, ↓reduceIte, addFinite, nonzeroA,
      nonzeroB, and_self, le_refl, addAligned_cents na ca nb cb small, ofCents]
  · obtain ⟨sum, added, amount, value⟩ := amountA.exists_add amountB small
    rw [← value] at cancels
    rw [added, ← value]
    exact congrArg Except.ok (amount.eq_ofCents cancels)

theorem IsAmount.sub_eq_ofCents {a b : Decimal} (amountA : a.IsAmount) (amountB : b.IsAmount)
    (something : b.cents ≠ 0) (small : (a.cents - b.cents).natAbs < 10 ^ precision) :
    a.sub b = .ok (ofCents (a.cents - b.cents)) := by
  obtain ⟨negated, opposite⟩ := amountB.negate
  have added := amountA.add_eq_ofCents negated (by omega)
    (by rw [opposite]; simpa [sub_eq_add_neg] using small)
  rw [opposite, ← sub_eq_add_neg] at added
  simpa only [Decimal.sub, amountA.isNaN_eq, amountB.isNaN_eq, Bool.or_self, Bool.false_eq_true,
    ↓reduceIte] using added

/-! ### Numbers brought to the cent -/

private theorem scaled_lt {coeff : Nat} {exp : Int} (whole : -2 ≤ exp)
    (fits : exp + 2 + digitCount coeff ≤ precision) :
    coeff * 10 ^ (exp + 2).toNat < 10 ^ precision := by
  have small := lt_pow_digitCount coeff
  have scaled : coeff * 10 ^ (exp + 2).toNat < 10 ^ digitCount coeff * 10 ^ (exp + 2).toNat :=
    Nat.mul_lt_mul_of_pos_right small (by positivity)
  rw [← pow_add] at scaled
  exact lt_of_lt_of_le scaled (pow_mono (by omega))

/-- Rounding to the cent gives an amount or not-a-number. -/
theorem isAmount_of_toCents {d cents : Decimal} (rounded : d.toCents = .ok cents)
    (isFinite : cents.isFinite) : cents.IsAmount := by
  cases d with
  | infinity neg => simp [toCents] at rounded
  | nan neg signalling payload =>
    simp only [toCents] at rounded
    split at rounded
    · cases rounded
    · cases rounded
      simp [shortenPayload, Decimal.isFinite] at isFinite
  | finite neg coeff exp =>
    simp only [toCents] at rounded
    split at rounded
    · cases rounded
      exact ⟨rfl, by decide⟩
    · split at rounded
      · cases rounded
      · rename_i fits
        split at rounded
        · rename_i whole
          cases rounded
          exact ⟨rfl, scaled_lt whole (by omega)⟩
        · split at rounded
          · cases rounded
            exact ⟨rfl, by decide⟩
          · split at rounded
            · cases rounded
            · rename_i digits
              cases rounded
              exact ⟨rfl, (digitCount_le_iff _ _ (by decide)).mp (by omega)⟩

/-- Rounding to the cent keeps an amount as it is. -/
theorem IsAmount.toCents_eq {d : Decimal} (amount : d.IsAmount) : d.toCents = .ok d := by
  obtain ⟨neg, coeff, rfl, small⟩ := amount.exists_finite
  simp only [toCents]
  by_cases zero : coeff = 0
  · simp [zero]
  · have digits := (digitCount_le_iff coeff precision (by decide)).mpr small
    have fits : ¬((precision : Int) < -2 + 2 + digitCount coeff) := by omega
    simp only [zero, ↓reduceIte, fits]
    simp

theorem IsAmount.toAmount_eq {d : Decimal} (amount : d.IsAmount) : d.toAmount = .ok d := by
  simp only [toAmount, amountOf, amount.toCents_eq, amount.isFinite_eq, ↓reduceIte]

end Decimal

theorem isAmount_of_amountOf {shown : String} {d amount : Decimal}
    (brought : amountOf shown d = .ok amount) : amount.IsAmount := by
  simp only [amountOf] at brought
  split at brought
  · cases brought
  · rename_i cents rounded
    split at brought
    · rename_i isFinite
      cases brought
      exact Decimal.isAmount_of_toCents rounded isFinite
    · cases brought

/-- Whatever number is brought to the cent, the result is an amount. -/
theorem isAmount_of_toAmount {n : Numeral} {amount : Decimal} (brought : n.toAmount = .ok amount) :
    amount.IsAmount := by
  cases n with
  | absent => cases brought
  | decimal d => exact isAmount_of_amountOf brought
  | whole k => exact isAmount_of_amountOf brought
  | flag b => exact isAmount_of_amountOf brought
  | float x =>
    simp only [Numeral.toAmount] at brought
    split at brought
    · exact isAmount_of_amountOf brought
    · cases brought
  | text s =>
    simp only [Numeral.toAmount] at brought
    split at brought
    · exact isAmount_of_amountOf brought
    · cases brought

theorem Numeral.toAmount_decimal {d : Decimal} (amount : d.IsAmount) :
    (Numeral.decimal d).toAmount = .ok d :=
  amount.toAmount_eq

/-! ### Results of checks -/

@[simp] theorem ok_bind {ε α β : Type} (a : α) (next : α → Except ε β) :
    (Except.ok a >>= next) = next a := rfl

@[simp] theorem error_bind {ε α β : Type} (failure : ε) (next : α → Except ε β) :
    (Except.error failure >>= next) = .error failure := rfl

theorem bind_ok_iff {ε α β : Type} {first : Except ε α} {next : α → Except ε β} {b : β} :
    first >>= next = .ok b ↔ ∃ a, first = .ok a ∧ next a = .ok b := by
  cases first with
  | error failure => simp [bind, Except.bind]
  | ok a => simp [bind, Except.bind]

theorem map_ok_iff {ε α β : Type} {f : α → β} {result : Except ε α} {b : β} :
    f <$> result = .ok b ↔ ∃ a, result = .ok a ∧ f a = b := by
  cases result <;> simp [Functor.map, Except.map]

theorem eq_ok_of_toOption {ε α : Type} {result : Except ε α} {a : α}
    (done : result.toOption = some a) : result = .ok a := by
  cases result with
  | error failure => cases done
  | ok other => exact congrArg Except.ok (Option.some.inj done)

namespace Failure

@[simp] theorem ofDecimal_ok {α : Type} (a : α) : ofDecimal (.ok a) = .ok a := rfl

theorem ofDecimal_ok_iff {α : Type} {result : Except Decimal.Fault α} {a : α} :
    ofDecimal result = .ok a ↔ result = .ok a := by
  cases result <;> simp [ofDecimal, Except.mapError]

theorem require_ok_iff {α : Type} {failure : Failure} {found : Option α} {a : α} :
    require failure found = .ok a ↔ found = some a := by
  cases found <;> simp [require]

end Failure

end Earmark
