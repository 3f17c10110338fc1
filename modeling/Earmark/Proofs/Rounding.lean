import Earmark.Proofs.Cents

/-!
Rounding keeps to bounds. A number between nothing and an amount is still there once rounded, so the
part of an amount that a rate takes is an amount between nothing and the whole
(`applyRate_between`). Amounts are summed exactly while their total is an amount (`exists_sum`).
-/

namespace Earmark

/-! ### Quotients -/

private theorem roundQuotient_le_succ (ties : Ties) (n d : Nat) :
    roundQuotient ties n d ≤ n / d + 1 := by
  cases ties <;> simp only [roundQuotient] <;> split_ifs <;> omega

/-- Rounding a quotient does not pass a whole number that the quotient keeps to. -/
theorem roundQuotient_le {ties : Ties} {n d k : Nat} (positive : 0 < d) (le : n ≤ k * d) :
    roundQuotient ties n d ≤ k := by
  have floor : n / d ≤ k := Nat.div_le_of_le_mul (by rwa [mul_comm])
  rcases floor.lt_or_eq with below | reached
  · exact (roundQuotient_le_succ ties n d).trans below
  · -- The quotient is `k` already, so there is no remainder that could round it up.
    have exact : n % d = 0 := by
      have parts := Nat.div_add_mod n d
      rw [reached, mul_comm] at parts
      omega
    simp [roundQuotient, exact, positive, reached]

namespace Decimal

variable {neg : Bool} {coeff a : Nat} {exp : Int} {d result : Decimal}

private theorem le_of_value_le {k : Nat} {floor : Int} (below : exp ≤ floor)
    (le : (coeff : ℚ) * 10 ^ exp ≤ k * 10 ^ floor) : coeff ≤ k * 10 ^ (floor - exp).toNat := by
  rw [← shift_value k exp floor below] at le
  exact_mod_cast le_of_mul_le_mul_right le (by positivity)

/-- Digits dropped below a place do not bring a number past one that has no digits there. -/
private theorem dropDigits_le (ties : Ties) {k : Nat} {floor : Int} (below : exp ≤ floor)
    (le : (coeff : ℚ) * 10 ^ exp ≤ k * 10 ^ floor) :
    dropDigits ties coeff (floor - exp).toNat ≤ k :=
  roundQuotient_le (by positivity) (le_of_value_le below le)

theorem toRat_eq_zero_or (nonneg : 0 ≤ (finite neg coeff exp).toRat) :
    coeff = 0 ∨ neg = false := by
  by_contra! other
  obtain ⟨nonzero, sign⟩ := other
  have value : (0 : ℚ) < coeff * 10 ^ exp := by
    have : 0 < coeff := by omega
    positivity
  simp only [toRat, signed, Bool.eq_true_of_not_eq_false sign, ↓reduceIte] at nonneg
  push_cast at nonneg
  linarith

@[simp] theorem toRat_finite_zero : (finite neg 0 exp).toRat = 0 := by
  cases neg <;> simp [toRat, signed]

theorem toRat_finite_false : (finite false coeff exp).toRat = coeff * 10 ^ exp := by
  simp [toRat, signed]

theorem toRat_finite_true : (finite true coeff exp).toRat = -(coeff * 10 ^ exp) := by
  simp [toRat, signed]

theorem abs_toRat : |(finite neg coeff exp).toRat| = coeff * 10 ^ exp := by
  have nonneg : (0 : ℚ) ≤ coeff * 10 ^ exp := by positivity
  cases neg with
  | false => rw [toRat_finite_false, abs_of_nonneg nonneg]
  | true => rw [toRat_finite_true, abs_neg, abs_of_nonneg nonneg]

/-- The leading digit of a number is at no greater place than one that bounds it can have. -/
private theorem place_le {place : Int} (small : a < 10 ^ precision) (positive : 0 < coeff)
    (le : (coeff : ℚ) * 10 ^ exp ≤ a * 10 ^ place) :
    exp + digitCount coeff - precision ≤ place := by
  have bound : (a : ℚ) < 10 ^ (28 : ℤ) := by exact_mod_cast small
  have below : (10 : ℚ) ^ (exp + digitCount coeff - 1) < 10 ^ (28 + place) :=
    calc (10 : ℚ) ^ (exp + digitCount coeff - 1) ≤ coeff * 10 ^ exp := le_value coeff exp positive
      _ ≤ a * 10 ^ place := le
      _ < 10 ^ (28 : ℤ) * 10 ^ place := mul_lt_mul_of_pos_right bound (by positivity)
      _ = 10 ^ (28 + place) := by rw [zpow_add₀ (by norm_num)]
  have less := (zpow_lt_zpow_iff_right₀ (by norm_num)).mp below
  simp only [precision]
  omega

/-- Rounding to the precision does not bring a number past one that needs no rounding. -/
theorem round_le {place : Int} (small : a < 10 ^ precision) (low : minExponent ≤ place)
    (le : (coeff : ℚ) * 10 ^ exp ≤ a * 10 ^ place) (rounded : round neg coeff exp = .ok result) :
    ∃ kept exp', result = .finite neg kept exp' ∧ (kept : ℚ) * 10 ^ exp' ≤ a * 10 ^ place := by
  have room : (0 : ℚ) ≤ a * 10 ^ place := by positivity
  by_cases zero : coeff = 0
  · simp only [round, zero, ↓reduceIte, Except.ok.injEq] at rounded
    exact ⟨0, _, rounded.symm, by simpa using room⟩
  · have least := place_le small (by omega) le
    simp only [round, zero, ↓reduceIte] at rounded
    generalize exact : max (exp + (digitCount coeff : Int) - precision) minExponent = floor
      at rounded
    have below : floor ≤ place := by omega
    split at rounded
    · cases rounded
    · split at rounded
      · cases rounded
        exact ⟨coeff, exp, rfl, le⟩
      · split at rounded
        · cases rounded
          exact ⟨0, floor, rfl, by simpa using room⟩
        · -- Below its own place the bound has no digits, so it bounds what is kept there as well.
          have scaled := shift_value a floor place below
          have kept := dropDigits_le .toEven (by omega) (le.trans_eq scaled.symm)
          generalize dropDigits .toEven coeff (floor - exp).toNat = digits at rounded kept
          have value : (digits : ℚ) * 10 ^ floor ≤ a * 10 ^ place := by
            rw [← scaled]
            exact mul_le_mul_of_nonneg_right (by exact_mod_cast kept) (by positivity)
          split at rounded
          · cases rounded
            exact ⟨digits, floor, rfl, value⟩
          · split at rounded
            · cases rounded
            · cases rounded
              refine ⟨digits / 10, floor + 1, rfl, le_trans ?_ value⟩
              have tenth : (((digits / 10 : Nat) : ℚ)) * 10 ≤ digits := by
                exact_mod_cast Nat.div_mul_le_self digits 10
              rw [zpow_add_one₀ (by norm_num), mul_comm ((10 : ℚ) ^ floor), ← mul_assoc]
              exact mul_le_mul_of_nonneg_right tenth (by positivity)

/-- A number is rounded where it is no greater than one that needs no rounding. -/
theorem exists_round_of_le {place : Int} (neg : Bool) (small : a < 10 ^ precision)
    (low : minExponent ≤ place) (top : place ≤ maxExponent - (precision - 1))
    (le : (coeff : ℚ) * 10 ^ exp ≤ a * 10 ^ place) : ∃ result, round neg coeff exp = .ok result := by
  by_cases zero : coeff = 0
  · exact ⟨_, if_pos zero⟩
  · have least := place_le small (by omega) le
    have inRange : ¬(maxExponent - (precision - 1) <
        exp + (digitCount coeff : Int) - precision) := by omega
    simp only [round, zero, ↓reduceIte, inRange]
    generalize exact : max (exp + (digitCount coeff : Int) - precision) minExponent = floor
    have below : floor ≤ place := by omega
    split
    · exact ⟨_, rfl⟩
    · split
      · exact ⟨_, rfl⟩
      · have scaled := shift_value a floor place below
        have kept := dropDigits_le .toEven (by omega) (le.trans_eq scaled.symm)
        generalize dropDigits .toEven coeff (floor - exp).toNat = digits at kept
        split
        · exact ⟨_, rfl⟩
        · rename_i many
          -- Only a bound with digits above the place lets more digits be kept there.
          have more : floor ≠ place := by
            rintro rfl
            have few := (digitCount_le_iff digits precision (by decide)).mpr
              (lt_of_le_of_lt (by simpa using kept) small)
            exact many few
          exact ⟨_, if_neg (by omega)⟩

/-- Rounded to the precision, a number between nothing and an amount is still between them. -/
theorem round_between (small : a < 10 ^ precision) (nonneg : 0 ≤ (finite neg coeff exp).toRat)
    (le : (finite neg coeff exp).toRat ≤ a * 10 ^ (-2 : ℤ))
    (rounded : round neg coeff exp = .ok result) :
    result.isFinite ∧ 0 ≤ result.toRat ∧ result.toRat ≤ a * 10 ^ (-2 : ℤ) := by
  by_cases zero : coeff = 0
  · simp only [round, zero, ↓reduceIte, Except.ok.injEq] at rounded
    subst rounded
    exact ⟨rfl, by simp, by simp⟩
  · obtain rfl : neg = false := (toRat_eq_zero_or nonneg).resolve_left zero
    rw [toRat_finite_false] at le
    obtain ⟨kept, exp', rfl, value⟩ := round_le small (by decide) le rounded
    exact ⟨rfl, by rw [toRat_finite_false]; positivity, by rwa [toRat_finite_false]⟩

/-- Brought to the cent, a number between nothing and an amount is still between them. -/
theorem toCents_between (isFinite : d.isFinite) (nonneg : 0 ≤ d.toRat)
    (le : d.toRat ≤ a * 10 ^ (-2 : ℤ)) (rounded : d.toCents = .ok result) :
    result.IsAmount ∧ 0 ≤ result.cents ∧ result.cents ≤ a := by
  cases d with
  | infinity neg => cases isFinite
  | nan neg signalling payload => cases isFinite
  | finite neg coeff exp =>
    by_cases zero : coeff = 0
    · simp only [toCents, zero, ↓reduceIte, Except.ok.injEq] at rounded
      subst rounded
      exact ⟨⟨rfl, by decide⟩, by simp [cents, signed], by simp [cents, signed]⟩
    · obtain rfl : neg = false := (toRat_eq_zero_or nonneg).resolve_left zero
      rw [toRat_finite_false] at le
      have amount : result.isFinite → result.IsAmount := isAmount_of_toCents rounded
      simp only [toCents, zero, ↓reduceIte] at rounded
      split at rounded
      · cases rounded
      · split at rounded
        · rename_i whole
          cases rounded
          refine ⟨amount rfl, by simp [cents, signed], ?_⟩
          have scaled := shift_value coeff (-2) exp whole
          rw [← scaled, sub_neg_eq_add] at le
          have kept : coeff * 10 ^ (exp + 2).toNat ≤ a := by
            exact_mod_cast le_of_mul_le_mul_right le (by positivity)
          simpa [cents, signed] using mod_cast kept
        · rename_i fraction
          split at rounded
          · cases rounded
            exact ⟨amount rfl, by simp [cents, signed], by simp [cents, signed]⟩
          · have kept := dropDigits_le .awayFromZero (by omega) le
            split at rounded
            · cases rounded
            · cases rounded
              exact ⟨amount rfl, by simp [cents, signed], by simpa [cents, signed] using kept⟩

/-- A number between nothing and an amount is brought to the cent. -/
theorem exists_toCents (isFinite : d.isFinite) (small : a < 10 ^ precision) (nonneg : 0 ≤ d.toRat)
    (le : d.toRat ≤ a * 10 ^ (-2 : ℤ)) : ∃ result, d.toCents = .ok result := by
  cases d with
  | infinity neg => cases isFinite
  | nan neg signalling payload => cases isFinite
  | finite neg coeff exp =>
    by_cases zero : coeff = 0
    · exact ⟨_, if_pos zero⟩
    · obtain rfl : neg = false := (toRat_eq_zero_or nonneg).resolve_left zero
      rw [toRat_finite_false] at le
      have least := place_le small (Nat.pos_of_ne_zero zero) le
      have within : ¬(precision : Int) < exp + 2 + digitCount coeff := by omega
      simp only [toCents, zero, ↓reduceIte, within]
      split
      · exact ⟨_, rfl⟩
      · rename_i fraction
        split
        · exact ⟨_, rfl⟩
        · have kept := dropDigits_le .awayFromZero (by omega) le
          have few := (digitCount_le_iff _ precision (by decide)).mpr (kept.trans_lt small)
          exact ⟨_, if_neg (not_lt.mpr few)⟩

theorem toRat_product (na : Bool) (a : Nat) (ea : Int) (nb : Bool) (b : Nat) (eb : Int) :
    (finite (na != nb) (a * b) (ea + eb)).toRat =
      (finite na a ea).toRat * (finite nb b eb).toRat := by
  cases na <;> cases nb <;> simp [toRat, signed, zpow_add₀] <;> ring

/-! ### Rates -/

theorem IsAmount.cents_nonneg_iff (whole : d.IsAmount) : 0 ≤ d.cents ↔ 0 ≤ d.toRat := by
  rw [whole.toRat_eq]
  constructor
  · intro nonneg
    positivity
  · intro nonneg
    have scaled : (0 : ℚ) ≤ d.cents := by linarith
    exact_mod_cast scaled

theorem IsAmount.cents_pos_iff (whole : d.IsAmount) : 0 < d.cents ↔ 0 < d.toRat := by
  rw [whole.toRat_eq]
  constructor
  · intro positive
    positivity
  · intro positive
    have scaled : (0 : ℚ) < d.cents := by linarith
    exact_mod_cast scaled

theorem IsAmount.toRat_lt (whole : d.IsAmount) : d.toRat < 10 ^ 26 := by
  have small : d.cents.natAbs < 10 ^ 28 := whole.natAbs_lt
  have below : d.cents < 10 ^ 28 := by omega
  have cast : (d.cents : ℚ) < 10 ^ 28 := by exact_mod_cast below
  rw [whole.toRat_eq]
  linarith

/-- A rate takes a part between nothing and the whole. -/
def IsRate (d : Decimal) : Prop := d.isFinite ∧ 0 ≤ d.toRat ∧ d.toRat ≤ 1

theorem isRate_zero : zero.IsRate := ⟨rfl, by simp [zero], by simp [zero]⟩

/-- An amount that is not negative is a count of cents. -/
theorem IsAmount.exists_coeff (whole : d.IsAmount) (nonneg : 0 ≤ d.toRat) :
    ∃ coeff : Nat, coeff < 10 ^ precision ∧ d.cents = coeff ∧ d.toRat = coeff * 10 ^ (-2 : ℤ) := by
  obtain ⟨coeff, value⟩ := Int.eq_ofNat_of_zero_le (whole.cents_nonneg_iff.mpr nonneg)
  have bound := whole.natAbs_lt
  refine ⟨coeff, by omega, value, ?_⟩
  rw [whole.toRat_eq, value]
  norm_num [div_eq_mul_inv]

/-- The part of an amount that a rate takes is an amount between nothing and the whole. -/
theorem applyRate_between {amount rate part : Decimal} (whole : amount.IsAmount)
    (nonneg : 0 ≤ amount.toRat) (isRate : rate.IsRate) (taken : applyRate amount rate = .ok part) :
    part.IsAmount ∧ 0 ≤ part.toRat ∧ part.toRat ≤ amount.toRat := by
  obtain ⟨isFinite, rateNonneg, rateLe⟩ := isRate
  obtain ⟨coeff, small, value, exact⟩ := whole.exists_coeff nonneg
  simp only [applyRate, bind_ok_iff, Failure.ofDecimal_ok_iff] at taken
  obtain ⟨product, multiplied, brought⟩ := taken
  obtain ⟨na, ca, rfl, -⟩ := whole.exists_finite
  cases rate with
  | infinity nb => cases isFinite
  | nan nb signalling payload => cases isFinite
  | finite nb cb eb =>
    simp only [Decimal.mul, isNaN, Bool.or_self, Bool.false_eq_true, ↓reduceIte] at multiplied
    obtain ⟨finite, low, high⟩ := round_between small
      (by rw [toRat_product]; exact mul_nonneg nonneg rateNonneg)
      (by rw [toRat_product, ← exact]; exact mul_le_of_le_one_right nonneg rateLe) multiplied
    simp only [toAmount, amountOf] at brought
    split at brought
    · cases brought
    · rename_i cents rounded
      split at brought
      · cases brought
        obtain ⟨amount, nonneg', le⟩ := toCents_between finite low high rounded
        exact ⟨amount, amount.cents_nonneg_iff.mp nonneg',
          (amount.toRat_le_iff whole).mpr (value ▸ le)⟩
      · cases brought

/-- A rate takes a part of every amount. -/
theorem exists_applyRate {amount rate : Decimal} (whole : amount.IsAmount)
    (nonneg : 0 ≤ amount.toRat) (isRate : rate.IsRate) :
    ∃ part, applyRate amount rate = .ok part := by
  obtain ⟨isFinite, rateNonneg, rateLe⟩ := isRate
  obtain ⟨coeff, small, -, exact⟩ := whole.exists_coeff nonneg
  obtain ⟨na, ca, rfl, -⟩ := whole.exists_finite
  cases rate with
  | infinity nb => cases isFinite
  | nan nb signalling payload => cases isFinite
  | finite nb cb eb =>
    have low : 0 ≤ (finite (na != nb) (ca * cb) (-2 + eb)).toRat := by
      rw [toRat_product]
      exact mul_nonneg nonneg rateNonneg
    have high : (finite (na != nb) (ca * cb) (-2 + eb)).toRat ≤ coeff * 10 ^ (-2 : ℤ) := by
      rw [toRat_product, ← exact]
      exact mul_le_of_le_one_right nonneg rateLe
    obtain ⟨product, rounded⟩ : ∃ product, round (na != nb) (ca * cb) (-2 + eb) = .ok product := by
      rcases toRat_eq_zero_or low with none | sign
      · exact ⟨_, if_pos none⟩
      · rw [sign, toRat_finite_false] at high
        exact exists_round_of_le _ small (by decide) (by decide) high
    obtain ⟨finite, low', high'⟩ := round_between small low high rounded
    obtain ⟨part, brought⟩ := exists_toCents finite small low' high'
    have amount := (toCents_between finite low' high' brought).1
    refine ⟨part, ?_⟩
    simp only [applyRate, Decimal.mul, isNaN, Bool.or_self, Bool.false_eq_true, ↓reduceIte, rounded,
      Failure.ofDecimal_ok, ok_bind, toAmount, amountOf, brought, amount.isFinite_eq]

/-- No rate takes nothing. -/
theorem toRat_of_applyRate_zero {amount part : Decimal} (whole : amount.IsAmount)
    (taken : applyRate amount zero = .ok part) : part.toRat = 0 := by
  obtain ⟨neg, coeff, rfl, -⟩ := whole.exists_finite
  simp only [applyRate, Decimal.mul, zero, isNaN, Bool.or_self, Bool.false_eq_true, ↓reduceIte,
    mul_zero, round, Failure.ofDecimal_ok, ok_bind, toAmount, amountOf, toCents, isFinite,
    Except.ok.injEq] at taken
  rw [← taken, toRat_finite_zero]

/-! ### Sums and differences -/

/-- What is left of an amount when a part of it is taken is exact. -/
theorem IsAmount.exists_sub_of_le {whole part : Decimal} (amount : whole.IsAmount)
    (amount' : part.IsAmount) (nonneg : 0 ≤ part.toRat) (le : part.toRat ≤ whole.toRat) :
    ∃ rest, whole.sub part = .ok rest ∧ rest.IsAmount ∧ rest.toRat = whole.toRat - part.toRat := by
  have low := amount'.cents_nonneg_iff.mpr nonneg
  have high := (amount'.toRat_le_iff amount).mp le
  have small := amount.natAbs_lt
  obtain ⟨rest, subtracted, amountRest, value⟩ := amount.exists_sub amount' (by omega)
  refine ⟨rest, subtracted, amountRest, ?_⟩
  rw [amountRest.toRat_eq, amount.toRat_eq, amount'.toRat_eq, value, Int.cast_sub, sub_div]

private theorem exists_foldlM (ds : List Decimal) (amounts : ∀ d ∈ ds, d.IsAmount)
    {start : Decimal} (whole : start.IsAmount)
    (small : ∀ part, part <+: ds → (start.cents + (part.map cents).sum).natAbs < 10 ^ precision) :
    ∃ sum, ds.foldlM add start = .ok sum ∧ sum.IsAmount ∧
      sum.cents = start.cents + (ds.map cents).sum := by
  induction ds generalizing start with
  | nil => exact ⟨start, rfl, whole, by simp⟩
  | cons d rest ih =>
    have first := small [d] ⟨rest, rfl⟩
    rw [List.map_singleton, List.sum_singleton] at first
    obtain ⟨next, added, whole', value⟩ := whole.exists_add (amounts d (by simp)) first
    obtain ⟨sum, summed, wholeSum, total⟩ := ih (fun other mem => amounts other (by simp [mem]))
      whole' fun part begins => by
        have longer := small (d :: part) ((List.cons_prefix_cons).mpr ⟨rfl, begins⟩)
        rwa [List.map_cons, List.sum_cons, ← add_assoc, ← value] at longer
    refine ⟨sum, by simp [List.foldlM_cons, added, summed], wholeSum, ?_⟩
    rw [total, value, List.map_cons, List.sum_cons, add_assoc]

/-- Amounts are summed exactly as long as what they come to on the way is an amount. -/
theorem exists_sum_of_prefixes {ds : List Decimal} (amounts : ∀ d ∈ ds, d.IsAmount)
    (small : ∀ part, part <+: ds → ((part.map cents).sum).natAbs < 10 ^ precision) :
    ∃ total, sum ds = .ok total ∧ total.IsAmount ∧ total.cents = (ds.map cents).sum := by
  simpa [sum] using exists_foldlM ds amounts isAmount_zero (by simpa using small)

/-- Amounts that are not negative are summed exactly as long as their total is an amount. -/
theorem exists_sum {ds : List Decimal} (amounts : ∀ d ∈ ds, d.IsAmount ∧ 0 ≤ d.cents)
    (small : (ds.map cents).sum < 10 ^ precision) :
    ∃ total, sum ds = .ok total ∧ total.IsAmount ∧ total.cents = (ds.map cents).sum := by
  refine exists_sum_of_prefixes (fun d mem => (amounts d mem).1) ?_
  rintro part ⟨rest, rfl⟩
  have nonneg (some_of : List Decimal) (known : ∀ d ∈ some_of, d ∈ part ++ rest) :
      0 ≤ (some_of.map cents).sum := by
    refine List.sum_nonneg fun x mem => ?_
    obtain ⟨d, among, rfl⟩ := List.mem_map.mp mem
    exact (amounts d (known d among)).2
  have first := nonneg part fun d mem => List.mem_append_left _ mem
  have last := nonneg rest fun d mem => List.mem_append_right _ mem
  rw [List.map_append, List.sum_append] at small
  simp only [precision] at small ⊢
  omega

end Decimal

end Earmark
