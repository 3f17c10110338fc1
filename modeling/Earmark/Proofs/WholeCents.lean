import Earmark.Proofs.Columns
import Earmark.Proofs.MonotoneSums

/-!
Whole cents, written with any number of places. Bringing such a number to the cent rounds nothing:
it gives the amount of so many cents where amounts have the digits for it
(`IsCents.exists_toAmount`), and nothing else (`IsCents.of_toAmount`).
-/

namespace Earmark.Decimal

variable {d amount : Decimal} {cents : Int} {neg : Bool} {coeff m : Nat} {exp : Int}

/-- The number, however it is written, is so many cents. -/
structure IsCents (d : Decimal) (cents : Int) : Prop where
  isFinite : d.isFinite
  value : d.toRat = cents / 100

/-- How many cents a number is, those that are not whole left out. -/
def wholeCents (d : Decimal) : Int := ⌊d.toRat * 100⌋

theorem IsCents.wholeCents_eq (worth : d.IsCents cents) : d.wholeCents = cents := by
  rw [wholeCents, worth.value, div_mul_cancel₀ _ (by norm_num), Int.floor_intCast]

theorem IsAmount.isCents (amount : d.IsAmount) : d.IsCents d.cents :=
  ⟨amount.isFinite_eq, amount.toRat_eq⟩

private theorem exists_magnitude (worth : (finite neg coeff exp).IsCents cents) :
    ∃ m : Nat, signed neg m = cents ∧ (coeff : ℚ) * 10 ^ exp = m * 10 ^ (-2 : ℤ) := by
  have value := worth.value
  have hundred : (10 : ℚ) ^ (-2 : ℤ) = 1 / 100 := by norm_num
  have power : (0 : ℚ) ≤ coeff * 10 ^ exp := by positivity
  cases neg with
  | false =>
    rw [toRat_finite_false] at value
    have nonneg : 0 ≤ cents := by
      have scaled : (0 : ℚ) ≤ cents := by linarith
      exact_mod_cast scaled
    refine ⟨cents.toNat, by simp [signed, nonneg], ?_⟩
    have cast : ((cents.toNat : ℤ) : ℚ) = cents := by rw [Int.toNat_of_nonneg nonneg]
    rw [value, hundred, ← cast]
    push_cast
    ring
  | true =>
    rw [toRat_finite_true] at value
    have nonpos : 0 ≤ -cents := by
      have scaled : (0 : ℚ) ≤ -cents := by linarith
      exact_mod_cast scaled
    refine ⟨(-cents).toNat, ?_, ?_⟩
    · simp only [signed, ↓reduceIte]
      omega
    have cast : (((-cents).toNat : ℤ) : ℚ) = -cents := by
      rw [Int.toNat_of_nonneg nonpos, Int.cast_neg]
    have magnitude : (coeff : ℚ) * 10 ^ exp = -cents / 100 := by linarith
    rw [magnitude, hundred, ← cast]
    push_cast
    ring

/-- Whole cents that are written with more places than two end in zeros. -/
private theorem coeff_eq {k : Nat} (places : exp = -2 - k)
    (value : (coeff : ℚ) * 10 ^ exp = m * 10 ^ (-2 : ℤ)) : coeff = m * 10 ^ k := by
  have shifted := shift_value m exp (-2) (by omega)
  rw [← value] at shifted
  have power : (10 : ℚ) ^ exp ≠ 0 := by positivity
  have same := mul_right_cancel₀ power shifted
  have count : (-2 - exp).toNat = k := by omega
  rw [count] at same
  exact_mod_cast same.symm

/-- Bringing whole cents to the cent rounds nothing. -/
private theorem toCents_finite (some_ : coeff ≠ 0) (small : m < 10 ^ precision)
    (value : (coeff : ℚ) * 10 ^ exp = m * 10 ^ (-2 : ℤ)) :
    (finite neg coeff exp).toCents = .ok (finite neg m (-2)) := by
  have positive : 0 < coeff := Nat.pos_of_ne_zero some_
  have bound : (m : ℚ) * 10 ^ (-2 : ℤ) < 10 ^ (26 : ℤ) :=
    calc (m : ℚ) * 10 ^ (-2 : ℤ) < 10 ^ (28 : Nat) * 10 ^ (-2 : ℤ) :=
          mul_lt_mul_of_pos_right (by exact_mod_cast small) (by positivity)
      _ = 10 ^ (26 : ℤ) := by norm_num
  have places : exp + digitCount coeff - 1 < 26 := by
    have below := (le_value coeff exp positive).trans_lt (value ▸ bound)
    exact (zpow_lt_zpow_iff_right₀ (by norm_num)).mp below
  have within : ¬(precision : Int) < exp + 2 + digitCount coeff := by
    simp only [precision]
    omega
  simp only [toCents, some_, ↓reduceIte, within]
  by_cases whole : -2 ≤ exp
  · have shifted := shift_value coeff (-2) exp whole
    rw [value, sub_neg_eq_add] at shifted
    have same := mul_right_cancel₀ (by positivity) shifted
    have equal : coeff * 10 ^ (exp + 2).toNat = m := by exact_mod_cast same
    simp only [whole, ↓reduceIte, equal]
  · obtain ⟨k, below⟩ : ∃ k : Nat, exp = -2 - k := ⟨(-2 - exp).toNat, by omega⟩
    have parts := coeff_eq below value
    have some_cents : 0 < m := by
      rcases Nat.eq_zero_or_pos m with rfl | positive
      · rw [Nat.zero_mul] at parts
        exact absurd parts some_
      · exact positive
    have near : ¬exp + digitCount coeff < -2 := by
      have least : 10 ^ (-2 : ℤ) ≤ (m : ℚ) * 10 ^ (-2 : ℤ) :=
        le_mul_of_one_le_left (by positivity) (by exact_mod_cast some_cents)
      have above := (least.trans_eq value.symm).trans_lt (value_lt coeff exp)
      have order := (zpow_lt_zpow_iff_right₀ (by norm_num)).mp above
      omega
    have dropped : (-2 - exp).toNat = k := by omega
    have kept : dropDigits .awayFromZero coeff k = m := by
      have power := Nat.pow_pos (a := 10) (n := k) (by norm_num)
      rw [dropDigits, parts]
      exact roundQuotient_eq _ (by omega) (by omega)
    have digits : ¬precision < digitCount m := by
      have few := (digitCount_le_iff m precision (by decide)).mpr small
      omega
    simp only [whole, ↓reduceIte, near, dropped, kept, digits]

/-- Whole cents are brought to the cent as they are, where amounts have the digits for them. -/
theorem IsCents.exists_toAmount (worth : d.IsCents cents)
    (small : cents.natAbs < 10 ^ precision) :
    ∃ amount, d.toAmount = .ok amount ∧ amount.IsAmount ∧ amount.cents = cents := by
  cases d with
  | infinity neg => cases worth.isFinite
  | nan neg signalling payload => cases worth.isFinite
  | finite neg coeff exp =>
    obtain ⟨m, rfl, value⟩ := exists_magnitude worth
    rw [signed_natAbs] at small
    refine ⟨.finite neg m (-2), ?_, ⟨rfl, small⟩, rfl⟩
    have rounded : (finite neg coeff exp).toCents = .ok (finite neg m (-2)) := by
      by_cases zero : coeff = 0
      · have none : m = 0 := by
          rw [zero, Nat.cast_zero, zero_mul, eq_comm, mul_eq_zero] at value
          exact_mod_cast value.resolve_right (by positivity)
        simp [toCents, zero, none]
      · exact toCents_finite zero small value
    simp only [toAmount, amountOf, rounded]
    rfl

/-- What is brought to the cent has no more digits than amounts have. -/
private theorem small_of_toCents (value : (coeff : ℚ) * 10 ^ exp = m * 10 ^ (-2 : ℤ))
    (rounded : (finite neg coeff exp).toCents = .ok amount) : m < 10 ^ precision := by
  by_cases zero : coeff = 0
  · have none : m = 0 := by
      rw [zero, Nat.cast_zero, zero_mul, eq_comm, mul_eq_zero] at value
      exact_mod_cast value.resolve_right (by positivity)
    rw [none]
    positivity
  · simp only [toCents, zero, ↓reduceIte] at rounded
    split at rounded
    · cases rounded
    · rename_i within
      have places : exp + digitCount coeff ≤ 26 := by
        simp only [precision] at within
        omega
      have below : (m : ℚ) * 10 ^ (-2 : ℤ) < 10 ^ (26 : ℤ) := by
        rw [← value]
        exact (value_lt coeff exp).trans_le (zpow_le_zpow_right₀ (by norm_num) places)
      have scaled : (m : ℚ) < 10 ^ (28 : Nat) := by
        have hundred : (10 : ℚ) ^ (-2 : ℤ) = 1 / 100 := by norm_num
        have most : (10 : ℚ) ^ (26 : ℤ) = 10 ^ (28 : Nat) / 100 := by norm_num
        rw [hundred, most] at below
        linarith
      exact_mod_cast scaled

/-- What is brought to the cent of whole cents is the amount of so many. -/
theorem IsCents.of_toAmount (worth : d.IsCents cents) (brought : d.toAmount = .ok amount) :
    amount.cents = cents := by
  have small : cents.natAbs < 10 ^ precision := by
    cases d with
    | infinity neg => cases worth.isFinite
    | nan neg signalling payload => cases worth.isFinite
    | finite neg coeff exp =>
      obtain ⟨m, rfl, value⟩ := exists_magnitude worth
      simp only [toAmount, amountOf] at brought
      split at brought
      · cases brought
      · rename_i rounded
        rw [signed_natAbs]
        exact small_of_toCents value rounded
  obtain ⟨amount', brought', -, same⟩ := worth.exists_toAmount small
  obtain rfl := Except.ok.inj (brought.symm.trans brought')
  exact same

end Earmark.Decimal
