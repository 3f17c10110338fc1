import Earmark.Proofs.Cents
import Earmark.Store.Relational

/-!
What columns give back of what they keep. A money column keeps the nearest floating-point number,
and an amount of up to thirteen digits before the point is the nearest one to it again
(`keeps_of_small`), so such amounts return to the cent, zero without its sign.
-/

namespace Earmark

/-! ### Rounded quotients -/

private theorem roundQuotient_cases (ties : Ties) (n d : Nat) :
    (roundQuotient ties n d = n / d ∧ 2 * (n % d) ≤ d) ∨
      (roundQuotient ties n d = n / d + 1 ∧ d ≤ 2 * (n % d)) := by
  cases ties <;> simp only [roundQuotient] <;> split_ifs <;> simp <;> omega

/-- What a quotient is rounded to lies within half of it. -/
theorem roundQuotient_near (ties : Ties) {n d : Nat} (positive : 0 < d) :
    2 * n ≤ 2 * (roundQuotient ties n d * d) + d ∧ 2 * (roundQuotient ties n d * d) ≤ 2 * n + d := by
  have parts := Nat.div_add_mod n d
  have remainder := Nat.mod_lt n positive
  rcases roundQuotient_cases ties n d with ⟨down, half⟩ | ⟨up, half⟩
  · rw [down, Nat.mul_comm (n / d)]
    omega
  · rw [up, Nat.add_mul, Nat.mul_comm (n / d)]
    omega

/-- A quotient is rounded to the whole number that it is less than a half away from. -/
theorem roundQuotient_eq (ties : Ties) {n d q : Nat} (above : 2 * (q * d) < 2 * n + d)
    (below : 2 * n < 2 * (q * d) + d) : roundQuotient ties n d = q := by
  obtain ⟨low, high⟩ := roundQuotient_near ties (n := n) (d := d) (by omega)
  rcases lt_trichotomy (roundQuotient ties n d) q with less | same | greater
  · have next := Nat.mul_le_mul_right d less
    rw [Nat.succ_mul] at next
    omega
  · exact same
  · have next := Nat.mul_le_mul_right d greater
    rw [Nat.succ_mul] at next
    omega

namespace Binary64

open scoped Earmark.Whole

variable {c : Nat}

/-- Some cents are rounded at least seven bits below the point. -/
private theorem exponentOf_cents (positive : 0 < c) (small : c < 10 ^ (15 : Nat)) :
    ∃ k : Nat, exponentOf c 100 = -((k : Int) + 7) := by
  have bits : c.log2 < 52 :=
    (Nat.log2_lt positive.ne').mpr (Nat.lt_of_lt_of_le small (by decide))
  have hundred : Nat.log2 100 = 6 := by decide
  refine ⟨(-exponentOf c 100 - 7).toNat, ?_⟩
  simp only [exponentOf, hundred, minExponent]
  split_ifs with longer <;> clear longer <;> omega

/-- A coefficient rounded that far below the point is off by less than half a cent. -/
private theorem exists_ofRounded (neg : Bool) (c k : Nat) :
    ∃ m j : Nat,
      ofRounded neg (roundQuotient .toEven (c * 2 ^ (k + 7)) 100) (-((k : Int) + 7)) =
        .finite neg m (-(j : Int)) ∧
      2 * (c * 2 ^ j) < 2 * (m * 100) + 2 ^ j ∧ 2 * (m * 100) < 2 * (c * 2 ^ j) + 2 ^ j := by
  obtain ⟨low, high⟩ := roundQuotient_near .toEven (n := c * 2 ^ (k + 7)) (d := 100) (by decide)
  have unit : 0 < 2 ^ k := Nat.two_pow_pos k
  by_cases carried : roundQuotient .toEven (c * 2 ^ (k + 7)) 100 = 2 ^ (53 : Nat)
  · -- The coefficient gained a bit by rounding and gives it away again.
    have half : c * 2 ^ (k + 7) = 2 * (c * 2 ^ (k + 6)) := by rw [Nat.pow_succ _ (k + 6)]; ring
    have place : -((k : Int) + 7) + 1 = -((k + 6 : Nat) : Int) := by omega
    have bound : ¬maxExponent < -((k + 6 : Nat) : Int) := by simp only [maxExponent]; omega
    rw [carried, half] at low high
    refine ⟨2 ^ (52 : Nat), k + 6, ?_, ?_, ?_⟩
    · rw [ofRounded, if_pos carried, place, bounded, if_neg bound]
    · rw [Nat.pow_add 2 k 6] at low high ⊢
      omega
    · rw [Nat.pow_add 2 k 6] at low high ⊢
      omega
  · have bound : ¬maxExponent < -((k : Int) + 7) := by simp only [maxExponent]; omega
    refine ⟨roundQuotient .toEven (c * 2 ^ (k + 7)) 100, k + 7, ?_, ?_, ?_⟩
    · rw [ofRounded, if_neg carried, bounded, if_neg bound]
      rfl
    · rw [Nat.pow_add 2 k 7] at low high ⊢
      omega
    · rw [Nat.pow_add 2 k 7] at low high ⊢
      omega

/-- The number nearest to some cents is off by less than half a cent. -/
theorem exists_ofFraction_cents (neg : Bool) (positive : 0 < c) (small : c < 10 ^ (15 : Nat)) :
    ∃ m j : Nat, ofFraction neg c 100 = .finite neg m (-(j : Int)) ∧
      2 * (c * 2 ^ j) < 2 * (m * 100) + 2 ^ j ∧ 2 * (m * 100) < 2 * (c * 2 ^ j) + 2 ^ j := by
  obtain ⟨k, exponent⟩ := exponentOf_cents positive small
  have shift : scale c 100 (-(-((k : Int) + 7))) = (c * 2 ^ (k + 7), 100) := by
    rw [scale, if_pos (by omega)]
    congr 3
  rw [ofFraction, if_neg (by omega)]
  simp only [exponent, shift]
  exact exists_ofRounded neg c k

end Binary64

namespace Decimal

/-- The number with a zero that has no sign. -/
def unsignedZero : Decimal → Decimal
  | .finite neg coeff exp => .finite (neg && coeff != 0) coeff exp
  | d => d

end Decimal

namespace Column

open scoped Earmark.Whole

variable {d : Decimal}

/-- A money column gives this amount back, zero without its sign. -/
def Keeps (d : Decimal) : Prop := toMoney (ofMoney d) = d.unsignedZero

private theorem toMoney_finite (neg : Bool) (m j : Nat) :
    toMoney (.finite neg m (-(j : Int))) =
      .finite (neg && m != 0) (roundQuotient .toEven (m * 100) (2 ^ j)) (-2) := by
  cases j with
  | zero => simp [toMoney, Binary64.scale]
  | succ j =>
    have below : ¬0 ≤ -((j + 1 : Nat) : Int) := by omega
    have shift : (- -((j + 1 : Nat) : Int)).toNat = j + 1 := by omega
    simp only [toMoney, Binary64.scale, below, ↓reduceIte, shift, Nat.one_mul]

private theorem toMoney_zero (neg : Bool) :
    toMoney (ofMoney (.finite neg 0 (-2))) = .finite false 0 (-2) := by
  have nothing : roundQuotient .toEven (0 * 100) (2 ^ (1074 : Nat)) = 0 :=
    roundQuotient_eq _ (by have := Nat.two_pow_pos 1074; omega)
      (by have := Nat.two_pow_pos 1074; omega)
  have same : ofMoney (.finite neg 0 (-2)) = .finite neg 0 (-((1074 : Nat) : Int)) := by
    simp [ofMoney, Binary64.ofDecimal, Binary64.ofScientific, Binary64.minExponent]
  rw [same, toMoney_finite, nothing]
  simp

/-- Amounts of up to thirteen digits before the point are kept. -/
theorem keeps_of_small (amount : d.IsAmount) (small : d.cents.natAbs < 10 ^ (15 : Nat)) :
    Keeps d := by
  obtain ⟨neg, c, rfl, -⟩ := amount.exists_finite
  rw [Decimal.cents, Decimal.signed_natAbs] at small
  by_cases zero : c = 0
  · subst zero
    simpa [Keeps, Decimal.unsignedZero] using toMoney_zero neg
  · obtain ⟨m, j, nearest, above, below⟩ :=
      Binary64.exists_ofFraction_cents neg (Nat.pos_of_ne_zero zero) small
    have digits : digitCount c ≤ 15 := (digitCount_le_iff c 15 (by decide)).mpr small
    have within : ¬(c = 0 ∨ (-2 : Int) + digitCount c < -400) := by omega
    have near : ¬400 < (-2 : Int) + digitCount c := by omega
    have same : ofMoney (.finite neg c (-2)) = .finite neg m (-(j : Int)) := by
      rw [ofMoney, Binary64.ofDecimal, Binary64.ofScientific, if_neg within, if_neg near,
        if_neg (by decide), ← nearest]
      rfl
    have unit := Nat.two_pow_pos j
    have nonzero : m ≠ 0 := by
      rintro rfl
      have whole : 2 ^ j ≤ c * 2 ^ j := Nat.le_mul_of_pos_left _ (Nat.pos_of_ne_zero zero)
      omega
    have cents : roundQuotient .toEven (m * 100) (2 ^ j) = c :=
      roundQuotient_eq _ (by omega) (by omega)
    rw [Keeps, same, toMoney_finite, cents, Decimal.unsignedZero, bne_iff_ne.mpr nonzero,
      bne_iff_ne.mpr zero]

end Column

end Earmark
