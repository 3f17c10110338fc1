import Earmark.Proofs.Rows

/-!
The sign of zero. Numbers that differ in it alone have the same value, and so have their sums; a sum
that begins with a zero without a sign never comes to one with a sign.
-/

namespace Earmark.Decimal

variable {a b d : Decimal}

@[simp] theorem unsignedZero_unsignedZero (d : Decimal) :
    d.unsignedZero.unsignedZero = d.unsignedZero := by
  cases d with
  | finite neg coeff exp => simp [unsignedZero]
  | infinity neg => rfl
  | nan neg signalling payload => rfl

theorem IsAmount.unsignedZero (amount : d.IsAmount) :
    d.unsignedZero.IsAmount ∧ d.unsignedZero.cents = d.cents := by
  obtain ⟨neg, coeff, rfl, small⟩ := amount.exists_finite
  refine ⟨⟨rfl, small⟩, ?_⟩
  by_cases zero : coeff = 0 <;> simp [Decimal.unsignedZero, cents, signed, zero]

/-- Amounts of the same cents are the same but for the sign of a zero. -/
theorem IsAmount.unsignedZero_eq (amountA : a.IsAmount) (amountB : b.IsAmount)
    (same : a.cents = b.cents) : a.unsignedZero = b.unsignedZero := by
  obtain ⟨na, ca, rfl, -⟩ := amountA.exists_finite
  obtain ⟨nb, cb, rfl, -⟩ := amountB.exists_finite
  have coeffs : ca = cb := by
    have sizes := congrArg Int.natAbs same
    rwa [cents, cents, signed_natAbs, signed_natAbs] at sizes
  subst coeffs
  by_cases zero : ca = 0
  · simp [Decimal.unsignedZero, zero]
  · cases na <;> cases nb <;> simp [cents, signed] at same ⊢ <;> omega

/-! ### Sums -/

private theorem round_zero (neg neg' : Bool) (exp : Int) :
    (round neg 0 exp).map unsignedZero = (round neg' 0 exp).map unsignedZero := by
  simp [round, Except.map, Decimal.unsignedZero]

/-- The signs of zeros matter to no sum but for the sign of its zero. -/
theorem add_unsignedZero (a b : Decimal) :
    (a.unsignedZero.add b.unsignedZero).map unsignedZero = (a.add b).map unsignedZero := by
  cases a with
  | finite na a ea =>
    cases b with
    | finite nb b eb =>
      simp only [Decimal.unsignedZero, add, isNaN, Bool.or_self, Bool.false_eq_true, ↓reduceIte,
        addFinite]
      by_cases zeroA : a = 0
      · by_cases zeroB : b = 0
        · simp only [zeroA, zeroB, and_self, ↓reduceIte]
          exact round_zero _ _ _
        · have sign : (nb && b != 0) = nb := by simp [zeroB]
          simp only [zeroA, zeroB, and_false, ↓reduceIte, sign]
      · have sign : (na && a != 0) = na := by simp [zeroA]
        by_cases zeroB : b = 0
        · simp only [zeroA, zeroB, and_true, ↓reduceIte, sign]
        · have sign' : (nb && b != 0) = nb := by simp [zeroB]
          simp only [zeroA, zeroB, and_self, ↓reduceIte, sign, sign']
    | infinity nb => rfl
    | nan nb signalling payload => simp [Decimal.unsignedZero, add, isNaN, propagate, isSignalling]
  | infinity na => cases b <;> rfl
  | nan na signalling payload =>
    cases b with
    | finite nb b eb => simp [Decimal.unsignedZero, add, isNaN, propagate, isSignalling]
    | infinity nb => rfl
    | nan nb signalling' payload' => rfl

private theorem foldlM_unsignedZero {acc acc' : Decimal} (xs : List Decimal)
    (same : acc.unsignedZero = acc'.unsignedZero) :
    ((xs.map unsignedZero).foldlM add acc).map unsignedZero =
      (xs.foldlM add acc').map unsignedZero := by
  induction xs generalizing acc acc' with
  | nil => exact congrArg Except.ok same
  | cons x rest ih =>
    have step : (acc.add x.unsignedZero).map unsignedZero = (acc'.add x).map unsignedZero := by
      rw [← add_unsignedZero acc, ← add_unsignedZero acc', unsignedZero_unsignedZero, same]
    rw [List.map_cons, List.foldlM_cons, List.foldlM_cons]
    cases added : acc.add x.unsignedZero with
    | error fault =>
      cases added' : acc'.add x with
      | error fault' => simpa [added, added', Except.map] using step
      | ok sum' => simp [added, added', Except.map] at step
    | ok sum =>
      cases added' : acc'.add x with
      | error fault' => simp [added, added', Except.map] at step
      | ok sum' => exact ih (by simpa [added, added', Except.map] using step)

theorem sum_unsignedZero (xs : List Decimal) :
    (sum (xs.map unsignedZero)).map unsignedZero = (sum xs).map unsignedZero :=
  foldlM_unsignedZero xs rfl

/-- What is added to an amount other than a zero with a sign gives no such zero. -/
theorem unsignedZero_eq_of_add {total : Decimal} (unsigned : a.unsignedZero = a)
    (amountA : a.IsAmount) (amountB : b.IsAmount)
    (small : (a.cents + b.cents).natAbs < 10 ^ precision) (added : a.add b = .ok total) :
    total.unsignedZero = total := by
  obtain ⟨sum, added', -, value⟩ := amountA.exists_add amountB small
  obtain rfl : total = sum := Except.ok.inj (added.symm.trans added')
  by_cases nothing : total.cents = 0
  · rw [nothing] at value
    obtain ⟨na, ca, rfl, -⟩ := amountA.exists_finite
    obtain ⟨nb, cb, rfl, -⟩ := amountB.exists_finite
    have coeffs : ca = cb := by
      cases na <;> cases nb <;> simp [cents, signed] at value <;> omega
    subst coeffs
    simp only [add, isNaN, Bool.or_self, Bool.false_eq_true, ↓reduceIte, addFinite] at added
    by_cases zero : ca = 0
    · obtain rfl : na = false := by simpa [Decimal.unsignedZero, zero] using unsigned.symm
      simp only [zero, and_self, ↓reduceIte, Bool.false_and, round, Except.ok.injEq] at added
      rw [← added]
      rfl
    · simp only [zero, and_self, ↓reduceIte, le_refl, addAligned_cents na ca nb ca small] at added
      rw [← Except.ok.inj added]
      simp only [cents] at value
      simp [Decimal.unsignedZero, ← value]
  · exact Decimal.unsignedZero_eq nothing

/-- What is subtracted from an amount other than a zero with a sign leaves no such zero. -/
theorem unsignedZero_eq_of_sub {rest : Decimal} (unsigned : a.unsignedZero = a)
    (amountA : a.IsAmount) (amountB : b.IsAmount)
    (small : (a.cents - b.cents).natAbs < 10 ^ precision) (left : a.sub b = .ok rest) :
    rest.unsignedZero = rest := by
  obtain ⟨amount, cents⟩ := amountB.negate
  rw [sub, amountA.isNaN_eq, amountB.isNaN_eq, Bool.or_self, if_neg Bool.false_ne_true] at left
  exact unsignedZero_eq_of_add unsigned amountA amount (by rw [cents]; omega) left

end Earmark.Decimal
