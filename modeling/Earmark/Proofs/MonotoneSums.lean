import Earmark.Proofs.Bounds

/-!
Sums keep their order. A result of arithmetic is the exact one rounded to the nearest number of as
many digits as are kept (`add_rounds`), and rounding keeps order, also from one power of ten to the
next (`Rounds.mono`). So a sum of amounts does not fall when one that is not negative is put before
the others, however many digits are dropped on the way (`sum_cons_mono`).
-/

namespace Earmark

/-! ### The nearest whole number -/

/-- The whole number is the nearest one, of two such the even one. -/
def IsNearest (z : ℚ) (k : ℤ) : Prop := |z - k| < 1 / 2 ∨ |z - k| = 1 / 2 ∧ Even k

namespace IsNearest

variable {z y : ℚ} {k j : ℤ}

theorem abs_le (nearest : IsNearest z k) : |z - k| ≤ 1 / 2 := by
  rcases nearest with near | ⟨tie, -⟩
  · exact near.le
  · exact tie.le

theorem neg (nearest : IsNearest z k) : IsNearest (-z) (-k) := by
  have same : |-z - ((-k : ℤ) : ℚ)| = |z - k| := by
    rw [Int.cast_neg, neg_sub_neg, abs_sub_comm]
  rwa [IsNearest, same, even_neg]

/-- The nearest whole numbers are in the order of what they are near to. -/
theorem mono (nearest : IsNearest z k) (nearest' : IsNearest y j) (le : z ≤ y) : k ≤ j := by
  by_contra! less
  have next : (j : ℚ) + 1 ≤ k := by exact_mod_cast less
  have low := (abs_sub_le_iff.mp nearest.abs_le).2
  have high := (abs_sub_le_iff.mp nearest'.abs_le).1
  -- Both are then a half away, so both are even, and yet they are neighbours.
  have half : |z - k| = 1 / 2 := by rw [abs_of_nonpos] <;> linarith
  have half' : |y - j| = 1 / 2 := by rw [abs_of_nonneg] <;> linarith
  have neighbours : k = j + 1 := by
    have : (k : ℚ) = j + 1 := by linarith
    exact_mod_cast this
  obtain ⟨-, a, even⟩ := nearest.resolve_left half.not_lt
  obtain ⟨-, b, even'⟩ := nearest'.resolve_left half'.not_lt
  omega

theorem of_near (near : |z - k| < 1 / 2) : IsNearest z k := .inl near

end IsNearest

theorem isNearest_intCast (k : ℤ) : IsNearest k k := .of_near (by simp)

/-- A quotient is rounded to the nearest whole number. -/
theorem isNearest_roundQuotient (n : Nat) {d : Nat} (positive : 0 < d) :
    IsNearest (n / d) (roundQuotient .toEven n d : ℕ) := by
  have parts : (n : ℚ) = d * (n / d : ℕ) + (n % d : ℕ) := by
    exact_mod_cast (Nat.div_add_mod n d).symm
  have whole : (0 : ℚ) < d := by exact_mod_cast positive
  have split : (n : ℚ) / d = (n / d : ℕ) + (n % d : ℕ) / d := by
    rw [parts]
    field_simp
  have nonneg : (0 : ℚ) ≤ (n % d : ℕ) / d := by positivity
  have proper : ((n % d : ℕ) : ℚ) / d < 1 :=
    (div_lt_one whole).mpr (by exact_mod_cast Nat.mod_lt n positive)
  rw [split]
  simp only [roundQuotient]
  split_ifs with down up even
  · have less : ((n % d : ℕ) : ℚ) / d < 1 / 2 := by
      rw [div_lt_div_iff₀ whole two_pos]
      exact_mod_cast (by omega : n % d * 2 < 1 * d)
    refine .of_near ?_
    rw [Int.cast_natCast, add_sub_cancel_left, abs_of_nonneg nonneg]
    exact less
  · have more : 1 / 2 < ((n % d : ℕ) : ℚ) / d := by
      rw [div_lt_div_iff₀ two_pos whole]
      exact_mod_cast (by omega : 1 * d < n % d * 2)
    refine .of_near ?_
    rw [Int.cast_natCast, Nat.cast_succ, add_sub_add_left_eq_sub, abs_of_neg (by linarith)]
    linarith
  all_goals
    have tie : ((n % d : ℕ) : ℚ) / d = 1 / 2 := by
      rw [div_eq_div_iff whole.ne' two_ne_zero]
      exact_mod_cast (by omega : n % d * 2 = 1 * d)
    refine .inr ?_
  · rw [tie, Int.cast_natCast, add_sub_cancel_left]
    exact ⟨by norm_num, by exact_mod_cast Nat.even_iff.mpr even⟩
  · rw [tie, Int.cast_natCast, Nat.cast_succ, add_sub_add_left_eq_sub]
    exact ⟨by norm_num, by exact_mod_cast Nat.even_iff.mpr (by omega)⟩

namespace Decimal

/-- The second number is the first one rounded to the nearest with as many digits as are kept. -/
def Rounds (x r : ℚ) : Prop :=
  x = 0 ∧ r = 0 ∨ ∃ (place k : ℤ), 10 ^ (place + 27) ≤ |x| ∧ |x| < 10 ^ (place + 28) ∧
    IsNearest (x / 10 ^ place) k ∧ r = k * 10 ^ place

namespace Rounds

variable {x y r s : ℚ}

theorem neg (rounds : Rounds x r) : Rounds (-x) (-r) := by
  rcases rounds with ⟨rfl, rfl⟩ | ⟨place, k, least, below, nearest, rfl⟩
  · exact .inl ⟨neg_zero, neg_zero⟩
  · refine .inr ⟨place, -k, by rwa [abs_neg], by rwa [abs_neg], ?_, by push_cast; ring⟩
    rw [neg_div]
    exact nearest.neg

theorem nonneg (rounds : Rounds x r) (sign : 0 ≤ x) : 0 ≤ r := by
  rcases rounds with ⟨-, rfl⟩ | ⟨place, k, -, -, nearest, rfl⟩
  · exact le_rfl
  · have zero : IsNearest ((0 : ℤ) : ℚ) 0 := isNearest_intCast 0
    have : 0 ≤ k := zero.mono nearest (by rw [Int.cast_zero]; positivity)
    positivity

theorem nonpos (rounds : Rounds x r) (sign : x ≤ 0) : r ≤ 0 := by
  have := rounds.neg.nonneg (neg_nonneg.mpr sign)
  linarith

/-- A number of so many digits is rounded to one between the powers of ten that it lies between. -/
theorem between {place k : ℤ} (least : 10 ^ (place + 27) ≤ x)
    (below : x < 10 ^ (place + 28)) (nearest : IsNearest (x / 10 ^ place) k) :
    10 ^ (place + 27) ≤ (k : ℚ) * 10 ^ place ∧ (k : ℚ) * 10 ^ place ≤ 10 ^ (place + 28) := by
  have unit : (0 : ℚ) < 10 ^ place := by positivity
  have shifted (n : ℕ) : (10 : ℚ) ^ (place + n) = ((10 ^ n : ℤ) : ℚ) * 10 ^ place := by
    rw [zpow_add₀ (by norm_num), mul_comm]
    push_cast
    rw [zpow_natCast]
  have low := shifted 27
  have high := shifted 28
  rw [show place + 27 = place + (27 : ℕ) by rfl, low] at least ⊢
  rw [show place + 28 = place + (28 : ℕ) by rfl, high] at below ⊢
  have least' := (isNearest_intCast (10 ^ 27)).mono nearest ((le_div_iff₀ unit).mpr least)
  have below' := nearest.mono (isNearest_intCast (10 ^ 28)) ((div_le_iff₀ unit).mpr below.le)
  exact ⟨mul_le_mul_of_nonneg_right (by exact_mod_cast least') unit.le,
    mul_le_mul_of_nonneg_right (by exact_mod_cast below') unit.le⟩

private theorem mono_of_pos (rounds : Rounds x r) (rounds' : Rounds y s) (positive : 0 < x)
    (le : x ≤ y) : r ≤ s := by
  have positive' := positive.trans_le le
  obtain ⟨place, k, least, below, nearest, rfl⟩ :=
    rounds.resolve_left fun zero => positive.ne' zero.1
  obtain ⟨place', k', least', below', nearest', rfl⟩ :=
    rounds'.resolve_left fun zero => positive'.ne' zero.1
  rw [abs_of_pos positive] at least below
  rw [abs_of_pos positive'] at least' below'
  have order := (zpow_lt_zpow_iff_right₀ (by norm_num : (1 : ℚ) < 10)).mp
    ((least.trans le).trans_lt below')
  rcases (by omega : place = place' ∨ place < place') with rfl | lower
  · have unit : (0 : ℚ) < 10 ^ place := by positivity
    have := nearest.mono nearest' (div_le_div_of_nonneg_right le unit.le)
    exact mul_le_mul_of_nonneg_right (by exact_mod_cast this) unit.le
  · calc (k : ℚ) * 10 ^ place ≤ 10 ^ (place + 28) := (between least below nearest).2
      _ ≤ 10 ^ (place' + 27) := zpow_le_zpow_right₀ (by norm_num) (by omega)
      _ ≤ k' * 10 ^ place' := (between least' below' nearest').1

/-- Rounding keeps order. -/
theorem mono (rounds : Rounds x r) (rounds' : Rounds y s) (le : x ≤ y) : r ≤ s := by
  rcases lt_trichotomy x 0 with negative | zero | positive
  · rcases lt_or_ge y 0 with negative' | nonneg
    · exact neg_le_neg_iff.mp (rounds'.neg.mono_of_pos rounds.neg (by linarith) (by linarith))
    · exact (rounds.nonpos negative.le).trans (rounds'.nonneg nonneg)
  · exact (rounds.nonpos zero.le).trans (rounds'.nonneg (zero ▸ le))
  · exact rounds.mono_of_pos rounds' positive le

theorem unique (rounds : Rounds x r) (again : Rounds x s) : r = s :=
  le_antisymm (rounds.mono again le_rfl) (again.mono rounds le_rfl)

end Rounds

variable {a b c d r s : Decimal} {neg na nb : Bool} {coeff ca cb : Nat} {exp ea eb : Int} {x : ℚ}

/-! ### What arithmetic rounds to -/

private theorem Rounds.signed (neg : Bool) {kept : Nat} {exp' : Int}
    (rounds : Rounds (coeff * 10 ^ exp) (kept * 10 ^ exp')) :
    Rounds (finite neg coeff exp).toRat (finite neg kept exp').toRat := by
  cases neg with
  | false => rwa [toRat_finite_false, toRat_finite_false]
  | true =>
    rw [toRat_finite_true, toRat_finite_true]
    exact rounds.neg

/-- A number is rounded to one with no digits below a place that it is near to. -/
private theorem rounds_at (place : Int) (le : place ≤ exp) (least : 10 ^ (place + 27) ≤ x)
    (below : x < 10 ^ (place + 28)) (near : |x - coeff * 10 ^ exp| ≤ 10 ^ (place - 1)) :
    Rounds x (coeff * 10 ^ exp) := by
  have unit : (0 : ℚ) < 10 ^ place := by positivity
  have nonneg : 0 ≤ x := le_trans (by positivity) least
  have whole := shift_value coeff place exp le
  refine .inr ⟨place, (coeff * 10 ^ (exp - place).toNat : ℕ), by rwa [abs_of_nonneg nonneg],
    by rwa [abs_of_nonneg nonneg], .of_near ?_, by rw [Int.cast_natCast, whole]⟩
  calc |x / 10 ^ place - ((coeff * 10 ^ (exp - place).toNat : ℕ) : ℤ)|
      = |x - coeff * 10 ^ exp| / 10 ^ place := by
        rw [← whole, Int.cast_natCast, ← abs_of_pos unit, ← abs_div, abs_of_pos unit, sub_div,
          mul_div_assoc, div_self unit.ne', mul_one]
    _ ≤ 10 ^ (place - 1) / 10 ^ place := div_le_div_of_nonneg_right near unit.le
    _ = 1 / 10 := by
        rw [zpow_sub_one₀ (by norm_num)]
        field_simp
    _ < 1 / 2 := by norm_num

/-- What is less than a hundredth of the last digit kept away from a number is rounded to it. -/
theorem rounds_of_near (positive : 0 < coeff) (small : coeff < 10 ^ precision)
    (near : |x - coeff * 10 ^ exp| ≤ 10 ^ (exp + digitCount coeff - 30)) :
    Rounds x (coeff * 10 ^ exp) := by
  have few : digitCount coeff ≤ 28 := (digitCount_le_iff coeff 28 (by omega)).mpr small
  have count := digitCount_pos coeff
  have low := le_value coeff exp positive
  obtain ⟨above, under⟩ := abs_sub_le_iff.mp near
  rcases le_or_gt ((10 : ℚ) ^ (exp + digitCount coeff - 1)) x with least | less
  · refine rounds_at (exp + digitCount coeff - 28) (by omega) ?_ ?_ (near.trans ?_)
    · rwa [show exp + (digitCount coeff : Int) - 28 + 27 = exp + digitCount coeff - 1 by ring]
    · have next : ((coeff : ℚ) + 1) * 10 ^ exp ≤ 10 ^ (exp + digitCount coeff) := by
        rw [zpow_add₀ (by norm_num), mul_comm (10 ^ exp), zpow_natCast]
        exact mul_le_mul_of_nonneg_right (by exact_mod_cast lt_pow_digitCount coeff)
          (by positivity)
      have far : (10 : ℚ) ^ (exp + digitCount coeff - 30) < 10 ^ exp :=
        zpow_lt_zpow_right₀ (by norm_num) (by omega)
      rw [sub_add_cancel]
      linarith
    · exact zpow_le_zpow_right₀ (by norm_num) (by omega)
  · refine rounds_at (exp + digitCount coeff - 29) (by omega) ?_ ?_ (near.trans_eq ?_)
    · have ten : (10 : ℚ) ^ (exp + digitCount coeff - 1) =
          10 * 10 ^ (exp + digitCount coeff - 2) := by
        rw [← zpow_one_add₀ (by norm_num)]
        ring_nf
      have far : (10 : ℚ) ^ (exp + digitCount coeff - 30) ≤ 10 ^ (exp + digitCount coeff - 2) :=
        zpow_le_zpow_right₀ (by norm_num) (by omega)
      rw [show exp + (digitCount coeff : Int) - 29 + 27 = exp + digitCount coeff - 2 by ring]
      have unit : (0 : ℚ) < 10 ^ (exp + digitCount coeff - 2) := by positivity
      linarith
    · rwa [show exp + (digitCount coeff : Int) - 29 + 28 = exp + digitCount coeff - 1 by ring]
    · rw [show exp + (digitCount coeff : Int) - 29 - 1 = exp + digitCount coeff - 30 by ring]

private theorem rounds_dropDigits {dropped : Nat} (exp : Int) (positive : 0 < coeff)
    (split : 28 + dropped = digitCount coeff) :
    Rounds (coeff * 10 ^ exp) (dropDigits .toEven coeff dropped * 10 ^ (exp + dropped)) := by
  have nonneg : (0 : ℚ) ≤ coeff * 10 ^ exp := by positivity
  have least := le_value coeff exp positive
  have below := value_lt coeff exp
  refine .inr ⟨exp + dropped, (dropDigits .toEven coeff dropped : ℕ), ?_, ?_, ?_,
    by rw [Int.cast_natCast]⟩
  · rwa [abs_of_nonneg nonneg, show exp + (dropped : ℤ) + 27 = exp + digitCount coeff - 1 by omega]
  · rwa [abs_of_nonneg nonneg, show exp + (dropped : ℤ) + 28 = exp + digitCount coeff by omega]
  · have nearest := isNearest_roundQuotient coeff (d := 10 ^ dropped) (by positivity)
    have quotient : (coeff : ℚ) * 10 ^ exp / 10 ^ (exp + dropped) = coeff / (10 ^ dropped : ℕ) := by
      rw [zpow_add₀ (by norm_num), mul_comm (10 ^ exp), mul_div_mul_right _ _ (by positivity),
        zpow_natCast, Nat.cast_pow, Nat.cast_ofNat]
    rwa [quotient]

/-- What arithmetic rounds to is the nearest number of as many digits as are kept, if there is a
place for the last of them. -/
theorem rounds_of_round (low : minExponent ≤ exp + (digitCount coeff - 28 : ℕ))
    (rounded : round neg coeff exp = .ok r) :
    r.Kept ∧ Rounds (finite neg coeff exp).toRat r.toRat := by
  rcases Nat.eq_zero_or_pos coeff with rfl | positive
  · simp only [round, ↓reduceIte, Except.ok.injEq] at rounded
    subst rounded
    refine ⟨⟨by positivity, ?_⟩, .inl ⟨toRat_finite_zero, toRat_finite_zero⟩⟩
    simp only [minExponent, maxExponent, precision]
    omega
  by_cases many : digitCount coeff ≤ 28
  · have whole : max (exp + digitCount coeff - (precision : ℤ)) minExponent ≤ exp := by
      simp only [precision]
      omega
    simp only [round, positive.ne', whole, ↓reduceIte] at rounded
    split_ifs at rounded
    cases rounded
    have small := (digitCount_le_iff coeff precision (by decide)).mp many
    refine ⟨⟨small, by omega⟩, .signed neg (rounds_of_near positive small ?_)⟩
    rw [sub_self, abs_zero]
    positivity
  · obtain ⟨dropped, split⟩ := Nat.exists_eq_add_of_le (Nat.le_of_not_le many)
    have floor : max (exp + digitCount coeff - (precision : ℤ)) minExponent = exp + dropped := by
      simp only [precision]
      omega
    have rounds := rounds_dropDigits exp positive split.symm
    have most := dropDigits_le_pow split.symm
    simp only [round, positive.ne', floor, ↓reduceIte, add_sub_cancel_left, Int.toNat_natCast]
      at rounded
    split_ifs at rounded with tooLarge whole tiny few more
    · omega
    · omega
    · cases rounded
      have small := (digitCount_le_iff _ precision (by decide)).mp few
      exact ⟨⟨small, by omega⟩, .signed neg rounds⟩
    · cases rounded
      -- Rounding up made a power of ten of it, so the digit given away is a zero.
      have large := mt (digitCount_le_iff _ precision (by decide)).mpr few
      obtain power : dropDigits .toEven coeff dropped = 10 ^ 28 := by
        simp only [precision] at large
        omega
      rw [power] at rounds ⊢
      refine ⟨⟨by decide, by omega⟩, .signed neg ?_⟩
      have same : ((10 ^ 28 / 10 : ℕ) : ℚ) * 10 ^ (exp + dropped + 1) =
          (10 ^ 28 : ℕ) * 10 ^ (exp + dropped) := by
        rw [zpow_add_one₀ (by norm_num)]
        norm_num
        ring
      rwa [same]

/-! ### Addition -/

theorem Kept.exists_finite (kept : d.Kept) :
    ∃ neg coeff exp, d = .finite neg coeff exp ∧ coeff < 10 ^ precision ∧ minExponent ≤ exp := by
  cases d with
  | finite neg coeff exp => exact ⟨neg, coeff, exp, rfl, kept⟩
  | infinity => exact kept.elim
  | nan => exact kept.elim

theorem IsAmount.kept (amount : d.IsAmount) : d.Kept := by
  obtain ⟨neg, coeff, rfl, small⟩ := amount.exists_finite
  exact ⟨small, by decide⟩

theorem toRat_shift (neg : Bool) (coeff : Nat) {start : Int} (le : start ≤ exp) :
    (finite neg (coeff * 10 ^ (exp - start).toNat) start).toRat = (finite neg coeff exp).toRat := by
  have value := shift_value coeff start exp le
  cases neg with
  | false => rw [toRat_finite_false, toRat_finite_false, value]
  | true => rw [toRat_finite_true, toRat_finite_true, value]

theorem toRat_signed_add (na nb : Bool) (x y : Nat) (exp : Int) :
    (finite (decide (signed na x + signed nb y < 0)) (signed na x + signed nb y).natAbs exp).toRat =
      (finite na x exp).toRat + (finite nb y exp).toRat := by
  simp only [toRat, signed_natAbs_self]
  push_cast
  ring

/-- Adding what is far below the digits that are kept changes nothing. -/
theorem rounds_add_far {y : ℚ} (positive : 0 < ca) (small : ca < 10 ^ precision)
    (near : |y| ≤ 10 ^ (ea + digitCount ca - 30)) :
    Rounds ((finite na ca ea).toRat + y) (finite na ca ea).toRat := by
  cases na with
  | false =>
    rw [toRat_finite_false]
    exact rounds_of_near positive small (by rwa [add_sub_cancel_left])
  | true =>
    have rounds : Rounds (ca * 10 ^ ea - y) (ca * 10 ^ ea) :=
      rounds_of_near positive small (by rwa [sub_sub_cancel_left, abs_neg])
    rw [toRat_finite_true]
    exact (show -((ca : ℚ) * 10 ^ ea) + y = -(ca * 10 ^ ea - y) by ring) ▸ rounds.neg

private theorem rounds_addAligned (positive : 0 < ca) (small : ca < 10 ^ precision)
    (order : eb ≤ ea) (low : minExponent ≤ eb) (added : addAligned na ca ea nb cb eb = .ok r) :
    r.Kept ∧ Rounds ((finite na ca ea).toRat + (finite nb cb eb).toRat) r.toRat := by
  have few : digitCount ca ≤ 28 := (digitCount_le_iff ca 28 (by omega)).mpr small
  have start : ea + min (-1) ((digitCount ca : Int) - precision - 2) = ea + digitCount ca - 30 := by
    simp only [precision]
    omega
  simp only [addAligned, start] at added
  split_ifs at added with far
  · have count := digitCount_pos cb
    have tiny : |(finite nb cb eb).toRat| ≤ 10 ^ (ea + digitCount ca - 30) := by
      rw [abs_toRat]
      exact (value_lt cb eb).le.trans (zpow_le_zpow_right₀ (by norm_num) (by omega))
    have unit : |(finite nb 1 (ea + digitCount ca - 30)).toRat| ≤
        10 ^ (ea + digitCount ca - 30) := by
      rw [abs_toRat, Nat.cast_one, one_mul]
    obtain ⟨kept, rounds⟩ := rounds_of_round (by omega) added
    rw [toRat_signed_add, toRat_shift na ca (by omega)] at rounds
    have same := rounds.unique (rounds_add_far positive small unit)
    exact ⟨kept, same ▸ rounds_add_far positive small tiny⟩
  · obtain ⟨kept, rounds⟩ := rounds_of_round (by omega) added
    rw [toRat_signed_add, toRat_shift na ca order] at rounds
    exact ⟨kept, rounds⟩

/-- A sum is the exact one, rounded. -/
theorem add_rounds (keptA : a.Kept) (keptB : b.Kept) (added : a.add b = .ok r) :
    r.Kept ∧ Rounds (a.toRat + b.toRat) r.toRat := by
  obtain ⟨na, ca, ea, rfl, smallA, lowA⟩ := keptA.exists_finite
  obtain ⟨nb, cb, eb, rfl, smallB, lowB⟩ := keptB.exists_finite
  simp only [add, isNaN, Bool.or_self, Bool.false_eq_true, ↓reduceIte, addFinite] at added
  split_ifs at added with zeros zeroA zeroB order
  · obtain ⟨rfl, rfl⟩ := zeros
    obtain ⟨kept, rounds⟩ := rounds_of_round (by omega) added
    rw [toRat_finite_zero] at rounds
    rw [toRat_finite_zero, toRat_finite_zero, add_zero]
    exact ⟨kept, rounds⟩
  · subst zeroA
    obtain ⟨kept, rounds⟩ := rounds_of_round (by omega) added
    rw [toRat_shift nb cb (by omega)] at rounds
    rw [toRat_finite_zero, zero_add]
    exact ⟨kept, rounds⟩
  · subst zeroB
    obtain ⟨kept, rounds⟩ := rounds_of_round (by omega) added
    rw [toRat_shift na ca (by omega)] at rounds
    rw [toRat_finite_zero, add_zero]
    exact ⟨kept, rounds⟩
  · exact rounds_addAligned (Nat.pos_of_ne_zero zeroA) smallA order lowB added
  · rw [add_comm]
    exact rounds_addAligned (Nat.pos_of_ne_zero zeroB) smallB (by omega) lowA added

/-! ### Sums -/

variable {ds : List Decimal}

private theorem foldlM_mono (ds : List Decimal) (amounts : ∀ d ∈ ds, d.IsAmount) (kept : a.Kept)
    (kept' : b.Kept) (le : a.toRat ≤ b.toRat) (summed : ds.foldlM add a = .ok r)
    (summed' : ds.foldlM add b = .ok s) : r.toRat ≤ s.toRat := by
  induction ds generalizing a b with
  | nil =>
    cases summed
    cases summed'
    exact le
  | cons d rest ih =>
    rw [List.foldlM_cons, bind_ok_iff] at summed summed'
    obtain ⟨middle, added, summed⟩ := summed
    obtain ⟨middle', added', summed'⟩ := summed'
    have amount := (amounts d (by simp)).kept
    obtain ⟨kept, rounds⟩ := add_rounds kept amount added
    obtain ⟨kept', rounds'⟩ := add_rounds kept' amount added'
    exact ih (fun d mem => amounts d (List.mem_cons_of_mem _ mem)) kept kept'
      (rounds.mono rounds' (add_le_add_left le _)) summed summed'

/-- The sum of amounts is no less with one before them that is not negative, and no more with one
that is not positive. -/
theorem sum_cons_mono (amount : d.IsAmount) (amounts : ∀ d ∈ ds, d.IsAmount)
    (summed : sum ds = .ok r) (summed' : sum (d :: ds) = .ok s) :
    (0 ≤ d.toRat → r.toRat ≤ s.toRat) ∧ (d.toRat ≤ 0 → s.toRat ≤ r.toRat) := by
  rw [sum, List.foldlM_cons, bind_ok_iff] at summed'
  obtain ⟨first, added, summed'⟩ := summed'
  obtain ⟨kept, rounds⟩ := add_rounds isAmount_zero.kept amount.kept added
  have nothing : zero.toRat = 0 := toRat_finite_zero
  have exact : Rounds zero.toRat zero.toRat := .inl ⟨nothing, nothing⟩
  constructor
  · intro nonneg
    have le := exact.mono rounds (le_add_of_nonneg_right nonneg)
    exact foldlM_mono ds amounts isAmount_zero.kept kept le summed summed'
  · intro nonpos
    have le := rounds.mono exact (add_le_of_nonpos_right nonpos)
    exact foldlM_mono ds amounts kept isAmount_zero.kept le summed' summed

/-! ### Sums beyond the amounts -/

/-- The least number that is greater than every amount. -/
private theorem rounds_top : Rounds (10 ^ 26) (10 ^ 26) := by
  have near : |(10 : ℚ) ^ 26 - (1 : ℕ) * 10 ^ (26 : ℤ)| ≤ 10 ^ ((26 : ℤ) + digitCount 1 - 30) := by
    norm_num
    positivity
  have rounds := rounds_of_near (by decide) (by decide) near
  norm_num at rounds
  exact rounds

/-- Once a sum is beyond the amounts, what is added does not bring it back. -/
private theorem foldlM_beyond (ds : List Decimal) (amounts : ∀ d ∈ ds, d.IsAmount ∧ 0 ≤ d.toRat)
    (kept : a.Kept) (beyond : 10 ^ 26 ≤ a.toRat) (summed : ds.foldlM add a = .ok r) :
    10 ^ 26 ≤ r.toRat := by
  induction ds generalizing a with
  | nil =>
    cases summed
    exact beyond
  | cons d rest ih =>
    rw [List.foldlM_cons, bind_ok_iff] at summed
    obtain ⟨middle, added, summed⟩ := summed
    obtain ⟨amount, nonneg⟩ := amounts d (by simp)
    obtain ⟨kept', rounds⟩ := add_rounds kept amount.kept added
    exact ih (fun other mem => amounts other (by simp [mem])) kept'
      (rounds_top.mono rounds (by linarith)) summed

private theorem foldlM_reaches (ds : List Decimal) (amounts : ∀ d ∈ ds, d.IsAmount ∧ 0 ≤ d.toRat)
    (whole : a.IsAmount) (nonneg : 0 ≤ a.toRat) (beyond : 10 ^ 26 ≤ a.toRat + (ds.map toRat).sum)
    (summed : ds.foldlM add a = .ok r) : 10 ^ 26 ≤ r.toRat := by
  induction ds generalizing a with
  | nil =>
    rw [List.map_nil, List.sum_nil, add_zero] at beyond
    exact absurd whole.toRat_lt (not_lt.mpr beyond)
  | cons d rest ih =>
    rw [List.foldlM_cons, bind_ok_iff] at summed
    obtain ⟨middle, added, summed⟩ := summed
    obtain ⟨amount, nonneg'⟩ := amounts d (by simp)
    have amounts' : ∀ other ∈ rest, other.IsAmount ∧ 0 ≤ other.toRat :=
      fun other mem => amounts other (by simp [mem])
    rw [List.map_cons, List.sum_cons, ← add_assoc] at beyond
    -- The sum so far is an amount and exact, or it is beyond the amounts from here on.
    by_cases fits : a.toRat + d.toRat < 10 ^ 26
    · have small : (a.cents + d.cents).natAbs < 10 ^ precision := by
        have scaled : ((a.cents + d.cents : ℤ) : ℚ) < 10 ^ 28 := by
          rw [whole.toRat_eq, amount.toRat_eq] at fits
          push_cast
          linarith
        have bound : a.cents + d.cents < 10 ^ 28 := by exact_mod_cast scaled
        have low := whole.cents_nonneg_iff.mpr nonneg
        have low' := amount.cents_nonneg_iff.mpr nonneg'
        simp only [precision]
        omega
      obtain ⟨middle', added', whole', value⟩ := whole.exists_add amount small
      obtain rfl := Except.ok.inj (added'.symm.trans added)
      have exact : middle'.toRat = a.toRat + d.toRat := by
        rw [whole'.toRat_eq, value, whole.toRat_eq, amount.toRat_eq]
        push_cast
        ring
      exact ih amounts' whole' (by linarith) (exact ▸ beyond) summed
    · obtain ⟨kept, rounds⟩ := add_rounds whole.kept amount.kept added
      exact foldlM_beyond rest amounts' kept (rounds_top.mono rounds (not_lt.mp fits)) summed

/-- Amounts that are not negative come to an amount exactly where their exact total is less than ten
to the 26. -/
theorem isAmount_sum_iff (amounts : ∀ d ∈ ds, d.IsAmount ∧ 0 ≤ d.toRat) (summed : sum ds = .ok r) :
    r.IsAmount ↔ (ds.map toRat).sum < 10 ^ 26 := by
  constructor
  · intro whole
    by_contra! beyond
    have reached := foldlM_reaches ds amounts isAmount_zero (by simp [zero])
      (by rwa [zero, toRat_finite_zero, zero_add]) summed
    exact absurd whole.toRat_lt (not_lt.mpr reached)
  · intro fits
    have parts : ∀ d ∈ ds, d.IsAmount ∧ 0 ≤ d.cents := fun d mem =>
      ⟨(amounts d mem).1, (amounts d mem).1.cents_nonneg_iff.mpr (amounts d mem).2⟩
    rw [sum_toRat fun d mem => (amounts d mem).1] at fits
    have scaled : (((ds.map cents).sum : ℤ) : ℚ) < 10 ^ 28 := by linarith
    obtain ⟨total, summed', whole, -⟩ := exists_sum parts (by exact_mod_cast scaled)
    obtain rfl := Except.ok.inj (summed'.symm.trans summed)
    exact whole

end Decimal

end Earmark
