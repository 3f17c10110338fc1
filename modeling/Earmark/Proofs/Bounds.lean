import Earmark.Proofs.Rounding

/-!
Arithmetic that cannot fail. A result is refused only when it lies beyond the greatest exponent, so
numbers below some place have sums, differences and products (`Below.exists_add`,
`Below.exists_mul`). A sum of any length has a place of its own that it does not pass: once it is
large enough, what is added is too small to change it (`exists_sum_of_below`).
-/

namespace Earmark

/-- Zeros behind a number are as many digits more. -/
theorem digitCount_shift_le (n k : Nat) : digitCount (n * 10 ^ k) ≤ digitCount n + k := by
  have count := digitCount_pos n
  refine (digitCount_le_iff _ _ (by omega)).mpr ?_
  rw [pow_add]
  exact Nat.mul_lt_mul_of_pos_right (lt_pow_digitCount n) (by positivity)

theorem digitCount_mul_le (m n : Nat) : digitCount (m * n) ≤ digitCount m + digitCount n := by
  have count := digitCount_pos m
  refine (digitCount_le_iff _ _ (by omega)).mpr ?_
  rw [pow_add]
  exact Nat.mul_lt_mul'' (lt_pow_digitCount m) (lt_pow_digitCount n)

namespace Decimal

/-- The number is zero or has its leading digit below a place: it is less than ten to the place. -/
def DigitsBelow (place : Int) (coeff : Nat) (exp : Int) : Prop :=
  coeff = 0 ∨ exp + digitCount coeff ≤ place

/-- A finite number that is less than ten to a place. -/
def Below (place : Int) : Decimal → Prop
  | .finite _ coeff exp => DigitsBelow place coeff exp
  | _ => False

/-- A number as arithmetic leaves it: finite, with no more digits than are kept. -/
def Kept : Decimal → Prop
  | .finite _ coeff exp => coeff < 10 ^ precision ∧ minExponent ≤ exp
  | _ => False

variable {a b d : Decimal} {neg na nb : Bool} {coeff ca cb : Nat} {exp ea eb place other : Int}

/-- The greatest place for which the results of arithmetic are looked at here; it is far from the
greatest exponent. -/
def lastPlace : Int := 900000

theorem Below.exists_finite (below : d.Below place) :
    ∃ neg coeff exp, d = .finite neg coeff exp ∧ DigitsBelow place coeff exp := by
  cases d with
  | finite neg coeff exp => exact ⟨neg, coeff, exp, rfl, below⟩
  | infinity neg => exact below.elim
  | nan neg signalling payload => exact below.elim

theorem Below.isFinite_eq (below : d.Below place) : d.isFinite = true := by
  obtain ⟨neg, coeff, exp, rfl, -⟩ := below.exists_finite
  rfl

theorem DigitsBelow.mono (below : DigitsBelow place coeff exp) (le : place ≤ other) :
    DigitsBelow other coeff exp := below.imp id fun digits => by omega

theorem Below.mono (below : d.Below place) (le : place ≤ other) : d.Below other := by
  obtain ⟨neg, coeff, exp, rfl, digits⟩ := below.exists_finite
  exact digits.mono le

theorem Below.negate (below : d.Below place) : d.negate.Below place := by
  obtain ⟨neg, coeff, exp, rfl, digits⟩ := below.exists_finite
  exact digits

theorem IsAmount.below (amount : d.IsAmount) : d.Below 26 := by
  obtain ⟨neg, coeff, rfl, small⟩ := amount.exists_finite
  have few := (digitCount_le_iff coeff precision (by decide)).mpr small
  simp only [precision] at few
  exact .inr (by omega)

/-- A number of no more value than another one has its leading digit at no greater place. -/
theorem DigitsBelow.of_le (le : (ca : ℚ) * 10 ^ ea ≤ cb * 10 ^ eb)
    (below : DigitsBelow place cb eb) : DigitsBelow place ca ea := by
  rcases Nat.eq_zero_or_pos ca with zero | positive
  · exact .inl zero
  · have low := le_value ca ea positive
    rcases below with rfl | digits
    · have value : (0 : ℚ) < ca * 10 ^ ea := by positivity
      simp only [Nat.cast_zero, zero_mul] at le
      linarith
    · have high := value_lt cb eb
      have less := (zpow_lt_zpow_iff_right₀ (by norm_num)).mp (low.trans_lt (le.trans_lt high))
      exact .inr (by omega)

/-- A number that a whole one bounds has no more places before the point. -/
theorem Below.of_abs_le {n : Nat} (finite : d.isFinite) (le : |d.toRat| ≤ n)
    (few : digitCount n ≤ place) : d.Below place := by
  cases d with
  | infinity neg => cases finite
  | nan neg signalling payload => cases finite
  | finite neg coeff exp =>
    rw [abs_toRat] at le
    have value : (coeff : ℚ) * 10 ^ exp ≤ n * 10 ^ (0 : ℤ) := by rwa [zpow_zero, mul_one]
    exact DigitsBelow.of_le value (.inr (by omega))

/-! ### Rounding -/

/-- Of so many digits no more are left than were not dropped, but for a power of ten. -/
theorem dropDigits_le_pow {left dropped : Nat} (split : left + dropped = digitCount coeff) :
    dropDigits .toEven coeff dropped ≤ 10 ^ left := by
  refine roundQuotient_le (by positivity) ?_
  rw [← pow_add, split]
  exact (lt_pow_digitCount coeff).le

private theorem digitCount_div_ten {n : Nat} (many : 1 < digitCount n) :
    digitCount (n / 10) + 1 = digitCount n := by
  have large : ¬n < 10 := by
    intro small
    rw [digitCount, if_pos small] at many
    omega
  rw [digitCount.eq_1 n, if_neg large]

/-- A number below the last place is rounded, and by that gains at most one place. -/
theorem exists_round (neg : Bool) (below : DigitsBelow place coeff exp) (far : place ≤ lastPlace)
    (gain : place < other) : ∃ r, round neg coeff exp = .ok r ∧ r.Kept ∧ r.Below other := by
  have positive : 0 < 10 ^ precision := by positivity
  rcases Nat.eq_zero_or_pos coeff with rfl | nonzero
  · refine ⟨.finite neg 0 (min (max exp minExponent) maxExponent), by simp [round], ⟨positive, ?_⟩,
      .inl rfl⟩
    simp only [minExponent, maxExponent, precision]
    omega
  · have digits : exp + digitCount coeff ≤ place := below.resolve_left (by omega)
    have inRange :
        ¬(maxExponent - (precision - 1) < exp + (digitCount coeff : Int) - precision) := by
      simp only [maxExponent, precision, lastPlace] at far ⊢
      omega
    simp only [round, nonzero.ne', ↓reduceIte, inRange]
    generalize exact : max (exp + (digitCount coeff : Int) - precision) minExponent = floor
    by_cases whole : floor ≤ exp
    · simp only [whole, ↓reduceIte]
      have few : digitCount coeff ≤ precision := by omega
      exact ⟨_, rfl, ⟨(digitCount_le_iff _ _ (by decide)).mp few, by omega⟩, .inr (by omega)⟩
    · by_cases tiny : exp + (digitCount coeff : Int) < floor
      · simp only [whole, tiny, ↓reduceIte]
        exact ⟨_, rfl, ⟨positive, by omega⟩, .inl rfl⟩
      · simp only [whole, tiny, ↓reduceIte]
        obtain ⟨left, gained⟩ : ∃ left : Nat, exp + (digitCount coeff : Int) - floor = left :=
          ⟨_, (Int.toNat_of_nonneg (by omega)).symm⟩
        have most : left ≤ precision := by omega
        have kept : dropDigits .toEven coeff (floor - exp).toNat ≤ 10 ^ left :=
          dropDigits_le_pow (by omega)
        generalize dropDigits .toEven coeff (floor - exp).toNat = rest at kept
        have count : digitCount rest ≤ left + 1 :=
          (digitCount_le_iff _ _ (by omega)).mpr
            (kept.trans_lt (Nat.pow_lt_pow_right (by omega) (by omega)))
        have top : ¬(maxExponent - (precision - 1) < floor + 1) := by
          simp only [maxExponent, minExponent, precision, lastPlace] at exact far ⊢
          omega
        by_cases few : digitCount rest ≤ precision
        · simp only [few, ↓reduceIte]
          exact ⟨_, rfl, ⟨(digitCount_le_iff _ _ (by decide)).mp few, by omega⟩, .inr (by omega)⟩
        · simp only [few, top, ↓reduceIte]
          have tenth : digitCount (rest / 10) + 1 = digitCount rest :=
            digitCount_div_ten (by simp only [precision] at few; omega)
          have small : rest / 10 < 10 ^ precision :=
            (digitCount_le_iff _ _ (by decide)).mp (by omega)
          exact ⟨_, rfl, ⟨small, by omega⟩, .inr (by omega)⟩

/-! ### Sums, differences and products -/

private theorem natAbs_signed_add_le (na nb : Bool) (x y : Nat) :
    (signed na x + signed nb y).natAbs ≤ x + y := by
  cases na <;> cases nb <;> simp only [signed, ↓reduceIte, Bool.false_eq_true] <;> omega

private theorem shift_le {k : Nat} (below : ea + digitCount ca ≤ place) (start : eb ≤ ea)
    (room : place - eb = k) : ca * 10 ^ (ea - eb).toNat ≤ 10 ^ k :=
  calc ca * 10 ^ (ea - eb).toNat ≤ 10 ^ digitCount ca * 10 ^ (ea - eb).toNat :=
        Nat.mul_le_mul_right _ (lt_pow_digitCount ca).le
    _ ≤ 10 ^ k := by
      rw [← pow_add]
      exact Nat.pow_le_pow_right (by omega) (by omega)

private theorem digitsBelow_sum (na nb : Bool) (cb : Nat) (eb : Int)
    (belowA : ea + digitCount ca ≤ place) (belowB : eb + digitCount cb ≤ place) (order : eb ≤ ea) :
    DigitsBelow (place + 1) (signed na (ca * 10 ^ (ea - eb).toNat) + signed nb cb).natAbs eb := by
  have countB := digitCount_pos cb
  obtain ⟨k, room⟩ : ∃ k : Nat, place - eb = k := ⟨_, (Int.toNat_of_nonneg (by omega)).symm⟩
  have first := shift_le belowA order room
  have second : cb ≤ 10 ^ k :=
    (lt_pow_digitCount cb).le.trans (Nat.pow_le_pow_right (by omega) (by omega))
  have total := natAbs_signed_add_le na nb (ca * 10 ^ (ea - eb).toNat) cb
  have few : digitCount (signed na (ca * 10 ^ (ea - eb).toNat) + signed nb cb).natAbs ≤ k + 1 := by
    refine (digitCount_le_iff _ _ (by omega)).mpr ?_
    rw [pow_succ]
    have positive : 0 < 10 ^ k := by positivity
    omega
  exact .inr (by omega)

private theorem exists_addAligned (na nb : Bool) (belowA : ea + digitCount ca ≤ place)
    (belowB : eb + digitCount cb ≤ place) (order : eb ≤ ea) (far : place + 1 ≤ lastPlace) :
    ∃ r, addAligned na ca ea nb cb eb = .ok r ∧ r.Kept ∧ r.Below (place + 2) := by
  have countA := digitCount_pos ca
  simp only [addAligned]
  split
  · have one : digitCount 1 = 1 := by rw [digitCount]; decide
    have below := digitsBelow_sum na nb 1
      (ea + min (-1) ((digitCount ca : Int) - precision - 2)) belowA (by omega) (by omega)
    exact exists_round _ below far (by omega)
  · exact exists_round _ (digitsBelow_sum na nb cb eb belowA belowB order) far (by omega)

private theorem DigitsBelow.shift (below : DigitsBelow place coeff exp) {start : Int}
    (le : start ≤ exp) : DigitsBelow place (coeff * 10 ^ (exp - start).toNat) start := by
  rcases below with rfl | digits
  · exact .inl (by simp)
  · have count := digitCount_shift_le coeff (exp - start).toNat
    exact .inr (by omega)

/-- Numbers below a place have a sum, which is at most two places above. -/
theorem Below.exists_add (belowA : a.Below place) (belowB : b.Below place)
    (far : place + 1 ≤ lastPlace) : ∃ r, a.add b = .ok r ∧ r.Kept ∧ r.Below (place + 2) := by
  obtain ⟨na, ca, ea, rfl, digitsA⟩ := belowA.exists_finite
  obtain ⟨nb, cb, eb, rfl, digitsB⟩ := belowB.exists_finite
  simp only [add, isNaN, Bool.or_self, Bool.false_eq_true, ↓reduceIte, addFinite]
  by_cases zeroA : ca = 0
  · by_cases zeroB : cb = 0
    · simp only [zeroA, zeroB, and_self, ↓reduceIte]
      have below : DigitsBelow place 0 (min ea eb) := .inl rfl
      exact exists_round _ below (by omega) (by omega)
    · simp only [zeroA, zeroB, and_false, ↓reduceIte]
      exact exists_round _ (digitsB.shift (by omega)) (by omega) (by omega)
  · by_cases zeroB : cb = 0
    · simp only [zeroA, zeroB, false_and, ↓reduceIte]
      exact exists_round _ (digitsA.shift (by omega)) (by omega) (by omega)
    · simp only [zeroA, zeroB, and_self, ↓reduceIte]
      split
      · exact exists_addAligned na nb (digitsA.resolve_left zeroA) (digitsB.resolve_left zeroB)
          (by omega) far
      · exact exists_addAligned nb na (digitsB.resolve_left zeroB) (digitsA.resolve_left zeroA)
          (by omega) far

theorem Below.exists_sub (belowA : a.Below place) (belowB : b.Below place)
    (far : place + 1 ≤ lastPlace) : ∃ r, a.sub b = .ok r ∧ r.Below (place + 2) := by
  obtain ⟨r, added, -, below⟩ := belowA.exists_add belowB.negate far
  obtain ⟨na, ca, ea, rfl, -⟩ := belowA.exists_finite
  obtain ⟨nb, cb, eb, rfl, -⟩ := belowB.exists_finite
  exact ⟨r, by simpa [Decimal.sub, isNaN] using added, below⟩

theorem Below.exists_mul (belowA : a.Below place) (belowB : b.Below other)
    (far : place + other ≤ lastPlace) : ∃ r, a.mul b = .ok r ∧ r.Below (place + other + 1) := by
  obtain ⟨na, ca, ea, rfl, digitsA⟩ := belowA.exists_finite
  obtain ⟨nb, cb, eb, rfl, digitsB⟩ := belowB.exists_finite
  have digits : DigitsBelow (place + other) (ca * cb) (ea + eb) := by
    rcases digitsA with rfl | digitsA
    · exact .inl (by simp)
    · rcases digitsB with rfl | digitsB
      · exact .inl (by simp)
      · have count := digitCount_mul_le ca cb
        exact .inr (by omega)
  obtain ⟨r, rounded, -, below⟩ := exists_round (na != nb) digits far (lt_add_one _)
  exact ⟨r, by simpa [Decimal.mul, isNaN] using rounded, below⟩

/-! ### Sums of any length -/

private theorem digitCount_eq {n k : Nat} (low : 10 ^ k ≤ n) (high : n < 10 ^ (k + 1)) :
    digitCount n = k + 1 := by
  have le := (digitCount_le_iff n (k + 1) (by omega)).mpr high
  by_contra other
  have count := digitCount_pos n
  have few := (digitCount_le_iff n k (by omega)).mp (by omega)
  omega

/-- A unit far below the digits that are kept is dropped again. -/
private theorem round_far_unit (neg : Bool) (positive : 0 < coeff) (small : coeff < 10 ^ precision)
    (below : exp + digitCount coeff ≤ place) (far : place ≤ lastPlace)
    (low : minExponent + 30 ≤ exp + digitCount coeff) {unit : Int}
    (start : unit = exp + digitCount coeff - 30) :
    ∃ r, round neg (coeff * 10 ^ (exp - unit).toNat + 1) unit = .ok r ∧ r.Kept ∧ r.Below place := by
  have count := digitCount_pos coeff
  have few : digitCount coeff ≤ 28 := (digitCount_le_iff coeff 28 (by omega)).mpr small
  obtain ⟨gap, rest⟩ : ∃ gap, digitCount coeff + gap = 28 := ⟨28 - digitCount coeff, by omega⟩
  have shift : (exp - unit).toNat = gap + 2 := by omega
  have scaled : coeff * 10 ^ gap < 10 ^ 28 := by
    rw [← rest, pow_add]
    exact Nat.mul_lt_mul_of_pos_right (lt_pow_digitCount coeff) (by positivity)
  have large : 10 ^ 27 ≤ coeff * 10 ^ gap :=
    calc 10 ^ 27 = 10 ^ (digitCount coeff - 1) * 10 ^ gap := by rw [← pow_add]; congr 1; omega
      _ ≤ coeff * 10 ^ gap := Nat.mul_le_mul_right _ (pow_digitCount_le coeff positive)
  have product : coeff * 10 ^ (gap + 2) = coeff * 10 ^ gap * 100 := by ring
  rw [shift, product]
  generalize coeff * 10 ^ gap = digits at scaled large ⊢
  have digitCount30 : digitCount (digits * 100 + 1) = 30 := digitCount_eq (by omega) (by omega)
  have inRange : ¬(maxExponent - (precision - 1) < unit + ((30 : Nat) : Int) - precision) := by
    simp only [maxExponent, precision, lastPlace] at far ⊢
    omega
  have floor : max (unit + ((30 : Nat) : Int) - precision) minExponent = unit + 2 := by
    simp only [precision] at low ⊢
    omega
  have dropped : (unit + 2 - unit).toNat = 2 := by omega
  have quotient : (digits * 100 + 1) / 10 ^ 2 = digits := by omega
  have remainder : (digits * 100 + 1) % 10 ^ 2 = 1 := by omega
  have kept : dropDigits .toEven (digits * 100 + 1) 2 = digits := by
    simp only [dropDigits, roundQuotient, quotient, remainder]
    norm_num
  have fits : digitCount digits ≤ precision := (digitCount_le_iff digits _ (by decide)).mpr scaled
  have above : ¬(unit + 2 ≤ unit) := by omega
  have reaches : ¬(unit + ((30 : Nat) : Int) < unit + 2) := by omega
  refine ⟨.finite neg digits (unit + 2), ?_, ⟨scaled, by omega⟩, .inr ?_⟩
  · simp only [round, digitCount30, Nat.add_one_ne_zero, inRange, floor, above, reaches, dropped,
      kept, fits, ↓reduceIte]
  · simp only [precision] at fits
    omega

/-- What is far below the digits that are kept does not bring a number to a greater place. -/
private theorem addAligned_far (na nb : Bool) (positive : 0 < ca) (small : ca < 10 ^ precision)
    (below : ea + digitCount ca ≤ place) (far : place < lastPlace)
    (low : minExponent + 30 ≤ ea + digitCount ca)
    (tiny : digitCount cb + eb - 1 < ea + digitCount ca - 30) :
    ∃ r, addAligned na ca ea nb cb eb = .ok r ∧ r.Kept ∧ r.Below place := by
  have count := digitCount_pos ca
  have few : digitCount ca ≤ 28 := (digitCount_le_iff ca 28 (by omega)).mpr small
  have start : ea + min (-1) ((digitCount ca : Int) - precision - 2) = ea + digitCount ca - 30 := by
    simp only [precision]
    omega
  simp only [addAligned, start, tiny, ↓reduceIte]
  generalize start' : ea + (digitCount ca : Int) - 30 = unit
  have shifted : 0 < ca * 10 ^ (ea - unit).toNat := by positivity
  by_cases same : na = nb
  · have total : (signed na (ca * 10 ^ (ea - unit).toNat) + signed nb 1).natAbs =
        ca * 10 ^ (ea - unit).toNat + 1 := by
      subst same
      cases na <;> simp only [signed, ↓reduceIte, Bool.false_eq_true] <;> omega
    rw [total]
    exact round_far_unit _ positive small below far.le low start'.symm
  · have total : (signed na (ca * 10 ^ (ea - unit).toNat) + signed nb 1).natAbs + 1 =
        ca * 10 ^ (ea - unit).toNat := by
      obtain rfl : nb = !na := Bool.eq_not.mpr (Ne.symm same)
      cases na <;> simp only [signed, Bool.not_false, Bool.not_true, ↓reduceIte,
        Bool.false_eq_true] <;> omega
    generalize decide (signed na (ca * 10 ^ (ea - unit).toNat) + signed nb 1 < 0) = neg
    generalize (signed na (ca * 10 ^ (ea - unit).toNat) + signed nb 1).natAbs = rest at total ⊢
    have le : (rest : ℚ) * 10 ^ unit ≤ ca * 10 ^ ea := by
      rw [← shift_value ca unit ea (by omega)]
      exact mul_le_mul_of_nonneg_right (by exact_mod_cast (by omega)) (by positivity)
    obtain ⟨r, rounded, kept, -⟩ :=
      exists_round neg (DigitsBelow.of_le le (.inr below)) far.le (lt_add_one _)
    obtain ⟨c, e, rfl, value⟩ := round_le small (by simp only [minExponent] at low ⊢; omega) le
      rounded
    exact ⟨_, rounded, kept, DigitsBelow.of_le value (.inr below)⟩

/-- Once a sum is so large that a number is too small to change it, it grows no more. -/
private theorem add_kept (kept : a.Kept) (belowA : a.Below (place + 32)) (belowB : b.Below place)
    (nonneg : 0 ≤ place) (far : place + 33 ≤ lastPlace) :
    ∃ r, a.add b = .ok r ∧ r.Kept ∧ r.Below (place + 32) := by
  by_cases near : a.Below (place + 30)
  · obtain ⟨r, added, kept', below⟩ := near.exists_add (belowB.mono (by omega)) (by omega)
    exact ⟨r, added, kept', below.mono (by omega)⟩
  obtain ⟨na, ca, ea, rfl, digitsA⟩ := belowA.exists_finite
  obtain ⟨nb, cb, eb, rfl, digitsB⟩ := belowB.exists_finite
  obtain ⟨small, low⟩ := kept
  have nonzero : ca ≠ 0 := fun zero => near (.inl zero)
  have large : place + 30 < ea + digitCount ca := not_le.mp fun le => near (.inr le)
  have few : digitCount ca ≤ 28 := (digitCount_le_iff ca 28 (by omega)).mpr small
  have belowA' : ea + digitCount ca ≤ place + 32 := digitsA.resolve_left nonzero
  simp only [add, isNaN, Bool.or_self, Bool.false_eq_true, ↓reduceIte, addFinite, nonzero,
    false_and]
  by_cases zero : cb = 0
  · simp only [zero, ↓reduceIte]
    generalize exponent : max (min ea eb) (ea - (precision : Int) - 1) = start
    have value := shift_value ca start ea (by omega)
    have shifted : DigitsBelow (place + 32) (ca * 10 ^ (ea - start).toNat) start :=
      digitsA.shift (by omega)
    obtain ⟨r, rounded, kept, -⟩ := exists_round na shifted (by omega) (lt_add_one _)
    obtain ⟨c, e, rfl, le⟩ := round_le small low value.le rounded
    exact ⟨_, rounded, kept, DigitsBelow.of_le le digitsA⟩
  · have belowB' : eb + digitCount cb ≤ place := digitsB.resolve_left zero
    have countB := digitCount_pos cb
    have order : eb ≤ ea := by omega
    simp only [zero, order, ↓reduceIte]
    exact addAligned_far na nb (by omega) small belowA' (by omega)
      (by simp only [minExponent, precision]; omega) (by omega)

private theorem foldlM_kept (ds : List Decimal) (below : ∀ d ∈ ds, d.Below place)
    (nonneg : 0 ≤ place) (far : place + 33 ≤ lastPlace) (kept : a.Kept)
    (belowA : a.Below (place + 32)) :
    ∃ sum, ds.foldlM add a = .ok sum ∧ sum.Below (place + 32) := by
  induction ds generalizing a with
  | nil => exact ⟨a, rfl, belowA⟩
  | cons d rest ih =>
    obtain ⟨next, added, kept', belowNext⟩ := add_kept kept belowA (below d (by simp)) nonneg far
    obtain ⟨sum, summed, belowSum⟩ := ih (fun d mem => below d (by simp [mem])) kept' belowNext
    exact ⟨sum, by simp [List.foldlM_cons, added, summed], belowSum⟩

/-- Numbers below a place have a sum, however many there are. -/
theorem exists_sum_of_below {ds : List Decimal} (below : ∀ d ∈ ds, d.Below place)
    (nonneg : 0 ≤ place) (far : place + 33 ≤ lastPlace) :
    ∃ total, sum ds = .ok total ∧ total.Below (place + 32) :=
  foldlM_kept ds below nonneg far ⟨by decide, by decide⟩ (.inl rfl)

end Decimal

end Earmark
