import Earmark.Proofs.Numerals

/-!
Money as the nearest cents. A number that is brought to the cent becomes the nearest whole number of
cents, a half going away from zero, with the number's own sign where that is none at all, and is
refused where 28 digits do not hold it (`Decimal.toCents_nearest`). So amounts stay as they are, keep
the order and the signs of the numbers they come from and are within half a cent of them
(`Numeral.toAmount_nearest`).
-/

namespace Earmark

/-- The whole number is the nearest one, of two such the one farther from zero. -/
def IsNearestAway (x : ℚ) (k : ℤ) : Prop := |x - k| < 1 / 2 ∨ |x - k| = 1 / 2 ∧ |x| < |(k : ℚ)|

namespace IsNearestAway

variable {x y : ℚ} {k j : ℤ}

theorem abs_le (nearest : IsNearestAway x k) : |x - k| ≤ 1 / 2 := by
  rcases nearest with near | ⟨tie, -⟩
  · exact near.le
  · exact tie.le

theorem neg (nearest : IsNearestAway x k) : IsNearestAway (-x) (-k) := by
  have same : |-x - ((-k : ℤ) : ℚ)| = |x - k| := by
    rw [Int.cast_neg, neg_sub_neg, abs_sub_comm]
  rwa [IsNearestAway, same, abs_neg, Int.cast_neg, abs_neg]

/-- The nearest whole numbers are in the order of what they are near to. -/
theorem mono (nearest : IsNearestAway x k) (nearest' : IsNearestAway y j) (le : x ≤ y) :
    k ≤ j := by
  by_contra! less
  have next : (j : ℚ) + 1 ≤ k := by exact_mod_cast less
  have low := (abs_sub_le_iff.mp nearest.abs_le).2
  have high := (abs_sub_le_iff.mp nearest'.abs_le).1
  -- Both are then a half away from one number, and it lies nearer to zero than either.
  have half : x = k - 1 / 2 := by linarith
  have half' : x = j + 1 / 2 := by linarith
  have same : y = x := by linarith
  obtain ⟨-, far⟩ := nearest.resolve_left fun near => by
    rw [half, sub_sub_cancel_left, abs_neg, abs_of_pos one_half_pos] at near
    exact lt_irrefl _ near
  obtain ⟨-, far'⟩ := nearest'.resolve_left fun near => by
    rw [same, half', add_sub_cancel_left, abs_of_pos one_half_pos] at near
    exact lt_irrefl _ near
  rw [same] at far'
  rcases le_or_gt 0 j with nonneg | negative
  · have sign : (0 : ℚ) ≤ j := by exact_mod_cast nonneg
    rw [half', abs_of_nonneg sign, abs_of_nonneg (by linarith)] at far'
    linarith
  · have sign : (j : ℚ) ≤ -1 := by exact_mod_cast Int.le_sub_one_of_lt negative
    rw [half', abs_of_nonpos (by linarith), abs_of_nonpos (by linarith)] at far
    linarith

theorem unique (nearest : IsNearestAway x k) (again : IsNearestAway x j) : k = j :=
  le_antisymm (nearest.mono again le_rfl) (again.mono nearest le_rfl)

/-- Of a number that is not negative, a half is rounded up. -/
theorem of_nonneg (nonneg : 0 ≤ x) (low : k - 1 / 2 ≤ x) (high : x < k + 1 / 2) :
    IsNearestAway x k := by
  rcases low.lt_or_eq with near | tie
  · exact .inl (abs_sub_lt_iff.mpr ⟨by linarith, by linarith⟩)
  · refine .inr ⟨?_, ?_⟩
    · rw [← tie, sub_sub_cancel_left, abs_neg, abs_of_pos one_half_pos]
    · rw [abs_of_nonneg nonneg, abs_of_nonneg (by linarith)]
      linarith

end IsNearestAway

theorem isNearestAway_intCast (k : ℤ) : IsNearestAway k k := .inl (by simp)

/-- A quotient is rounded to the nearest whole number. -/
theorem isNearestAway_roundQuotient (n : Nat) {d : Nat} (positive : 0 < d) :
    IsNearestAway (n / d) (roundQuotient .awayFromZero n d : ℕ) := by
  have bounds : 2 * (roundQuotient .awayFromZero n d * d) ≤ 2 * n + d ∧
      2 * n < 2 * (roundQuotient .awayFromZero n d * d) + d := by
    have parts := Nat.div_add_mod n d
    have proper := Nat.mod_lt n positive
    rw [mul_comm] at parts
    simp only [roundQuotient]
    split_ifs
    · omega
    · rw [Nat.add_one_mul (n / d) d]
      omega
    · rw [Nat.add_one_mul (n / d) d]
      omega
  have whole : (0 : ℚ) < d := by exact_mod_cast positive
  have low : (2 : ℚ) * (roundQuotient .awayFromZero n d * d) ≤ 2 * n + d := by
    exact_mod_cast bounds.1
  have high : (2 : ℚ) * n < 2 * (roundQuotient .awayFromZero n d * d) + d := by
    exact_mod_cast bounds.2
  refine .of_nonneg (by positivity) ?_ ?_
  · rw [le_div_iff₀ whole, Int.cast_natCast]
    linarith
  · rw [div_lt_iff₀ whole, Int.cast_natCast]
    linarith

namespace Decimal

variable {neg : Bool} {coeff : Nat} {exp : Int} {v : Decimal}

/-- Whether the number has a minus. Zero can have one. -/
def isNegative : Decimal → Bool
  | .finite neg _ _ => neg
  | .infinity neg => neg
  | .nan neg _ _ => neg

/-- The magnitude of a number of cents that is too large for an amount. -/
private theorem exists_nearest_large (large : (precision : Int) < exp + digitCount coeff)
    (positive : 0 < coeff) :
    ∃ m : Nat, IsNearestAway (coeff * 10 ^ exp) m ∧ ¬m < 10 ^ precision := by
  have least : (10 : ℚ) ^ (28 : ℤ) ≤ coeff * 10 ^ exp :=
    (zpow_le_zpow_right₀ (by norm_num) (by simp only [precision] at large; omega)).trans
      (le_value coeff exp positive)
  have nonneg : (0 : ℚ) ≤ coeff * 10 ^ exp := by positivity
  have floor : ((⌊(coeff : ℚ) * 10 ^ exp + 1 / 2⌋.toNat : ℕ) : ℤ) =
      ⌊(coeff : ℚ) * 10 ^ exp + 1 / 2⌋ := Int.toNat_of_nonneg (Int.floor_nonneg.mpr (by linarith))
  have nearest : IsNearestAway (coeff * 10 ^ exp) (⌊(coeff : ℚ) * 10 ^ exp + 1 / 2⌋.toNat : ℕ) := by
    have low := Int.floor_le ((coeff : ℚ) * 10 ^ exp + 1 / 2)
    have high := Int.lt_floor_add_one ((coeff : ℚ) * 10 ^ exp + 1 / 2)
    rw [floor]
    exact .of_nonneg nonneg (by linarith) (by linarith)
  have bound := (isNearestAway_intCast (10 ^ 28)).mono nearest (by exact_mod_cast least)
  refine ⟨_, nearest, ?_⟩
  simp only [precision]
  omega

/-- A number of cents that no digit stands for is their magnitude. -/
private theorem nearest_of_whole (whole : -2 ≤ exp)
    (small : exp + 2 + digitCount coeff ≤ (precision : Int)) :
    IsNearestAway (coeff * 10 ^ (exp + 2)) (coeff * 10 ^ (exp + 2).toNat : ℕ) ∧
      coeff * 10 ^ (exp + 2).toNat < 10 ^ precision := by
  have value := shift_value coeff 0 (exp + 2) (by omega)
  rw [zpow_zero, mul_one, sub_zero] at value
  constructor
  · rw [← value]
    exact isNearestAway_intCast _
  · have scaled := value_lt coeff (exp + 2)
    have most : (10 : ℚ) ^ (exp + 2 + digitCount coeff) ≤ 10 ^ (precision : ℤ) :=
      zpow_le_zpow_right₀ (by norm_num) small
    rw [← value] at scaled
    rw [zpow_natCast] at most
    exact_mod_cast scaled.trans_le most

/-- Less than a tenth of a cent is none. -/
private theorem nearest_of_tiny (tiny : exp + digitCount coeff < -2) :
    IsNearestAway (coeff * 10 ^ (exp + 2)) (0 : ℕ) := by
  have below : (coeff : ℚ) * 10 ^ (exp + 2) < 1 / 2 :=
    calc (coeff : ℚ) * 10 ^ (exp + 2) < 10 ^ (exp + 2 + digitCount coeff) := value_lt _ _
      _ ≤ 10 ^ (-1 : ℤ) := zpow_le_zpow_right₀ (by norm_num) (by omega)
      _ < 1 / 2 := by norm_num
  have nonneg : (0 : ℚ) ≤ coeff * 10 ^ (exp + 2) := by positivity
  refine .of_nonneg nonneg ?_ ?_
  · rw [Nat.cast_zero, Int.cast_zero]
    linarith
  · rwa [Nat.cast_zero, Int.cast_zero, zero_add]

private theorem nearest_of_dropDigits (finer : exp < -2) :
    IsNearestAway (coeff * 10 ^ (exp + 2))
      (dropDigits .awayFromZero coeff (-2 - exp).toNat : ℕ) := by
  have quotient : (coeff : ℚ) * 10 ^ (exp + 2) = coeff / (10 ^ (-2 - exp).toNat : ℕ) := by
    have places : exp + 2 = -((-2 - exp).toNat : ℤ) := by omega
    rw [places, zpow_neg, zpow_natCast, div_eq_mul_inv]
    push_cast
    rfl
  rw [quotient]
  exact isNearestAway_roundQuotient coeff (by positivity)

/-- A number without its sign becomes the nearest cents, if there are few enough. -/
private theorem exists_toCents_magnitude (neg : Bool) (coeff : Nat) (exp : Int) :
    ∃ m : Nat, IsNearestAway (coeff * 10 ^ (exp + 2)) m ∧
      (finite neg coeff exp).toCents =
        if m < 10 ^ precision then .ok (.finite neg m (-2)) else .error .undefinedResult := by
  rcases Nat.eq_zero_or_pos coeff with rfl | positive
  · refine ⟨0, ?_, rfl⟩
    rw [Nat.cast_zero, zero_mul]
    exact isNearestAway_intCast 0
  simp only [toCents, positive.ne', ↓reduceIte]
  by_cases large : (precision : Int) < exp + 2 + digitCount coeff
  · obtain ⟨m, nearest, many⟩ := exists_nearest_large large positive
    exact ⟨m, nearest, by simp only [large, many, ↓reduceIte]⟩
  simp only [large, ↓reduceIte]
  by_cases whole : -2 ≤ exp
  · obtain ⟨nearest, small⟩ := nearest_of_whole whole (not_lt.mp large)
    exact ⟨_, nearest, by simp only [whole, small, ↓reduceIte]⟩
  simp only [whole, ↓reduceIte]
  by_cases tiny : exp + digitCount coeff < -2
  · exact ⟨0, nearest_of_tiny tiny, by simp only [tiny, ↓reduceIte]; rfl⟩
  · refine ⟨_, nearest_of_dropDigits (not_le.mp whole), ?_⟩
    have few := digitCount_le_iff (dropDigits .awayFromZero coeff (-2 - exp).toNat) precision
      (by decide)
    simp only [tiny, ↓reduceIte, ← not_le, few, ite_not]

/-- A finite number becomes the nearest cents, under its own sign, or is refused. -/
theorem toCents_nearest (isFinite : v.isFinite) :
    ∃ c : ℤ, IsNearestAway (100 * v.toRat) c ∧ c = signed v.isNegative c.natAbs ∧
      v.toCents = if c.natAbs < 10 ^ 28 then .ok (.finite v.isNegative c.natAbs (-2))
        else .error .undefinedResult := by
  cases v with
  | infinity neg => cases isFinite
  | nan neg signalling payload => cases isFinite
  | finite neg coeff exp =>
    obtain ⟨m, nearest, brought⟩ := exists_toCents_magnitude neg coeff exp
    have magnitude : (coeff : ℚ) * 10 ^ (exp + 2) = 100 * (coeff * 10 ^ exp) := by
      rw [zpow_add₀ (by norm_num)]
      norm_num
      ring
    rw [magnitude] at nearest
    refine ⟨signed neg m, ?_, ?_, ?_⟩
    · cases neg with
      | false => simpa [toRat, signed] using nearest
      | true => simpa [toRat, signed] using nearest.neg
    · rw [signed_natAbs]
      rfl
    · rw [signed_natAbs]
      exact brought

end Decimal

/-! ### Numbers as they are given -/

theorem amountOf_of_not_isFinite {v : Decimal} (shown : String) (infinite : v.isFinite = false) :
    ∃ fault, amountOf shown v = .error (.amount shown fault) := by
  cases v with
  | finite neg coeff exp => cases infinite
  | infinity neg => exact ⟨_, rfl⟩
  | nan neg signalling payload => cases signalling <;> exact ⟨_, rfl⟩

/-- The amount that a finite number becomes: the nearest cents, under its own sign. -/
theorem amountOf_nearest {v : Decimal} (shown : String) (isFinite : v.isFinite) :
    ∃ c : ℤ, IsNearestAway (100 * v.toRat) c ∧ c = Decimal.signed v.isNegative c.natAbs ∧
      amountOf shown v =
        if c.natAbs < 10 ^ 28 then .ok (.finite v.isNegative c.natAbs (-2))
        else .error (.amount shown .notToTheCent) := by
  obtain ⟨c, nearest, signed, brought⟩ := Decimal.toCents_nearest isFinite
  refine ⟨c, nearest, signed, ?_⟩
  by_cases small : c.natAbs < 10 ^ 28
  · rw [if_pos small] at brought ⊢
    simp only [amountOf, brought, Decimal.isFinite, ↓reduceIte]
  · rw [if_neg small] at brought ⊢
    simp only [amountOf, brought]

namespace Numeral

variable {n m : Numeral} {v w a b : Decimal}

/-- A decimal number, a text, or a whole number of at most as many digits as are written out. -/
def IsLiteral : Numeral → Prop
  | .decimal _ | .text _ | .flag _ => True
  | .whole k => digitCount k.natAbs ≤ 4300
  | .float _ | .absent => False

/-- The literal stands for a finite number. -/
structure Means (n : Numeral) (v : Decimal) : Prop where
  literal : n.IsLiteral
  exact : n.exact = .ok v
  isFinite : v.isFinite

private theorem exact_text_iff {s : String} : (text s).exact = .ok v ↔ Decimal.ofText? s = some v := by
  simp only [exact, Failure.require_ok_iff]

/-- A literal is brought to the cent as the decimal number that it stands for, be it finite or not. -/
private theorem toAmount_of_exact (literal : n.IsLiteral) (found : n.exact = .ok v) :
    n.toAmount = amountOf n.shown v := by
  cases n with
  | text s =>
    have read := exact_text_iff.mp found
    simp only [toAmount, read, shown]
  | whole k => cases found; rfl
  | flag b => cases found; rfl
  | decimal d => cases found; rfl
  | float x => exact literal.elim
  | absent => exact literal.elim

/-- A text of no number is refused as an amount. -/
private theorem toAmount_of_unread (literal : n.IsLiteral) (unread : ∀ v, n.exact ≠ .ok v) :
    n.toAmount = .error (.amount n.shown .notToTheCent) := by
  cases n with
  | text s =>
    cases read : Decimal.ofText? s with
    | some d => exact absurd (exact_text_iff.mpr read) (unread d)
    | none => simp only [toAmount, read, shown]
  | whole k => exact absurd rfl (unread _)
  | flag b => exact absurd rfl (unread _)
  | decimal d => exact absurd rfl (unread _)
  | float x => exact literal.elim
  | absent => exact literal.elim

theorem toAmount_of_not_means (literal : n.IsLiteral) (other : ∀ v, ¬n.Means v) :
    ∃ fault, n.toAmount = .error (.amount n.shown fault) := by
  by_cases read : ∃ v, n.exact = .ok v
  · obtain ⟨v, found⟩ := read
    have infinite : v.isFinite = false := by
      simpa using fun isFinite => other v ⟨literal, found, isFinite⟩
    rw [toAmount_of_exact literal found]
    exact amountOf_of_not_isFinite n.shown infinite
  · exact ⟨_, toAmount_of_unread literal fun v found => read ⟨v, found⟩⟩

namespace Means

theorem exists_nearest (means : n.Means v) :
    ∃ c : ℤ, IsNearestAway (100 * v.toRat) c ∧ c = Decimal.signed v.isNegative c.natAbs ∧
      n.toAmount =
        if c.natAbs < 10 ^ 28 then .ok (.finite v.isNegative c.natAbs (-2))
        else .error (.amount n.shown .notToTheCent) := by
  rw [toAmount_of_exact means.literal means.exact]
  exact amountOf_nearest n.shown means.isFinite

/-- What a number is brought to is the nearest cents, under its own sign. -/
theorem nearest (means : n.Means v) (brought : n.toAmount = .ok a) :
    IsNearestAway (100 * v.toRat) a.cents ∧ a = .finite v.isNegative a.cents.natAbs (-2) := by
  obtain ⟨c, nearest, signed, nearby⟩ := means.exists_nearest
  rw [nearby] at brought
  split at brought
  · cases brought
    rw [Decimal.cents, ← signed]
    exact ⟨nearest, rfl⟩
  · cases brought

theorem within_half_cent (means : n.Means v) (brought : n.toAmount = .ok a) :
    |a.toRat - v.toRat| ≤ 1 / 200 := by
  obtain ⟨above, below⟩ := abs_sub_le_iff.mp (means.nearest brought).1.abs_le
  rw [(isAmount_of_toAmount brought).toRat_eq, abs_sub_le_iff]
  constructor <;> linarith

theorem mono (means : n.Means v) (means' : m.Means w) (brought : n.toAmount = .ok a)
    (brought' : m.toAmount = .ok b) (le : v.toRat ≤ w.toRat) : a.toRat ≤ b.toRat := by
  refine ((isAmount_of_toAmount brought).toRat_le_iff (isAmount_of_toAmount brought')).mpr ?_
  exact (means.nearest brought).1.mono (means'.nearest brought').1 (by linarith)

/-- Opposite numbers become opposite amounts; so do the two zeros. -/
theorem opposite (means : n.Means v) (means' : m.Means w) (brought : n.toAmount = .ok a)
    (opposite : w.toRat = -v.toRat) :
    ∃ b, m.toAmount = .ok b ∧ b.toRat = -a.toRat ∧ (w = v.negate → b = a.negate) := by
  obtain ⟨nearest, whole⟩ := means.nearest brought
  have amount := isAmount_of_toAmount brought
  obtain ⟨c, nearest', signed, brought'⟩ := means'.exists_nearest
  obtain rfl : c = -a.cents :=
    nearest'.unique (by rw [opposite, mul_neg]; exact nearest.neg)
  rw [Int.natAbs_neg] at signed brought'
  have small : a.cents.natAbs < 10 ^ 28 := amount.natAbs_lt
  rw [if_pos small] at brought'
  have amount' := isAmount_of_toAmount brought'
  refine ⟨_, brought', ?_, ?_⟩
  · rw [amount'.toRat_eq, Decimal.cents, ← signed, amount.toRat_eq, Int.cast_neg, neg_div]
  · rintro rfl
    have flipped : v.negate.isNegative = !v.isNegative := by cases v <;> rfl
    rw [flipped]
    exact (congrArg Decimal.negate whole).symm

end Means

/-- A literal that stands for a finite number is brought to the nearest whole number `c` of cents, a
half going away from zero: a number with two places which has, also as a zero, the sign of the
literal. It is refused as an amount if 28 digits do not hold `c`, as is every other literal. So an
amount stays as it is, also as the text that shows it, and what is brought to the cent is within half
a cent, in the same order and, for opposite numbers, opposite. -/
theorem toAmount_nearest :
    (∀ (n : Numeral) (v : Decimal), n.Means v → ∃ c : ℤ, IsNearestAway (100 * v.toRat) c ∧
      (c.natAbs < 10 ^ 28 → ∃ a, n.toAmount = .ok a ∧ a.IsAmount ∧ a.toRat = c / 100 ∧
        a.isNegative = v.isNegative) ∧
      (10 ^ 28 ≤ c.natAbs → n.toAmount = .error (.amount n.shown .notToTheCent))) ∧
    (∀ n : Numeral, n.IsLiteral → (∀ v, ¬n.Means v) →
      ∃ fault, n.toAmount = .error (.amount n.shown fault)) ∧
    (∀ (n : Numeral) (v a : Decimal), n.Means v → n.toAmount = .ok a →
      a.toAmount = .ok a ∧ (text a.toText).toAmount = .ok a ∧ |a.toRat - v.toRat| ≤ 1 / 200) ∧
    (∀ (n m : Numeral) (v w a b : Decimal), n.Means v → m.Means w → n.toAmount = .ok a →
      m.toAmount = .ok b → v.toRat ≤ w.toRat → a.toRat ≤ b.toRat) ∧
    ∀ (n m : Numeral) (v w a : Decimal), n.Means v → m.Means w → n.toAmount = .ok a →
      w.toRat = -v.toRat →
        ∃ b, m.toAmount = .ok b ∧ b.toRat = -a.toRat ∧ (w = v.negate → b = a.negate) := by
  refine ⟨fun n v means => ?_, fun n => toAmount_of_not_means, fun n v a means brought => ?_,
    fun n m v w a b => Means.mono, fun n m v w a => Means.opposite⟩
  · obtain ⟨c, nearest, signed, brought⟩ := means.exists_nearest
    rw [brought]
    refine ⟨c, nearest, fun small => ⟨_, if_pos small, ⟨rfl, small⟩, ?_, rfl⟩,
      fun large => if_neg (not_lt.mpr large)⟩
    have amount : (Decimal.finite v.isNegative c.natAbs (-2)).IsAmount := ⟨rfl, small⟩
    rw [amount.toRat_eq, Decimal.cents, ← signed]
  · have amount := isAmount_of_toAmount brought
    refine ⟨amount.toAmount_eq, ?_, means.within_half_cent brought⟩
    have read := Decimal.ofText?_toText amount.isWritten
    simp only [toAmount, read, amountOf, amount.toCents_eq, amount.isFinite_eq, ↓reduceIte]

/-- A tie below zero goes down to the cent, and the amount it becomes stays where it is. -/
theorem toAmount_nearest_tie :
    (text "-12.345").Means (.finite true 12345 (-3)) ∧
      (text "-12.345").toAmount = .ok (.finite true 1235 (-2)) ∧
        (Decimal.finite true 1235 (-2)).toAmount = .ok (.finite true 1235 (-2)) := by
  have means : (text "-12.345").Means (.finite true 12345 (-3)) :=
    ⟨trivial, exact_text_iff.mpr (by decide +kernel), rfl⟩
  have brought : (text "-12.345").toAmount = .ok (.finite true 1235 (-2)) :=
    eq_ok_of_toOption (by decide +kernel)
  exact ⟨means, brought, (toAmount_nearest.2.2.1 _ _ _ means brought).1⟩

end Numeral

end Earmark
