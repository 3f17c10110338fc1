import Earmark.Proofs.LongNumbers
import Earmark.Proofs.Rows

/-!
The parts of a split rule. What they make together is rounded to the digits that are kept before it
is compared with one, and one is the rounding of whatever is no further from it than half a unit of
the last of these digits (`Decimal.rounds_one_iff`). So a rule is accepted when its parts come to
about one, and it keeps them as they were given (`SplitRule.accepts_about_one`).
-/

namespace Earmark

namespace Decimal

variable {x r : ℚ}

/-- What is rounded to one. Digits are worth a tenth as much below one as above it. -/
theorem rounds_one_iff : Rounds x 1 ↔ 1 - 5 / 10 ^ 29 ≤ x ∧ x ≤ 1 + 5 / 10 ^ 28 := by
  constructor
  · intro rounds
    have positive : 0 < x := by
      by_contra! nonpos
      exact absurd (rounds.nonpos nonpos) (by norm_num)
    obtain ⟨place, k, least, below, nearest, one⟩ :=
      rounds.resolve_left fun zero => positive.ne' zero.1
    rw [abs_of_pos positive] at least below
    obtain ⟨low, high⟩ := Rounds.between least below nearest
    rw [← one, ← zpow_zero (10 : ℚ)] at low high
    have low := (zpow_le_zpow_iff_right₀ (by norm_num)).mp low
    have high := (zpow_le_zpow_iff_right₀ (by norm_num)).mp high
    have unit : (0 : ℚ) < 10 ^ place := by positivity
    have near := nearest.abs_le
    have whole : (k : ℚ) = 1 / 10 ^ place := eq_div_of_mul_eq unit.ne' one.symm
    rw [whole, ← sub_div, abs_div, abs_of_pos unit, div_le_iff₀ unit, abs_le] at near
    rcases (by omega : place = -27 ∨ place = -28) with rfl | rfl
    · norm_num at near least ⊢
      constructor <;> linarith
    · norm_num at near below ⊢
      constructor <;> linarith
  · rintro ⟨low, high⟩
    -- One is an even number of units of the last digit, so that a tie falls to it.
    have tie {z : ℚ} {k : ℤ} (even : Even k) (near : |z - k| ≤ 1 / 2) : IsNearest z k :=
      near.lt_or_eq.imp_right fun half => ⟨half, even⟩
    have positive : |x| = x := abs_of_pos (by linarith)
    rcases le_or_gt 1 x with above | under
    · refine .inr ⟨-27, 10 ^ 27, ?_, ?_, tie (by decide) ?_, by norm_num⟩
      · rw [positive]
        simpa using above
      · rw [positive]
        norm_num
        linarith
      · rw [abs_le]
        norm_num at high ⊢
        constructor <;> linarith
    · refine .inr ⟨-28, 10 ^ 28, ?_, ?_, tie (by decide) ?_, by norm_num⟩
      · rw [positive]
        norm_num at low ⊢
        linarith
      · rw [positive]
        simpa using under
      · rw [abs_le]
        norm_num at low ⊢
        constructor <;> linarith

/-- A result is one exactly when the exact one is rounded to it. -/
theorem IsRounded.eq_one_iff (rounded : IsRounded x r) :
    r = 1 ↔ 1 - 5 / 10 ^ 29 ≤ x ∧ x ≤ 1 + 5 / 10 ^ 28 := by
  rcases rounded with rounds | ⟨least, least'⟩
  · refine ⟨fun one => rounds_one_iff.mp (one ▸ rounds), fun about => ?_⟩
    exact rounds.unique (rounds_one_iff.mpr about)
  · have tiny := leastNormal_lt
    norm_num at tiny
    constructor
    · rintro rfl
      rw [abs_one] at least'
      linarith
    · rintro ⟨low, -⟩
      have := le_abs_self x
      norm_num at low
      linarith

end Decimal

namespace SplitRule

variable {v w : Decimal}

/-- A negative part is refused. -/
theorem ofParts_of_neg (finite : v.isFinite) (finite' : w.isFinite)
    (negative : v.toRat < 0 ∨ w.toRat < 0) :
    ofParts v w = .error (.policy (.splitSum v w)) := by
  simp only [ofParts, Decimal.lt?_finite (b := .ofNat 0) finite rfl,
    Decimal.lt?_finite (b := .ofNat 0) finite' rfl, Decimal.toRat_ofNat_zero, Failure.ofDecimal_ok,
    ok_bind, decide_eq_true_eq]
  split_ifs with first second
  · rfl
  · rfl
  · exact absurd negative (by simp [first, second])

/-- Of parts that are not negative the sum is compared with one. -/
theorem ofParts_of_nonneg (finite : v.isFinite) (finite' : w.isFinite) (nonneg : 0 ≤ v.toRat)
    (nonneg' : 0 ≤ w.toRat) :
    ofParts v w = (Failure.ofDecimal (v.add w)).bind fun total =>
      if total.toRat = 1 then .ok { spend := v, save := w }
      else .error (.policy (.splitSum v w)) := by
  simp only [ofParts, Decimal.lt?_finite (b := .ofNat 0) finite rfl,
    Decimal.lt?_finite (b := .ofNat 0) finite' rfl, Decimal.toRat_ofNat_zero, nonneg.not_gt,
    nonneg'.not_gt, Failure.ofDecimal_ok, ok_bind, decide_false, Bool.false_eq_true, ↓reduceIte]
  cases added : v.add w with
  | error fault => rfl
  | ok total =>
    have whole := Decimal.eq?_finite (b := .ofNat 1) (Decimal.add_isFinite finite finite' added) rfl
    have one : (Decimal.ofNat 1).toRat = 1 := by simp [Decimal.ofNat, Decimal.toRat, Decimal.signed]
    simp only [whole, one, Failure.ofDecimal_ok, ok_bind, decide_eq_true_eq]
    rfl

/-- Parts that are no greater than two have a sum. -/
theorem exists_total (finite : v.isFinite) (finite' : w.isFinite) (nonneg : 0 ≤ v.toRat)
    (nonneg' : 0 ≤ w.toRat) (le : v.toRat ≤ 2) (le' : w.toRat ≤ 2) :
    ∃ total, v.add w = .ok total := by
  have below {d : Decimal} (finite : d.isFinite) (nonneg : 0 ≤ d.toRat) (le : d.toRat ≤ 2) :
      d.Below 1 := by
    refine .of_abs_le (n := 2) finite ?_ (by rw [digitCount]; decide)
    rw [abs_of_nonneg nonneg]
    exact_mod_cast le
  obtain ⟨total, added, -⟩ :=
    (below finite nonneg le).exists_add (below finite' nonneg' le') (by decide)
  exact ⟨total, added⟩

/-- A rule is built of two parts when none is negative and together they are about one. -/
theorem ofParts_ok_iff (finite : v.isFinite) (finite' : w.isFinite) :
    (∃ rule, ofParts v w = .ok rule) ↔ 0 ≤ v.toRat ∧ 0 ≤ w.toRat ∧
      1 - 5 / 10 ^ 29 ≤ v.toRat + w.toRat ∧ v.toRat + w.toRat ≤ 1 + 5 / 10 ^ 28 := by
  by_cases negative : v.toRat < 0 ∨ w.toRat < 0
  · rw [ofParts_of_neg finite finite' negative]
    simp only [reduceCtorEq, exists_false, false_iff]
    rintro ⟨nonneg, nonneg', -⟩
    rcases negative with negative | negative <;> linarith
  · obtain ⟨nonneg, nonneg'⟩ : 0 ≤ v.toRat ∧ 0 ≤ w.toRat := by simpa using negative
    rw [ofParts_of_nonneg finite finite' nonneg nonneg']
    constructor
    · rintro ⟨rule, built⟩
      obtain ⟨total, added, built⟩ := bind_ok_iff.mp built
      rw [Failure.ofDecimal_ok_iff] at added
      split_ifs at built with one
      have rounded := Decimal.add_isRounded finite finite' nonneg nonneg' added
      exact ⟨nonneg, nonneg', rounded.eq_one_iff.mp one⟩
    · rintro ⟨-, -, about⟩
      have high := about.2
      norm_num at high
      obtain ⟨total, added⟩ :=
        exists_total finite finite' nonneg nonneg' (by linarith) (by linarith)
      have rounded := Decimal.add_isRounded finite finite' nonneg nonneg' added
      rw [added]
      exact ⟨_, if_pos (rounded.eq_one_iff.mpr about)⟩

/-- Parts of any but immense size make a rule, or are refused for what they make together. -/
theorem ofParts_of_le (finite : v.isFinite) (finite' : w.isFinite) (le : v.toRat ≤ 2)
    (le' : w.toRat ≤ 2) : ofParts v w = .ok { spend := v, save := w } ∨
      ofParts v w = .error (.policy (.splitSum v w)) := by
  by_cases negative : v.toRat < 0 ∨ w.toRat < 0
  · exact .inr (ofParts_of_neg finite finite' negative)
  · obtain ⟨nonneg, nonneg'⟩ : 0 ≤ v.toRat ∧ 0 ≤ w.toRat := by simpa using negative
    obtain ⟨total, added⟩ := exists_total finite finite' nonneg nonneg' le le'
    rw [ofParts_of_nonneg finite finite' nonneg nonneg', added]
    by_cases one : total.toRat = 1
    · exact .inl (if_pos one)
    · exact .inr (if_neg one)

/-- Numbers of 27 places that make about one make one. -/
theorem about_one_iff (i j : ℤ) :
    1 - 5 / 10 ^ 29 ≤ (i / 10 ^ 27 + j / 10 ^ 27 : ℚ) ∧
      (i / 10 ^ 27 + j / 10 ^ 27 : ℚ) ≤ 1 + 5 / 10 ^ 28 ↔ (i / 10 ^ 27 + j / 10 ^ 27 : ℚ) = 1 := by
  rw [← add_div, div_eq_one_iff_eq (by positivity), le_div_iff₀ (by positivity),
    div_le_iff₀ (by positivity), ← Int.cast_add]
  constructor
  · rintro ⟨low, high⟩
    have low : (10 ^ 27 : ℤ) - 1 < i + j := by
      have : (((10 ^ 27 : ℤ) - 1 : ℤ) : ℚ) < (i + j : ℤ) := by
        push_cast at low ⊢
        linarith
      exact_mod_cast this
    have high : i + j < (10 ^ 27 : ℤ) + 1 := by
      have : ((i + j : ℤ) : ℚ) < (((10 ^ 27 : ℤ) + 1 : ℤ) : ℚ) := by
        push_cast at high ⊢
        linarith
      exact_mod_cast this
    have whole : i + j = 10 ^ 27 := by omega
    rw [whole]
    norm_num
  · intro whole
    rw [whole]
    norm_num

/-- Whether a split rule is built of two finite parts, of any length and any exponents. Neither may
be negative, and their exact sum may be less than one by half a unit of the 28th place and greater
by half a unit of the 27th, for so much is rounded away before it is compared. The rule keeps the
parts as they were given, parts of at most 27 places make exactly one, and a refusal of parts that
are no greater than one names both. -/
theorem accepts_about_one (finite : v.isFinite) (finite' : w.isFinite) :
    ((∃ rule, ofParts v w = .ok rule) ↔ 0 ≤ v.toRat ∧ 0 ≤ w.toRat ∧
      1 - 5 / 10 ^ 29 ≤ v.toRat + w.toRat ∧ v.toRat + w.toRat ≤ 1 + 5 / 10 ^ 28) ∧
    (∀ rule, ofParts v w = .ok rule → rule = { spend := v, save := w }) ∧
    (∀ i j : ℤ, v.toRat = i / 10 ^ 27 → w.toRat = j / 10 ^ 27 →
      ((∃ rule, ofParts v w = .ok rule) ↔ 0 ≤ v.toRat ∧ 0 ≤ w.toRat ∧ v.toRat + w.toRat = 1)) ∧
    (v.toRat ≤ 1 → w.toRat ≤ 1 → ofParts v w = .ok { spend := v, save := w } ∨
      ofParts v w = .error (.policy (.splitSum v w))) ∧
    (∀ n m : Numeral, n.written = .ok v → m.written = .ok w → build n m = ofParts v w) ∧
    (v.IsWritten → w.IsWritten → build (.decimal v) (.decimal w) = ofParts v w) := by
  have read {n m : Numeral} (first : n.written = .ok v) (second : m.written = .ok w) :
      build n m = ofParts v w := by
    rw [build, first, second]
    rfl
  have own {d : Decimal} (written : d.IsWritten) : (Numeral.decimal d).written = .ok d := by
    rw [Numeral.written, Numeral.shown, Decimal.ofText?_toText written]
    rfl
  refine ⟨ofParts_ok_iff finite finite', fun rule built => (ofParts_ok built).1,
    fun i j first second => ?_, fun le le' => ?_, fun n m => read,
    fun written written' => read (own written) (own written')⟩
  · rw [ofParts_ok_iff finite finite', first, second, about_one_iff]
  · exact ofParts_of_le finite finite' (by linarith) (by linarith)

/-- A half and a little more than a half, beyond the digits that are kept of their sum, are built;
a half and nothing are refused. -/
theorem accepts_about_one_halves :
    (∃ rule, ofParts (.finite false 5 (-1)) (.finite false 5000000000000000000000000001 (-28)) =
      .ok rule ∧ rule.save = .finite false 5000000000000000000000000001 (-28)) ∧
    ofParts (.finite false 5 (-1)) (.finite false 0 0) =
      .error (.policy (.splitSum (.finite false 5 (-1)) (.finite false 0 0))) := by
  obtain ⟨accepted, kept, -⟩ := accepts_about_one (v := .finite false 5 (-1))
    (w := .finite false 5000000000000000000000000001 (-28)) rfl rfl
  obtain ⟨accepted', -, -, refused, -⟩ := accepts_about_one (v := .finite false 5 (-1))
    (w := .finite false 0 0) rfl rfl
  constructor
  · obtain ⟨rule, built⟩ := accepted.mpr (by norm_num [Decimal.toRat, Decimal.signed])
    exact ⟨rule, built, by rw [kept rule built]⟩
  · refine (refused ?_ ?_).resolve_left fun built => ?_
    · norm_num [Decimal.toRat, Decimal.signed]
    · norm_num [Decimal.toRat, Decimal.signed]
    · have about := accepted'.mp ⟨_, built⟩
      norm_num [Decimal.toRat, Decimal.signed] at about

/-- Not every rule that is built makes one: these parts, as they are written, make more. -/
theorem accepts_more_than_one :
    ∃ v w : Decimal, v.isFinite ∧ w.isFinite ∧ 0 ≤ v.toRat ∧ 0 ≤ w.toRat ∧
      build (.text "0.5") (.text "0.5000000000000000000000000001") =
        .ok { spend := v, save := w } ∧ v.toRat + w.toRat ≠ 1 := by
  refine ⟨.finite false 5 (-1), .finite false 5000000000000000000000000001 (-28), rfl, rfl, ?_, ?_,
    eq_ok_of_toOption (by decide +kernel), ?_⟩ <;> norm_num [Decimal.toRat, Decimal.signed]

end SplitRule

end Earmark
