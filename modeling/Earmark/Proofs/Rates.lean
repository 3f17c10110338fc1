import Earmark.Proofs.LongNumbers
import Earmark.Proofs.NearestCents

/-!
Rates of amounts. The part that a rate takes is rounded twice, to the digits that are kept and then
to the cent. Where the product has no more digits than are kept only the second rounding is left
(`BecomesCents.nearest`), and together the two keep order whatever the digits of the rate
(`BecomesCents.mono`). So a rate takes the exact part of whatever a wallet holds, and a greater one
no less (`applyRate_faithful`).
-/

namespace Earmark

theorem natAbs_le_of_nearest {x : ℚ} {k : ℤ} {n : Nat} (nearest : IsNearestAway x k)
    (le : |x| ≤ n) : k.natAbs ≤ n := by
  obtain ⟨low, high⟩ := abs_le.mp le
  have top := nearest.mono (isNearestAway_intCast n) high
  have bottom := (isNearestAway_intCast (-n)).mono nearest (by exact_mod_cast low)
  omega

namespace Decimal

variable {amount rate : Decimal} {x y r : ℚ} {c d m : ℤ} {exp : Int}

/-- A result of arithmetic, once rounded to the digits that are kept, is so many cents. -/
def BecomesCents (x : ℚ) (c : ℤ) : Prop := ∃ r, IsRounded x r ∧ IsNearestAway (100 * r) c

/-- The number is so many cents, to however many places it is written. -/
structure Counts (amount : Decimal) (c : ℤ) : Prop where
  finite : amount.isFinite
  value : amount.toRat = c / 100

/-! ### The two roundings -/

theorem IsRounded.tiny (rounded : IsRounded x r) (least : |x| ≤ leastNormal) :
    |r| ≤ leastNormal := by
  rcases rounded with rounds | ⟨-, least'⟩
  · have own := rounds_self (m := 1) (by decide) (minExponent + 27)
    rw [Int.cast_one, one_mul, ← leastNormal] at own
    obtain ⟨low, high⟩ := abs_le.mp least
    exact abs_le.mpr ⟨own.neg.mono rounds low, rounds.mono own high⟩
  · exact least'

/-- What lies within the least normal number is no cent. -/
theorem isNearestAway_of_tiny (least : |r| ≤ leastNormal) : IsNearestAway (100 * r) 0 := by
  have bound := least.trans_lt leastNormal_lt
  norm_num at bound
  refine .inl ?_
  rw [Int.cast_zero, sub_zero, abs_mul, abs_of_pos (by norm_num : (0 : ℚ) < 100)]
  linarith

namespace BecomesCents

theorem of_tiny (becomes : BecomesCents x c) (least : |x| ≤ leastNormal) : c = 0 := by
  obtain ⟨r, rounded, nearest⟩ := becomes
  exact nearest.unique (isNearestAway_of_tiny (rounded.tiny least))

theorem nonneg (becomes : BecomesCents x c) (sign : 0 ≤ x) : 0 ≤ c := by
  obtain ⟨r, rounds | ⟨-, least⟩, nearest⟩ := becomes
  · have zero : IsNearestAway 0 0 := by exact_mod_cast isNearestAway_intCast 0
    exact zero.mono nearest (by linarith [rounds.nonneg sign])
  · exact (nearest.unique (isNearestAway_of_tiny least)).ge

theorem nonpos (becomes : BecomesCents x c) (sign : x ≤ 0) : c ≤ 0 := by
  obtain ⟨r, rounds | ⟨-, least⟩, nearest⟩ := becomes
  · have zero : IsNearestAway 0 0 := by exact_mod_cast isNearestAway_intCast 0
    exact nearest.mono zero (by linarith [rounds.nonpos sign])
  · exact (nearest.unique (isNearestAway_of_tiny least)).le

/-- The two roundings together keep order. -/
theorem mono (becomes : BecomesCents x c) (becomes' : BecomesCents y d) (le : x ≤ y) : c ≤ d := by
  -- Where the first rounding has too few places it leaves no cents, and signs are all that counts.
  by_cases least : |x| ≤ leastNormal
  · rw [becomes.of_tiny least]
    by_cases least' : |y| ≤ leastNormal
    · rw [becomes'.of_tiny least']
    · refine becomes'.nonneg ?_
      by_contra! negative
      rw [abs_of_neg negative] at least'
      linarith [(abs_le.mp least).1]
  · by_cases least' : |y| ≤ leastNormal
    · rw [becomes'.of_tiny least']
      refine becomes.nonpos ?_
      by_contra! positive
      rw [abs_of_pos positive] at least
      linarith [(abs_le.mp least').2]
    · obtain ⟨r, rounded, nearest⟩ := becomes
      obtain ⟨s, rounded', nearest'⟩ := becomes'
      have rounds := rounded.resolve_right fun small => least small.1
      have rounds' := rounded'.resolve_right fun small => least' small.1
      exact nearest.mono nearest' (by linarith [rounds.mono rounds' le])

/-- Of a number of no more digits than are kept only the rounding to the cent is left. -/
theorem nearest (becomes : BecomesCents (m * 10 ^ exp) c) (small : m.natAbs < 10 ^ precision) :
    IsNearestAway (100 * (m * 10 ^ exp)) c := by
  by_cases least : |(m * 10 ^ exp : ℚ)| ≤ leastNormal
  · rw [becomes.of_tiny least]
    exact isNearestAway_of_tiny least
  · obtain ⟨r, rounded, nearest⟩ := becomes
    have rounds := rounded.resolve_right fun small => least small.1
    rwa [rounds.unique (rounds_self small exp)] at nearest

end BecomesCents

namespace Counts

/-- An amount becomes the cents that it is. -/
theorem becomesCents (counts : amount.Counts c) (small : c.natAbs < 10 ^ precision) :
    BecomesCents amount.toRat c := by
  have value : amount.toRat = c * 10 ^ (-2 : ℤ) := by
    rw [counts.value]
    norm_num [div_eq_mul_inv]
  rw [value]
  refine ⟨_, .inl (rounds_self small (-2)), ?_⟩
  convert isNearestAway_intCast c using 1
  norm_num
  ring

theorem abs_toRat_eq (counts : amount.Counts c) :
    |amount.toRat| = c.natAbs * 10 ^ (-2 : ℤ) := by
  rw [counts.value, abs_div, Nat.cast_natAbs, Int.cast_abs]
  norm_num [div_eq_mul_inv]

end Counts

end Decimal

open Decimal

/-- A rate takes of an amount the cents that the product becomes. -/
theorem exists_applyRate_becomes {amount rate : Decimal} {c : ℤ} (counts : amount.Counts c)
    (small : c.natAbs < 10 ^ precision) (isRate : rate.IsRate) :
    ∃ part, applyRate amount rate = .ok part ∧ part.IsAmount ∧
      BecomesCents (amount.toRat * rate.toRat) part.cents := by
  obtain ⟨isFinite, nonneg, le⟩ := isRate
  have whole := counts.abs_toRat_eq
  obtain ⟨na, ca, ea, rfl⟩ := exists_of_isFinite counts.finite
  obtain ⟨nb, cb, eb, rfl⟩ := exists_of_isFinite isFinite
  have bound : ((ca * cb : ℕ) : ℚ) * 10 ^ (ea + eb) ≤ c.natAbs * 10 ^ (-2 : ℤ) := by
    have magnitude : |(finite (na != nb) (ca * cb) (ea + eb)).toRat| = _ := abs_toRat
    rw [← magnitude, toRat_product, abs_mul, whole, abs_of_nonneg nonneg]
    exact mul_le_of_le_one_right (by positivity) le
  obtain ⟨product, multiplied⟩ := exists_round_of_le (na != nb) small (by decide) (by decide) bound
  obtain ⟨kept, exp, rfl, within⟩ := round_le small (by decide) bound multiplied
  have rounded := mul_isRounded counts.finite isFinite multiplied
  obtain ⟨k, nearest, signed, brought⟩ :=
    amountOf_nearest (finite (na != nb) kept exp).toText (v := finite (na != nb) kept exp) rfl
  simp only [isNegative] at signed brought
  have near : |100 * (finite (na != nb) kept exp).toRat| ≤ c.natAbs := by
    rw [abs_mul, abs_toRat, abs_of_pos (by norm_num : (0 : ℚ) < 100)]
    norm_num at within ⊢
    linarith
  have few : k.natAbs < 10 ^ 28 := (natAbs_le_of_nearest nearest near).trans_lt small
  have amount : (finite (na != nb) k.natAbs (-2)).IsAmount := ⟨rfl, few⟩
  rw [if_pos few] at brought
  refine ⟨_, ?_, amount, _, rounded, ?_⟩
  · simp only [applyRate, Decimal.mul, isNaN, Bool.or_self, Bool.false_eq_true, ↓reduceIte,
      multiplied, Failure.ofDecimal_ok, ok_bind, toAmount, brought]
  · rw [cents, ← signed]
    exact nearest

/-- Rates of amounts that are written to however many places. Of an amount of at most 14 digits, be
it negative or not, a rate of at most 14 digits takes the exact product, rounded to the cent with
halves away from zero. Of every amount a rate of any length takes a part between nothing and the
whole, a greater rate takes no less, and of a greater amount no less is taken. -/
theorem applyRate_faithful :
    (∀ (amount rate : Decimal) (c k exp : ℤ), amount.Counts c → c.natAbs < 10 ^ 14 →
      rate.IsRate → rate.toRat = k * 10 ^ exp → k.natAbs < 10 ^ 14 →
        ∃ part, applyRate amount rate = .ok part ∧ part.IsAmount ∧
          IsNearestAway (100 * (amount.toRat * rate.toRat)) part.cents) ∧
    ∀ (a b r s : Decimal) (c d : ℤ), a.Counts c → b.Counts d → 0 ≤ c → c ≤ d → d < 10 ^ 28 →
      r.IsRate → s.IsRate → r.toRat ≤ s.toRat →
        ∃ less more beside, applyRate a r = .ok less ∧ applyRate a s = .ok more ∧
          applyRate b r = .ok beside ∧ 0 ≤ less.toRat ∧ less.toRat ≤ more.toRat ∧
          more.toRat ≤ a.toRat ∧ less.toRat ≤ beside.toRat := by
  constructor
  · intro amount rate c k exp counts small isRate value few
    obtain ⟨part, taken, whole, becomes⟩ :=
      exists_applyRate_becomes counts (small.trans (by decide)) isRate
    have product : amount.toRat * rate.toRat = (c * k : ℤ) * 10 ^ (exp - 2) := by
      rw [counts.value, value, zpow_sub₀ (by norm_num)]
      push_cast
      ring
    have digits : (c * k).natAbs < 10 ^ precision := by
      rw [Int.natAbs_mul]
      exact (Nat.mul_lt_mul'' small few).trans_le (by decide)
    rw [product] at becomes ⊢
    exact ⟨part, taken, whole, becomes.nearest digits⟩
  · intro a b r s c d counts counts' nonneg le bound rate rate' order
    obtain ⟨less, taken, whole, becomes⟩ :=
      exists_applyRate_becomes counts (by simp only [precision]; omega) rate
    obtain ⟨more, taken', whole', becomes'⟩ :=
      exists_applyRate_becomes counts (by simp only [precision]; omega) rate'
    obtain ⟨beside, taken'', whole'', becomes''⟩ :=
      exists_applyRate_becomes counts' (by simp only [precision]; omega) rate
    have sign : 0 ≤ a.toRat := by
      rw [counts.value]
      positivity
    have amounts : a.toRat ≤ b.toRat := by
      rw [counts.value, counts'.value]
      have : (c : ℚ) ≤ d := by exact_mod_cast le
      linarith
    have own := counts.becomesCents (by simp only [precision]; omega)
    refine ⟨less, more, beside, taken, taken', taken'', whole.cents_nonneg_iff.mp ?_,
      (whole.toRat_le_iff whole').mpr ?_, ?_, (whole.toRat_le_iff whole'').mpr ?_⟩
    · exact becomes.nonneg (mul_nonneg sign rate.2.1)
    · exact becomes.mono becomes' (mul_le_mul_of_nonneg_left order sign)
    · have most := becomes'.mono own (mul_le_of_le_one_right sign rate'.2.2)
      rw [whole'.toRat_eq, counts.value]
      have : (more.cents : ℚ) ≤ c := by exact_mod_cast most
      linarith
    · exact becomes.mono becomes'' (mul_le_mul_of_nonneg_right amounts rate.2.1)

/-- A half of five cents below zero goes down to three cents; a third, written with more digits than
are kept, takes of one hundred no more than of two hundred or than the whole rate does. -/
theorem applyRate_faithful_thirds :
    (∃ part, applyRate (.finite true 5 (-2)) (.finite false 5 (-1)) = .ok part ∧
      part.cents = -3) ∧
    ∃ less more beside,
      applyRate (.finite false 100 0) (.finite false 333333333333333333333333333333 (-30)) =
        .ok less ∧
      applyRate (.finite false 100 0) (.finite false 1 0) = .ok more ∧
      applyRate (.finite false 200 0) (.finite false 333333333333333333333333333333 (-30)) =
        .ok beside ∧
      0 ≤ less.toRat ∧ less.toRat ≤ more.toRat ∧ more.toRat ≤ (finite false 100 0).toRat ∧
      less.toRat ≤ beside.toRat := by
  obtain ⟨exact, ordered⟩ := applyRate_faithful
  constructor
  · have half : (finite false 5 (-1)).IsRate :=
      ⟨rfl, by norm_num [toRat, signed], by norm_num [toRat, signed]⟩
    obtain ⟨part, taken, -, nearest⟩ := exact (.finite true 5 (-2)) _ (-5) 5 (-1)
      ⟨rfl, by norm_num [toRat, signed]⟩ (by decide) half (by norm_num [toRat, signed]) (by decide)
    refine ⟨part, taken, nearest.unique (.inr ?_)⟩
    norm_num [toRat, signed, abs_of_neg, abs_of_pos]
  · refine ordered _ _ _ _ 10000 20000 ⟨rfl, ?_⟩ ⟨rfl, ?_⟩ (by decide) (by decide) (by decide)
      ⟨rfl, ?_, ?_⟩ ⟨rfl, ?_, ?_⟩ ?_ <;> norm_num [toRat, signed]

end Earmark
