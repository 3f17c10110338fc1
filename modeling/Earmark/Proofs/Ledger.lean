import Earmark.Intent.Basic
import Earmark.Proofs.Cents

/-!
The ledger of an intent. What was used lies between zero and the limit, both in whole cents, and the
intent is exhausted exactly when they are equal. Every change of an intent keeps this, and leads to
a later state of the same intent: nothing it counts goes back, and once it is closed its ledger
stays.
-/

namespace Earmark

theorem Time.offset_addDays? {t later : Time} {days : Int} (added : t.addDays? days = some later) :
    later.offset = t.offset := by
  simp only [addDays?] at added
  split at added
  · cases added
    rfl
  · cases added

theorem Time.offset_addDays {t later : Time} {days : Int} (added : t.addDays days = .ok later) :
    later.offset = t.offset := offset_addDays? (Failure.require_ok_iff.mp added)

/-- The checks on some terms let this policy through. -/
def Policy.IsBuilt (policy : Policy) : Prop := ∃ terms, Policy.build terms = .ok policy

/-- What the checks ask of terms, and what they make of them. -/
theorem Policy.build_ok_iff {terms : PolicyTerms} {policy : Policy} :
    build terms = .ok policy ↔
      ∃ limit, terms.limit.toAmount = .ok limit ∧ 0 < limit.cents ∧
        (1 ≤ terms.tier ∧ terms.tier ≤ 3) ∧ 0 < terms.validityDays ∧
        policy =
          { limit, categories := sortedSet (terms.categories.map normalize)
            codes := sortedSet terms.codes, validityDays := terms.validityDays, geo := terms.geo
            proofRequired := terms.proofRequired, tier := terms.tier, split := terms.split
            escrowEnabled := terms.escrowEnabled, currency := terms.currency } := by
  rw [build, bind_ok_iff]
  refine exists_congr fun limit => and_congr_right fun brought => ?_
  simp only [(isAmount_of_toAmount brought).le?_zero, Failure.ofDecimal_ok, ok_bind]
  by_cases empty : limit.cents ≤ 0
  · simp [empty, not_lt.mpr empty]
  · by_cases tier : 1 ≤ terms.tier ∧ terms.tier ≤ 3
    · by_cases expired : terms.validityDays ≤ 0
      · simp [empty, tier, expired, not_lt.mpr expired]
      · simp [empty, tier, expired, not_le.mp empty, not_le.mp expired, eq_comm]
    · simp only [empty, tier, ↓reduceIte, not_false_eq_true, false_and, and_false, decide_false,
        Bool.false_eq_true, reduceCtorEq]

theorem Policy.IsBuilt.limit {policy : Policy} (built : policy.IsBuilt) :
    policy.limit.IsAmount ∧ 0 < policy.limit.cents := by
  obtain ⟨terms, accepted⟩ := built
  obtain ⟨limit, brought, positive, -, -, rfl⟩ := Policy.build_ok_iff.mp accepted
  exact ⟨isAmount_of_toAmount brought, positive⟩

namespace Intent

/-- What is used and what is left of the limit are told in whole cents, and no more is used than the
limit. -/
structure Counted (i : Intent) : Prop where
  limit : i.limit.IsAmount
  used : i.used.IsAmount
  used_le : i.used.cents ≤ i.limit.cents
  fits : (i.limit.cents - i.used.cents).natAbs < 10 ^ Decimal.precision

/-- What is used lies within the limit, in whole cents. -/
structure Metered (i : Intent) : Prop where
  limit : i.limit.IsAmount
  used : i.used.IsAmount
  used_nonneg : 0 ≤ i.used.cents
  used_le : i.used.cents ≤ i.limit.cents

/-- What is used lies within the limit, in whole cents; the intent is exhausted exactly when nothing
remains, and an approval was counted exactly when something is used. -/
structure Sound (i : Intent) : Prop where
  limit : i.limit.IsAmount
  limit_pos : 0 < i.limit.cents
  used : i.used.IsAmount
  used_nonneg : 0 ≤ i.used.cents
  used_le : i.used.cents ≤ i.limit.cents
  exhausted_iff : i.status = .exhausted ↔ i.used.cents = i.limit.cents
  approvals_nonneg : 0 ≤ i.approvals
  approvals_iff : 0 < i.approvals ↔ 0 < i.used.cents

theorem Metered.counted {i : Intent} (metered : i.Metered) : i.Counted := by
  have small := metered.limit.natAbs_lt
  have nonneg := metered.used_nonneg
  have within := metered.used_le
  exact ⟨metered.limit, metered.used, within, by omega⟩

theorem Sound.metered {i : Intent} (sound : i.Sound) : i.Metered :=
  ⟨sound.limit, sound.used, sound.used_nonneg, sound.used_le⟩

/-- A later state of an intent: the terms are the same, nothing counted is taken back, and what was
closed keeps its status and its ledger. -/
structure Precedes (i j : Intent) : Prop where
  id : j.id = i.id
  user : j.user = i.user
  text : j.text = i.text
  policy : j.policy = i.policy
  createdAt : j.createdAt = i.createdAt
  expiresAt : j.expiresAt = i.expiresAt
  used : i.used.toRat ≤ j.used.toRat
  approvals : i.approvals ≤ j.approvals
  violations : i.violations ≤ j.violations
  closed : i.status ≠ .active → j.status = i.status ∧ j.used = i.used ∧ j.approvals = i.approvals

theorem Precedes.refl (i : Intent) : i.Precedes i :=
  ⟨rfl, rfl, rfl, rfl, rfl, rfl, le_rfl, le_rfl, le_rfl, fun _ => ⟨rfl, rfl, rfl⟩⟩

theorem Precedes.trans {i j k : Intent} (first : i.Precedes j) (second : j.Precedes k) :
    i.Precedes k where
  id := second.id.trans first.id
  user := second.user.trans first.user
  text := second.text.trans first.text
  policy := second.policy.trans first.policy
  createdAt := second.createdAt.trans first.createdAt
  expiresAt := second.expiresAt.trans first.expiresAt
  used := first.used.trans second.used
  approvals := first.approvals.trans second.approvals
  violations := first.violations.trans second.violations
  closed := by
    intro inactive
    obtain ⟨status, used, approvals⟩ := first.closed inactive
    obtain ⟨status', used', approvals'⟩ := second.closed (by rwa [status])
    exact ⟨status'.trans status, used'.trans used, approvals'.trans approvals⟩

theorem isActive_iff {i : Intent} : i.isActive = true ↔ i.status = .active := by
  simp [isActive]

theorem opened_iff {id user text : String} {policy : Policy} {now : Time} {i : Intent} :
    opened id user text policy now = .ok i ↔
      ∃ expiresAt, now.addDays policy.validityDays = .ok expiresAt ∧
        i = { id, user, text, policy, createdAt := now, expiresAt } := by
  simp only [opened, bind_ok_iff, Except.ok.injEq, @eq_comm _ i]

theorem Sound.of_opened {id user text : String} {policy : Policy} {now : Time} {i : Intent}
    (built : policy.IsBuilt) (opened : opened id user text policy now = .ok i) : i.Sound := by
  obtain ⟨expiresAt, -, rfl⟩ := opened_iff.mp opened
  obtain ⟨amount, positive⟩ := built.limit
  refine ⟨amount, positive, Decimal.isAmount_zero, le_rfl, positive.le, ?_, le_rfl, ?_⟩
  · simp only [reduceCtorEq, Decimal.cents_zero, false_iff]
    exact positive.ne
  · simp

/-- What remains is the limit less what is used. -/
theorem Counted.exists_remaining {i : Intent} (counted : i.Counted) :
    ∃ rest, i.remaining = .ok rest ∧ rest.IsAmount ∧ rest.cents = i.limit.cents - i.used.cents := by
  obtain ⟨rest, subtracted, amount, value⟩ := counted.limit.exists_sub counted.used counted.fits
  exact ⟨rest, Failure.ofDecimal_ok_iff.mpr subtracted, amount, value⟩

theorem Metered.exists_remaining {i : Intent} (metered : i.Metered) :
    ∃ rest, i.remaining = .ok rest ∧ rest.IsAmount ∧ rest.cents = i.limit.cents - i.used.cents :=
  metered.counted.exists_remaining

theorem Metered.remaining_cents {i : Intent} (metered : i.Metered) {rest : Decimal}
    (remaining : i.remaining = .ok rest) :
    rest.IsAmount ∧ rest.cents = i.limit.cents - i.used.cents := by
  obtain ⟨rest', remaining', amount, value⟩ := metered.exists_remaining
  obtain rfl : rest' = rest := by simpa [remaining] using remaining'.symm
  exact ⟨amount, value⟩

theorem Sound.exists_remaining {i : Intent} (sound : i.Sound) :
    ∃ rest, i.remaining = .ok rest ∧ rest.IsAmount ∧ rest.cents = i.limit.cents - i.used.cents :=
  sound.metered.exists_remaining

theorem Sound.remaining_cents {i : Intent} (sound : i.Sound) {rest : Decimal}
    (remaining : i.remaining = .ok rest) :
    rest.IsAmount ∧ rest.cents = i.limit.cents - i.used.cents :=
  sound.metered.remaining_cents remaining

/-- An active intent has something left. -/
theorem Sound.used_lt_of_active {i : Intent} (sound : i.Sound) (active : i.status = .active) :
    i.used.cents < i.limit.cents := by
  have within := sound.used_le
  have other : i.used.cents ≠ i.limit.cents := by
    intro full
    have exhausted := sound.exhausted_iff.mpr full
    rw [active] at exhausted
    cases exhausted
  omega

/-- The intent after an amount was spent. -/
def spending (i : Intent) (used : Decimal) : Intent :=
  { i with
    used
    approvals := i.approvals + 1
    status := if used.cents = i.limit.cents then .exhausted else i.status }

/-- An amount is spent exactly when the intent is active, the amount is positive and no more than
what remains. -/
theorem Counted.spend_ok_iff {i j : Intent} (counted : i.Counted) {amount : Numeral} :
    i.spend amount = .ok j ↔
      ∃ d, amount.toAmount = .ok d ∧ i.status = .active ∧ 0 < d.cents ∧
        i.used.cents + d.cents ≤ i.limit.cents ∧
        ∃ used, i.used.add d = .ok used ∧ j = i.spending used := by
  obtain ⟨rest, remaining, restAmount, restValue⟩ := counted.exists_remaining
  have fitting := counted.fits
  have usedSmall := counted.used.natAbs_lt
  have limitSmall := counted.limit.natAbs_lt
  cases brought : amount.toAmount with
  | error failure => simp [spend, brought]
  | ok d =>
    have amountD := isAmount_of_toAmount brought
    simp only [spend, brought, ok_bind, Except.ok.injEq, exists_eq_left']
    by_cases active : i.status = .active
    · simp only [isActive_iff.mpr active, Bool.not_true, Bool.false_eq_true, ↓reduceIte, active,
        true_and, amountD.le?_zero, Failure.ofDecimal_ok, ok_bind, decide_eq_true_eq, remaining,
        amountD.gt?_eq restAmount]
      by_cases positive : 0 < d.cents
      · simp only [not_le.mpr positive, ↓reduceIte, positive, true_and]
        by_cases within : i.used.cents + d.cents ≤ i.limit.cents
        · have fits : ¬rest.cents < d.cents := by omega
          obtain ⟨used, added, usedAmount, usedValue⟩ := counted.used.exists_add amountD (by omega)
          simp only [fits, ↓reduceIte, within, true_and, added, Failure.ofDecimal_ok, ok_bind]
          obtain ⟨left, subtracted, leftAmount, leftValue⟩ :=
            counted.limit.exists_sub usedAmount (by omega)
          simp only [Intent.limit] at subtracted leftValue
          simp only [Intent.remaining, Intent.limit, subtracted, Failure.ofDecimal_ok, ok_bind,
            leftAmount.eq?_eq Decimal.isAmount_zero, Decimal.cents_zero, Except.ok.injEq,
            exists_eq_left']
          by_cases full : used.cents = i.policy.limit.cents
          · have nothing : left.cents = 0 := by omega
            simp [nothing, spending, Intent.limit, full, eq_comm]
          · have something : left.cents ≠ 0 := by omega
            simp [something, spending, Intent.limit, full, active, eq_comm]
        · have beyond : rest.cents < d.cents := by omega
          simp [beyond, within]
      · simp [not_lt.mp positive, positive]
    · simp [isActive, active]

theorem Metered.spend_ok_iff {i j : Intent} (metered : i.Metered) {amount : Numeral} :
    i.spend amount = .ok j ↔
      ∃ d, amount.toAmount = .ok d ∧ i.status = .active ∧ 0 < d.cents ∧
        i.used.cents + d.cents ≤ i.limit.cents ∧
        ∃ used, i.used.add d = .ok used ∧ j = i.spending used :=
  metered.counted.spend_ok_iff

theorem Sound.spend_ok_iff {i j : Intent} (sound : i.Sound) {amount : Numeral} :
    i.spend amount = .ok j ↔
      ∃ d, amount.toAmount = .ok d ∧ i.status = .active ∧ 0 < d.cents ∧
        i.used.cents + d.cents ≤ i.limit.cents ∧
        ∃ used, i.used.add d = .ok used ∧ j = i.spending used :=
  sound.metered.spend_ok_iff

/-- What spending an amount leads to. -/
structure Spent (i : Intent) (d : Decimal) (j : Intent) : Prop where
  active : i.status = .active
  positive : 0 < d.cents
  used : j.used.cents = i.used.cents + d.cents
  approvals : j.approvals = i.approvals + 1
  violations : j.violations = i.violations
  status : j.status = .active ∨ j.status = .exhausted
  later : i.Precedes j
  sound : j.Sound

theorem Sound.spent {i j : Intent} (sound : i.Sound) {amount : Numeral}
    (spent : i.spend amount = .ok j) : ∃ d, amount.toAmount = .ok d ∧ i.Spent d j := by
  obtain ⟨d, brought, active, positive, within, used, added, rfl⟩ := sound.spend_ok_iff.mp spent
  have nonneg := sound.used_nonneg
  have limitSmall := sound.limit.natAbs_lt
  obtain ⟨sum, added', amount, value⟩ :=
    sound.used.exists_add (isAmount_of_toAmount brought) (by omega)
  obtain rfl : sum = used := by simpa [added] using added'.symm
  have approvals := sound.approvals_nonneg
  refine ⟨d, brought, active, positive, value, rfl, rfl, ?_, ?_, ?_⟩
  · by_cases full : sum.cents = i.limit.cents
    · exact .inr (by simp [spending, full])
    · exact .inl (by simp [spending, full, active])
  · refine ⟨rfl, rfl, rfl, rfl, rfl, rfl, ?_, ?_, le_rfl, fun inactive => absurd active inactive⟩
    · exact (sound.used.toRat_le_iff amount).mpr (by omega)
    · simp only [spending]; omega
  · refine ⟨sound.limit, sound.limit_pos, amount, ?_, ?_, ?_, ?_, ?_⟩
    · simp only [spending]; omega
    · simp only [spending, Intent.limit] at within ⊢; omega
    · by_cases full : sum.cents = i.limit.cents
      · have same : (i.spending sum).status = .exhausted := by simp [spending, full]
        exact ⟨fun _ => full, fun _ => same⟩
      · have other : (i.spending sum).status = .active := by simp [spending, full, active]
        exact ⟨fun same => by simp [other] at same, fun same => absurd same full⟩
    · simp only [spending]; omega
    · simp only [spending]; omega

/-- Counting a blocked attempt keeps the ledger. -/
theorem Sound.recordViolation {i : Intent} (sound : i.Sound) : i.recordViolation.Sound :=
  ⟨sound.limit, sound.limit_pos, sound.used, sound.used_nonneg, sound.used_le,
    sound.exhausted_iff, sound.approvals_nonneg, sound.approvals_iff⟩

theorem precedes_recordViolation (i : Intent) : i.Precedes i.recordViolation :=
  ⟨rfl, rfl, rfl, rfl, rfl, rfl, le_rfl, le_rfl, by simp [recordViolation],
    fun _ => ⟨rfl, rfl, rfl⟩⟩

theorem cancel_ok_iff {i j : Intent} {rest : Decimal} :
    i.cancel = .ok (rest, j) ↔
      i.status = .active ∧ i.remaining = .ok rest ∧ j = { i with status := .cancelled } := by
  by_cases active : i.status = .active
  · cases remaining : i.remaining <;> simp [cancel, isActive, active, remaining, eq_comm]
  · simp [cancel, isActive, active]

/-- An intent expires when it is active and its time is over, and else stays as it is. -/
theorem expire_ok_iff {i j : Intent} {now : Time} {rest : Decimal} :
    i.expire now = .ok (rest, j) ↔
      (rest = .zero ∧ j = i ∧ (i.status = .active → i.isExpired now = .ok false)) ∨
      (i.status = .active ∧ i.isExpired now = .ok true ∧ i.remaining = .ok rest ∧
        j = { i with status := .expired }) := by
  by_cases active : i.status = .active
  · cases expired : i.isExpired now with
    | error failure => simp [expire, isActive, active, expired]
    | ok due =>
      cases due with
      | false => simp [expire, isActive, active, expired, eq_comm]
      | true =>
        cases remaining : i.remaining <;>
          simp [expire, isActive, active, expired, remaining, eq_comm]
  · simp [expire, isActive, active, @eq_comm _ rest, @eq_comm _ j]

/-- What closing an intent before it is exhausted leads to. -/
structure Closed (i : Intent) (rest : Decimal) (j : Intent) : Prop where
  active : i.status = .active
  status : j.status = .expired ∨ j.status = .cancelled
  amount : rest.IsAmount
  positive : 0 < rest.cents
  rest : i.used.cents + rest.cents = i.limit.cents
  used : j.used = i.used
  approvals : j.approvals = i.approvals
  violations : j.violations = i.violations
  later : i.Precedes j
  sound : j.Sound

private theorem Sound.closed {i : Intent} (sound : i.Sound) (active : i.status = .active)
    {rest : Decimal} (remaining : i.remaining = .ok rest) {status : IntentStatus}
    (final : status = .expired ∨ status = .cancelled) :
    i.Closed rest { i with status } := by
  obtain ⟨amount, value⟩ := sound.remaining_cents remaining
  have less := sound.used_lt_of_active active
  refine ⟨active, final, amount, by omega, by omega, rfl, rfl, rfl, ?_, ?_⟩
  · exact ⟨rfl, rfl, rfl, rfl, rfl, rfl, le_rfl, le_rfl, le_rfl,
      fun inactive => absurd active inactive⟩
  · refine ⟨sound.limit, sound.limit_pos, sound.used, sound.used_nonneg, sound.used_le, ?_,
      sound.approvals_nonneg, sound.approvals_iff⟩
    have other : status ≠ .exhausted := by
      rintro rfl
      simp at final
    simp only [other, false_iff]
    exact less.ne

theorem Sound.closed_of_cancel {i j : Intent} (sound : i.Sound) {rest : Decimal}
    (cancelled : i.cancel = .ok (rest, j)) : i.Closed rest j ∧ j.status = .cancelled := by
  obtain ⟨active, remaining, rfl⟩ := cancel_ok_iff.mp cancelled
  exact ⟨sound.closed active remaining (.inr rfl), rfl⟩

/-- Expiring leaves an intent as it is, or closes it with its time over. -/
theorem Sound.stays_or_closed_of_expire {i j : Intent} (sound : i.Sound) {now : Time}
    {rest : Decimal} (expired : i.expire now = .ok (rest, j)) :
    (rest = .zero ∧ j = i ∧ (i.status = .active → i.isExpired now = .ok false)) ∨
      (i.Closed rest j ∧ j.status = .expired ∧ i.isExpired now = .ok true) := by
  rcases expire_ok_iff.mp expired with stays | ⟨active, due, remaining, rfl⟩
  · exact .inl stays
  · exact .inr ⟨sound.closed active remaining (.inl rfl), rfl, due⟩

end Intent

end Earmark
