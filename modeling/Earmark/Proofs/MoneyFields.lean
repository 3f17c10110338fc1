import Earmark.Proofs.AcceptedForms
import Earmark.Proofs.WholeCents

/-!
Money in requests. A field of money is accepted only when it states whole cents with at most twelve
digits before the point (`Http.Rule.states_of_money`), and bringing what it states to the cent
rounds nothing (`Decimal.States.exists_toAmount`). So what a command that is served says of money is
known in whole cents from the request alone.
-/

namespace Earmark

open scoped Earmark.Whole

namespace Decimal

variable {d : Decimal} {cents : Int}

/-- The amount is so many cents, with at most twelve digits before the point. -/
structure Holds (d : Decimal) (cents : Int) : Prop where
  amount : d.IsAmount
  value : d.cents = cents
  fits : cents.natAbs < 10 ^ (14 : Nat)

/-- The number, however it is written, is so many cents, with at most twelve digits before the
point. -/
structure States (d : Decimal) (cents : Int) : Prop where
  isFinite : d.isFinite
  value : d.toRat = cents / 100
  fits : cents.natAbs < 10 ^ (14 : Nat)

theorem States.isCents (states : d.States cents) : d.IsCents cents :=
  ⟨states.isFinite, states.value⟩

theorem States.wholeCents_eq (states : d.States cents) : d.wholeCents = cents :=
  states.isCents.wholeCents_eq

theorem States.nonneg_iff (states : d.States cents) : 0 ≤ d.toRat ↔ 0 ≤ cents := by
  rw [states.value, le_div_iff₀ (by norm_num), zero_mul]
  exact Int.cast_nonneg_iff

theorem States.pos_iff (states : d.States cents) : 0 < d.toRat ↔ 0 < cents := by
  rw [states.value, lt_div_iff₀ (by norm_num), zero_mul]
  exact Int.cast_pos

/-- What states whole cents is brought to the cent as it is. -/
theorem States.exists_toAmount (states : d.States cents) :
    ∃ amount, d.toAmount = .ok amount ∧ amount.Holds cents := by
  have large : 10 ^ (14 : Nat) < 10 ^ precision := by decide
  obtain ⟨amount, brought, whole, value⟩ :=
    states.isCents.exists_toAmount (states.fits.trans large)
  exact ⟨amount, brought, whole, value, states.fits⟩

theorem States.holds {amount : Decimal} (states : d.States cents)
    (brought : d.toAmount = .ok amount) : amount.Holds cents := by
  obtain ⟨amount', brought', holds⟩ := states.exists_toAmount
  rw [brought] at brought'
  exact Except.ok.inj brought' ▸ holds

end Decimal

namespace Http

variable {α : Type}

namespace Rule

/-! ### Digits -/

/-- Moving zeros into the exponent changes no value. -/
theorem dropZeros_value (coeff : Nat) (exp : Int) :
    ((dropZeros coeff exp).1 : ℚ) * 10 ^ (dropZeros coeff exp).2 = coeff * 10 ^ exp := by
  fun_induction dropZeros coeff exp with
  | case1 exp => simp
  | case2 coeff exp some_ tenfold ih =>
    rw [ih, zpow_add_one₀ (by norm_num)]
    have parts : coeff = coeff / 10 * 10 := by omega
    nth_rewrite 2 [parts]
    push_cast
    ring
  | case3 coeff exp some_ last => rfl

private theorem lt_of_wholeDigits {coeff : Nat} {exp : Int}
    (few : (writtenDigits coeff exp).1 - (writtenDigits coeff exp).2 ≤ 12) :
    (coeff : ℚ) * 10 ^ exp < 10 ^ (12 : ℤ) := by
  have place : exp + digitCount coeff ≤ 12 := by
    unfold writtenDigits at few
    split at few <;> simp only at few <;> omega
  exact (Decimal.value_lt coeff exp).trans_le (zpow_le_zpow_right₀ (by norm_num) place)

private theorem whole_of_places {coeff : Nat} {exp : Int} (few : (writtenDigits coeff exp).2 ≤ 2) :
    ∃ cents : Nat, (coeff : ℚ) * 10 ^ exp = cents / 100 := by
  have place : -2 ≤ exp := by
    unfold writtenDigits at few
    split at few <;> simp only at few <;> omega
  refine ⟨coeff * 10 ^ (exp - -2).toNat, ?_⟩
  rw [← Decimal.shift_value coeff (-2) exp place]
  norm_num
  ring

/-- A number with the digits of money is whole cents, with at most twelve digits before the
point. -/
theorem cents_of_digitFault? {coeff : Nat} {exp : Int}
    (sound : digitFault? moneyDigits coeff exp = none) :
    ∃ cents : Nat, (coeff : ℚ) * 10 ^ exp = cents / 100 ∧ cents < 10 ^ (14 : Nat) := by
  have least := dropZeros_value coeff exp
  rcases dropped : dropZeros coeff exp with ⟨leastCoeff, leastExp⟩
  rw [dropped] at least
  simp only [digitFault?, dropped, moneyDigits] at sound
  split_ifs at sound with digits places whole
  have whole_cents : ∃ cents : Nat, (coeff : ℚ) * 10 ^ exp = cents / 100 := by
    rcases not_and_or.mp places with few | few
    · exact whole_of_places (not_lt.mp few)
    · rw [← least]
      exact whole_of_places (not_lt.mp few)
  have below : (coeff : ℚ) * 10 ^ exp < 10 ^ (12 : ℤ) := by
    rcases not_and_or.mp whole with few | few
    · exact lt_of_wholeDigits (not_lt.mp few)
    · rw [← least]
      exact lt_of_wholeDigits (not_lt.mp few)
  obtain ⟨cents, value⟩ := whole_cents
  refine ⟨cents, value, ?_⟩
  have scaled : (cents : ℚ) < 10 ^ (14 : Nat) := by
    rw [value, div_lt_iff₀ (by norm_num)] at below
    exact below.trans_eq (by norm_num)
  exact_mod_cast scaled

/-- A field of money states whole cents, and keeps its limits. -/
theorem states_of_money {limits : List (Limit Decimal)} {place : List String} {j : Json}
    {d : Decimal} (read : money limits place j = .accepted d) :
    (∃ cents, d.States cents) ∧
      ∀ limit ∈ limits, limit.fault? (fun a b => some (Decimal.compareNumbers a b)) d = none := by
  rw [money, decimal] at read
  obtain ⟨found, -, done⟩ := bind_ok_iff.mp (accepted_ofCheck read)
  cases found with
  | infinity neg => cases done
  | nan neg signalling payload => cases done
  | finite neg coeff exp =>
    simp only [Option.bind_some] at done
    split at done
    · cases done
    · rename_i sound
      unfold within at done
      split at done
      · cases done
      · rename_i kept
        cases done
        refine ⟨?_, List.findSome?_eq_none_iff.mp kept⟩
        obtain ⟨cents, value, small⟩ := cents_of_digitFault? sound
        refine ⟨Decimal.signed neg cents, rfl, ?_, by rwa [Decimal.signed_natAbs]⟩
        cases neg with
        | false => simpa [Decimal.toRat, Decimal.signed] using value
        | true =>
          simp only [Decimal.toRat, Decimal.signed, ↓reduceIte, Int.cast_neg, Int.cast_natCast,
            neg_mul, value, neg_div]

private theorem compareNumbers_zero {d : Decimal} (isFinite : d.isFinite) :
    Decimal.compareNumbers d (.ofNat 0) = compare d.toRat 0 := by
  cases d with
  | infinity neg => cases isFinite
  | nan neg signalling payload => cases isFinite
  | finite neg coeff exp =>
    rw [Decimal.ofNat, Decimal.compareNumbers_finite]
    simp [Decimal.toRat, Decimal.signed]

/-- A field of money that must be positive states a positive number of cents. -/
theorem states_of_positive {place : List String} {j : Json} {d : Decimal}
    (read : money [positive] place j = .accepted d) : ∃ cents, 0 < cents ∧ d.States cents := by
  obtain ⟨⟨cents, states⟩, kept⟩ := states_of_money read
  have above := kept positive (by simp)
  simp only [positive, Limit.fault?, compareNumbers_zero states.isFinite, Option.some.injEq,
    ite_eq_left_iff, reduceCtorEq, imp_false, not_not, compare_gt_iff_gt] at above
  exact ⟨cents, states.pos_iff.mp above, states⟩

/-- A field of money that must not be negative states such a number of cents. -/
theorem states_of_nonneg {place : List String} {j : Json} {d : Decimal}
    (read : money [.atLeast (.ofNat 0)] place j = .accepted d) :
    ∃ cents, 0 ≤ cents ∧ d.States cents := by
  obtain ⟨⟨cents, states⟩, kept⟩ := states_of_money read
  have least := kept (.atLeast (.ofNat 0)) (by simp)
  simp only [Limit.fault?, compareNumbers_zero states.isFinite, Option.some.injEq,
    ite_eq_left_iff, reduceCtorEq, imp_false, not_not, compare_gt_iff_gt,
    compare_eq_iff_eq] at least
  exact ⟨cents, states.nonneg_iff.mp (least.elim le_of_lt ge_of_eq), states⟩

theorem accepted_items {rule : Rule α} {place : List String} {k : Nat} {js : List Json}
    {as : List α} (read : items rule place k js = .accepted as) :
    ∀ a ∈ as, ∃ place j, rule place j = .accepted a := by
  induction js generalizing k as with
  | nil =>
    cases read
    simp
  | cons j rest ih =>
    simp only [items, Reading.seq_accepted_iff, Reading.map_accepted_iff] at read
    obtain ⟨_, later, ⟨a, first, rfl⟩, others, rfl⟩ := read
    exact List.forall_mem_cons.mpr ⟨⟨_, _, first⟩, ih others⟩

theorem accepted_list {rule : Rule α} {least : Nat} {place : List String} {j : Json}
    {as : List α} (read : rule.list least place j = .accepted as) :
    ∀ a ∈ as, ∃ place j, rule place j = .accepted a := by
  unfold list at read
  split at read
  · split at read
    · cases read
    · exact accepted_items read
  · cases read

end Rule

/-! ### Forms -/

section

variable {place : List String} {j : Json}

theorem WalletForm.states_of_rule {form : WalletForm} (read : rule place j = .accepted form) :
    ∃ cents, 0 ≤ cents ∧ form.balance.States cents := by
  obtain ⟨f, read⟩ := Rule.accepted_form read
  simp only [Reading.seq_accepted_iff, Reading.map_accepted_iff] at read
  obtain ⟨_, balance, ⟨_, -, rfl⟩, readBalance, rfl⟩ := read
  obtain ⟨_, _, found⟩ := Rule.Fields.accepted_required readBalance
  exact Rule.states_of_nonneg found

theorem PolicyForm.states_of_rule {form : PolicyForm} (read : rule place j = .accepted form) :
    ∃ cents, 0 < cents ∧ form.limit.States cents := by
  obtain ⟨f, read⟩ := Rule.accepted_form read
  simp only [Reading.seq_accepted_iff, Reading.map_accepted_iff] at read
  obtain ⟨_, _, ⟨_, _, ⟨_, _, ⟨_, _, ⟨_, _, ⟨_, _, ⟨_, _, ⟨_, _, ⟨_, _, ⟨limit, readLimit, rfl⟩,
    -, rfl⟩, -, rfl⟩, -, rfl⟩, -, rfl⟩, -, rfl⟩, -, rfl⟩, -, rfl⟩, -, rfl⟩, -, rfl⟩ := read
  obtain ⟨_, _, found⟩ := Rule.Fields.accepted_required readLimit
  exact Rule.states_of_positive found

theorem IntentForm.states_of_rule {form : IntentForm} (read : rule place j = .accepted form) :
    ∃ cents, 0 < cents ∧ form.policy.limit.States cents := by
  obtain ⟨_, _, found⟩ := policy_of_rule read
  exact PolicyForm.states_of_rule found

/-- The limit of the policy that a form asks for is what the form states. -/
theorem PolicyForm.holds_of_toPolicy {form : PolicyForm} {policy : Policy} {cents : Int}
    (states : form.limit.States cents) (made : form.toPolicy = .ok policy) :
    policy.limit.Holds cents := by
  obtain ⟨geo, -, rest⟩ := bind_ok_iff.mp made
  obtain ⟨split, -, built⟩ := bind_ok_iff.mp rest
  obtain ⟨limit, brought, -, -, -, rfl⟩ := Policy.build_ok_iff.mp built
  exact states.holds brought

theorem PaymentForm.states_of_rule {form : PaymentForm} (read : rule place j = .accepted form) :
    ∃ cents, form.amount.States cents := by
  obtain ⟨f, read⟩ := Rule.accepted_form read
  simp only [Reading.seq_accepted_iff, Reading.map_accepted_iff] at read
  obtain ⟨_, _, ⟨_, _, ⟨_, _, ⟨_, amount, ⟨_, _, ⟨_, -, rfl⟩, -, rfl⟩, readAmount, rfl⟩, -, rfl⟩,
    -, rfl⟩, -, rfl⟩ := read
  obtain ⟨_, _, found⟩ := Rule.Fields.accepted_required readAmount
  exact (Rule.states_of_money found).1

theorem MilestoneForm.states_of_rule {form : MilestoneForm}
    (read : rule place j = .accepted form) : ∃ cents, 0 < cents ∧ form.amount.States cents := by
  obtain ⟨f, read⟩ := Rule.accepted_form read
  simp only [Reading.seq_accepted_iff, Reading.map_accepted_iff] at read
  obtain ⟨_, _, ⟨_, amount, ⟨_, -, rfl⟩, readAmount, rfl⟩, -, rfl⟩ := read
  obtain ⟨_, _, found⟩ := Rule.Fields.accepted_required readAmount
  exact Rule.states_of_positive found

theorem EscrowForm.states_of_rule {form : EscrowForm} (read : rule place j = .accepted form) :
    ∀ m ∈ form.milestones, ∃ cents, 0 < cents ∧ m.amount.States cents := by
  obtain ⟨f, read⟩ := Rule.accepted_form read
  simp only [Reading.seq_accepted_iff, Reading.map_accepted_iff] at read
  obtain ⟨_, milestones, ⟨_, _, ⟨_, _, ⟨_, -, rfl⟩, -, rfl⟩, -, rfl⟩, readMilestones, rfl⟩ := read
  obtain ⟨_, _, found⟩ := Rule.Fields.accepted_required readMilestones
  intro m mem
  obtain ⟨_, _, stated⟩ := Rule.accepted_list found m mem
  exact MilestoneForm.states_of_rule stated

theorem ClawbackForm.states_of_rule {form : ClawbackForm} (read : rule place j = .accepted form) :
    ∀ part ∈ form.part, ∃ cents, 0 < cents ∧ part.States cents := by
  obtain ⟨f, read⟩ := Rule.accepted_form read
  simp only [Reading.seq_accepted_iff, Reading.map_accepted_iff] at read
  obtain ⟨_, part, ⟨_, -, rfl⟩, readPart, rfl⟩ := read
  rintro d rfl
  obtain ⟨_, _, found⟩ := Rule.Fields.accepted_optional readPart (by simp)
  exact Rule.states_of_positive (Rule.accepted_orNull found)

end

end Http

end Earmark
