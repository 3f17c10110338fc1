import Earmark.Http.Server
import Earmark.Proofs.Documents

/-!
What an accepted form may hold. The shares of a split are between zero and one, so that the policy a
form asks for is made or refused as a value (`PolicyForm.onlyInvalid_toPolicy`), and its radius is a
floating-point number.
-/

namespace Earmark.Http

variable {α β : Type}

namespace Reading

theorem map_accepted_iff {f : α → β} {r : Reading α} {b : β} :
    f <$> r = .accepted b ↔ ∃ a, r = .accepted a ∧ f a = b := by
  change r.map f = .accepted b ↔ _
  cases r <;> simp [map]

theorem seq_accepted_iff {f : Reading (α → β)} {r : Reading α} {b : β} :
    f <*> r = .accepted b ↔ ∃ g a, f = .accepted g ∧ r = .accepted a ∧ g a = b := by
  change f.seq r = .accepted b ↔ _
  cases f <;> cases r <;> simp [seq]

end Reading

namespace Rule

theorem accepted_ofCheck {check : Json → Except Fault α} {place : List String} {j : Json} {a : α}
    (read : ofCheck check place j = .accepted a) : check j = .ok a := by
  unfold ofCheck at read
  split at read
  · rename_i done
    cases read
    exact done
  · cases read

theorem accepted_orNull {rule : Rule α} {place : List String} {j : Json} {a : α}
    (read : rule.orNull place j = .accepted (some a)) : rule place j = .accepted a := by
  unfold orNull at read
  split at read
  · cases read
  · obtain ⟨b, read, same⟩ := Reading.map_accepted_iff.mp read
    cases same
    exact read

theorem accepted_form {read : Fields → Reading α} {place : List String} {j : Json} {a : α}
    (done : form read place j = .accepted a) : ∃ f, read f = .accepted a := by
  unfold form at done
  split at done
  · exact ⟨_, done⟩
  · cases done

namespace Fields

variable {f : Fields} {key : String} {rule : Rule α} {a : α}

theorem accepted_required (read : f.required key rule = .accepted a) :
    ∃ place j, rule place j = .accepted a := by
  unfold required at read
  split at read
  · exact ⟨_, _, read⟩
  · cases read

/-- An optional field that does not have its default has a value that the rule takes. -/
theorem accepted_optional {default : α} (read : f.optional key default rule = .accepted a)
    (other : a ≠ default) : ∃ place j, rule place j = .accepted a := by
  unfold optional at read
  split at read
  · exact ⟨_, _, read⟩
  · cases read
    exact absurd rfl other

end Fields

/-- A share is a fraction between zero and one. -/
theorem isRate_of_share {place : List String} {j : Json} {d : Decimal}
    (read : share place j = .accepted d) : d.IsRate := by
  rw [share, decimal] at read
  obtain ⟨found, -, done⟩ := bind_ok_iff.mp (accepted_ofCheck read)
  cases found with
  | infinity neg => cases done
  | nan neg signalling payload => cases done
  | finite neg coeff exp =>
    simp only [Option.bind_none, within] at done
    split at done
    · cases done
    · rename_i kept
      cases done
      simp only [List.findSome?_eq_none_iff, List.mem_cons, List.not_mem_nil, or_false,
        forall_eq_or_imp, forall_eq, Limit.fault?, ite_eq_left_iff, reduceCtorEq, imp_false,
        not_not, Option.some.injEq, Decimal.ofNat, Decimal.compareNumbers_finite] at kept
      obtain ⟨most, least⟩ := kept
      have one : (Decimal.finite false 1 0).toRat = 1 := by simp [Decimal.toRat, Decimal.signed]
      have zero : (Decimal.finite false 0 0).toRat = 0 := by simp [Decimal.toRat, Decimal.signed]
      rw [one, compare_lt_iff_lt, compare_eq_iff_eq] at most
      rw [zero, compare_gt_iff_gt, compare_eq_iff_eq] at least
      exact ⟨rfl, least.elim le_of_lt ge_of_eq, most.elim le_of_lt le_of_eq⟩

end Rule

/-- Both parts of an accepted split are read as shares. -/
theorem SplitForm.shares_of_rule {place : List String} {j : Json} {form : SplitForm}
    (read : rule place j = .accepted form) :
    (∃ place j, Rule.share place j = .accepted form.spend) ∧
      ∃ place j, Rule.share place j = .accepted form.save := by
  obtain ⟨f, read⟩ := Rule.accepted_form read
  simp only [Reading.seq_accepted_iff, Reading.map_accepted_iff] at read
  obtain ⟨_, save, ⟨spend, readSpend, rfl⟩, readSave, rfl⟩ := read
  exact ⟨Rule.Fields.accepted_required readSpend, Rule.Fields.accepted_required readSave⟩

theorem SplitForm.isRate_of_rule {place : List String} {j : Json} {form : SplitForm}
    (read : rule place j = .accepted form) : form.spend.IsRate ∧ form.save.IsRate := by
  obtain ⟨⟨_, _, spent⟩, _, _, saved⟩ := shares_of_rule read
  exact ⟨Rule.isRate_of_share spent, Rule.isRate_of_share saved⟩

namespace PolicyForm

variable {form : PolicyForm} {policy : Policy}

/-- The shares of the split, if there is one, are fractions between zero and one. -/
def HasRates (form : PolicyForm) : Prop :=
  ∀ split ∈ form.split, split.spend.IsRate ∧ split.save.IsRate

theorem split_of_rule {place : List String} {j : Json} (read : rule place j = .accepted form) :
    ∀ split ∈ form.split, ∃ place j, SplitForm.rule place j = .accepted split := by
  obtain ⟨f, read⟩ := Rule.accepted_form read
  simp only [Reading.seq_accepted_iff, Reading.map_accepted_iff] at read
  -- the split is read before the two fields that stand behind it
  obtain ⟨_, _, ⟨_, _, ⟨_, split, ⟨_, _, ⟨_, _, ⟨_, _, ⟨_, _, ⟨_, _, ⟨_, _, ⟨_, _, rfl⟩, -, rfl⟩,
    -, rfl⟩, -, rfl⟩, -, rfl⟩, -, rfl⟩, -, rfl⟩, readSplit, rfl⟩, -, rfl⟩, -, rfl⟩ := read
  intro s mem
  obtain rfl : split = some s := mem
  obtain ⟨_, _, found⟩ := Rule.Fields.accepted_optional readSplit (by simp)
  exact ⟨_, _, Rule.accepted_orNull found⟩

theorem hasRates_of_rule {place : List String} {j : Json} (read : rule place j = .accepted form) :
    form.HasRates := by
  intro s mem
  obtain ⟨_, _, found⟩ := split_of_rule read s mem
  exact SplitForm.isRate_of_rule found

/-- The policy that an accepted form asks for is made, or the form is refused for a value. -/
theorem onlyInvalid_toPolicy (rates : form.HasRates) :
    OnlyFails Failure.IsInvalid form.toPolicy := by
  refine onlyFails_bind (onlyFails_mapM fun geo _ => GeoRestriction.onlyInvalid_build _ _ _)
    fun geo _ => onlyFails_bind (onlyFails_mapM fun split mem => ?_)
    fun split _ => Policy.onlyInvalid_build rfl
  obtain ⟨spend, save⟩ := rates split mem
  exact SplitRule.onlyInvalid_ofParts spend.below save.below

theorem isBuilt_of_toPolicy (made : form.toPolicy = .ok policy) : policy.IsBuilt := by
  obtain ⟨geo, -, rest⟩ := bind_ok_iff.mp made
  obtain ⟨split, -, built⟩ := bind_ok_iff.mp rest
  exact ⟨_, built⟩

/-- A form states a radius as a floating-point number. -/
theorem hasFloatRadius_of_toPolicy (made : form.toPolicy = .ok policy) :
    policy.HasFloatRadius := by
  obtain ⟨geo, placed, rest⟩ := bind_ok_iff.mp made
  obtain ⟨split, -, built⟩ := bind_ok_iff.mp rest
  obtain ⟨limit, -, -, -, -, rfl⟩ := Policy.build_ok_iff.mp built
  rintro restriction restricted radius within
  obtain rfl : geo = some restriction := restricted
  obtain ⟨g, -, checked⟩ := exists_of_mapM_some placed
  rw [GeoRestriction.radius_of_build checked] at within
  obtain ⟨x, -, rfl⟩ := Option.map_eq_some_iff.mp within
  exact ⟨x, rfl⟩

end PolicyForm

theorem IntentForm.policy_of_rule {place : List String} {j : Json} {form : IntentForm}
    (read : rule place j = .accepted form) :
    ∃ place j, PolicyForm.rule place j = .accepted form.policy := by
  obtain ⟨f, read⟩ := Rule.accepted_form read
  simp only [Reading.seq_accepted_iff, Reading.map_accepted_iff] at read
  obtain ⟨_, policy, ⟨_, _, ⟨_, -, rfl⟩, -, rfl⟩, readPolicy, rfl⟩ := read
  exact Rule.Fields.accepted_required readPolicy

theorem IntentForm.hasRates_of_rule {place : List String} {j : Json} {form : IntentForm}
    (read : rule place j = .accepted form) : form.policy.HasRates := by
  obtain ⟨_, _, found⟩ := policy_of_rule read
  exact PolicyForm.hasRates_of_rule found

end Earmark.Http
