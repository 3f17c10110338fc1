import Earmark.Proofs.MoneyFields
import Earmark.Proofs.Requests

/-!
Money that requests state. In what a request has the service do, money is whole cents with at most
twelve digits before the point (`Http.statesMoney_of_commandOf`).
-/

namespace Earmark

variable {α : Type}

namespace Numeral

/-- How many cents a number is, those that are not whole left out. -/
def wholeCents (n : Numeral) : Int :=
  match n.exact with
  | .ok d => d.wholeCents
  | .error _ => 0

/-- The number is a decimal of so many cents, with at most twelve digits before the point. -/
def States (n : Numeral) (cents : Int) : Prop := ∃ d, n = .decimal d ∧ d.States cents

variable {n : Numeral} {cents : Int}

theorem States.wholeCents_eq (states : n.States cents) : n.wholeCents = cents := by
  obtain ⟨d, rfl, states⟩ := states
  exact states.wholeCents_eq

theorem States.holds {amount : Decimal} (states : n.States cents)
    (brought : n.toAmount = .ok amount) : amount.Holds cents := by
  obtain ⟨d, rfl, states⟩ := states
  exact states.holds brought

end Numeral

/-- The limit that a request states for an intent, in cents. -/
def Http.statedLimit (r : Request) : Int :=
  ((bodyForm? r IntentForm.rule).map (·.policy.limit.wholeCents)).getD 0

/-- The command is one of those that requests bring, and its money is whole cents with at most
twelve digits before the point; a policy that it brings has the limit stated. -/
def Command.StatesMoney (limit : Int) : Command → Prop
  | .openWallet _ balance => ∃ cents, 0 ≤ cents ∧ balance.States cents
  | .createIntent _ _ policy => 0 < limit ∧ policy.limit.Holds limit
  | .pay request => ∃ cents, request.amount.States cents
  | .createEscrow _ specs _ _ => ∀ spec ∈ specs, ∃ cents, 0 < cents ∧ spec.amount.States cents
  | .clawBack _ _ part => ∀ n ∈ part, ∃ cents, 0 < cents ∧ n.States cents
  | .cancelIntent _ | .releaseMilestone .. | .recordEvent .. => True
  | .lockFunds .. | .releaseFunds .. | .addIntent _ | .useIntent .. | .violateIntent _ => False

namespace Http

variable {now : Time} {r : Request} {rule : Rule α} {form : α}

theorem accepted_of_bodyForm? (brought : bodyForm? r rule = some form) :
    ∃ document, rule ["body"] document = .accepted form := by
  unfold bodyForm? at brought
  split at brought
  · rename_i document read
    refine ⟨document, ?_⟩
    cases accepted : rule ["body"] document with
    | refused faults => rw [accepted] at brought; cases brought
    | accepted found => rw [accepted] at brought; exact congrArg _ (Option.some.inj brought)
  · cases brought

theorem accepted_of_bodyFormOr? {default : α} (brought : bodyFormOr? r rule default = some form) :
    form = default ∨ ∃ document, rule ["body"] document = .accepted form := by
  unfold bodyFormOr? at brought
  split at brought
  · exact .inl (Option.some.inj brought).symm
  · rename_i document read
    cases accepted : rule.orNull ["body"] document with
    | refused faults => rw [accepted] at brought; cases brought
    | accepted found =>
      rw [accepted] at brought
      cases found with
      | none => exact .inl (Option.some.inj brought).symm
      | some found =>
        obtain rfl : found = form := Option.some.inj brought
        exact .inr ⟨document, Rule.accepted_orNull accepted⟩
  · cases brought

/-- The money in what a request has the service do is whole cents with at most twelve digits before
the point. -/
theorem statesMoney_of_commandOf {c : Command} (command : commandOf now r = some c) :
    c.StatesMoney (statedLimit r) := by
  unfold commandOf at command
  split at command
  case h_2 => cases command
  case h_3 => cases command
  case h_1 endpoint found =>
    cases endpoint with
    | openWallet =>
      obtain ⟨form, brought, rfl⟩ := Option.map_eq_some_iff.mp command
      obtain ⟨_, read⟩ := accepted_of_bodyForm? brought
      obtain ⟨cents, nonneg, states⟩ := WalletForm.states_of_rule read
      exact ⟨cents, nonneg, _, rfl, states⟩
    | createIntent =>
      obtain ⟨form, brought, command⟩ := Option.bind_eq_some_iff.mp command
      obtain ⟨policy, made, rfl⟩ := Option.map_eq_some_iff.mp command
      obtain ⟨_, read⟩ := accepted_of_bodyForm? brought
      obtain ⟨cents, positive, states⟩ := IntentForm.states_of_rule read
      have stated : statedLimit r = cents := by
        rw [statedLimit, brought]
        exact states.wholeCents_eq
      rw [Command.StatesMoney, stated]
      exact ⟨positive, PolicyForm.holds_of_toPolicy states (eq_ok_of_toOption made)⟩
    | cancelIntent id =>
      cases command
      trivial
    | pay =>
      obtain ⟨form, brought, rfl⟩ := Option.map_eq_some_iff.mp command
      obtain ⟨_, read⟩ := accepted_of_bodyForm? brought
      obtain ⟨cents, states⟩ := PaymentForm.states_of_rule read
      exact ⟨cents, _, rfl, states⟩
    | createEscrow =>
      obtain ⟨form, brought, rfl⟩ := Option.map_eq_some_iff.mp command
      obtain ⟨_, read⟩ := accepted_of_bodyForm? brought
      intro spec asked
      obtain ⟨m, mem, rfl⟩ := List.mem_map.mp asked
      obtain ⟨cents, positive, states⟩ := EscrowForm.states_of_rule read m mem
      exact ⟨cents, positive, _, rfl, states⟩
    | releaseMilestone =>
      obtain ⟨form, -, rfl⟩ := Option.map_eq_some_iff.mp command
      trivial
    | clawBack =>
      obtain ⟨form, brought, rfl⟩ := Option.map_eq_some_iff.mp command
      intro n mem
      obtain ⟨d, part, rfl⟩ := Option.map_eq_some_iff.mp mem
      rcases accepted_of_bodyFormOr? brought with rfl | ⟨_, read⟩
      · cases part
      · obtain ⟨cents, positive, states⟩ := ClawbackForm.states_of_rule read d part
        exact ⟨cents, positive, d, rfl, states⟩
    | recordEvent =>
      obtain ⟨form, -, rfl⟩ := Option.map_eq_some_iff.mp command
      trivial
    | _ => cases command

end Http

end Earmark
