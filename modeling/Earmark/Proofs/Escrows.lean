import Earmark.Proofs.Milestones
import Earmark.Service.Escrows

/-!
Calls on an escrow. A call that succeeds completes one pending milestone or records the receipt of a
clawback (`Move`), and a call that fails leaves the escrow as it is (`step_cases`). Whatever the
rates, the receipt divides what was pending without a remainder (`ClawbackReceipt.Divides`).
-/

namespace Earmark

/-- A receipt accounts for what was pending: what it took, less the penalty, is split between
savings and the spendable balance, and the rest is reported as unrecovered. -/
structure ClawbackReceipt.Divides (r : ClawbackReceipt) (pending : ℚ) : Prop where
  amount_pos : 0 < r.amount.toRat
  unrecovered_nonneg : 0 ≤ r.unrecovered.toRat
  amount_add_unrecovered : r.amount.toRat + r.unrecovered.toRat = pending
  penalty_nonneg : 0 ≤ r.penalty.toRat
  netReturned_nonneg : 0 ≤ r.netReturned.toRat
  penalty_add_netReturned : r.penalty.toRat + r.netReturned.toRat = r.amount.toRat
  savings_nonneg : 0 ≤ r.savings.toRat
  savings_add_toSpendable : ∃ spendable, r.toSpendable = .ok spendable ∧ 0 ≤ spendable.toRat ∧
    r.savings.toRat + spendable.toRat = r.netReturned.toRat

/-- The figures of a receipt are whole cents. What it took is within what was pending, the penalty,
which only misuse costs, is within that, the savings are within what is left of it, and nothing is
lost in between. -/
structure ClawbackReceipt.Conserves (r : ClawbackReceipt) (pending : ℚ) : Prop where
  amount : r.amount.IsAmount
  penalty : r.penalty.IsAmount
  netReturned : r.netReturned.IsAmount
  savings : r.savings.IsAmount
  unrecovered : r.unrecovered.IsAmount
  amount_pos : 0 < r.amount.toRat
  amount_le : r.amount.toRat ≤ pending
  amount_add_unrecovered : r.amount.toRat + r.unrecovered.toRat = pending
  penalty_nonneg : 0 ≤ r.penalty.toRat
  penalty_le : r.penalty.toRat ≤ r.amount.toRat
  penalty_add_netReturned : r.penalty.toRat + r.netReturned.toRat = r.amount.toRat
  penalty_eq_zero : r.reason ≠ .misuse → r.penalty.toRat = 0
  savings_nonneg : 0 ≤ r.savings.toRat
  savings_le : r.savings.toRat ≤ r.netReturned.toRat
  savings_add_toSpendable : ∃ spendable, r.toSpendable = .ok spendable ∧ spendable.IsAmount ∧
    r.savings.toRat + spendable.toRat = r.netReturned.toRat

theorem ClawbackReceipt.Conserves.divides {r : ClawbackReceipt} {pending : ℚ}
    (conserves : r.Conserves pending) : r.Divides pending := by
  have whole := conserves.amount_add_unrecovered
  have taken := conserves.penalty_add_netReturned
  constructor
  case amount_pos => exact conserves.amount_pos
  case unrecovered_nonneg => linarith [conserves.amount_le]
  case amount_add_unrecovered => exact whole
  case penalty_nonneg => exact conserves.penalty_nonneg
  case netReturned_nonneg => linarith [conserves.penalty_le]
  case penalty_add_netReturned => exact taken
  case savings_nonneg => exact conserves.savings_nonneg
  case savings_add_toSpendable =>
    obtain ⟨spendable, left, -, parts⟩ := conserves.savings_add_toSpendable
    exact ⟨spendable, left, by linarith [conserves.savings_le], parts⟩

namespace Escrow

/-! ### Calls -/

inductive Call
  | release (milestoneId : String) (proof merchantId : Option String)
  | clawBack (reason : ClawbackReason) (part : Option Numeral) (rates : Rates)

/-- What a call gives. -/
inductive Answer
  | released (receipt : ReleaseReceipt)
  | clawedBack (receipt : ClawbackReceipt)

namespace Call

def run (now : Time) (e : Escrow) : Call → Except Failure (Answer × Escrow)
  | .release milestoneId proof merchantId => do
    let ((receipt, _), after) ← Service.releaseIn milestoneId proof now merchantId e
    .ok (.released receipt, after)
  | .clawBack reason part rates => do
    let (receipt, after) ← e.clawBack reason now part rates
    .ok (.clawedBack receipt, after)

/-- The rates of a call, if it has any, are rates. -/
def HasRates : Call → Prop
  | .release .. => True
  | .clawBack _ _ rates => rates.penalty.IsRate ∧ rates.savings.IsRate

end Call

theorem Rates.isRate_default : ({} : Rates).penalty.IsRate ∧ ({} : Rates).savings.IsRate := by
  norm_num [Decimal.IsRate, Decimal.toRat, Decimal.signed, Decimal.isFinite]

/-- One call, which leaves the escrow as it is when it fails. -/
def step (e : Escrow) (now : Time) (c : Call) : Except Failure Answer × Escrow :=
  match c.run now e with
  | .error failure => (.error failure, e)
  | .ok (answer, after) => (.ok answer, after)

/-- The escrow after some calls, each at its time and each succeeding or failing. -/
def after (e : Escrow) : List (Time × Call) → Escrow
  | [] => e
  | (now, c) :: rest => (e.step now c).2.after rest

/-- What some calls give, in their order. -/
def answers (e : Escrow) : List (Time × Call) → List (Except Failure Answer)
  | [] => []
  | (now, c) :: rest => (e.step now c).1 :: (e.step now c).2.answers rest

/-- The receipts of the releases among some answers. -/
def releases : List (Except Failure Answer) → List ReleaseReceipt :=
  List.filterMap fun
    | .ok (.released receipt) => some receipt
    | _ => none

/-- The receipts of the clawbacks among some answers. -/
def clawbacks : List (Except Failure Answer) → List ClawbackReceipt :=
  List.filterMap fun
    | .ok (.clawedBack receipt) => some receipt
    | _ => none

/-! ### What a call does -/

variable {e next : Escrow} {now : Time}

/-- What a call that succeeds did. -/
inductive Move (e : Escrow) : Answer → Escrow → Prop
  | release {first rest : List Milestone} {m done : Milestone} {receipt : ReleaseReceipt}
      (unclaimed : e.clawback = none) (place : e.milestones = first ++ m :: rest)
      (wasPending : m.isCompleted = false) (completed : done.isCompleted = true)
      (terms : done.terms = m.terms)
      (proved : done.proofKind.getD "" ≠ "" → done.proof.getD "" ≠ "")
      (names : receipt.milestoneId = m.id) (pays : receipt.amount = m.amount) :
      Move e (.released receipt) { e with milestones := first ++ done :: rest }
  | clawBack {receipt : ClawbackReceipt} (unclaimed : e.clawback = none)
      (unreleased : e.stage ≠ .released) (divides : receipt.Divides e.openTotal) :
      Move e (.clawedBack receipt) { e with clawback := some receipt }

private theorem unclaimed_of_status {status : EscrowStatus} (found : e.status = .ok status)
    (other : status ≠ .clawback) : e.clawback = none := by
  cases claimed : e.clawback with
  | none => rfl
  | some receipt =>
    simp only [Escrow.status, claimed, Option.isSome_some, ↓reduceIte, Except.ok.injEq] at found
    exact absurd found.symm other

private theorem replace_append {first rest : List Milestone} {m done : Milestone}
    (before : ∀ other ∈ first, other.id ≠ m.id) (same : done.id = m.id) :
    replace done (first ++ m :: rest) = first ++ done :: rest := by
  induction first with
  | nil => simp [replace, same]
  | cons other first ih =>
    have unlike : other.id ≠ done.id := by
      rw [same]
      exact before other (by simp)
    simp [replace, unlike, ih fun other mem => before other (by simp [mem])]

/-- A release completes one pending milestone of an escrow that was not clawed back. -/
theorem release_ok {milestoneId : String} {proof merchantId : Option String}
    {done : Milestone} (released : e.release milestoneId proof now merchantId = .ok (done, next)) :
    ∃ first m rest, e.clawback = none ∧ e.milestones = first ++ m :: rest ∧
      m.isCompleted = false ∧ done.isCompleted = true ∧ done.terms = m.terms ∧
      (done.proofKind.getD "" ≠ "" → done.proof.getD "" ≠ "") ∧
      next = { e with milestones := first ++ done :: rest } := by
  simp only [release, bind_ok_iff] at released
  obtain ⟨status, found, released⟩ := released
  by_cases closed : status = .clawback
  · simp [closed] at released
  · simp only [closed, ↓reduceIte] at released
    split at released
    · cases released
    · rename_i m located
      obtain ⟨at_, first, rest, place, before⟩ := List.find?_eq_some_iff_append.mp located
      have before' : ∀ other ∈ first, other.id ≠ m.id := by
        intro other mem same
        have unlike := before other mem
        simp only [same, at_, Bool.not_true, Bool.false_eq_true] at unlike
      cases pending : m.isCompleted with
      | true => simp [pending] at released
      | false =>
        simp only [pending, Bool.false_eq_true, ↓reduceIte] at released
        split at released
        · cases released
        · rename_i proved
          cases released
          refine ⟨first, m, rest, unclaimed_of_status found closed, place, pending, rfl, rfl, ?_,
            ?_⟩
          · simpa using proved
          · rw [place, replace_append before' (by rfl)]

theorem releaseIn_ok {milestoneId : String} {proof merchantId : Option String}
    {receipt : ReleaseReceipt} {user : String}
    (done : Service.releaseIn milestoneId proof now merchantId e = .ok ((receipt, user), next)) :
    e.Move (.released receipt) next := by
  simp only [Service.releaseIn, bind_ok_iff] at done
  obtain ⟨⟨completed, after⟩, released, done⟩ := done
  simp only [Except.ok.injEq, Prod.mk.injEq] at done
  obtain ⟨total, -, pending, -, state, -, ⟨rfl, -⟩, rfl⟩ := done
  obtain ⟨first, m, rest, unclaimed, place, wasPending, isDone, terms, proved, rfl⟩ :=
    release_ok released
  obtain ⟨id, -, amount, -⟩ : completed.id = m.id ∧ completed.description = m.description ∧
      completed.amount = m.amount ∧ completed.proofKind = m.proofKind := by
    simpa [Milestone.terms] using terms
  exact .release unclaimed place wasPending isDone terms proved id amount

/-- Recovers an amount of what is pending: the part of a clawback after it is known how much. -/
def recover (e : Escrow) (reason : ClawbackReason) (now : Time) (rates : Rates)
    (pending amount : Decimal) : Except Failure (ClawbackReceipt × Escrow) := do
  let empty ← Failure.ofDecimal (amount.le? (.ofNat 0))
  let beyond ← Failure.ofDecimal (amount.gt? pending)
  if empty || beyond then .error (.clawbackAmount amount pending)
  else
    let penalty ← applyRate amount (if reason = .misuse then rates.penalty else .zero)
    let net ← Failure.ofDecimal (amount.sub penalty)
    let savings ← applyRate net rates.savings
    let unrecovered ← Failure.ofDecimal (pending.sub amount)
    let receipt : ClawbackReceipt :=
      { escrowId := e.id, reason, amount, penalty, netReturned := net, savings, unrecovered
        time := now }
    .ok (receipt, { e with clawback := some receipt })

/-- The amount that a clawback asks for: the part of it, brought to the cent, or all that is
pending. -/
def asked (pending : Decimal) (part : Option Numeral) : Except Failure Decimal :=
  (part.map Numeral.toAmount).getD (.ok pending)

theorem isAmount_of_asked {pending amount : Decimal} {part : Option Numeral}
    (wholePending : pending.IsAmount) (asks : asked pending part = .ok amount) :
    amount.IsAmount := by
  cases part with
  | none =>
    cases asks
    exact wholePending
  | some part =>
    have brought : part.toAmount = .ok amount := asks
    exact isAmount_of_toAmount brought

theorem clawBack_eq (e : Escrow) (reason : ClawbackReason) (now : Time)
    (part : Option Numeral) (rates : Rates) :
    e.clawBack reason now part rates = (do
      let status ← e.status
      if status = .released ∨ status = .clawback then .error (.clawbackOfClosed e.id status)
      else
        let pending ← e.pending
        let amount ← asked pending part
        e.recover reason now rates pending amount) := by
  cases part <;> rfl

/-- An amount that is nothing, or more than is pending, is not recovered. -/
theorem recover_of_not_within {reason : ClawbackReason} {rates : Rates} {pending amount : Decimal}
    (wholePending : pending.IsAmount) (whole : amount.IsAmount)
    (outside : ¬(0 < amount.toRat ∧ amount.toRat ≤ pending.toRat)) :
    e.recover reason now rates pending amount = .error (.clawbackAmount amount pending) := by
  have refused : amount.cents ≤ 0 ∨ pending.cents < amount.cents := by
    rw [← whole.cents_pos_iff, whole.toRat_le_iff wholePending] at outside
    omega
  simp only [recover, whole.le?_zero, whole.gt?_eq wholePending, Failure.ofDecimal_ok, ok_bind,
    Bool.or_eq_true, decide_eq_true_eq, refused, ↓reduceIte]

/-- An amount within what is pending is recovered, and however it is divided, it is accounted
for. -/
theorem exists_recover (e : Escrow) (reason : ClawbackReason) (now : Time) {rates : Rates}
    {pending amount : Decimal} (penaltyRate : rates.penalty.IsRate)
    (savingsRate : rates.savings.IsRate) (wholePending : pending.IsAmount)
    (whole : amount.IsAmount) (positive : 0 < amount.toRat) (le : amount.toRat ≤ pending.toRat) :
    ∃ receipt, e.recover reason now rates pending amount =
        .ok (receipt, { e with clawback := some receipt }) ∧
      receipt.reason = reason ∧ receipt.amount = amount ∧ receipt.Conserves pending.toRat := by
  have accepted : ¬(amount.cents ≤ 0 ∨ pending.cents < amount.cents) := by
    rw [whole.toRat_le_iff wholePending] at le
    have some_ := whole.cents_pos_iff.mpr positive
    omega
  have rate : Decimal.IsRate (if reason = .misuse then rates.penalty else .zero) := by
    split
    · exact penaltyRate
    · exact Decimal.isRate_zero
  obtain ⟨penalty, penalised⟩ := Decimal.exists_applyRate whole positive.le rate
  obtain ⟨wholePenalty, penalty_nonneg, penalty_le⟩ :=
    Decimal.applyRate_between whole positive.le rate penalised
  obtain ⟨net, returned, wholeNet, netValue⟩ :=
    whole.exists_sub_of_le wholePenalty penalty_nonneg penalty_le
  have net_nonneg : 0 ≤ net.toRat := by linarith
  obtain ⟨savings, saved⟩ := Decimal.exists_applyRate wholeNet net_nonneg savingsRate
  obtain ⟨wholeSavings, savings_nonneg, savings_le⟩ :=
    Decimal.applyRate_between wholeNet net_nonneg savingsRate saved
  obtain ⟨spendable, left, wholeSpendable, spendableValue⟩ :=
    wholeNet.exists_sub_of_le wholeSavings savings_nonneg savings_le
  obtain ⟨unrecovered, remaining, wholeUnrecovered, unrecoveredValue⟩ :=
    wholePending.exists_sub_of_le whole positive.le le
  refine ⟨{ escrowId := e.id, reason, amount, penalty, netReturned := net, savings, unrecovered
            time := now }, ?_, rfl, rfl, ?_⟩
  · simp only [recover, whole.le?_zero, whole.gt?_eq wholePending, Failure.ofDecimal_ok, ok_bind,
      Bool.or_eq_true, decide_eq_true_eq, accepted, ↓reduceIte, penalised, returned, saved, remaining]
  constructor
  case amount => exact whole
  case penalty => exact wholePenalty
  case netReturned => exact wholeNet
  case savings => exact wholeSavings
  case unrecovered => exact wholeUnrecovered
  case amount_pos => exact positive
  case amount_le => exact le
  case amount_add_unrecovered => linarith
  case penalty_nonneg => exact penalty_nonneg
  case penalty_le => exact penalty_le
  case penalty_add_netReturned => linarith
  case penalty_eq_zero =>
    intro use
    rw [if_neg use] at penalised
    exact Decimal.toRat_of_applyRate_zero whole penalised
  case savings_nonneg => exact savings_nonneg
  case savings_le => exact savings_le
  case savings_add_toSpendable =>
    exact ⟨spendable, by simp only [ClawbackReceipt.toSpendable, left, Failure.ofDecimal_ok],
      wholeSpendable, by linarith⟩

/-- What was recovered of a pending amount is within it and accounted for. -/
theorem recover_ok {reason : ClawbackReason} {rates : Rates} {pending amount : Decimal}
    (penaltyRate : rates.penalty.IsRate) (savingsRate : rates.savings.IsRate)
    (wholePending : pending.IsAmount) (whole : amount.IsAmount) {receipt : ClawbackReceipt}
    (done : e.recover reason now rates pending amount = .ok (receipt, next)) :
    next = { e with clawback := some receipt } ∧ receipt.reason = reason ∧
      receipt.amount = amount ∧ receipt.Conserves pending.toRat := by
  by_cases within : 0 < amount.toRat ∧ amount.toRat ≤ pending.toRat
  · obtain ⟨receipt', recovered, conserves⟩ := exists_recover e reason now penaltyRate savingsRate
      wholePending whole within.1 within.2
    obtain ⟨rfl, rfl⟩ := Prod.mk.inj (Except.ok.inj (recovered.symm.trans done))
    exact ⟨rfl, conserves⟩
  · rw [recover_of_not_within wholePending whole within] at done
    cases done

/-- A clawback of a sound escrow accounts for what was pending. -/
theorem clawBack_ok (sound : e.Sound) {reason : ClawbackReason} {part : Option Numeral}
    {rates : Rates} (penaltyRate : rates.penalty.IsRate) (savingsRate : rates.savings.IsRate)
    {receipt : ClawbackReceipt} (done : e.clawBack reason now part rates = .ok (receipt, next)) :
    e.Move (.clawedBack receipt) next := by
  obtain ⟨pending, left, wholePending, exact⟩ := sound.pending_eq
  simp only [clawBack_eq, sound.status_eq, left, ok_bind] at done
  split at done
  · cases done
  · rename_i opened
    obtain ⟨unreleased, open_⟩ := not_or.mp opened
    obtain ⟨amount, asks, recovered⟩ := bind_ok_iff.mp done
    obtain ⟨rfl, -, -, conserves⟩ := recover_ok penaltyRate savingsRate wholePending
      (isAmount_of_asked wholePending asks) recovered
    exact .clawBack (unclaimed_of_status sound.status_eq open_) unreleased
      (exact ▸ conserves.divides)

/-- A call that succeeds on a sound escrow makes a move. -/
theorem move_of_run (sound : e.Sound) {c : Call} (rates : c.HasRates) {answer : Answer}
    (done : c.run now e = .ok (answer, next)) : e.Move answer next := by
  cases c with
  | release milestoneId proof merchantId =>
    simp only [Call.run, bind_ok_iff, Except.ok.injEq, Prod.mk.injEq] at done
    obtain ⟨⟨⟨receipt, user⟩, after⟩, released, rfl, rfl⟩ := done
    exact releaseIn_ok released
  | clawBack reason part rates' =>
    simp only [Call.run, bind_ok_iff, Except.ok.injEq, Prod.mk.injEq] at done
    obtain ⟨⟨receipt, after⟩, clawedBack, rfl, rfl⟩ := done
    exact clawBack_ok sound rates.1 rates.2 clawedBack

/-- After a clawback every call fails. -/
theorem run_of_clawback (claimed : e.clawback.isSome) (now : Time) (c : Call) :
    ∃ failure, c.run now e = .error failure := by
  have status : e.status = .ok .clawback := by simp [Escrow.status, claimed]
  cases c with
  | release milestoneId proof merchantId =>
    exact ⟨.releaseAfterClawback e.id, by simp [Call.run, Service.releaseIn, release, status]⟩
  | clawBack reason part rates =>
    exact ⟨.clawbackOfClosed e.id .clawback, by simp [Call.run, clawBack, status]⟩

/-- A released escrow is not clawed back. -/
theorem clawBack_of_released (released : e.status = .ok .released) (now : Time)
    (reason : ClawbackReason) (part : Option Numeral) (rates : Rates) :
    (Call.clawBack reason part rates).run now e = .error (.clawbackOfClosed e.id .released) := by
  simp [Call.run, clawBack, released]

theorem step_of_error {c : Call} {failure : Failure} (failed : c.run now e = .error failure) :
    e.step now c = (.error failure, e) := by
  simp [step, failed]

theorem step_of_ok {c : Call} {answer : Answer} (done : c.run now e = .ok (answer, next)) :
    e.step now c = (.ok answer, next) := by
  simp [step, done]

/-- A call on a sound escrow fails and leaves it, or makes a move. -/
theorem step_cases (sound : e.Sound) (now : Time) {c : Call} (rates : c.HasRates) :
    (∃ failure, e.step now c = (.error failure, e)) ∨
      ∃ answer next, e.step now c = (.ok answer, next) ∧ e.Move answer next := by
  cases done : c.run now e with
  | error failure => exact .inl ⟨failure, step_of_error done⟩
  | ok result =>
    obtain ⟨answer, next⟩ := result
    exact .inr ⟨answer, next, step_of_ok done, move_of_run sound rates done⟩

/-! ### What a move keeps -/

theorem exactTotal_of_terms {ms ns : List Milestone}
    (same : ms.map Milestone.terms = ns.map Milestone.terms) :
    Milestone.exactTotal ms = Milestone.exactTotal ns := by
  have amounts := congrArg (List.map fun t => t.2.2.1.toRat) same
  simp only [List.map_map] at amounts
  exact congrArg List.sum amounts

theorem total_of_terms
    (same : next.milestones.map Milestone.terms = e.milestones.map Milestone.terms) :
    next.total = e.total := by
  have amounts := congrArg (List.map fun t => t.2.2.1) same
  simp only [List.map_map] at amounts
  exact congrArg (fun amounts => Failure.ofDecimal (Decimal.sum amounts)) amounts

theorem Sound.of_terms (sound : e.Sound)
    (same : next.milestones.map Milestone.terms = e.milestones.map Milestone.terms) :
    next.Sound := by
  constructor
  case some_milestone =>
    intro none
    simp only [none, List.map_nil, List.nil_eq, List.map_eq_nil_iff] at same
    exact sound.some_milestone same
  case ids =>
    have ids := congrArg (List.map Prod.fst) same
    simp only [List.map_map] at ids
    exact ids ▸ sound.ids
  case amounts =>
    intro m mem
    obtain ⟨old, known, terms⟩ := List.mem_map.mp (same ▸ List.mem_map_of_mem mem)
    have amount : old.amount = m.amount := by
      simp only [Milestone.terms, Prod.mk.injEq] at terms
      exact terms.2.2.1
    exact amount ▸ sound.amounts old known
  case fits =>
    rw [exactTotal_of_terms same]
    exact sound.fits

namespace Move

variable {answer : Answer}

theorem terms_eq (move : e.Move answer next) :
    next.milestones.map Milestone.terms = e.milestones.map Milestone.terms := by
  cases move with
  | release unclaimed place wasPending completed terms => simp [place, terms]
  | clawBack => rfl

theorem sound (move : e.Move answer next) (sound : e.Sound) : next.Sound :=
  sound.of_terms move.terms_eq

/-- Completed milestones stay as they are. -/
theorem mem_of_completed (move : e.Move answer next) {m : Milestone} (mem : m ∈ e.milestones)
    (completed : m.isCompleted) : m ∈ next.milestones := by
  cases move with
  | release unclaimed place wasPending isDone =>
    rw [place] at mem
    simp only [List.mem_append, List.mem_cons] at mem ⊢
    rcases mem with before | rfl | later
    · exact .inl before
    · rw [completed] at wasPending
      cases wasPending
    · exact .inr (.inr later)
  | clawBack => exact mem

/-- A move adds to the completed milestones what its receipt says was released. -/
theorem completedTotal_eq (move : e.Move answer next) :
    next.completedTotal =
      e.completedTotal + ((releases [.ok answer]).map (·.amount.toRat)).sum := by
  cases move with
  | release unclaimed place wasPending completed terms proved names pays =>
    simp only [Milestone.terms, Prod.mk.injEq] at terms
    simp [completedTotal, place, wasPending, completed, releases, pays, terms.2.2.1]
    ring
  | clawBack => simp [completedTotal, releases]

theorem clawback_eq (move : e.Move answer next) :
    next.clawback.toList = e.clawback.toList ++ clawbacks [.ok answer] := by
  cases move with
  | release unclaimed => simp [unclaimed, clawbacks]
  | clawBack unclaimed => simp [unclaimed, clawbacks]

/-- A release is of a pending milestone, which is completed from then on. -/
theorem exists_pending (move : e.Move answer next) {receipt : ReleaseReceipt}
    (released : answer = .released receipt) :
    (∃ m ∈ e.milestones, m.isCompleted = false ∧ m.id = receipt.milestoneId) ∧
      ∃ m ∈ next.milestones, m.isCompleted = true ∧ m.id = receipt.milestoneId := by
  cases move with
  | @release first rest m done _ unclaimed place wasPending completed terms proved names pays =>
    cases released
    simp only [Milestone.terms, Prod.mk.injEq] at terms
    exact ⟨⟨m, by simp [place], wasPending, names.symm⟩,
      ⟨done, by simp, completed, terms.1.trans names.symm⟩⟩
  | clawBack => cases released

end Move

/-- What calls keep: completed milestones have the proof they need, and the receipt of a clawback
accounts for what is not completed. -/
structure Settled (e : Escrow) : Prop extends Sound e where
  proved : ∀ m ∈ e.milestones, m.isCompleted → m.proofKind.getD "" ≠ "" → m.proof.getD "" ≠ ""
  divided : ∀ receipt, e.clawback = some receipt → receipt.Divides e.openTotal

theorem Move.settled {answer : Answer} (move : e.Move answer next) (settled : e.Settled) :
    next.Settled := by
  refine ⟨move.sound settled.toSound, ?_, ?_⟩
  · cases move with
    | @release first rest m done _ unclaimed place wasPending completed terms proved =>
      intro other mem isDone
      simp only [List.mem_append, List.mem_cons] at mem
      rcases mem with before | rfl | later
      · exact settled.proved other (by simp [place, before]) isDone
      · exact proved
      · exact settled.proved other (by simp [place, later]) isDone
    | clawBack => exact settled.proved
  · cases move with
    | release unclaimed =>
      intro receipt claimed
      rw [unclaimed] at claimed
      cases claimed
    | clawBack unclaimed unreleased divides =>
      rintro receipt claimed
      cases claimed
      exact divides

end Escrow

end Earmark
