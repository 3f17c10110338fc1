import Earmark.Amount
import Earmark.Ids
import Earmark.Reference

/-!
Escrows: funds released milestone by milestone.

An escrow is locked, then partially released, then released, as its milestones complete; before it
is released it may be clawed back once, and nothing follows that. The state is read off the
milestones and the receipt of the clawback.
-/

namespace Earmark

structure Milestone where
  id : String
  description : String
  amount : Decimal
  /-- The kind of proof that the release needs; an empty one needs none. -/
  proofKind : Option String
  status : MilestoneStatus := .pending
  completedAt : Option Time := none
  merchantId : Option String := none
  proof : Option String := none
  deriving DecidableEq, Repr

def Milestone.isCompleted (m : Milestone) : Bool := m.status == .completed

/-- What recovering the unreleased funds of an escrow came to. -/
structure ClawbackReceipt where
  escrowId : String
  reason : ClawbackReason
  amount : Decimal
  penalty : Decimal
  netReturned : Decimal
  savings : Decimal
  unrecovered : Decimal
  time : Time
  deriving DecidableEq, Repr

/-- What returns to the spendable balance. -/
def ClawbackReceipt.toSpendable (r : ClawbackReceipt) : Except Failure Decimal :=
  Failure.ofDecimal (r.netReturned.sub r.savings)

structure Escrow where
  id : String
  user : String
  milestones : List Milestone
  createdAt : Time
  expiresAt : Time
  intentId : Option String
  title : String
  clawback : Option ClawbackReceipt := none
  deriving DecidableEq, Repr

namespace Escrow

def total (e : Escrow) : Except Failure Decimal :=
  Failure.ofDecimal (Decimal.sum (e.milestones.map (·.amount)))

def released (e : Escrow) : Except Failure Decimal :=
  Failure.ofDecimal (Decimal.sum ((e.milestones.filter (·.isCompleted)).map (·.amount)))

/-- The total less what is released. -/
def pending (e : Escrow) : Except Failure Decimal := do
  Failure.ofDecimal ((← e.total).sub (← e.released))

def status (e : Escrow) : Except Failure EscrowStatus := do
  if e.clawback.isSome then .ok .clawback
  else
    let done ← Failure.ofDecimal ((← e.pending).le? (.ofNat 0))
    if done then .ok .released
    else
      let begun ← Failure.ofDecimal ((← e.released).gt? (.ofNat 0))
      .ok (if begun then .partiallyReleased else .locked)

def isOpen (e : Escrow) : Except Failure Bool := do
  let status ← e.status
  .ok (status == .locked || status == .partiallyReleased)

end Escrow

/-- A milestone as it is asked for. -/
structure MilestoneSpec where
  description : String
  amount : Numeral
  proofKind : Option String
  deriving Repr

/-- The amount of a milestone, which must be positive. -/
def MilestoneSpec.checkedAmount (spec : MilestoneSpec) : Except Failure Decimal := do
  let amount ← spec.amount.toAmount
  let empty ← Failure.ofDecimal (amount.le? (.ofNat 0))
  if empty then .error (.policy (.milestoneAmount amount)) else .ok amount

/-- Builds milestones with numbers behind `last`, and gives the last number taken. The first one
refused ends the building. -/
def Milestone.build (last : Nat) : List MilestoneSpec → Nat × Except Failure (List Milestone)
  | [] => (last, .ok [])
  | spec :: rest =>
    match spec.checkedAmount with
    | .error failure => (last, .error failure)
    | .ok amount =>
      let (after, built) := build (last + 1) rest
      let milestone : Milestone :=
        { id := Ids.milestone (last + 1), description := spec.description, amount
          proofKind := spec.proofKind }
      (after, (milestone :: ·) <$> built)

namespace Escrow

/-- Builds an escrow that expires after some days. -/
def build (ids : Ids) (user : String) (specs : List MilestoneSpec) (now : Time)
    (intentId : Option String) (title : String) (expiryDays : Int) : Ids × Except Failure Escrow :=
  if specs.isEmpty then (ids, .error (.policy .noMilestone))
  else
    match Milestone.build ids.milestones specs with
    | (last, .error failure) => ({ ids with milestones := last }, .error failure)
    | (last, .ok milestones) =>
      let number := ids.escrows + 1
      ({ ids with milestones := last, escrows := number }, do
        let expiresAt ← Failure.require .outOfRange (now.addDays? expiryDays)
        .ok
          { id := Ids.escrow number, user, milestones, createdAt := now, expiresAt, intentId
            title })

def find? (e : Escrow) (milestoneId : String) : Option Milestone :=
  e.milestones.find? (·.id == milestoneId)

/-- Replaces the first milestone with an id. -/
def replace (milestone : Milestone) : List Milestone → List Milestone
  | [] => []
  | m :: rest => if m.id == milestone.id then milestone :: rest else m :: replace milestone rest

/-- Completes a milestone, with the proof it needs, unless the escrow was clawed back. -/
def release (e : Escrow) (milestoneId : String) (proof : Option String) (now : Time)
    (merchantId : Option String) : Except Failure (Milestone × Escrow) := do
  let status ← e.status
  if status = .clawback then .error (.releaseAfterClawback e.id)
  else
    match e.find? milestoneId with
    | none => .error (.milestoneNotFound milestoneId e.id)
    | some m =>
      if m.isCompleted then .error (.milestoneCompleted milestoneId)
      else if m.proofKind.getD "" != "" && proof.getD "" == "" then
        .error (.proofRequired (m.proofKind.getD ""))
      else
        let done := { m with status := .completed, completedAt := some now, merchantId, proof }
        .ok (done, { e with milestones := replace done e.milestones })

/-- The parts of a recovered amount that are withheld and saved. -/
structure Rates where
  penalty : Decimal := .finite false 2 (-2)
  savings : Decimal := .finite false 30 (-2)
  deriving Repr, Inhabited

/-- Recovers what is pending, or a part of it, and closes the escrow. Misuse costs a penalty, and a
part of the rest goes to savings. -/
def clawBack (e : Escrow) (reason : ClawbackReason) (now : Time) (part : Option Numeral)
    (rates : Rates) : Except Failure (ClawbackReceipt × Escrow) := do
  let status ← e.status
  if status = .released ∨ status = .clawback then .error (.clawbackOfClosed e.id status)
  else
    let pending ← e.pending
    let amount ← match part with
      | none => .ok pending
      | some part => part.toAmount
    let empty ← Failure.ofDecimal (amount.le? (.ofNat 0))
    let beyond ← Failure.ofDecimal (amount.gt? pending)
    if empty || beyond then .error (.clawbackAmount amount pending)
    else
      let penalty ← applyRate amount (if reason = .misuse then rates.penalty else .zero)
      let net ← Failure.ofDecimal (amount.sub penalty)
      let savings ← applyRate net rates.savings
      let unrecovered ← Failure.ofDecimal (pending.sub amount)
      let receipt : ClawbackReceipt :=
        { escrowId := e.id, reason, amount, penalty, netReturned := net, savings, unrecovered
          time := now }
      .ok (receipt, { e with clawback := some receipt })

end Escrow

end Earmark
