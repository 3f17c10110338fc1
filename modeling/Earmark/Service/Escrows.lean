import Earmark.Service.Payments

/-!
Escrows in the store, and a user's summary.
-/

namespace Earmark

/-- What a release came to. -/
structure ReleaseReceipt where
  escrowId : String
  milestoneId : String
  amount : Decimal
  totalReleased : Decimal
  pending : Decimal
  status : EscrowStatus
  reference : String
  time : Time
  deriving Repr

namespace Service

variable {b : Backend} {α : Type}

/-- Adds an escrow, whose id must be new. -/
def addEscrow (e : Escrow) : Service b Unit := atomically do
  let w ← get
  if (b.escrows.find? e.id w.store.escrows).isSome then throw (.duplicateId e.id)
  else
    let row ← check (b.escrows.write e)
    modifyStore fun s => { s with escrows := s.escrows ++ [row] }

def getEscrow (id : String) : Service b Escrow := do
  let found ← check ((b.escrows.find? id (← get).store.escrows).mapM b.escrows.read)
  check (Failure.require (.escrowNotFound id .byId) found)

/-- A user's escrows, the earliest first. -/
def listEscrows (user : String) : Service b (List Escrow) := do
  check (b.escrows.ofUser user (← get).store.escrows >>= sortByTime Escrow.createdAt)

/-- Changes an escrow: the change sees it as it is stored, and is stored if it succeeds. -/
def updateEscrow (id : String) (change : Escrow → Except Failure (α × Escrow)) : Service b α :=
  atomically do
    match b.escrows.find? id (← get).store.escrows with
    | none => throw (.escrowNotFound id b.lookup)
    | some row =>
      let (result, changed) ← check (b.escrows.read row >>= change)
      let row ← check (b.escrows.update row changed)
      modifyStore fun s => { s with escrows := b.escrows.replace id row s.escrows }
      return result

def createEscrow (config : Config) (now : Time) (user : String) (specs : List MilestoneSpec)
    (title : String) (intentId : Option String) : Service b Escrow := do
  let (ids, built) := Escrow.build (← get).ids user specs now intentId title config.expiryDays
  modify fun w => { w with ids }
  let escrow ← check built
  addEscrow escrow
  note (.escrowCreated escrow.id user (← check escrow.total))
  return escrow

/-- Releases a milestone and gives the receipt, and the owner. -/
def releaseIn (milestoneId : String) (proof : Option String) (now : Time)
    (merchantId : Option String) (e : Escrow) :
    Except Failure ((ReleaseReceipt × String) × Escrow) := do
  let (milestone, after) ← e.release milestoneId proof now merchantId
  let receipt : ReleaseReceipt :=
    { escrowId := e.id, milestoneId := milestone.id, amount := milestone.amount
      totalReleased := ← after.released, pending := ← after.pending, status := ← after.status
      reference := Reference.release e.id milestone.id, time := now }
  .ok ((receipt, e.user), after)

def releaseMilestone (config : Config) (now : Time) (escrowId milestoneId : String)
    (proof merchantId : Option String) : Service b ReleaseReceipt := do
  let (receipt, user) ← updateEscrow escrowId (releaseIn milestoneId proof now merchantId)
  tally .release
  note (.milestoneReleased escrowId milestoneId receipt.amount receipt.status)
  if config.rewards then
    follow config now user .escrowReleased
      ("Milestone released: " ++ receipt.amount.toText ++ " from escrow " ++ escrowId)
  return receipt

def clawBack (config : Config) (now : Time) (escrowId : String) (reason : ClawbackReason)
    (part : Option Numeral) : Service b ClawbackReceipt := do
  let (receipt, user) ← updateEscrow escrowId fun e => do
    let (receipt, after) ← e.clawBack reason now part config.rates
    .ok ((receipt, e.user), after)
  tally (.clawback reason)
  note (.escrowClawedBack escrowId reason receipt.amount receipt.penalty)
  if reason = .misuse && config.rewards then
    follow config now user .escrowClawbackMisuse
      ("Clawback initiated for misuse: " ++ receipt.amount.toText)
  return receipt

/-- A user's payments and commitments in figures. -/
def summary (user : String) : Service b SpendingSummary := do
  let records ← history user none
  let intents ← listIntents user
  let escrows ← listEscrows user
  check (SpendingSummary.of user records intents escrows)

end Service

end Earmark
