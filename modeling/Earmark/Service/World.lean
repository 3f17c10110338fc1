import Earmark.Intent.Selection
import Earmark.Merchant.Directory
import Earmark.Store.Backend

/-!
What a service works on: the store, the ids given so far, and what it leaves for its operators, a
journal and counters. A failed operation keeps the ids it took.
-/

namespace Earmark

/-- An entry of the journal. -/
inductive LogEntry
  | intentCreated (intent user : String) (locked : Decimal)
  | intentCancelled (intent : String) (released : Decimal)
  | escrowCreated (escrow user : String) (total : Decimal)
  | milestoneReleased (escrow milestone : String) (amount : Decimal) (status : EscrowStatus)
  | escrowClawedBack (escrow : String) (reason : ClawbackReason) (amount penalty : Decimal)
  | validated (transaction user : String) (intent : Option String) (merchant : Json)
      (approved : Bool) (failedAt : Option Stage)
  | overrideUsed (transaction user : String) (merchant : Json) (amount : Decimal)
  | recordLost (transaction : String)
  | eventLost (user : String) (kind : EventKind)
  deriving Repr

namespace LogEntry

def level : LogEntry → String
  | .overrideUsed .. => "WARNING"
  | .recordLost _ | .eventLost .. => "ERROR"
  | _ => "INFO"

def message : LogEntry → String
  | .intentCreated .. => "Intent created"
  | .intentCancelled .. => "Intent cancelled"
  | .escrowCreated .. => "Escrow created"
  | .milestoneReleased .. => "Milestone released"
  | .escrowClawedBack .. => "Escrow clawed back"
  | .validated .. => "Validation completed"
  | .overrideUsed .. => "Emergency override used: all policy checks bypassed"
  | .recordLost _ => "Transaction log write failed"
  | .eventLost .. => "Reputation write failed after committed mutation"

/-- The fields of an entry besides its message. -/
def fields : LogEntry → List (String × Json)
  | .intentCreated intent user locked =>
    [("intent_id", .text intent), ("user_id", .text user), ("amount_locked", .text locked.toText)]
  | .intentCancelled intent released =>
    [("intent_id", .text intent), ("released_amount", .text released.toText)]
  | .escrowCreated escrow user total =>
    [("escrow_id", .text escrow), ("user_id", .text user), ("total_amount", .text total.toText)]
  | .milestoneReleased escrow milestone amount status =>
    [("escrow_id", .text escrow), ("milestone_id", .text milestone),
     ("amount_released", .text amount.toText), ("escrow_status", .text status.word)]
  | .escrowClawedBack escrow reason amount penalty =>
    [("escrow_id", .text escrow), ("reason", .text reason.word),
     ("clawback_amount", .text amount.toText), ("penalty_amount", .text penalty.toText)]
  | .validated transaction user intent merchant approved failedAt =>
    [("transaction_id", .text transaction), ("user_id", .text user),
     ("intent_id", (intent.map Json.text).getD .null), ("merchant_id", merchant),
     ("step", .text "validation_complete"),
     ("outcome", .text (if approved then "approved" else "rejected")),
     ("failed_at_check", (failedAt.map fun stage => Json.text stage.word).getD .null)]
  | .overrideUsed transaction user merchant amount =>
    [("audit", .text "emergency_override"), ("transaction_id", .text transaction),
     ("user_id", .text user), ("merchant_id", merchant), ("amount", .text amount.toText)]
  | .recordLost transaction => [("transaction_id", .text transaction)]
  | .eventLost user kind => [("user_id", .text user), ("kind", .text kind.word)]

/-- The name that the service writes into its journal. -/
def service : String := "spendguard"

/-- An entry as a document. -/
def toDocument (entry : LogEntry) : Json :=
  .object
    (("level", .text entry.level) :: ("message", .text entry.message) ::
      ("service", .text service) :: entry.fields)

end LogEntry

/-- What became of a judged payment. -/
inductive PaymentOutcome
  | approved | rejected | emergency
  deriving DecidableEq, Repr

def PaymentOutcome.word : PaymentOutcome → String
  | .approved => "approved"
  | .rejected => "rejected"
  | .emergency => "emergency"

/-- What is counted. -/
inductive Tally
  | validation (outcome : PaymentOutcome)
  | rejection (stage : Stage)
  | override
  | latency
  | release
  | clawback (reason : ClawbackReason)
  | event (kind : EventKind)
  | lostEvent
  deriving DecidableEq, Repr

/-- The name of a counter, with its label in braces. -/
def Tally.name : Tally → String
  | .validation outcome => "spendguard_validation_total\x7b" ++ outcome.word ++ "\x7d"
  | .rejection stage => "spendguard_rejection_total\x7b" ++ stage.word ++ "\x7d"
  | .override => "spendguard_emergency_override_total"
  | .latency => "spendguard_validation_latency_seconds_count"
  | .release => "spendguard_milestone_release_total"
  | .clawback reason => "spendguard_clawback_total\x7b" ++ reason.word ++ "\x7d"
  | .event kind => "spendguard_reputation_event_total\x7b" ++ kind.word ++ "\x7d"
  | .lostEvent => "spendguard_reputation_write_failures_total"

/-- Which writes fail: those of events and records by their number, all those of new intents. -/
structure Outage where
  events : Nat → Bool := fun _ => false
  records : Nat → Bool := fun _ => false
  intents : Bool := false

structure World (b : Backend) where
  store : Store b := {}
  ids : Ids := {}
  /-- The entries of the journal, the latest first. -/
  journal : List LogEntry := []
  /-- Everything counted, the latest first. -/
  tallies : List Tally := []
  outage : Outage := {}
  /-- How many events and records there were to write so far. -/
  eventWrites : Nat := 0
  recordWrites : Nat := 0

/-- How often something was counted. -/
def World.count {b : Backend} (w : World b) (tally : Tally) : Nat := w.tallies.count tally

/-- An operation on a world, which keeps what was done before it failed. -/
abbrev Service (b : Backend) (α : Type) := ExceptT Failure (StateM (World b)) α

namespace Service

variable {b : Backend} {α β : Type}

/-- The result of a computation that does not touch the world. -/
def check (result : Except Failure α) : Service b α := ExceptT.mk (pure result)

/-- Runs an operation from a world. -/
def runFrom (w : World b) (op : Service b α) : Except Failure α × World b := (ExceptT.run op).run w

def modifyStore (f : Store b → Store b) : Service b Unit :=
  modify fun w => { w with store := f w.store }

def note (entry : LogEntry) : Service b Unit :=
  modify fun w => { w with journal := entry :: w.journal }

def tally (t : Tally) : Service b Unit := modify fun w => { w with tallies := t :: w.tallies }

/-- Takes back what a failed operation wrote, where the backend does so. No operation catches a
failure within such a block, so an inner block may take back at once what the outermost would. -/
def atomically (op : Service b α) : Service b α :=
  ExceptT.mk fun w =>
    match op.runFrom w with
    | (.error failure, after) =>
      (.error failure, if b.rollsBack then { after with store := w.store } else after)
    | done => done

/-- Runs an operation for its effect; its failure is the result. -/
def attempt (op : Service b α) : Service b (Except Failure α) :=
  ExceptT.mk fun w => let (result, after) := op.runFrom w; (.ok result, after)

@[simp] theorem runFrom_pure (w : World b) (a : α) :
    (pure a : Service b α).runFrom w = (.ok a, w) := rfl

@[simp] theorem runFrom_throw (w : World b) (failure : Failure) :
    (throw failure : Service b α).runFrom w = (.error failure, w) := rfl

theorem runFrom_bind (w : World b) (op : Service b α) (next : α → Service b β) :
    (op >>= next).runFrom w =
      match op.runFrom w with
      | (.ok a, after) => (next a).runFrom after
      | (.error failure, after) => (.error failure, after) := by
  unfold runFrom ExceptT.run StateT.run
  simp only [bind, ExceptT.bind, ExceptT.mk, StateT.bind, ExceptT.bindCont]
  cases op w with
  | mk result after => cases result <;> rfl

@[simp] theorem runFrom_get (w : World b) :
    (get : Service b (World b)).runFrom w = (.ok w, w) := rfl

@[simp] theorem runFrom_modify (w : World b) (f : World b → World b) :
    (modify f : Service b Unit).runFrom w = (.ok (), f w) := rfl

@[simp] theorem runFrom_check (w : World b) (result : Except Failure α) :
    (check result : Service b α).runFrom w = (result, w) := rfl

@[simp] theorem runFrom_attempt (w : World b) (op : Service b α) :
    op.attempt.runFrom w = (.ok (op.runFrom w).1, (op.runFrom w).2) := rfl

end Service

/-- How a service is set up. -/
structure Config where
  directory : Directory
  strategy : Strategy := .soonestExpiring
  thresholds : RiskThresholds := {}
  rates : Escrow.Rates := {}
  expiryDays : Int := 30
  /-- The score of a user without events. -/
  baseline : Int := 500
  /-- Whether the making of intents and the fate of escrows count for reputation. -/
  rewards : Bool := true

end Earmark
