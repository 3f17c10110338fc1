import Earmark.Escrow.Basic
import Earmark.Record
import Earmark.Reputation

/-!
A user's payments and open commitments in figures.
-/

namespace Earmark

structure SpendingSummary where
  user : String
  total : Nat
  approved : Nat
  rejected : Nat
  complianceRate : Binary64
  spent : Decimal
  /-- What rejected payments would have cost. -/
  blocked : Decimal
  /-- What was spent in each category, in the order of the names. -/
  categorySpend : List (String × Decimal)
  activeIntents : Nat
  lockedInIntents : Decimal
  openEscrows : Nat
  pendingInEscrows : Decimal
  deriving Repr

namespace SpendingSummary

/-- The category a payment counts under. -/
def categoryOf (record : TransactionRecord) : String :=
  match record.category with
  | some name => if name = "" then "unknown" else name
  | none => "unknown"

/-- The total of the payments in a category. -/
def spentIn (records : List TransactionRecord) (category : String) : Except Failure Decimal :=
  Failure.ofDecimal
    (Decimal.sum ((records.filter (categoryOf · == category)).map (·.amount)))

def of (user : String) (records : List TransactionRecord) (intents : List Intent)
    (escrows : List Escrow) : Except Failure SpendingSummary := do
  let approved := records.filter (·.approved)
  let rejected := records.filter (!·.approved)
  let categorySpend ← (sortedSet (approved.map categoryOf)).mapM fun category => do
    .ok (category, ← spentIn approved category)
  let spent ← Failure.ofDecimal (Decimal.sum (approved.map (·.amount)))
  let blocked ← Failure.ofDecimal (Decimal.sum (rejected.map (·.amount)))
  let active := intents.filter (·.isActive)
  let lockedInIntents ← Failure.ofDecimal (Decimal.sum (← active.mapM Intent.remaining))
  let openEscrows ← escrows.filterM Escrow.isOpen
  let pendingInEscrows ← Failure.ofDecimal (Decimal.sum (← openEscrows.mapM Escrow.pending))
  .ok
    { user, total := records.length, approved := approved.length, rejected := rejected.length
      complianceRate := percentage approved.length records.length, spent, blocked, categorySpend
      activeIntents := active.length, lockedInIntents, openEscrows := openEscrows.length
      pendingInEscrows }

end SpendingSummary

end Earmark
