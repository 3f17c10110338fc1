import Earmark.Intent.Basic
import Earmark.Risk

/-!
What a payment is judged by, and the verdict on it.
-/

namespace Earmark

/-- What is known of a payment besides its amount and merchant. -/
structure Context where
  proof : Bool := false
  emergency : Bool := false
  /-- A mark of the caller's, which decides nothing. -/
  requestId : String := ""
  requestedAt : Time
  transactionId : String
  deriving Repr

/-- The result of one stage. -/
structure Check where
  stage : Stage
  status : CheckStatus
  detail : Option String
  deriving DecidableEq, Repr

namespace Check

def passed (stage : Stage) (detail : Option String := none) : Check := ⟨stage, .passed, detail⟩

def failed (stage : Stage) (reason : String) : Check := ⟨stage, .failed, some reason⟩

def notEvaluated (stage : Stage) : Check := ⟨stage, .notEvaluated, none⟩

/-- Whether the stage passed, if it was evaluated. -/
def isPassed? (check : Check) : Option Bool :=
  match check.status with
  | .passed => some true
  | .failed => some false
  | .notEvaluated => none

end Check

structure Verdict where
  approved : Bool
  checks : List Check
  merchantId : Json
  amount : Decimal
  intentId : Option String
  failedAt : Option Stage
  reason : Option String
  reference : Option String
  risk : Option RiskAssessment
  /-- The payment was approved by the emergency override alone. -/
  bypass : Bool
  /-- A stronger verification is needed. -/
  escalate : Bool
  deriving Repr

def Verdict.forwarded (v : Verdict) : Bool := v.approved && v.reference.isSome

end Earmark
