import Earmark.Failure
import Earmark.Time

/-!
Reputation: each event moves a user's score by the amount fixed for its kind, within 0 and 1000, and
the score decides the credit the user is eligible for.
-/

namespace Earmark

structure ReputationEvent where
  id : String
  user : String
  kind : EventKind
  delta : Int
  description : String
  time : Time
  scoreAfter : Int
  deriving DecidableEq, Repr

structure CreditTier where
  eligibility : String
  label : String
  creditLine : Decimal
  rate : Option Binary64
  deriving DecidableEq, Repr

/-- A user's reputation at a time. -/
structure ReputationSnapshot where
  user : String
  score : Int
  tier : CreditTier
  level : String
  compliant : Nat
  violations : Nat
  total : Nat
  complianceRate : Binary64
  /-- The latest events, newest first. -/
  recent : List ReputationEvent
  deriving Repr

/-- A share as a percentage with one decimal; of nothing it is the whole. -/
def percentage (part whole : Nat) : Binary64 :=
  if whole = 0 then .ofNat 100
  else (((Binary64.ofNat part).div (.ofNat whole)).mul (.ofNat 100)).roundPlaces 1

namespace Reputation

def maxScore : Int := 1000

def clamp (score : Int) : Int := max 0 (min maxScore score)

/-- What an event of a kind is worth. -/
def delta : EventKind → Int
  | .intentCompliance => 10
  | .intentViolationAttempt => -15
  | .escrowReleased => 20
  | .escrowClawbackMisuse => -30
  | .proofSubmitted => 5
  | .emergencyOverride => -5
  | .intentCreated => 2
  | .savingsMilestone => 15

/-- An event that follows a score. -/
def event (id user : String) (kind : EventKind) (description : String) (prior : Int) (now : Time) :
    ReputationEvent :=
  { id, user, kind, delta := delta kind, description, time := now
    scoreAfter := clamp (prior + delta kind) }

def tier (score : Int) : CreditTier :=
  if 800 ≤ score then ⟨"high", "premium", .ofNat 100000, some (.ofScientific false 85 (-1))⟩
  else if 600 ≤ score then ⟨"medium", "standard", .ofNat 25000, some (.ofNat 12)⟩
  else if 400 ≤ score then ⟨"low", "basic", .ofNat 5000, some (.ofNat 18)⟩
  else ⟨"none", "restricted", .ofNat 0, none⟩

def level (score : Int) : String :=
  if 800 ≤ score then "Excellent"
  else if 600 ≤ score then "Good"
  else if 400 ≤ score then "Fair"
  else "Poor"

/-- How many of the latest events a snapshot shows. -/
def recentCount : Nat := 10

/-- The snapshot of a score and the events behind it, oldest first. -/
def snapshot (user : String) (score : Int) (events : List ReputationEvent) : ReputationSnapshot :=
  let compliant := events.countP (·.kind == .intentCompliance)
  let violations := events.countP (·.kind == .intentViolationAttempt)
  { user, score, tier := tier score, level := level score, compliant, violations
    total := compliant + violations, complianceRate := percentage compliant (compliant + violations)
    recent := events.reverse.take recentCount }

end Reputation

end Earmark
