/-!
The closed vocabularies of intents, escrows, checks, risk and reputation, each with its written
words.
-/

namespace Earmark

inductive IntentStatus
  | active | exhausted | expired | cancelled
  deriving DecidableEq, Repr, Inhabited

def IntentStatus.word : IntentStatus → String
  | .active => "active"
  | .exhausted => "exhausted"
  | .expired => "expired"
  | .cancelled => "cancelled"

def IntentStatus.all : List IntentStatus := [.active, .exhausted, .expired, .cancelled]

def IntentStatus.ofWord? (s : String) : Option IntentStatus := all.find? (·.word == s)

inductive EscrowStatus
  | locked | partiallyReleased | released | clawback
  deriving DecidableEq, Repr, Inhabited

def EscrowStatus.word : EscrowStatus → String
  | .locked => "locked"
  | .partiallyReleased => "partially_released"
  | .released => "released"
  | .clawback => "clawback"

inductive MilestoneStatus
  | pending | completed
  deriving DecidableEq, Repr, Inhabited

def MilestoneStatus.word : MilestoneStatus → String
  | .pending => "pending"
  | .completed => "completed"

def MilestoneStatus.all : List MilestoneStatus := [.pending, .completed]

def MilestoneStatus.ofWord? (s : String) : Option MilestoneStatus := all.find? (·.word == s)

/-- What a merchant sells; `mixed` is retail that nobody has classified. -/
inductive Category
  | books | food | grocery | electronics | medical | education | travel | entertainment | general
  | mixed
  deriving DecidableEq, Repr, Inhabited

def Category.word : Category → String
  | .books => "books"
  | .food => "food"
  | .grocery => "grocery"
  | .electronics => "electronics"
  | .medical => "medical"
  | .education => "education"
  | .travel => "travel"
  | .entertainment => "entertainment"
  | .general => "general"
  | .mixed => "mixed"

def Category.all : List Category :=
  [.books, .food, .grocery, .electronics, .medical, .education, .travel, .entertainment, .general,
   .mixed]

def Category.ofWord? (s : String) : Option Category := all.find? (·.word == s)

/-- The stages of the pipeline. -/
inductive Stage
  | emergencyOverride | intentStatus | amountCap | timeWindow | geoFence | merchantCategory
  | merchantTier | proofRequirement
  deriving DecidableEq, Repr, Inhabited

def Stage.word : Stage → String
  | .emergencyOverride => "emergency_override"
  | .intentStatus => "intent_status"
  | .amountCap => "amount_cap"
  | .timeWindow => "time_window"
  | .geoFence => "geo_fence"
  | .merchantCategory => "merchant_category"
  | .merchantTier => "merchant_tier"
  | .proofRequirement => "proof_requirement"

/-- The stages in the order in which they are evaluated. -/
def Stage.order : List Stage :=
  [.emergencyOverride, .intentStatus, .amountCap, .timeWindow, .geoFence, .merchantCategory,
   .merchantTier, .proofRequirement]

def Stage.ofWord? (s : String) : Option Stage := order.find? (·.word == s)

inductive CheckStatus
  | passed | failed | notEvaluated
  deriving DecidableEq, Repr, Inhabited

def CheckStatus.word : CheckStatus → String
  | .passed => "passed"
  | .failed => "failed"
  | .notEvaluated => "not_evaluated"

inductive RiskLevel
  | low | medium | high
  deriving DecidableEq, Repr, Inhabited

def RiskLevel.word : RiskLevel → String
  | .low => "low"
  | .medium => "medium"
  | .high => "high"

def RiskLevel.all : List RiskLevel := [.low, .medium, .high]

def RiskLevel.ofWord? (s : String) : Option RiskLevel := all.find? (·.word == s)

/-- What an entry of the reputation log is about. -/
inductive EventKind
  | intentCompliance | intentViolationAttempt | escrowReleased | escrowClawbackMisuse
  | proofSubmitted | emergencyOverride | intentCreated | savingsMilestone
  deriving DecidableEq, Repr, Inhabited

def EventKind.word : EventKind → String
  | .intentCompliance => "intent_compliance"
  | .intentViolationAttempt => "intent_violation_attempt"
  | .escrowReleased => "escrow_released"
  | .escrowClawbackMisuse => "escrow_clawback_misuse"
  | .proofSubmitted => "proof_submitted"
  | .emergencyOverride => "emergency_override"
  | .intentCreated => "intent_created"
  | .savingsMilestone => "savings_milestone"

def EventKind.all : List EventKind :=
  [.intentCompliance, .intentViolationAttempt, .escrowReleased, .escrowClawbackMisuse,
   .proofSubmitted, .emergencyOverride, .intentCreated, .savingsMilestone]

def EventKind.ofWord? (s : String) : Option EventKind := all.find? (·.word == s)

inductive ClawbackReason
  | unused | misuse | expired
  deriving DecidableEq, Repr, Inhabited

def ClawbackReason.word : ClawbackReason → String
  | .unused => "unused"
  | .misuse => "misuse"
  | .expired => "expired"

def ClawbackReason.all : List ClawbackReason := [.unused, .misuse, .expired]

def ClawbackReason.ofWord? (s : String) : Option ClawbackReason := all.find? (·.word == s)

theorem IntentStatus.ofWord?_word (s : IntentStatus) : ofWord? s.word = some s := by
  cases s <;> decide

theorem MilestoneStatus.ofWord?_word (s : MilestoneStatus) : ofWord? s.word = some s := by
  cases s <;> decide

theorem Category.ofWord?_word (c : Category) : ofWord? c.word = some c := by
  cases c <;> decide

theorem Stage.ofWord?_word (s : Stage) : ofWord? s.word = some s := by
  cases s <;> decide

theorem RiskLevel.ofWord?_word (l : RiskLevel) : ofWord? l.word = some l := by
  cases l <;> decide

theorem EventKind.ofWord?_word (k : EventKind) : ofWord? k.word = some k := by
  cases k <;> decide

theorem ClawbackReason.ofWord?_word (r : ClawbackReason) : ofWord? r.word = some r := by
  cases r <;> decide

end Earmark
