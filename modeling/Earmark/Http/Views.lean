import Earmark.Service.Escrows

/-!
What responses show: documents of wallets, intents, payments, escrows, reputation and summaries.
Times are shown in universal time, amounts as text.
-/

namespace Earmark.Http.View

def amount (d : Decimal) : Json := .text d.toText

def time (t : Time) : Json := .text t.toZulu

def orNull {α : Type} (show? : α → Json) (a : Option α) : Json := (a.map show?).getD .null

def name (s : Option String) : Json := orNull .text s

def names (words : List String) : Json := .array (words.map .text)

/-- A reason why a request was not carried out. -/
def detail (reason : String) : Json := .object [("detail", .text reason)]

def wallet (user : String) (available locked : Decimal) : Json :=
  .object
    [("user_id", .text user), ("available_balance", amount available),
     ("locked_balance", amount locked)]

/-- A restriction to a place; its radius is shown as a floating-point number. -/
def geo (g : GeoRestriction) : Except Failure Json := do
  let radius ← g.radius.mapM Measure.toFloat
  .ok (.object
    [("city", name g.city), ("region", name g.region), ("radius_km", orNull .float radius)])

def intent (i : Intent) : Except Failure Json := do
  let place ← i.policy.geo.mapM geo
  .ok (.object
    [("intent_id", .text i.id), ("user_id", .text i.user), ("source_text", .text i.text),
     ("status", .text i.status.word), ("amount_limit", amount i.limit),
     ("amount_used", amount i.used), ("amount_remaining", amount (← i.remaining)),
     ("violation_count", .int i.violations), ("approved_count", .int i.approvals),
     ("enforcement_tier", .int i.policy.tier), ("proof_required", .bool i.policy.proofRequired),
     ("allowed_categories", names i.policy.categories),
     ("allowed_merchant_codes", names i.policy.codes), ("geo_restriction", place.getD .null),
     ("created_at", time i.createdAt), ("expires_at", time i.expiresAt)])

def intents (user : String) (all : List Intent) : Except Failure Json := do
  .ok (.object [("user_id", .text user), ("intents", .array (← all.mapM intent))])

def cancellation (i : Intent) (released : Decimal) : Json :=
  .object
    [("intent_id", .text i.id), ("status", .text i.status.word),
     ("released_amount", amount released)]

def check (c : Check) : Json :=
  .object
    [("name", .text c.stage.word), ("status", .text c.status.word),
     ("passed", orNull .bool c.isPassed?), ("detail", name c.detail)]

def risk (r : RiskAssessment) : Json :=
  .object
    [("level", .text r.level.word), ("factors", names r.factors),
     ("merchant_risk_score", .float r.score)]

def payment (p : PaymentResult) : Except Failure Json := do
  let intentView ← p.intent.mapM intent
  .ok (.object
    [("transaction_id", .text p.record.id), ("approved", .bool p.verdict.approved),
     ("forwarded_to_settlement", .bool p.verdict.forwarded),
     ("failed_at_check", name (p.verdict.failedAt.map Stage.word)),
     ("violation_reason", name p.verdict.reason),
     ("settlement_reference", name p.verdict.reference),
     ("emergency_bypass", .bool p.verdict.bypass),
     ("requires_escalation", .bool p.verdict.escalate),
     ("checks", .array (p.verdict.checks.map check)),
     ("risk_assessment", orNull risk p.verdict.risk), ("intent", intentView.getD .null)])

def record (r : TransactionRecord) : Json :=
  .object
    [("transaction_id", .text r.id), ("intent_id", name r.intentId),
     ("merchant_id", r.merchantId), ("merchant_category", name r.category),
     ("amount", amount r.amount), ("approved", .bool r.approved),
     ("failed_at_check", name (r.failedAt.map Stage.word)), ("violation_reason", name r.reason),
     ("settlement_reference", name r.reference),
     ("risk_level", name (r.riskLevel.map RiskLevel.word)), ("emergency_bypass", .bool r.bypass),
     ("created_at", time r.createdAt)]

def history (user : String) (records : List TransactionRecord) : Json :=
  .object [("user_id", .text user), ("transactions", .array (records.map record))]

def milestone (m : Milestone) : Json :=
  .object
    [("milestone_id", .text m.id), ("description", .text m.description),
     ("amount", amount m.amount), ("required_proof_kind", name m.proofKind),
     ("status", .text m.status.word), ("completed_at", orNull time m.completedAt),
     ("settled_merchant_id", name m.merchantId)]

def clawback (r : ClawbackReceipt) : Except Failure Json := do
  .ok (.object
    [("escrow_id", .text r.escrowId), ("reason", .text r.reason.word),
     ("clawback_amount", amount r.amount), ("penalty_amount", amount r.penalty),
     ("net_returned", amount r.netReturned), ("savings_allocation", amount r.savings),
     ("returned_to_spendable", amount (← r.toSpendable)),
     ("unrecovered_amount", amount r.unrecovered), ("clawed_back_at", time r.time)])

def escrow (e : Escrow) : Except Failure Json := do
  let receipt ← e.clawback.mapM clawback
  .ok (.object
    [("escrow_id", .text e.id), ("user_id", .text e.user), ("intent_id", name e.intentId),
     ("title", .text e.title), ("status", .text (← e.status).word),
     ("total_amount", amount (← e.total)), ("released_amount", amount (← e.released)),
     ("pending_amount", amount (← e.pending)), ("milestones", .array (e.milestones.map milestone)),
     ("clawback", receipt.getD .null), ("created_at", time e.createdAt),
     ("expires_at", time e.expiresAt)])

def escrows (user : String) (all : List Escrow) : Except Failure Json := do
  .ok (.object [("user_id", .text user), ("escrows", .array (← all.mapM escrow))])

def release (r : ReleaseReceipt) : Json :=
  .object
    [("escrow_id", .text r.escrowId), ("milestone_id", .text r.milestoneId),
     ("amount_released", amount r.amount), ("total_released", amount r.totalReleased),
     ("pending_amount", amount r.pending), ("escrow_status", .text r.status.word),
     ("settlement_reference", .text r.reference), ("released_at", time r.time)]

def event (e : ReputationEvent) : Json :=
  .object
    [("event_id", .text e.id), ("user_id", .text e.user), ("kind", .text e.kind.word),
     ("delta", .int e.delta), ("description", .text e.description), ("timestamp", time e.time),
     ("score_after", .int e.scoreAfter)]

def tier (t : CreditTier) : Json :=
  .object
    [("eligibility", .text t.eligibility), ("label", .text t.label),
     ("max_credit_line", amount t.creditLine), ("interest_rate", orNull .float t.rate)]

def reputation (s : ReputationSnapshot) : Json :=
  .object
    [("user_id", .text s.user), ("score", .int s.score), ("level_label", .text s.level),
     ("credit_tier", tier s.tier), ("compliant_count", .int s.compliant),
     ("violation_count", .int s.violations), ("total_transactions", .int s.total),
     ("compliance_rate", .float s.complianceRate), ("recent_events", .array (s.recent.map event))]

def summary (s : SpendingSummary) : Json :=
  .object
    [("user_id", .text s.user), ("total_transactions", .int s.total),
     ("approved_transactions", .int s.approved), ("rejected_transactions", .int s.rejected),
     ("compliance_rate", .float s.complianceRate), ("total_spent", amount s.spent),
     ("total_blocked", amount s.blocked),
     ("category_spend", .object (s.categorySpend.map fun (word, d) => (word, amount d))),
     ("active_intents", .int s.activeIntents), ("locked_in_intents", amount s.lockedInIntents),
     ("active_escrows", .int s.openEscrows), ("pending_in_escrows", amount s.pendingInEscrows)]

end Earmark.Http.View
