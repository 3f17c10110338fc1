import Earmark.Reference
import Earmark.Verdict.Checks

/-!
Judging a payment: the stages run in order, the first that fails decides, and those behind it are
not evaluated. An emergency override approves without running any.
-/

namespace Earmark

namespace Check

def ofFinding (stage : Stage) : Finding → Check
  | .pass remark => .passed stage remark
  | .fail reason => .failed stage reason

/-- The checks of some stages, up to and with the first that fails. -/
def run (finding : Stage → Except Failure Finding) : List Stage → Except Failure (List Check)
  | [] => .ok []
  | stage :: rest => do
    match ← finding stage with
    | .pass remark => (passed stage remark :: ·) <$> run finding rest
    | .fail reason => .ok (failed stage reason :: rest.map notEvaluated)

/-- The stages of a payment without an intent, which fails at the first that needs one. -/
def withoutIntent : Stage → Except Failure Finding
  | .emergencyOverride => .ok (.pass (some "No emergency override requested"))
  | _ => .ok (.fail Finding.noIntent)

/-- The check that failed. -/
def firstFailed? (checks : List Check) : Option Check :=
  checks.find? fun check => check.status == .failed

end Check

/-- The id of a merchant in the names that references are made of, which must have an encoding. -/
def Merchant.encodedId (m : Merchant) : Except Failure String :=
  match m.id with
  | .unpaired _ => .error .unencodable
  | id => .ok id.shown

namespace Verdict

/-- The verdict of an emergency override. -/
def override (thresholds : RiskThresholds) (intent : Option Intent) (m : Merchant)
    (amount : Decimal) (context : Context) : Except Failure Verdict := do
  let risk ← RiskAssessment.assess thresholds m amount
  let merchant ← m.encodedId
  .ok
    { approved := true
      checks :=
        .passed .emergencyOverride (some "Bypassed all rules due to emergency override") ::
          Stage.order.tail.map .notEvaluated
      merchantId := m.id
      amount
      intentId := intent.map (·.id)
      failedAt := none
      reason := none
      reference := some (Reference.emergency context.transactionId merchant amount.toText)
      risk := some { risk with factors := risk.factors ++ ["Emergency override used"] }
      bypass := true
      escalate := false }

/-- The verdict that a list of checks amounts to. -/
def ofChecks (thresholds : RiskThresholds) (intent : Option Intent) (m : Merchant)
    (amount : Decimal) (context : Context) (checks : List Check) : Except Failure Verdict :=
  match Check.firstFailed? checks with
  | some failed => .ok
      { approved := false
        checks
        merchantId := m.id
        amount
        intentId := intent.map (·.id)
        failedAt := some failed.stage
        reason := failed.detail
        reference := none
        risk := none
        bypass := false
        escalate := failed.stage == .merchantCategory && m.isMixed }
  | none => do
    let merchant ← m.encodedId
    let risk ← RiskAssessment.assess thresholds m amount
    .ok
      { approved := true
        checks
        merchantId := m.id
        amount
        intentId := intent.map (·.id)
        failedAt := none
        reason := none
        reference := some (Reference.payment context.transactionId merchant amount.toText)
        risk := some risk
        bypass := false
        escalate := false }

/-- Judges an amount that is already brought to the cent. -/
def judge (thresholds : RiskThresholds) (intent : Option Intent) (m : Merchant) (amount : Decimal)
    (context : Context) : Except Failure Verdict := do
  if context.emergency then override thresholds intent m amount context
  else
    let finding := match intent with
      | none => Check.withoutIntent
      | some i => Finding.ofStage i m amount context
    ofChecks thresholds intent m amount context (← Check.run finding Stage.order)

/-- Judges a payment. -/
def validate (thresholds : RiskThresholds) (intent : Option Intent) (m : Merchant)
    (amount : Numeral) (context : Context) : Except Failure Verdict := do
  judge thresholds intent m (← amount.toAmount) context

end Verdict

end Earmark
