import Earmark.Merchant.Basic

/-!
Advice on the risk of a payment. It never decides anything.
-/

namespace Earmark

structure RiskAssessment where
  level : RiskLevel
  factors : List String
  score : Binary64
  deriving DecidableEq, Repr

/-- Above which score a merchant is risky, and above which amount a payment is. -/
structure RiskThresholds where
  score : Binary64 := .ofScientific false 3 (-1)
  highValue : Decimal := .ofNat 10000
  deriving Repr, Inhabited

namespace RiskAssessment

/-- The level: high for a risky or mixed merchant, else medium for an uncertified one or a high
amount. -/
def levelOf (risky mixed uncertified highValue : Bool) : RiskLevel :=
  if risky || mixed then .high else if uncertified || highValue then .medium else .low

def assess (thresholds : RiskThresholds) (m : Merchant) (amount : Decimal) :
    Except Failure RiskAssessment := do
  let risky := thresholds.score.lt m.riskScore
  let highValue ← Failure.ofDecimal (amount.gt? thresholds.highValue)
  .ok
    { level := levelOf risky m.isMixed (!m.certified) highValue
      factors :=
        (if risky then ["High merchant risk score"] else []) ++
        (if m.isMixed then ["Mixed-category merchant - potential spoofing risk"] else []) ++
        (if m.certified then [] else ["Merchant is not network-certified"]) ++
        (if highValue then ["High-value transaction - enhanced monitoring"] else [])
      score := m.riskScore }

end RiskAssessment

end Earmark
