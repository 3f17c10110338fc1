import Earmark.Verdict.Basic

/-!
The log of payments: one record for each attempt.
-/

namespace Earmark

structure TransactionRecord where
  id : String
  user : String
  merchantId : Json
  amount : Decimal
  approved : Bool
  createdAt : Time
  intentId : Option String
  failedAt : Option Stage
  reason : Option String
  reference : Option String
  riskLevel : Option RiskLevel
  bypass : Bool
  category : Option String
  deriving Repr

/-- The record of a verdict. -/
def TransactionRecord.ofVerdict (id user : String) (m : Merchant) (intentId : Option String)
    (now : Time) (amount : Decimal) (v : Verdict) : TransactionRecord :=
  { id, user, merchantId := m.id, amount, approved := v.approved, createdAt := now, intentId
    failedAt := v.failedAt, reason := v.reason, reference := v.reference
    riskLevel := v.risk.map (·.level), bypass := v.bypass, category := some m.category.word }

end Earmark
