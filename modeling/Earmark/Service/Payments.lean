import Earmark.Service.Intents
import Earmark.Verdict.Pipeline

/-!
Payments. A payment is resolved to an intent, judged and committed in one change of that intent,
logged, counted and followed by events of reputation; each of these is a step of its own, between
which other operations may run.
-/

namespace Earmark

structure PaymentRequest where
  user : String
  merchant : String
  amount : Numeral
  intentId : Option String := none
  proof : Bool := false
  emergency : Bool := false
  requestId : String := ""
  requestedAt : Time
  deriving Repr

/-- A payment under way. -/
structure Payment where
  id : String
  user : String
  merchant : Merchant
  amount : Decimal
  /-- The intent that the payer names. -/
  named : Option String
  context : Context
  deriving Repr

/-- What became of a payment. -/
structure PaymentResult where
  record : TransactionRecord
  verdict : Verdict
  intent : Option Intent

namespace Service

variable {b : Backend}

/-- Takes an id, then checks the amount, then finds the merchant. -/
def beginPayment (config : Config) (r : PaymentRequest) : Service b Payment := do
  let number := (← get).ids.transactions + 1
  modify fun w => { w with ids := { w.ids with transactions := number } }
  let id := Ids.transaction number
  let amount ← check r.amount.toAmount
  let merchant ← check (config.directory r.merchant)
  let context : Context :=
    { proof := r.proof, emergency := r.emergency, requestId := r.requestId
      requestedAt := r.requestedAt, transactionId := id }
  return { id, user := r.user, merchant, amount, named := r.intentId, context }

/-- The intent a payment goes to: the named one, which must be the payer's, or the one chosen. An
emergency without a name goes to none. -/
def resolvePayment (config : Config) (p : Payment) : Service b (Option String) := do
  match p.named with
  | some id =>
    match ← findIntent? id with
    | some i =>
      if i.user = p.user then return some i.id else throw (.intentNotFound id (.forUser p.user))
    | none => throw (.intentNotFound id (.forUser p.user))
  | none =>
    if p.context.emergency then return none
    else
      let intents ← listIntents p.user
      let chosen ← check (config.strategy.choose intents (.decimal p.amount) p.context.requestedAt)
      return chosen.map (·.id)

def judgePayment (config : Config) (p : Payment) (intent : Option Intent) : Service b Verdict :=
  check (Verdict.validate config.thresholds intent p.merchant (.decimal p.amount) p.context)

/-- Judges a payment against an intent as it is now and changes the intent accordingly. -/
def settlePayment (config : Config) (p : Payment) (i : Intent) :
    Service b ((Verdict × Intent) × Intent) := do
  let verdict ← judgePayment config p (some i)
  if verdict.bypass then return ((verdict, i), i)
  else if verdict.approved then
    let spent ← check (i.spend (.decimal p.amount))
    return ((verdict, spent), spent)
  else
    let (rest, after) ← check (i.recordViolation.expire p.context.requestedAt)
    releaseRest i rest
    return ((verdict, after), after)

/-- Judges and commits in one change of the intent. -/
def commitPayment (config : Config) (p : Payment) (intentId : Option String) :
    Service b (Verdict × Option Intent) := do
  match intentId with
  | none => return (← judgePayment config p none, none)
  | some id =>
    let (verdict, intent) ← updateIntent id (settlePayment config p)
    return (verdict, some intent)

/-- Adds a record to the log of payments. -/
def addRecord (record : TransactionRecord) : Service b Unit := do
  let attempt := (← get).recordWrites
  modify fun w => { w with recordWrites := attempt + 1 }
  if (← get).outage.records attempt then throw (.storeDown "transaction_add")
  else
    let row ← check (b.records.write record)
    modifyStore fun s => { s with records := s.records ++ [row] }

/-- Logs a payment; a write that fails is noted. -/
def logPayment (record : TransactionRecord) : Service b Unit := do
  match ← attempt (addRecord record) with
  | .ok () => return
  | .error _ => note (.recordLost record.id)

def outcomeOf (v : Verdict) : PaymentOutcome :=
  if v.bypass then .emergency else if v.approved then .approved else .rejected

/-- Counts a verdict and notes it. -/
def countPayment (p : Payment) (intentId : Option String) (v : Verdict) : Service b Unit := do
  if v.bypass then tally .override
  tally (.validation (outcomeOf v))
  if let some stage := v.failedAt then tally (.rejection stage)
  tally .latency
  note (.validated p.id p.user intentId p.merchant.id v.approved v.failedAt)

/-- The events that a verdict brings. -/
def rewardPayment (config : Config) (now : Time) (p : Payment) (v : Verdict) : Service b Unit := do
  let name := p.merchant.name.shown
  if v.bypass then
    note (.overrideUsed p.id p.user p.merchant.id p.amount)
    follow config now p.user .emergencyOverride ("Emergency override at " ++ name)
  else if v.approved then
    follow config now p.user .intentCompliance
      ("Compliant transaction of " ++ p.amount.toText ++ " at " ++ name)
    if p.context.proof then
      follow config now p.user .proofSubmitted ("Proof submitted for payment at " ++ name)
  else
    follow config now p.user .intentViolationAttempt
      ("Blocked transaction at " ++ name ++ ": " ++ shorten 80 (v.reason.getD ""))

/-- Carries a payment through all steps. -/
def pay (config : Config) (now : Time) (r : PaymentRequest) : Service b PaymentResult := do
  let p ← beginPayment config r
  let intentId ← resolvePayment config p
  let (verdict, intent) ← commitPayment config p intentId
  let record := TransactionRecord.ofVerdict p.id p.user p.merchant intentId now p.amount verdict
  logPayment record
  countPayment p intentId verdict
  rewardPayment config now p verdict
  return { record, verdict, intent }

/-- A user's records, the latest first. -/
def history (user : String) (limit : Option Int) : Service b (List TransactionRecord) := do
  let records ← check (b.records.ofUser user (← get).store.records)
  check (b.latest records limit)

end Service

end Earmark
