import Earmark.Store.Backend
import Earmark.Store.Rejection

/-!
Records as rows of a relational database.

A money column keeps a floating-point number and gives it back with two places; a time column keeps
the wall clock alone, which counts as universal time when it is read; a column of whole numbers has
64 bits; documents and texts are given back as they were written.
-/

namespace Earmark

open scoped Earmark.Whole

namespace Column

/-- What a money column keeps. -/
def ofMoney (d : Decimal) : Binary64 := Binary64.ofDecimal d

/-- What is written to a money column; a not-a-number that signals cannot be. -/
def writeMoney (d : Decimal) : Except Failure Binary64 :=
  if d.isSignalling then .error .unwritable else .ok (ofMoney d)

/-- What a money column gives back. -/
def toMoney : Binary64 → Decimal
  | .finite neg m e =>
    let (n, d) := Binary64.scale m 1 e
    .finite (neg && m != 0) (roundQuotient .toEven (n * 100) d) (-2)
  | .infinity neg => .infinity neg
  | .nan => .nan false false 0

/-- What a column of whole numbers keeps: 64 bits with a sign, or nothing. -/
def ofWhole (n : Int) : Except Failure Int :=
  if -2 ^ (63 : Nat) ≤ n ∧ n < 2 ^ (63 : Nat) then .ok n else .error .outOfRange

/-- What a time column keeps. -/
def ofTime (t : Time) : Int := t.micros

/-- What a time column gives back. -/
def toTime (micros : Int) : Time := { micros, offset := some 0 }

/-- How a time column writes what it keeps. -/
def timeText (micros : Int) : String :=
  let f := (toTime micros).fields
  Time.padded 4 f.year ++ "-" ++ Time.padded 2 f.month ++ "-" ++ Time.padded 2 f.day ++ " " ++
    Time.padded 2 f.hour ++ ":" ++ Time.padded 2 f.minute ++ ":" ++ Time.padded 2 f.second ++ "." ++
    Time.padded 6 f.micro

/-- How a column of documents writes one. -/
def documentText (document : Json) : Json := .text (document.write .ascii)

/-- A text in a document, or null. -/
def ofText? (s : Option String) : Json := (s.map Json.text).getD .null

def toText? : Json → Option String
  | .text s => some s
  | _ => none

/-- A field of a document. -/
def field (document : Json) (key : String) : Json :=
  match document with
  | .object fields => (Json.find? key fields).getD .null
  | _ => .null

end Column

/-- The row of an intent: its policy, spread over columns, and its ledger. -/
structure IntentRow where
  id : String
  user : String
  text : String
  limit : Binary64
  used : Binary64
  categories : List String
  codes : List String
  validityDays : Int
  geo : Json
  proofRequired : Bool
  tier : Int
  split : Json
  escrowEnabled : Bool
  currency : String
  status : String
  violations : Int
  approvals : Int
  createdAt : Int
  expiresAt : Int
  deriving Repr

namespace IntentRow

def geoDocument (geo : Option GeoRestriction) : Json :=
  match geo with
  | none => .null
  | some g => .object
      [("city", Column.ofText? g.city), ("region", Column.ofText? g.region),
       ("radius_km", (g.radius.map Measure.toJson).getD .null)]

def readGeo (document : Json) : Except Failure (Option GeoRestriction) :=
  if !document.truthy then .ok none
  else
    some <$> GeoRestriction.build (Column.toText? (Column.field document "city"))
      (Column.toText? (Column.field document "region"))
      (Measure.ofJson? (Column.field document "radius_km"))

def splitDocument (split : Option SplitRule) : Json :=
  match split with
  | none => .null
  | some s => .object [("spend", .text s.spend.toText), ("save", .text s.save.toText)]

def readSplit (document : Json) : Except Failure (Option SplitRule) :=
  if !document.truthy then .ok none
  else
    some <$> SplitRule.build (.text (Column.field document "spend").shown)
      (.text (Column.field document "save").shown)

/-- The row of an intent. Not-a-number counts as no value, which the table refuses last. -/
def ofIntent (i : Intent) : Except Failure IntentRow := do
  let used ← Column.writeMoney i.used
  let validityDays ← Column.ofWhole i.policy.validityDays
  let violations ← Column.ofWhole i.violations
  let approvals ← Column.ofWhole i.approvals
  if used.isNaN then throw .valueMissing
  .ok
    { id := i.id
      user := i.user
      text := i.text
      limit := Column.ofMoney i.policy.limit
      used
      categories := i.policy.categories
      codes := i.policy.codes
      validityDays
      geo := geoDocument i.policy.geo
      proofRequired := i.policy.proofRequired
      tier := i.policy.tier
      split := splitDocument i.policy.split
      escrowEnabled := i.policy.escrowEnabled
      currency := i.policy.currency
      status := i.status.word
      violations
      approvals
      createdAt := Column.ofTime i.createdAt
      expiresAt := Column.ofTime i.expiresAt }

/-- The columns of a row with the values that are written to them. -/
def columns (row : IntentRow) : List (String × Json) :=
  let texts (items : List String) : Json := Column.documentText (.array (items.map .text))
  let flag (b : Bool) : Json := .int b.toNat
  [("id", .text row.id),
   ("user_id", .text row.user),
   ("source_text", .text row.text),
   ("amount_limit", .float row.limit),
   ("amount_used", .float row.used),
   ("allowed_categories", texts row.categories),
   ("allowed_merchant_codes", texts row.codes),
   ("validity_days", .int row.validityDays),
   ("geo_restriction", Column.documentText row.geo),
   ("proof_required", flag row.proofRequired),
   ("enforcement_tier", .int row.tier),
   ("split_rule", Column.documentText row.split),
   ("escrow_enabled", flag row.escrowEnabled),
   ("currency", .text row.currency),
   ("status", .text row.status),
   ("violation_count", .int row.violations),
   ("approved_count", .int row.approvals),
   ("created_at", .text (Column.timeText row.createdAt)),
   ("expires_at", .text (Column.timeText row.expiresAt))]

/-- Copies the ledger; the policy never changes. -/
def update (row : IntentRow) (i : Intent) : Except Failure IntentRow := do
  let violations ← Column.ofWhole i.violations
  let approvals ← Column.ofWhole i.approvals
  .ok { row with status := i.status.word, used := Column.ofMoney i.used, violations, approvals }

def toIntent (row : IntentRow) : Except Failure Intent := do
  let geo ← readGeo row.geo
  let split ← readSplit row.split
  let policy ← Policy.build
    { limit := .decimal (Column.toMoney row.limit)
      categories := row.categories
      codes := row.codes
      validityDays := row.validityDays
      geo
      proofRequired := row.proofRequired
      tier := row.tier
      split
      escrowEnabled := row.escrowEnabled
      currency := row.currency }
  let status ← (Json.text row.status).toWord "IntentStatus" IntentStatus.ofWord?
  let used ← (Column.toMoney row.used).toAmount
  .ok
    { id := row.id, user := row.user, text := row.text, policy
      createdAt := Column.toTime row.createdAt, expiresAt := Column.toTime row.expiresAt
      status, used, violations := row.violations, approvals := row.approvals }

end IntentRow

structure MilestoneRow where
  id : String
  description : String
  amount : Binary64
  proofKind : Option String
  status : String
  completedAt : Option Int
  merchantId : Option String
  proof : Option String
  deriving Repr

namespace MilestoneRow

def ofMilestone (m : Milestone) : MilestoneRow :=
  { id := m.id, description := m.description, amount := Column.ofMoney m.amount
    proofKind := m.proofKind, status := m.status.word
    completedAt := m.completedAt.map Column.ofTime, merchantId := m.merchantId, proof := m.proof }

/-- Copies what a release changes. -/
def update (row : MilestoneRow) (m : Milestone) : MilestoneRow :=
  { row with
    status := m.status.word, completedAt := m.completedAt.map Column.ofTime
    merchantId := m.merchantId, proof := m.proof }

def toMilestone (row : MilestoneRow) : Except Failure Milestone := do
  let amount ← (Column.toMoney row.amount).toAmount
  let status ← (Json.text row.status).toWord "MilestoneStatus" MilestoneStatus.ofWord?
  .ok
    { id := row.id, description := row.description, amount, proofKind := row.proofKind, status
      completedAt := row.completedAt.map Column.toTime, merchantId := row.merchantId
      proof := row.proof }

end MilestoneRow

/-- The row of an escrow with the rows of its milestones, in their order. -/
structure EscrowRow where
  id : String
  user : String
  intentId : Option String
  title : String
  clawback : Json
  createdAt : Int
  expiresAt : Int
  milestones : List MilestoneRow
  deriving Repr

namespace EscrowRow

def receiptDocument (receipt : Option ClawbackReceipt) : Json :=
  match receipt with
  | none => .null
  | some r => .object
      [("reason", .text r.reason.word),
       ("clawback_amount", .text r.amount.toText),
       ("penalty_amount", .text r.penalty.toText),
       ("net_returned", .text r.netReturned.toText),
       ("savings_allocation", .text r.savings.toText),
       ("unrecovered_amount", .text r.unrecovered.toText),
       ("clawed_back_at", .text r.time.toText)]

def readReceipt (escrowId : String) (document : Json) :
    Except Failure (Option ClawbackReceipt) :=
  if !document.truthy then .ok none
  else do
    let money (key : String) : Except Failure Decimal :=
      (Numeral.text (Column.field document key).shown).exact
    let reason ← (Column.field document "reason").toWord "ClawbackReason" ClawbackReason.ofWord?
    let amount ← money "clawback_amount"
    let penalty ← money "penalty_amount"
    let netReturned ← money "net_returned"
    let savings ← money "savings_allocation"
    let unrecovered ← money "unrecovered_amount"
    let text := (Column.field document "clawed_back_at").shown
    let time ← (Time.ofText text).mapError (.notATime text)
    .ok (some
      { escrowId, reason, amount, penalty, netReturned, savings, unrecovered
        time := { time with offset := some (time.offset.getD 0) } })

def ofEscrow (e : Escrow) : EscrowRow :=
  { id := e.id, user := e.user, intentId := e.intentId, title := e.title
    clawback := receiptDocument e.clawback, createdAt := Column.ofTime e.createdAt
    expiresAt := Column.ofTime e.expiresAt
    milestones := e.milestones.map MilestoneRow.ofMilestone }

/-- Copies the state of each milestone and the receipt. -/
def update (row : EscrowRow) (e : Escrow) : EscrowRow :=
  { row with
    clawback := receiptDocument e.clawback
    milestones := row.milestones.map fun m => match e.find? m.id with
      | some milestone => m.update milestone
      | none => m }

def toEscrow (row : EscrowRow) : Except Failure Escrow := do
  let milestones ← row.milestones.mapM MilestoneRow.toMilestone
  let clawback ← readReceipt row.id row.clawback
  .ok
    { id := row.id, user := row.user, milestones, createdAt := Column.toTime row.createdAt
      expiresAt := Column.toTime row.expiresAt, intentId := row.intentId, title := row.title
      clawback }

end EscrowRow

structure RecordRow where
  id : String
  user : String
  merchantId : String
  amount : Binary64
  approved : Bool
  createdAt : Int
  intentId : Option String
  failedAt : Option String
  reason : Option String
  reference : Option String
  riskLevel : Option String
  bypass : Bool
  category : Option String
  deriving Repr

namespace RecordRow

/-- What a required text column keeps of a value. Numbers become text; not-a-number counts as
null, which such a column refuses. -/
def textColumn : Json → Except Failure String
  | .text s => .ok s
  | .unpaired _ => .error .unencodable
  | .int n => toString <$> Column.ofWhole n
  | .bool b => .ok (toString b.toNat)
  | .null | .float .nan => .error .valueMissing
  | .float x => .ok x.toFifteen
  | .array _ | .object _ => .error .unwritable

def ofRecord (r : TransactionRecord) : Except Failure RecordRow := do
  let merchantId ← textColumn r.merchantId
  .ok
    { id := r.id, user := r.user, merchantId, amount := Column.ofMoney r.amount
      approved := r.approved, createdAt := Column.ofTime r.createdAt, intentId := r.intentId
      failedAt := r.failedAt.map Stage.word, reason := r.reason, reference := r.reference
      riskLevel := r.riskLevel.map RiskLevel.word, bypass := r.bypass, category := r.category }

def toRecord (row : RecordRow) : Except Failure TransactionRecord := do
  let amount ← (Column.toMoney row.amount).toAmount
  let failedAt ← row.failedAt.mapM fun word => (Json.text word).toWord "CheckName" Stage.ofWord?
  let riskLevel ← row.riskLevel.mapM fun word =>
    (Json.text word).toWord "RiskLevel" RiskLevel.ofWord?
  .ok
    { id := row.id, user := row.user, merchantId := .text row.merchantId, amount
      approved := row.approved, createdAt := Column.toTime row.createdAt, intentId := row.intentId
      failedAt, reason := row.reason, reference := row.reference, riskLevel, bypass := row.bypass
      category := row.category }

end RecordRow

structure EventRow where
  id : String
  user : String
  kind : String
  delta : Int
  description : String
  scoreAfter : Int
  time : Int
  deriving Repr

namespace EventRow

def ofEvent (e : ReputationEvent) : EventRow :=
  { id := e.id, user := e.user, kind := e.kind.word, delta := e.delta, description := e.description
    scoreAfter := e.scoreAfter, time := Column.ofTime e.time }

def toEvent (row : EventRow) : Except Failure ReputationEvent := do
  let kind ← (Json.text row.kind).toWord "ReputationEventKind" EventKind.ofWord?
  .ok
    { id := row.id, user := row.user, kind, delta := row.delta, description := row.description
      time := Column.toTime row.time, scoreAfter := row.scoreAfter }

end EventRow

namespace Backend

/-- The newest first, those of one time in the order of their addition; only a positive limit or
zero limits. -/
def newest (records : List TransactionRecord) (limit : Option Int) :
    Except Failure (List TransactionRecord) :=
  let sorted := records.mergeSort fun a b => decide (b.createdAt.instant ≤ a.createdAt.instant)
  match limit with
  | some n => do
    let n ← Column.ofWhole n
    .ok (if 0 ≤ n then sorted.take n.toNat else sorted)
  | none => .ok sorted

def relational : Backend where
  intents :=
    { Row := IntentRow, write := IntentRow.ofIntent, update := IntentRow.update
      read := IntentRow.toIntent, id := IntentRow.id, user := IntentRow.user }
  escrows :=
    { Row := EscrowRow, write := fun e => .ok (.ofEscrow e)
      update := fun row e => .ok (row.update e), read := EscrowRow.toEscrow, id := EscrowRow.id
      user := EscrowRow.user }
  records :=
    { Row := RecordRow, write := RecordRow.ofRecord, update := fun row _ => .ok row
      read := RecordRow.toRecord, id := RecordRow.id, user := RecordRow.user }
  events :=
    { Row := EventRow, write := fun e => .ok (.ofEvent e), update := fun row _ => .ok row
      read := EventRow.toEvent, id := EventRow.id, user := EventRow.user }
  money d := (Column.toMoney (Column.ofMoney d)).toAmount
  lookup := .byId
  taken row := .keyTaken (Rejection.keyTaken "intent" "id" row.columns)
  rollsBack := true
  latest := newest

end Backend

end Earmark
