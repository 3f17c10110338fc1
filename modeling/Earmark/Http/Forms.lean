import Earmark.Escrow.Basic
import Earmark.Http.Rules
import Earmark.Policy

/-!
The forms that requests bring: what each asks for, and how it is read.
-/

namespace Earmark.Http

open Rule (Fields Limit)

def Rule.positive : Limit Decimal := .above (.ofNat 0)

structure WalletForm where
  user : String
  balance : Decimal
  deriving Repr

def WalletForm.rule : Rule WalletForm := Rule.form fun f =>
  WalletForm.mk
    <$> f.required "user_id" (Rule.text 1)
    <*> f.required "balance" (Rule.money [.atLeast (.ofNat 0)])

structure GeoForm where
  city : Option String
  region : Option String
  radius : Option Binary64
  deriving Repr

def GeoForm.rule : Rule GeoForm := Rule.form fun f =>
  GeoForm.mk
    <$> f.optional "city" none (Rule.text).orNull
    <*> f.optional "region" none (Rule.text).orNull
    <*> f.optional "radius_km" none (Rule.float [.above .zero]).orNull

structure SplitForm where
  spend : Decimal
  save : Decimal
  deriving Repr

/-- A fraction of a payment. -/
def Rule.share : Rule Decimal := Rule.decimal none [.atMost (.ofNat 1), .atLeast (.ofNat 0)]

def SplitForm.rule : Rule SplitForm := Rule.form fun f =>
  SplitForm.mk <$> f.required "spend" Rule.share <*> f.required "save" Rule.share

structure PolicyForm where
  limit : Decimal
  categories : List String
  codes : List String
  validityDays : Int
  geo : Option GeoForm
  proofRequired : Bool
  tier : Int
  split : Option SplitForm
  escrowEnabled : Bool
  currency : String
  deriving Repr

def PolicyForm.rule : Rule PolicyForm := Rule.form fun f =>
  PolicyForm.mk
    <$> f.required "amount_limit" (Rule.money [Rule.positive])
    <*> f.optional "allowed_categories" [] (Rule.text).list
    <*> f.optional "allowed_merchant_codes" [] (Rule.text).list
    <*> f.optional "validity_days" 30 (Rule.whole [.above 0])
    <*> f.optional "geo_restriction" none GeoForm.rule.orNull
    <*> f.optional "proof_required" false Rule.flag
    <*> f.optional "enforcement_tier" 1 (Rule.whole [.atMost 3, .atLeast 1])
    <*> f.optional "split_rule" none SplitForm.rule.orNull
    <*> f.optional "escrow_enabled" false Rule.flag
    <*> f.optional "currency" "INR" Rule.text

/-- The policy that a form asks for. Its parts are checked together only here. -/
def PolicyForm.toPolicy (form : PolicyForm) : Except Failure Policy := do
  let geo ← form.geo.mapM fun g =>
    GeoRestriction.build g.city g.region (g.radius.map Measure.real)
  let split ← form.split.mapM fun s => SplitRule.ofParts s.spend s.save
  Policy.build
    { limit := .decimal form.limit, categories := form.categories, codes := form.codes
      validityDays := form.validityDays, geo, proofRequired := form.proofRequired
      tier := form.tier, split, escrowEnabled := form.escrowEnabled, currency := form.currency }

structure IntentForm where
  user : String
  text : String
  policy : PolicyForm
  deriving Repr

def IntentForm.rule : Rule IntentForm := Rule.form fun f =>
  IntentForm.mk
    <$> f.required "user_id" (Rule.text 1)
    <*> f.required "source_text" (Rule.text 5)
    <*> f.required "policy" PolicyForm.rule

structure PaymentForm where
  user : String
  merchant : String
  amount : Decimal
  intentId : Option String
  proof : Bool
  emergency : Bool
  deriving Repr

def PaymentForm.rule : Rule PaymentForm := Rule.form fun f =>
  PaymentForm.mk
    <$> f.required "user_id" (Rule.text 1)
    <*> f.required "merchant_id" (Rule.text 1)
    <*> f.required "amount" (Rule.money [])
    <*> f.optional "intent_id" none (Rule.text).orNull
    <*> f.optional "proof_provided" false Rule.flag
    <*> f.optional "emergency_override" false Rule.flag

structure MilestoneForm where
  description : String
  amount : Decimal
  proofKind : Option String
  deriving Repr

def MilestoneForm.rule : Rule MilestoneForm := Rule.form fun f =>
  MilestoneForm.mk
    <$> f.required "description" (Rule.text 1)
    <*> f.required "amount" (Rule.money [Rule.positive])
    <*> f.optional "required_proof_kind" none (Rule.text).orNull

def MilestoneForm.toSpec (form : MilestoneForm) : MilestoneSpec :=
  { description := form.description, amount := .decimal form.amount, proofKind := form.proofKind }

structure EscrowForm where
  user : String
  title : String
  intentId : Option String
  milestones : List MilestoneForm
  deriving Repr

def EscrowForm.rule : Rule EscrowForm := Rule.form fun f =>
  EscrowForm.mk
    <$> f.required "user_id" (Rule.text 1)
    <*> f.optional "title" "" Rule.text
    <*> f.optional "intent_id" none (Rule.text).orNull
    <*> f.required "milestones" (MilestoneForm.rule.list 1)

structure ReleaseForm where
  proof : Option String := none
  merchantId : Option String := none
  deriving Repr

def ReleaseForm.rule : Rule ReleaseForm := Rule.form fun f =>
  ReleaseForm.mk
    <$> f.optional "proof" none (Rule.text).orNull
    <*> f.optional "merchant_id" none (Rule.text).orNull

structure ClawbackForm where
  reason : ClawbackReason := .unused
  part : Option Decimal := none
  deriving Repr

def ClawbackForm.rule : Rule ClawbackForm := Rule.form fun f =>
  ClawbackForm.mk
    <$> f.optional "reason" .unused (Rule.word ClawbackReason.ofWord?)
    <*> f.optional "partial_amount" none (Rule.money [Rule.positive]).orNull

structure EventForm where
  kind : EventKind
  description : String
  deriving Repr

def EventForm.rule : Rule EventForm := Rule.form fun f =>
  EventForm.mk
    <$> f.required "kind" (Rule.word EventKind.ofWord?)
    <*> f.required "description" (Rule.text 1)

/-- How many records a history shows. -/
def historyLimit : Rule Int := Rule.whole [.atMost 200, .atLeast 1]

end Earmark.Http
