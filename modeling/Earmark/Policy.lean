import Earmark.Amount
import Earmark.Geo

/-!
Spending policies. A policy is built from terms as a caller gives them; building checks the terms in
a fixed order, so the first fault decides, and brings amounts, labels and codes to one form.
-/

namespace Earmark

/-- A city or region that payments must stay in, with an optional radius around the city. -/
structure GeoRestriction where
  city : Option String
  region : Option String
  radius : Option Measure
  deriving DecidableEq, Repr

/-- The fractions of a payment that are spent and saved. -/
structure SplitRule where
  spend : Decimal
  save : Decimal
  deriving DecidableEq, Repr

structure Policy where
  limit : Decimal
  /-- The labels allowed, as a set. -/
  categories : List String
  /-- The classification codes allowed, as a set. -/
  codes : List String
  validityDays : Int
  geo : Option GeoRestriction
  proofRequired : Bool
  tier : Int
  split : Option SplitRule
  escrowEnabled : Bool
  currency : String
  deriving DecidableEq, Repr

/-- A text that is there and not empty. -/
def isNamed (name : Option String) : Bool := name.getD "" != ""

/-- A place is required, and a radius that is at most zero refused. -/
def GeoRestriction.build (city region : Option String) (radius : Option Measure) :
    Except Failure GeoRestriction :=
  if !isNamed city && !isNamed region then .error (.policy .geoWithoutPlace)
  else if radius.any (!·.isPositive) then .error (.policy .geoRadius)
  else .ok { city, region, radius }

/-- Neither part may be negative, and together they must make one. -/
def SplitRule.ofParts (spend save : Decimal) : Except Failure SplitRule := do
  let refused := Except.error (.policy (.splitSum spend save))
  let spendNegative ← Failure.ofDecimal (spend.lt? (.ofNat 0))
  if spendNegative then refused
  else
    let saveNegative ← Failure.ofDecimal (save.lt? (.ofNat 0))
    if saveNegative then refused
    else
      let total ← Failure.ofDecimal (spend.add save)
      let whole ← Failure.ofDecimal (total.eq? (.ofNat 1))
      if whole then .ok { spend, save } else refused

def SplitRule.build (spend save : Numeral) : Except Failure SplitRule := do
  SplitRule.ofParts (← spend.written) (← save.written)

/-- The terms of a policy before they are checked. -/
structure PolicyTerms where
  limit : Numeral
  categories : List String := []
  codes : List String := []
  validityDays : Int := 30
  geo : Option GeoRestriction := none
  proofRequired : Bool := false
  tier : Int := 1
  split : Option SplitRule := none
  escrowEnabled : Bool := false
  currency : String := "INR"
  deriving Repr

/-- Checks the amount, the tier and the validity, in this order. -/
def Policy.build (terms : PolicyTerms) : Except Failure Policy := do
  let limit ← terms.limit.toAmount
  let empty ← Failure.ofDecimal (limit.le? (.ofNat 0))
  if empty then .error (.policy .amountLimit)
  else if ¬(1 ≤ terms.tier ∧ terms.tier ≤ 3) then .error (.policy (.tier terms.tier))
  else if terms.validityDays ≤ 0 then .error (.policy .validity)
  else
    .ok
      { limit
        categories := sortedSet (terms.categories.map normalize)
        codes := sortedSet terms.codes
        validityDays := terms.validityDays
        geo := terms.geo
        proofRequired := terms.proofRequired
        tier := terms.tier
        split := terms.split
        escrowEnabled := terms.escrowEnabled
        currency := terms.currency }

/-- The terms that a policy states. -/
def Policy.terms (policy : Policy) : PolicyTerms :=
  { limit := .decimal policy.limit
    categories := policy.categories
    codes := policy.codes
    validityDays := policy.validityDays
    geo := policy.geo
    proofRequired := policy.proofRequired
    tier := policy.tier
    split := policy.split
    escrowEnabled := policy.escrowEnabled
    currency := policy.currency }

end Earmark
