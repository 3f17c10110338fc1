import Earmark.Geo
import Earmark.Verdict.Basic

/-!
The checks of a payment against an intent, one for each stage behind the emergency override.
-/

namespace Earmark

/-- What a check finds: a pass with a remark, or the reason of a failure. -/
inductive Finding
  | pass (remark : Option String)
  | fail (reason : String)
  deriving DecidableEq, Repr

namespace Finding

/-- There must be an active intent that has not expired. -/
def noIntent : String :=
  "No applicable spending intent found for this transaction. " ++
    "Create an intent or select an active one."

def intentStatus (i : Intent) (context : Context) : Except Failure Finding := do
  if !i.isActive then
    .ok (.fail ("Intent is " ++ i.status.word ++ ". Cannot process a transaction against a " ++
      i.status.word ++ " intent."))
  else
    let expired ← i.isExpired context.requestedAt
    if expired then
      .ok (.fail ("Intent expired on " ++ i.expiresAt.dateText ++ ". Create a new intent."))
    else .ok (.pass none)

/-- The amount must be positive and within what remains. -/
def amountCap (i : Intent) (amount : Decimal) : Except Failure Finding := do
  let empty ← Failure.ofDecimal (amount.le? (.ofNat 0))
  if empty then .ok (.fail "Invalid transaction amount.")
  else
    let remaining ← i.remaining
    let beyond ← Failure.ofDecimal (amount.gt? remaining)
    if beyond then
      .ok (.fail
        (s!"Transaction amount {amount} exceeds remaining intent balance {remaining}. " ++
          s!"Total locked: {i.limit}, used: {i.used}."))
    else
      let left ← Failure.ofDecimal (remaining.sub amount)
      .ok (.pass (some s!"Remaining after payment: {left}"))

/-- The request must fall between the creation and the expiry of the intent. -/
def timeWindow (i : Intent) (context : Context) : Except Failure Finding := do
  let early ← i.createdAt.after context.requestedAt
  let outside ← if early then .ok true else context.requestedAt.after i.expiresAt
  if outside then
    .ok (.fail ("Transaction is outside the allowed time window. Intent valid from " ++
      i.createdAt.dateText ++ " to " ++ i.expiresAt.dateText ++ "."))
  else .ok (.pass none)

/-- A value as the name of a place, which only text is. A text with half of a pair of code units is
one that no other name equals. -/
def placeName : Json → Except Failure (Option String)
  | .text s => .ok (some s)
  | .unpaired _ => .ok none
  | _ => .error .notText

/-- The city of a merchant must be the city of the restriction, and its coordinates inside the
fence where there is one. -/
def cityFence (city : String) (radius : Option Measure) (m : Merchant) :
    Except Failure Finding := do
  let canonical := City.canonical city
  let fence ← City.fence canonical radius
  let title := ((City.find? canonical).map City.title).getD canonical
  if fence.any fun bounds => !bounds.contains m.latitude m.longitude then
    .ok (.fail ("Merchant \"" ++ m.name.shown ++ "\" is located in " ++ m.city.shown ++
      ", outside the geo restriction: " ++ title ++ " only."))
  else
    let place ← placeName m.city
    if place.map City.canonical != some canonical then
      .ok (.fail ("Merchant city \"" ++ m.city.shown ++ "\" does not match intent restriction \"" ++
        city ++ "\"."))
    else if fence.isNone then
      .ok (.pass (some ("No coordinates on file for " ++ city ++ "; matched on city name only")))
    else .ok (.pass none)

def regionFence (region : String) (m : Merchant) : Except Failure Finding := do
  let place ← placeName m.region
  if place.map normalize != some (normalize region) then
    .ok (.fail ("Merchant region \"" ++ m.region.shown ++
      "\" does not match intent restriction \"" ++ region ++ "\"."))
  else .ok (.pass none)

/-- City first, then region; an empty name restricts nothing. -/
def geoFence (i : Intent) (m : Merchant) : Except Failure Finding := do
  match i.policy.geo with
  | none => .ok (.pass (some "No geo restriction on this intent"))
  | some geo =>
    let byCity ←
      if isNamed geo.city then cityFence (geo.city.getD "") geo.radius m else .ok (.pass none)
    match byCity with
    | .fail reason => .ok (.fail reason)
    | .pass note =>
      let byRegion ←
        if isNamed geo.region then regionFence (geo.region.getD "") m else .ok (.pass none)
      match byRegion with
      | .fail reason => .ok (.fail reason)
      | .pass _ => .ok (.pass note)

/-- Names in a row, or a word for their absence. -/
def listed (names : List String) : String :=
  let row := ", ".intercalate names
  if row = "" then "none" else row

/-- A mixed merchant is always refused; another one needs an allowed code or an allowed label. -/
def merchantCategory (i : Intent) (m : Merchant) : Finding :=
  if m.isMixed then
    .fail ("\"" ++ m.name.shown ++ "\" is a mixed-category merchant (MCC " ++ m.code ++ "). " ++
      "Intent-bound payments cannot be processed at unclassified merchants; " ++
      "product-level verification or manual override is required.")
  else
    let codeMatch := i.policy.codes.contains m.code
    let matched := m.overlap i.policy.categories
    if !codeMatch && matched.isEmpty then
      .fail ("Merchant category mismatch. \"" ++ m.name.shown ++ "\" is classified as \"" ++
        m.label.shown ++ "\" (MCC " ++ m.code ++ "). Intent only allows: " ++
        listed i.policy.categories ++ " (MCC: " ++ listed i.policy.codes ++ ").")
    else
      .pass (some ("code_match=" ++ (Json.bool codeMatch).quoted ++ ", matched_labels=" ++
        (Json.array (matched.map .text)).quoted))

def merchantTier (i : Intent) (m : Merchant) : Finding :=
  if m.tier < i.policy.tier then
    .fail (s!"Intent requires Tier {i.policy.tier} verification, but merchant is only Tier " ++
      s!"{m.tier} certified.")
  else .pass none

def proofRequirement (i : Intent) (context : Context) : Finding :=
  if !i.policy.proofRequired then .pass (some "Proof not required for this intent")
  else if !context.proof then
    .fail ("This intent requires proof of purchase (invoice/GST receipt) before the " ++
      "transaction can be approved.")
  else .pass none

/-- The finding of a stage; without an override the first stage passes. -/
def ofStage (i : Intent) (m : Merchant) (amount : Decimal) (context : Context) :
    Stage → Except Failure Finding
  | .emergencyOverride => .ok (.pass (some "No emergency override requested"))
  | .intentStatus => intentStatus i context
  | .amountCap => amountCap i amount
  | .timeWindow => timeWindow i context
  | .geoFence => geoFence i m
  | .merchantCategory => .ok (merchantCategory i m)
  | .merchantTier => .ok (merchantTier i m)
  | .proofRequirement => .ok (proofRequirement i context)

end Finding

end Earmark
