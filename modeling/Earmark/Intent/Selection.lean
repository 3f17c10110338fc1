import Earmark.Intent.Basic

/-!
Choosing the intent of a payment that names none: among the active ones that are not expired and
have enough left, the least by the strategy's order.
-/

namespace Earmark

inductive Strategy
  | soonestExpiring
  | firstCreated
  deriving DecidableEq, Repr

def Strategy.word : Strategy → String
  | .soonestExpiring => "soonest_expiring"
  | .firstCreated => "first_created"

def Strategy.ofWord (name : String) : Except Failure Strategy :=
  Failure.require (.unknownStrategy name)
    ([Strategy.soonestExpiring, .firstCreated].find? (·.word == name))

/-- Whether an intent can pay an amount now. -/
def Intent.canPay (amount : Decimal) (now : Time) (i : Intent) : Except Failure Bool := do
  if !i.isActive then .ok false
  else
    let expired ← i.isExpired now
    if expired then .ok false else Failure.ofDecimal (amount.le? (← i.remaining))

/-- Orders by time, and by what follows where the times are the same. -/
def Time.thenBefore (a b : Time) (next : Except Failure Bool) : Except Failure Bool :=
  if a.same b then next else b.after a

/-- Whether one intent comes before another in the strategy's order; the id decides last. -/
def Strategy.before (strategy : Strategy) (a b : Intent) : Except Failure Bool :=
  let older := a.createdAt.thenBefore b.createdAt (.ok (decide (a.id < b.id)))
  match strategy with
  | .soonestExpiring => a.expiresAt.thenBefore b.expiresAt older
  | .firstCreated => older

/-- The first of the least intents. -/
def Strategy.least (strategy : Strategy) : List Intent → Except Failure (Option Intent)
  | [] => .ok none
  | first :: rest => some <$> rest.foldlM
      (fun best i => return if ← strategy.before i best then i else best) first

/-- The intent that an amount is paid from, if any can pay it. -/
def Strategy.choose (strategy : Strategy) (intents : List Intent) (amount : Numeral) (now : Time) :
    Except Failure (Option Intent) := do
  let amount ← amount.toAmount
  strategy.least (← intents.filterM (Intent.canPay amount now))

end Earmark
