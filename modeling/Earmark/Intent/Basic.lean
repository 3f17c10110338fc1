import Earmark.Policy
import Earmark.Time

/-!
Intents: policies with the ledger of the funds locked for them.

An intent is active until it is used up, expires or is cancelled, and what remains of it is always
its limit less what was used.
-/

namespace Earmark

structure Intent where
  id : String
  user : String
  text : String
  policy : Policy
  createdAt : Time
  expiresAt : Time
  status : IntentStatus := .active
  used : Decimal := .zero
  violations : Int := 0
  approvals : Int := 0
  deriving DecidableEq, Repr

/-- Whether a time is later than another one; with only one offset known that is no question. -/
def Time.after (a b : Time) : Except Failure Bool :=
  Failure.require .wrongKind ((a.compare? b).map (· == .gt))

/-- The time some days later, which must be on the calendar. -/
def Time.addDays (t : Time) (days : Int) : Except Failure Time :=
  Failure.require .outOfRange (t.addDays? days)

namespace Intent

def limit (i : Intent) : Decimal := i.policy.limit

def isActive (i : Intent) : Bool := i.status == .active

/-- What is left to spend. -/
def remaining (i : Intent) : Except Failure Decimal := Failure.ofDecimal (i.limit.sub i.used)

def isExpired (i : Intent) (now : Time) : Except Failure Bool := now.after i.expiresAt

/-- A new intent, whose window opens now and lasts as long as the policy is valid. -/
def opened (id user text : String) (policy : Policy) (now : Time) : Except Failure Intent := do
  let expiresAt ← now.addDays policy.validityDays
  .ok { id, user, text, policy, createdAt := now, expiresAt }

/-- Spends an amount, which must be positive and within what remains of an active intent. -/
def spend (i : Intent) (amount : Numeral) : Except Failure Intent := do
  let amount ← amount.toAmount
  if !i.isActive then .error (.usageOfInactive i.id i.status)
  else
    let empty ← Failure.ofDecimal (amount.le? (.ofNat 0))
    if empty then .error (.usageNotPositive amount)
    else
      let remaining ← i.remaining
      let beyond ← Failure.ofDecimal (amount.gt? remaining)
      if beyond then .error (.usageBeyondRemaining amount i.id remaining)
      else
        let spent := { i with
          used := ← Failure.ofDecimal (i.used.add amount), approvals := i.approvals + 1 }
        let exhausted ← Failure.ofDecimal ((← spent.remaining).eq? .zero)
        .ok (if exhausted then { spent with status := .exhausted } else spent)

/-- Counts an attempt that was blocked. -/
def recordViolation (i : Intent) : Intent := { i with violations := i.violations + 1 }

/-- Cancels an active intent and gives the amount to unlock. -/
def cancel (i : Intent) : Except Failure (Decimal × Intent) := do
  if !i.isActive then .error (.cancelOfInactive i.id i.status)
  else .ok (← i.remaining, { i with status := .cancelled })

/-- Expires an active intent past its time and gives the amount to unlock, zero if it stays. -/
def expire (i : Intent) (now : Time) : Except Failure (Decimal × Intent) := do
  if !i.isActive then .ok (.zero, i)
  else
    let expired ← i.isExpired now
    if expired then .ok (← i.remaining, { i with status := .expired }) else .ok (.zero, i)

end Intent

end Earmark
