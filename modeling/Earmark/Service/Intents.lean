import Earmark.Service.Reputations
import Earmark.Service.Wallets

/-!
Intents in the store. Making one locks its limit of the owner's wallet in one step, and cancelling
one unlocks what remains of it.
-/

namespace Earmark.Service

variable {b : Backend} {α : Type}

/-- The first characters of a text. -/
def shorten (count : Nat) (s : String) : String := String.ofList (s.toList.take count)

/-- Adds an intent, whose id must be new. -/
def addIntent (i : Intent) : Service b Unit := atomically do
  let w ← get
  if w.outage.intents then throw (.storeDown "intent_add")
  else
    let row ← check (b.intents.write i)
    if (b.intents.find? i.id w.store.intents).isSome then throw (b.taken row)
    else modifyStore fun s => { s with intents := s.intents ++ [row] }

def findIntent? (id : String) : Service b (Option Intent) := do
  check ((b.intents.find? id (← get).store.intents).mapM b.intents.read)

def getIntent (id : String) : Service b Intent := do
  check (Failure.require (.intentNotFound id .byId) (← findIntent? id))

/-- A user's intents, the earliest first. -/
def listIntents (user : String) : Service b (List Intent) := do
  check (b.intents.ofUser user (← get).store.intents >>= sortByTime Intent.createdAt)

/-- Changes an intent: the change sees it as it is stored, and is stored if it succeeds. -/
def updateIntent (id : String) (change : Intent → Service b (α × Intent)) : Service b α :=
  atomically do
    match b.intents.find? id (← get).store.intents with
    | none => throw (.intentNotFound id b.lookup)
    | some row =>
      let (result, changed) ← change (← check (b.intents.read row))
      let row ← check (b.intents.update row changed)
      modifyStore fun s => { s with intents := b.intents.replace id row s.intents }
      return result

/-- Unlocks what a closed intent leaves, if it leaves anything. -/
def releaseRest (i : Intent) (rest : Decimal) : Service b Unit := do
  let owed ← check (Failure.ofDecimal (rest.gt? (.ofNat 0)))
  if owed then releaseFunds i.user (.decimal rest) else return

def openIntent (user text : String) (policy : Policy) (now : Time) : Service b Intent := do
  let number := (← get).ids.intents + 1
  modify fun w => { w with ids := { w.ids with intents := number } }
  check (Intent.opened (Ids.intent number) user text policy now)

/-- Makes an intent and locks its limit. A failure to record it that is none of the domain's is
reported as a refusal. -/
def createIntent (config : Config) (now : Time) (user text : String) (policy : Policy) :
    Service b Intent := do
  let intent ← openIntent user text policy now
  match ← attempt (lockFunds user (.decimal policy.limit) (addIntent intent)) with
  | .error failure =>
    throw (if failure.isDomain then failure else .creationRejected failure)
  | .ok () =>
    note (.intentCreated intent.id user policy.limit)
    if config.rewards then
      follow config now user .intentCreated ("Created intent: \"" ++ shorten 50 text ++ "\"")
    return intent

def useIntent (id : String) (amount : Numeral) : Service b Intent :=
  updateIntent id fun i => do
    let spent ← check (i.spend amount)
    return (spent, spent)

def violateIntent (id : String) : Service b Intent :=
  updateIntent id fun i => return (i.recordViolation, i.recordViolation)

/-- Cancels an intent and gives the amount unlocked. -/
def cancelIntent (id : String) : Service b Decimal := do
  let released ← updateIntent id fun i => do
    let (rest, cancelled) ← check i.cancel
    releaseRest i rest
    return (rest, cancelled)
  note (.intentCancelled id released)
  return released

end Earmark.Service
