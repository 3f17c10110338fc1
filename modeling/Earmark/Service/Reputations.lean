import Earmark.Service.World

/-!
The reputation log. An event that follows a committed change is written if it can be; a write that
fails is noted and counted, and undoes nothing.
-/

namespace Earmark.Service

variable {b : Backend}

def scoreOf (config : Config) (user : String) : Service b Int := do
  return ((← get).store.scores.lookup user).getD config.baseline

/-- Sets a user's score. -/
def setScore (user : String) (score : Int) (scores : List (String × Int)) : List (String × Int) :=
  if scores.any (·.1 == user) then
    scores.map fun entry => if entry.1 == user then (user, score) else entry
  else scores ++ [(user, score)]

/-- Appends the event of a kind that follows the user's score. -/
def recordEvent (config : Config) (now : Time) (user : String) (kind : EventKind)
    (description : String) : Service b ReputationEvent := do
  let attempt := (← get).eventWrites
  modify fun w => { w with eventWrites := attempt + 1 }
  if (← get).outage.events attempt then throw (.storeDown "reputation")
  else
    let prior ← scoreOf config user
    let number := (← get).ids.events + 1
    modify fun w => { w with ids := { w.ids with events := number } }
    let event := Reputation.event (Ids.event number) user kind description prior now
    atomically do
      let row ← check (b.events.write event)
      modifyStore fun s =>
        { s with events := s.events ++ [row], scores := setScore user event.scoreAfter s.scores }
    tally (.event kind)
    return event

/-- Appends an event that follows a committed change. -/
def follow (config : Config) (now : Time) (user : String) (kind : EventKind)
    (description : String) : Service b Unit := do
  match ← attempt (recordEvent config now user kind description) with
  | .ok _ => return
  | .error _ =>
    tally .lostEvent
    note (.eventLost user kind)

def eventsOf (user : String) : Service b (List ReputationEvent) := do
  check (b.events.ofUser user (← get).store.events)

def reputation (config : Config) (user : String) : Service b ReputationSnapshot := do
  let events ← eventsOf user
  return Reputation.snapshot user (← scoreOf config user) events

end Earmark.Service
