import Earmark.Proofs.OrderlyWorlds

/-!
Payments among other payments. A payment in flight takes its steps one by one, and between two of
them others take theirs, intents are made and cancelled (`Traffic.step`). Left alone, the steps of a
payment are the payment itself (`Flight.advance_four`).
-/

namespace Earmark

open Service

/-- How far a payment has come. -/
inductive Flight
  | begun (p : Payment)
  /-- The intent is chosen, by its id. -/
  | resolved (p : Payment) (target : Option String)
  /-- The verdict is given and the intent changed. -/
  | committed (p : Payment) (target : Option String) (v : Verdict) (intent : Option Intent)
  /-- The record is logged, and nothing but counting and reputation is left to do. -/
  | logged (p : Payment) (target : Option String) (result : PaymentResult)
  | ended (result : Except Failure PaymentResult)

namespace Flight

variable {b : Backend}

/-- How a step ends: in what follows its result, or with the failure as the end of the payment. -/
def land {α : Type} (next : α → Flight) : Except Failure α × World b → Flight × World b
  | (.ok a, after) => (next a, after)
  | (.error failure, after) => (.ended (.error failure), after)

def begin (config : Config) (w : World b) (r : PaymentRequest) : Flight × World b :=
  land .begun ((beginPayment config r).runFrom w)

/-- The next step of a payment. -/
def advance (config : Config) (now : Time) (w : World b) : Flight → Flight × World b
  | .begun p => land (.resolved p) ((resolvePayment config p).runFrom w)
  | .resolved p target =>
    land (fun (v, intent) => .committed p target v intent)
      ((commitPayment config p target).runFrom w)
  | .committed p target v intent =>
    let record := TransactionRecord.ofVerdict p.id p.user p.merchant target now p.amount v
    land (fun _ => .logged p target { record, verdict := v, intent })
      ((logPayment record).runFrom w)
  | .logged p target result =>
    land (fun _ => .ended (.ok result))
      ((do countPayment p target result.verdict
           rewardPayment config now p result.verdict : Service b Unit).runFrom w)
  | .ended result => (.ended result, w)

/-- Some steps of a payment, one after the other. -/
def advances (config : Config) (now : Time) : Nat → Flight × World b → Flight × World b
  | 0, at_ => at_
  | n + 1, (f, w) => advances config now n (f.advance config now w)

theorem advances_ended (config : Config) (now : Time) (n : Nat)
    (result : Except Failure PaymentResult) (w : World b) :
    advances config now n (.ended result, w) = (.ended result, w) := by
  induction n with
  | zero => rfl
  | succ n ih => exact ih

/-- The steps of a payment that nothing comes between are the payment. -/
theorem advance_four (config : Config) (now : Time) (w : World b) (r : PaymentRequest) :
    advances config now 4 (begin config w r) =
      (.ended ((pay config now r).runFrom w).1, ((pay config now r).runFrom w).2) := by
  rw [begin, pay, runFrom_bind]
  rcases (beginPayment config r).runFrom w with ⟨failure | p, begun⟩
  · exact advances_ended config now 4 _ begun
  dsimp only
  rw [land, advances, advance, runFrom_bind]
  rcases (resolvePayment config p).runFrom begun with ⟨failure | target, resolved⟩
  · exact advances_ended config now 3 _ resolved
  dsimp only
  rw [land, advances, advance, runFrom_bind]
  rcases (commitPayment config p target).runFrom resolved with ⟨failure | ⟨v, intent⟩, committed⟩
  · exact advances_ended config now 2 _ committed
  dsimp only
  rw [land, advances, advance, runFrom_bind]
  rcases (logPayment _).runFrom committed with ⟨failure | done, logged⟩
  · exact advances_ended config now 1 _ logged
  dsimp only
  rw [land, advances, advance, runFrom_bind, runFrom_bind]
  rcases (countPayment p target v).runFrom logged with ⟨failure | done, counted⟩
  · rfl
  dsimp only
  rw [runFrom_bind]
  rcases (rewardPayment config now p v).runFrom counted with ⟨failure | done, rewarded⟩
  · rfl
  · rfl

end Flight

/-- A world and the payments in flight, in the order in which they began. -/
structure Traffic where
  world : World .memory
  flights : List Flight := []

namespace Traffic

/-- What may happen next: a command at once, the beginning of a payment, or the next step of one. -/
inductive Action
  | command (now : Time) (c : Command)
  | begin (r : PaymentRequest)
  | advance (number : Nat) (now : Time)

def step (config : Config) (t : Traffic) : Action → Traffic
  | .command now c => { t with world := (t.world.step config now c).2 }
  | .begin r =>
    let (f, world) := Flight.begin config t.world r
    { world, flights := t.flights ++ [f] }
  | .advance number now =>
    match t.flights[number]? with
    | none => t
    | some f =>
      let (f, world) := f.advance config now t.world
      { world, flights := t.flights.set number f }

def after (config : Config) (t : Traffic) (actions : List Action) : Traffic :=
  actions.foldl (step config) t

end Traffic

end Earmark
