import Earmark.Service.Command

/-!
Everything that is read from a store, as inquiries, and runs of commands and inquiries.
-/

namespace Earmark

inductive Inquiry
  | available (user : String)
  | locked (user : String)
  | intent (id : String)
  | intents (user : String)
  | payments (user : String) (limit : Option Int)
  | escrow (id : String)
  | escrows (user : String)
  | reputation (user : String)
  | summary (user : String)

/-- What an inquiry gives. -/
inductive Answer
  | amount (d : Decimal)
  | intent (i : Intent)
  | intents (all : List Intent)
  | payments (records : List TransactionRecord)
  | escrow (e : Escrow)
  | escrows (all : List Escrow)
  | reputation (snapshot : ReputationSnapshot)
  | summary (figures : SpendingSummary)

def Inquiry.ask {b : Backend} (config : Config) : Inquiry → Service b Answer
  | .available user => return .amount (← Service.available user)
  | .locked user => return .amount (← Service.locked user)
  | .intent id => return .intent (← Service.getIntent id)
  | .intents user => return .intents (← Service.listIntents user)
  | .payments user limit => return .payments (← Service.history user limit)
  | .escrow id => return .escrow (← Service.getEscrow id)
  | .escrows user => return .escrows (← Service.listEscrows user)
  | .reputation user => return .reputation (← Service.reputation config user)
  | .summary user => return .summary (← Service.summary user)

/-- What a service is asked to do, be it to change the store or to read it. -/
inductive Operation
  | command (c : Command)
  | inquiry (q : Inquiry)

inductive Outcome
  | reply (r : Reply)
  | answer (a : Answer)

def Operation.run {b : Backend} (config : Config) (now : Time) : Operation → Service b Outcome
  | .command c => return .reply (← c.run config now)
  | .inquiry q => return .answer (← q.ask config)

/-- What some operations come to, each at its time, in their order. -/
def World.outcomes {b : Backend} (config : Config) (w : World b) :
    List (Time × Operation) → List (Except Failure Outcome)
  | [] => []
  | (now, op) :: rest =>
    let (outcome, next) := (op.run config now).runFrom w
    outcome :: next.outcomes config rest

end Earmark
