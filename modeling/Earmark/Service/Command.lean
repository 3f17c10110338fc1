import Earmark.Service.Escrows

/-!
Everything that changes a store, as commands, and runs of commands.
-/

namespace Earmark

inductive Command
  | openWallet (user : String) (balance : Numeral)
  /-- Locks funds for something that is made meanwhile, or fails to be. -/
  | lockFunds (user : String) (amount : Numeral) (fails : Bool)
  | releaseFunds (user : String) (amount : Numeral)
  | createIntent (user text : String) (policy : Policy)
  | addIntent (intent : Intent)
  | useIntent (id : String) (amount : Numeral)
  | violateIntent (id : String)
  | cancelIntent (id : String)
  | pay (request : PaymentRequest)
  | createEscrow (user : String) (specs : List MilestoneSpec) (title : String)
      (intentId : Option String)
  | releaseMilestone (escrowId milestoneId : String) (proof merchantId : Option String)
  | clawBack (escrowId : String) (reason : ClawbackReason) (part : Option Numeral)
  | recordEvent (user : String) (kind : EventKind) (description : String)

/-- What a command gives. -/
inductive Reply
  | done
  | intent (i : Intent)
  | amount (d : Decimal)
  | payment (result : PaymentResult)
  | escrow (e : Escrow)
  | release (receipt : ReleaseReceipt)
  | clawback (receipt : ClawbackReceipt)
  | event (e : ReputationEvent)

namespace Command

variable {b : Backend}

def run (config : Config) (now : Time) : Command → Service b Reply
  | .openWallet user balance => do Service.openWallet user balance; return .done
  | .lockFunds user amount fails => do
    Service.lockFunds user amount (if fails then throw .interrupted else return ())
    return .done
  | .releaseFunds user amount => do Service.releaseFunds user amount; return .done
  | .createIntent user text policy =>
    return .intent (← Service.createIntent config now user text policy)
  | .addIntent intent => do Service.addIntent intent; return .done
  | .useIntent id amount => return .intent (← Service.useIntent id amount)
  | .violateIntent id => return .intent (← Service.violateIntent id)
  | .cancelIntent id => return .amount (← Service.cancelIntent id)
  | .pay request => return .payment (← Service.pay config now request)
  | .createEscrow user specs title intentId =>
    return .escrow (← Service.createEscrow config now user specs title intentId)
  | .releaseMilestone escrowId milestoneId proof merchantId =>
    return .release
      (← Service.releaseMilestone config now escrowId milestoneId proof merchantId)
  | .clawBack escrowId reason part =>
    return .clawback (← Service.clawBack config now escrowId reason part)
  | .recordEvent user kind description =>
    return .event (← Service.recordEvent config now user kind description)

end Command

namespace World

variable {b : Backend}

/-- Runs one command. -/
def step (config : Config) (w : World b) (now : Time) (c : Command) :
    Except Failure Reply × World b :=
  (c.run config now).runFrom w

/-- The world after some commands, each at its time and each succeeding or failing. -/
def after (config : Config) (w : World b) : List (Time × Command) → World b
  | [] => w
  | (now, c) :: rest => (w.step config now c).2.after config rest

/-- What some commands give, in their order. -/
def replies (config : Config) (w : World b) : List (Time × Command) → List (Except Failure Reply)
  | [] => []
  | (now, c) :: rest =>
    let (reply, next) := w.step config now c
    reply :: next.replies config rest

end World

end Earmark
