import Earmark.Http.Server
import Earmark.Proofs.Inquiries
import Earmark.Proofs.Turns

/-!
Requests as commands. What a request has the service do can be told from the request alone
(`Http.commandOf`), and handling the request does just that to the world, over every backend
(`Http.after_handle`).
-/

namespace Earmark

variable {b : Backend} {α : Type}

namespace Http

/-- The payment that a form asks for. -/
def PaymentForm.toRequest (form : PaymentForm) (traceId : String) (now : Time) : PaymentRequest :=
  { user := form.user, merchant := form.merchant, amount := .decimal form.amount
    intentId := form.intentId, proof := form.proof, emergency := form.emergency
    requestId := traceId, requestedAt := now }

/-- What an accepted reading gives. -/
def Reading.value? : Reading α → Option α
  | .accepted a => some a
  | .refused _ => none

/-- The form that the body of a request brings, if it is accepted. -/
def bodyForm? (r : Request) (rule : Rule α) : Option α :=
  match bodyOf r with
  | .ok (some document) => (rule ["body"] document).value?
  | _ => none

/-- The same of a body that may be left out, or be null. -/
def bodyFormOr? (r : Request) (rule : Rule α) (default : α) : Option α :=
  match bodyOf r with
  | .ok none => some default
  | .ok (some document) => (rule.orNull ["body"] document).value?.map (·.getD default)
  | .error _ => none

/-- What a request to an endpoint has the service do. -/
def Endpoint.command? (now : Time) (r : Request) : Endpoint → Option Command
  | .openWallet => (bodyForm? r WalletForm.rule).map fun form =>
    .openWallet form.user (.decimal form.balance)
  | .createIntent => (bodyForm? r IntentForm.rule).bind fun form =>
    form.policy.toPolicy.toOption.map fun policy => .createIntent form.user form.text policy
  | .cancelIntent id => some (.cancelIntent id)
  | .pay => (bodyForm? r PaymentForm.rule).map fun form =>
    .pay (form.toRequest (r.traceId.getD "") now)
  | .createEscrow => (bodyForm? r EscrowForm.rule).map fun form =>
    .createEscrow form.user (form.milestones.map MilestoneForm.toSpec) form.title form.intentId
  | .releaseMilestone escrowId milestoneId => (bodyFormOr? r ReleaseForm.rule {}).map fun form =>
    .releaseMilestone escrowId milestoneId form.proof form.merchantId
  | .clawBack escrowId => (bodyFormOr? r ClawbackForm.rule {}).map fun form =>
    .clawBack escrowId form.reason (form.part.map Numeral.decimal)
  | .recordEvent user => (bodyForm? r EventForm.rule).map fun form =>
    .recordEvent user form.kind form.description
  | .health | .metrics | .wallet _ | .listIntents | .intent _ | .history | .listEscrows | .escrow _
  | .reputation _ | .summary _ => none

/-- What a request has the service do, if anything. -/
def commandOf (now : Time) (r : Request) : Option Command :=
  match Route.of r.method r.path with
  | .found endpoint => endpoint.command? now r
  | .wrongMethod | .unknown => none

end Http

/-- The world after a command, if there is one. -/
def World.serving (config : Config) (w : World b) (now : Time) : Option Command → World b
  | some c => (w.step config now c).2
  | none => w

namespace Http

open Service (ReadsOnly readsOnly_check readsOnly_pure readsOnly_getIntent)

variable {config : Config} {now : Time} {r : Request} {w : World b}

/-! ### Operations as answers -/

theorem run_answer (w : World b) (status : Nat) (op : Service b Json) :
    (answer status op).run w =
      (match (op.runFrom w).1 with
        | .ok document => send status document
        | .error failure => reportFailure failure, (op.runFrom w).2) := by
  cases done : op.runFrom w with
  | mk result after =>
    have ran : StateT.run (ExceptT.run op) w = (result, after) := done
    simp only [answer, StateT.run_bind, ran]
    cases result <;> rfl

theorem run_present (w : World b) (status : Nat) (op : Service b Json) :
    (present status op).run w =
      (match (op.runFrom w).1 with
        | .ok document => send status document
        | .error _ => crash, (op.runFrom w).2) := by
  cases done : op.runFrom w with
  | mk result after =>
    have ran : StateT.run (ExceptT.run op) w = (result, after) := done
    simp only [present, StateT.run_bind, ran]
    cases result <;> rfl

theorem run_answerPayment (config : Config) (now : Time) (traceId : String)
    (form : PaymentForm) (w : World b) :
    (answerPayment config now traceId form).run w =
      (match ((Service.pay config now (form.toRequest traceId now)).runFrom w).1 with
        | .error failure =>
          if failure.isDomain then reportFailure failure else deny 500 "Internal server error"
        | .ok result =>
          match View.payment result with
          | .ok document => send 200 document
          | .error failure => reportFailure failure,
      ((Service.pay config now (form.toRequest traceId now)).runFrom w).2) := by
  cases done : (Service.pay config now (form.toRequest traceId now)).runFrom w with
  | mk result after =>
    have ran : StateT.run (ExceptT.run (Service.pay config now (form.toRequest traceId now))) w =
        (result, after) := done
    rw [PaymentForm.toRequest] at ran
    simp only [answerPayment, StateT.run_bind, ran]
    cases result with
    | error failure => rfl
    | ok result =>
      change StateT.run (match View.payment result with
        | .ok document => pure (send 200 document)
        | .error failure => pure (reportFailure failure)) after = _
      cases shown : View.payment result <;> simp only [shown] <;> rfl

/-! ### What requests do to the world -/

theorem after_requireBody {serve : α → StateM (World b) Response} {command? : α → Option Command}
    (rule : Rule α) (each : ∀ form, ((serve form).run w).2 = w.serving config now (command? form)) :
    ((requireBody r rule serve).run w).2 =
      w.serving config now ((bodyForm? r rule).bind command?) := by
  unfold requireBody withBody bodyForm?
  rcases bodyOf r with fault | _ | document
  · cases fault <;> rfl
  · rfl
  · cases read : rule ["body"] document with
    | refused faults => simp only [read]; rfl
    | accepted form => simp only [read]; exact each form

theorem after_allowBody {serve : α → StateM (World b) Response} {command? : α → Option Command}
    (rule : Rule α) (default : α)
    (each : ∀ form, ((serve form).run w).2 = w.serving config now (command? form)) :
    ((allowBody r rule default serve).run w).2 =
      w.serving config now ((bodyFormOr? r rule default).bind command?) := by
  unfold allowBody withBody bodyFormOr?
  rcases bodyOf r with fault | _ | document
  · cases fault <;> rfl
  · exact each default
  · cases read : rule.orNull ["body"] document with
    | refused faults => simp only [read]; rfl
    | accepted form => simp only [read]; exact each (form.getD default)

theorem after_answerTo {serve : α → StateM (World b) Response} {reading : Reading α}
    (each : ∀ form, ((serve form).run w).2 = w) : ((answerTo reading serve).run w).2 = w := by
  cases reading with
  | refused faults => rfl
  | accepted form => exact each form

theorem after_answer (status : Nat) (op : Service b Json) :
    ((answer status op).run w).2 = (op.runFrom w).2 := by
  rw [run_answer]

theorem after_present (status : Nat) (op : Service b Json) :
    ((present status op).run w).2 = (op.runFrom w).2 := by
  rw [run_present]

/-- What is only shown changes nothing. -/
theorem after_shown (op : Service b α) {show? : α → Service b Json}
    (shows : ∀ a, ReadsOnly (show? a)) : ((op >>= show?).runFrom w).2 = (op.runFrom w).2 := by
  rw [Service.runFrom_bind]
  rcases op.runFrom w with ⟨failure | a, after⟩
  · rfl
  · exact shows a after

theorem after_command {op : Service b α} {f : α → Reply} {c : Command}
    (runs : c.run config now = op >>= fun a => pure (f a)) :
    (op.runFrom w).2 = w.serving config now (some c) := by
  rw [World.serving, World.step, runs, Service.runFrom_map]

theorem readsOnly_showWallet (user : String) : ReadsOnly (showWallet user : Service b Json) :=
  (Service.readsOnly_available user).bind fun _ => (Service.readsOnly_locked user).bind fun _ =>
    readsOnly_pure _

theorem after_serve (config : Config) (now : Time) (r : Request) (w : World b)
    (endpoint : Endpoint) :
    ((serve config now r endpoint).run w).2 = w.serving config now (endpoint.command? now r) := by
  cases endpoint with
  | health => rfl
  | metrics => rfl
  | openWallet =>
    rw [Endpoint.command?, Option.map_eq_bind]
    refine after_requireBody _ fun form => ?_
    rw [after_answer, after_shown _ fun _ => readsOnly_showWallet form.user]
    exact after_command (f := fun _ => .done) rfl
  | wallet user => exact (after_answer 200 _).trans (readsOnly_showWallet user w)
  | createIntent =>
    refine after_requireBody _ fun form => ?_
    rw [after_answer]
    cases form.policy.toPolicy with
    | error failure => rw [Service.runFrom_check_error]; rfl
    | ok policy =>
      rw [Service.runFrom_check_ok, after_shown _ fun _ => readsOnly_check _]
      exact after_command (f := .intent) rfl
  | listIntents =>
    exact after_answerTo fun user => (after_present 200 _).trans
      ((Service.readsOnly_listIntents user).bind (fun _ => readsOnly_check _) w)
  | intent id =>
    exact (after_answer 200 _).trans ((readsOnly_getIntent id).bind (fun _ => readsOnly_check _) w)
  | cancelIntent id =>
    refine (after_answer 200 _).trans ?_
    rw [after_shown _ fun _ => (readsOnly_getIntent id).bind fun _ => readsOnly_pure _]
    exact after_command (f := .amount) rfl
  | pay =>
    rw [Endpoint.command?, Option.map_eq_bind]
    refine after_requireBody _ fun form => ?_
    rw [run_answerPayment]
    exact after_command (f := .payment) rfl
  | history =>
    exact after_answerTo fun (user, limit) => (after_present 200 _).trans
      ((Service.readsOnly_history user _).bind (fun _ => readsOnly_pure _) w)
  | createEscrow =>
    rw [Endpoint.command?, Option.map_eq_bind]
    refine after_requireBody _ fun form => ?_
    rw [after_answer, after_shown _ fun _ => readsOnly_check _]
    exact after_command (f := .escrow) rfl
  | listEscrows =>
    exact after_answerTo fun user => (after_present 200 _).trans
      ((Service.readsOnly_listEscrows user).bind (fun _ => readsOnly_check _) w)
  | escrow id =>
    exact (after_answer 200 _).trans
      ((Service.readsOnly_getEscrow id).bind (fun _ => readsOnly_check _) w)
  | releaseMilestone escrowId milestoneId =>
    rw [Endpoint.command?, Option.map_eq_bind]
    refine after_allowBody _ _ fun form => ?_
    rw [after_answer, after_shown _ fun _ => readsOnly_pure _]
    exact after_command (f := .release) rfl
  | clawBack escrowId =>
    rw [Endpoint.command?, Option.map_eq_bind]
    refine after_allowBody _ _ fun form => ?_
    rw [after_answer, after_shown _ fun _ => readsOnly_check _]
    exact after_command (f := .clawback) rfl
  | reputation user =>
    exact (after_present 200 _).trans
      ((Service.readsOnly_reputation config user).bind (fun _ => readsOnly_pure _) w)
  | recordEvent user =>
    rw [Endpoint.command?, Option.map_eq_bind]
    refine after_requireBody _ fun form => ?_
    rw [after_present, after_shown _ fun _ => readsOnly_pure _]
    exact after_command (f := .event) rfl
  | summary user =>
    exact (after_present 200 _).trans
      ((Service.readsOnly_summary user).bind (fun _ => readsOnly_pure _) w)

/-- Handling a request does to the world what its command does, and nothing where it has none. -/
theorem after_handle (config : Config) (now : Time) (r : Request) (w : World b) :
    ((handle config now r).run w).2 = w.serving config now (commandOf now r) := by
  change ((answerRoute config now r (.of r.method r.path)).run w).2 = _
  unfold commandOf
  cases Route.of r.method r.path with
  | found endpoint => exact after_serve config now r w endpoint
  | wrongMethod => rfl
  | unknown => rfl

end Http

end Earmark
