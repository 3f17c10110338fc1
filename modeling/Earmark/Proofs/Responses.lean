import Earmark.Proofs.AcceptedForms
import Earmark.Proofs.Outcomes
import Earmark.Proofs.Requests
import Earmark.Store.Relational

/-!
What the service answers. Whatever requests came before, a request whose parts are accepted is
answered with success or with a refusal, but for an intent whose window ends behind the calendar
(`answers_foreseen`).
-/

namespace Earmark

namespace Http

variable {α : Type} {config : Config} {now : Time} {r : Request} {w : World .memory}

/-! ### Bodies -/

/-- The body of the request is read as the form. -/
def Brings (r : Request) (rule : Rule α) (form : α) : Prop :=
  ∃ document, bodyOf r = .ok (some document) ∧ rule ["body"] document = .accepted form

theorem requireBody_eq {b : Backend} {rule : Rule α} {form : α} (brings : Brings r rule form)
    (serve : α → StateM (World b) Response) : requireBody r rule serve = serve form := by
  obtain ⟨document, body, read⟩ := brings
  simp only [requireBody, withBody, body, read, answerTo]

/-- The request brings no body, or one that is read as the form or as null. -/
def MayBring (r : Request) (rule : Rule α) : Prop :=
  bodyOf r = .ok none ∨ ∃ form, Brings r rule.orNull form

theorem allowBody_eq {rule : Rule α} (default : α) (brings : MayBring r rule)
    (serve : α → StateM (World .memory) Response) :
    ∃ form, allowBody r rule default serve = serve form := by
  rcases brings with none | ⟨form, document, body, read⟩
  · exact ⟨default, by simp only [allowBody, withBody, none, answerTo, Option.getD_none]⟩
  · exact ⟨form.getD default, by simp only [allowBody, withBody, body, read, answerTo]⟩

/-! ### What requests do to the world -/

/-- The world stays, or something is served to it. -/
def Leads (config : Config) (now : Time) (w after : World .memory) : Prop :=
  after = w ∨ ∃ c : Command, c.IsServed ∧ after = (w.step config now c).2

theorem Leads.orderly {after : World .memory} (leads : Leads config now w after)
    (orderly : w.Orderly) (aware : now.offset.isSome) : after.Orderly := by
  rcases leads with rfl | ⟨c, served, rfl⟩
  · exact orderly
  · exact orderly.step served aware

/-! ### Reachable worlds -/

/-- The worlds that requests bring about, from an empty store of which no writes fail and each at a
time with an offset. -/
inductive Reachable (config : Config) : World .memory → Prop
  | start {w : World .memory} (empty : w.store = {}) (healthy : w.outage = {}) : Reachable config w
  | handled {w : World .memory} {now : Time} (reached : Reachable config w)
      (aware : now.offset.isSome) (r : Request) :
      Reachable config ((handle config now r).run w).2

theorem orderly_of_empty (empty : w.store = {}) (healthy : w.outage = {}) : w.Orderly where
  ledgers := .of_empty empty
  covers := .of_empty empty
  intents i mem := absurd (World.intents_of_empty empty ▸ mem) List.not_mem_nil
  records r mem := absurd (World.records_of_empty empty ▸ mem) List.not_mem_nil
  vault e mem := by
    rw [World.vault, World.escrows, empty] at mem
    cases mem
  working _ := by rw [healthy]

/-- The service carries out what requests ask for. -/
theorem isServed_of_commandOf {c : Command} (command : commandOf now r = some c) : c.IsServed := by
  unfold commandOf at command
  split at command
  case h_2 => cases command
  case h_3 => cases command
  case h_1 endpoint found =>
    cases endpoint with
    | openWallet | pay | createEscrow | releaseMilestone | recordEvent =>
      obtain ⟨form, -, rfl⟩ := Option.map_eq_some_iff.mp command
      trivial
    | createIntent =>
      obtain ⟨form, -, command⟩ := Option.bind_eq_some_iff.mp command
      obtain ⟨policy, made, rfl⟩ := Option.map_eq_some_iff.mp command
      have made := eq_ok_of_toOption made
      exact ⟨PolicyForm.isBuilt_of_toPolicy made, PolicyForm.hasFloatRadius_of_toPolicy made⟩
    | cancelIntent id =>
      cases command
      trivial
    | clawBack escrowId =>
      obtain ⟨form, -, rfl⟩ := Option.map_eq_some_iff.mp command
      exact ⟨_, rfl⟩
    | _ => cases command

theorem leads_handle (config : Config) (now : Time) (r : Request) (w : World .memory) :
    Leads config now w ((handle config now r).run w).2 := by
  rw [after_handle]
  cases command : commandOf now r with
  | none => exact .inl rfl
  | some c => exact .inr ⟨c, isServed_of_commandOf command, rfl⟩

/-- Whatever requests came, the world is orderly. -/
theorem Reachable.orderly (reached : Reachable config w) : w.Orderly := by
  induction reached with
  | start empty healthy => exact orderly_of_empty empty healthy
  | handled _ aware r ih => exact (leads_handle config _ r _).orderly ih aware

/-! ### Statuses -/

/-- The statuses of success and of what the domain refuses. -/
def foreseen : List Nat := [200, 201, 404, 409, 422]

theorem foreseen_reportFailure {failure : Failure} (refusal : failure.IsRefusal) :
    (reportFailure failure).status ∈ foreseen := by
  obtain ⟨status, reported, mem⟩ := refusal
  simp only [reportFailure, reported, deny]
  exact List.mem_cons_of_mem _ (List.mem_cons_of_mem _ mem)

theorem foreseen_answer {status : Nat} (success : status ∈ foreseen) {op : Service .memory Json}
    (refuses : Service.RefusesFrom w op) : ((answer status op).run w).1.status ∈ foreseen := by
  rw [run_answer]
  cases done : (op.runFrom w).1 with
  | ok document => exact success
  | error failure => exact foreseen_reportFailure (refuses failure done)

theorem foreseen_present {status : Nat} (success : status ∈ foreseen)
    {op : Service .memory Json} (done : ∃ document after, op.runFrom w = (.ok document, after)) :
    ((present status op).run w).1.status ∈ foreseen := by
  obtain ⟨document, after, ran⟩ := done
  rw [run_present, ran]
  exact success

/-- What a successful operation gives is shown. -/
theorem foreseen_shown {status : Nat} (success : status ∈ foreseen) {op : Service .memory α}
    {show? : α → Json} (done : ∃ a after, op.runFrom w = (.ok a, after)) :
    ((present status (op >>= fun a => pure (show? a))).run w).1.status ∈ foreseen := by
  obtain ⟨a, after, ran⟩ := done
  refine foreseen_present success ⟨show? a, after, ?_⟩
  rw [Service.runFrom_bind_ok ran, Service.runFrom_pure]

theorem status_handle {b : Backend} (config : Config) (now : Time) (w : World b)
    {endpoint : Endpoint} (found : Route.of r.method r.path = .found endpoint) :
    ((handle config now r).run w).1.status =
      ((serve config now r endpoint).run w).1.status := by
  have marked (response : Response) : (mark r response).status = response.status := by
    unfold mark
    split <;> rfl
  have dropped (response : Response) : (dropBody r response).status = response.status := by
    unfold dropBody
    split <;> rfl
  have handled : ((handle config now r).run w).1 =
    dropBody r (mark r ((answerRoute config now r (.of r.method r.path)).run w).1) := rfl
  rw [handled, dropped, marked, found, answerRoute]

/-! ### Accepted requests -/

namespace Endpoint

/-- The body and the parameters that the endpoint reads of the request are accepted. -/
def Accepts (r : Request) : Endpoint → Prop
  | .openWallet => ∃ form, Brings r WalletForm.rule form
  | .createIntent => ∃ form, Brings r IntentForm.rule form
  | .pay => ∃ form, Brings r PaymentForm.rule form
  | .createEscrow => ∃ form, Brings r EscrowForm.rule form
  | .recordEvent _ => ∃ form, Brings r EventForm.rule form
  | .releaseMilestone .. => MayBring r ReleaseForm.rule
  | .clawBack _ => MayBring r ClawbackForm.rule
  | .listIntents | .listEscrows => ∃ user, userOf r = .accepted user
  | .history =>
    ∃ user limit, userOf r = .accepted user ∧
      (queryOf r).optional "limit" 50 historyLimit = .accepted limit
  | .health | .metrics | .wallet _ | .intent _ | .cancelIntent _ | .escrow _ | .reputation _
  | .summary _ => True

/-- The request asks for an intent with a policy that is accepted, or for an escrow, of which the
last day is not on the calendar. -/
def Overruns (config : Config) (now : Time) (r : Request) : Endpoint → Prop
  | .createIntent => ∃ form policy, Brings r IntentForm.rule form ∧
      form.policy.toPolicy = .ok policy ∧ now.addDays? policy.validityDays = none
  | .createEscrow => now.addDays? config.expiryDays = none
  | _ => False

end Endpoint

theorem Brings.hasRates {form : IntentForm} (brings : Brings r IntentForm.rule form) :
    form.policy.HasRates := by
  obtain ⟨document, -, read⟩ := brings
  exact IntentForm.hasRates_of_rule read

open Service (RefusesFrom)

theorem refusesFrom_showWallet (orderly : w.Orderly) (user : String) :
    RefusesFrom w (showWallet user) := by
  refine RefusesFrom.bind (Service.refusesFrom_available orderly user) fun free after looked =>
    RefusesFrom.bind (Service.refusesFrom_locked user) fun _ _ _ => onlyFails_ok _

theorem foreseen_openWallet (orderly : w.Orderly) (aware : now.offset.isSome)
    (brings : ∃ form, Brings r WalletForm.rule form) :
    ((serve config now r .openWallet).run w).1.status ∈ foreseen := by
  obtain ⟨form, brings⟩ := brings
  rw [serve, requireBody_eq brings]
  refine foreseen_answer (by decide) (RefusesFrom.bind (Service.refusesFrom_openWallet _ _) ?_)
  intro _ after opened
  have leads : Leads config now w
      ((Service.openWallet form.user (.decimal form.balance)).runFrom w).2 :=
    .inr ⟨.openWallet form.user (.decimal form.balance), trivial,
      after_command (f := fun _ => .done) rfl⟩
  rw [opened] at leads
  exact refusesFrom_showWallet (leads.orderly orderly aware) form.user

/-! ### Intents -/

section

variable {b : Backend} {form : IntentForm}

/-- The steps behind an accepted form for an intent. -/
private theorem run_createIntent (config : Config) (now : Time) (w : World b)
    (brings : Brings r IntentForm.rule form) :
    (serve config now r .createIntent).run w =
      (answer 201 (do
        let policy ← Service.check form.policy.toPolicy
        let intent ← Service.createIntent config now form.user form.text policy
        Service.check (View.intent intent))).run w := by
  rw [serve, requireBody_eq brings]

/-- A policy that is not accepted is refused for a value. -/
theorem status_of_policy_refused (config : Config) (now : Time) (w : World b)
    (brings : Brings r IntentForm.rule form) {failure : Failure}
    (refused : form.policy.toPolicy = .error failure) :
    ((serve config now r .createIntent).run w).1.status = 422 := by
  have invalid : failure.status? = some 422 :=
    PolicyForm.onlyInvalid_toPolicy brings.hasRates failure refused
  rw [run_createIntent config now w brings, run_answer, refused, Service.runFrom_check_error]
  simp only [reportFailure, invalid, deny]

/-- Nothing foresees a window that ends behind the calendar. -/
theorem status_of_overruns (config : Config) (w : World b)
    (overruns : Endpoint.Overruns config now r .createIntent) :
    ((serve config now r .createIntent).run w).1.status = 500 := by
  obtain ⟨form, policy, brings, made, behind⟩ := overruns
  let numbered : World b := { w with ids := { w.ids with intents := w.ids.intents + 1 } }
  have unopened : (Service.openIntent form.user form.text policy now).runFrom w =
      (.error .outOfRange, numbered) := by
    have began : (Service.openIntent form.user form.text policy now).runFrom w =
      (Intent.opened (Ids.intent (w.ids.intents + 1)) form.user form.text policy now, numbered) :=
        rfl
    rw [began, Intent.opened, Time.addDays, behind]
    rfl
  have uncreated : (Service.createIntent config now form.user form.text policy).runFrom w =
      (.error .outOfRange, numbered) := by
    rw [Service.createIntent, Service.runFrom_bind_error unopened]
  rw [run_createIntent config now w brings, run_answer, made, Service.runFrom_check_ok,
    Service.runFrom_bind_error uncreated]
  rfl

end

theorem foreseen_createIntent (orderly : w.Orderly) (aware : now.offset.isSome)
    {form : IntentForm} (brings : Brings r IntentForm.rule form)
    (dated : ¬Endpoint.Overruns config now r .createIntent) :
    ((serve config now r .createIntent).run w).1.status ∈ foreseen := by
  rw [run_createIntent config now w brings]
  refine foreseen_answer (by decide) (Service.refusesFrom_check_bind
    (PolicyForm.onlyInvalid_toPolicy brings.hasRates).refuses fun policy made => ?_)
  cases later : now.addDays? policy.validityDays with
  | none => exact absurd ⟨form, policy, brings, made, later⟩ dated
  | some expiresAt =>
    have added : now.addDays policy.validityDays = .ok expiresAt :=
      Failure.require_ok_iff.mpr later
    refine RefusesFrom.bind (Service.refusesFrom_createIntent orderly _ _ added)
      fun i after done => onlyFails_of_exists (View.exists_intent ?_)
    exact Service.orderly_of_createIntent (PolicyForm.isBuilt_of_toPolicy made)
      (PolicyForm.hasFloatRadius_of_toPolicy made) aware done

/-! ### Payments -/

theorem foreseen_pay (regular : config.IsRegular) (orderly : w.Orderly) (aware : now.offset.isSome)
    (traceId : String) (form : PaymentForm) :
    ((answerPayment config now traceId form).run w).1.status ∈ foreseen := by
  have refuses : RefusesFrom w (Service.pay config now (form.toRequest traceId now)) :=
    Service.refusesFrom_pay regular orderly rfl aware
  rw [run_answerPayment]
  cases done : (Service.pay config now (form.toRequest traceId now)).runFrom w with
  | mk result after =>
    cases result with
    | error failure =>
      have refusal := refuses failure (by rw [done])
      simp only [refusal.isDomain, ↓reduceIte]
      exact foreseen_reportFailure refusal
    | ok result =>
      obtain ⟨document, shown⟩ := View.exists_payment (Service.orderly_of_pay orderly done)
      simp only [shown, send]
      decide

/-! ### Every endpoint -/

/-- What is accepted is answered as foreseen. -/
theorem foreseen_serve (regular : config.IsRegular) (orderly : w.Orderly)
    (aware : now.offset.isSome) {endpoint : Endpoint} (accepts : endpoint.Accepts r)
    (dated : ¬endpoint.Overruns config now r) :
    ((serve config now r endpoint).run w).1.status ∈ foreseen := by
  cases endpoint with
  | health => exact List.mem_cons_self
  | metrics => exact List.mem_cons_self
  | openWallet => exact foreseen_openWallet orderly aware accepts
  | wallet user => exact foreseen_answer (by decide) (refusesFrom_showWallet orderly user)
  | createIntent =>
    obtain ⟨form, brings⟩ := accepts
    exact foreseen_createIntent orderly aware brings dated
  | listIntents =>
    obtain ⟨user, read⟩ := accepts
    obtain ⟨all, listed, known⟩ :=
      Service.exists_listIntents (fun i mem => (orderly.intents i mem).timed) user
    obtain ⟨document, shown⟩ :=
      View.exists_intents user fun i mem => orderly.intents i (known i mem)
    rw [serve, read]
    refine foreseen_present (by decide) ⟨document, w, ?_⟩
    rw [Service.runFrom_bind_ok listed, shown, Service.runFrom_check]
  | intent id =>
    exact foreseen_answer (by decide) (RefusesFrom.bind (Service.refusesFrom_getIntent id)
      fun i _ done => onlyFails_of_exists
        (View.exists_intent (Service.orderly_of_getIntent orderly done)))
  | cancelIntent id =>
    exact foreseen_answer (by decide) (RefusesFrom.bind
      (Service.refusesFrom_cancelIntent orderly id) fun _ _ _ =>
        RefusesFrom.bind (Service.refusesFrom_getIntent id) fun _ _ _ => onlyFails_ok _)
  | pay =>
    obtain ⟨form, brings⟩ := accepts
    rw [serve, requireBody_eq brings]
    exact foreseen_pay regular orderly aware _ form
  | history =>
    obtain ⟨user, limit, read, limited⟩ := accepts
    obtain ⟨records, found, -⟩ := Service.exists_history w user (some limit)
    have both : Prod.mk <$> userOf r <*> (queryOf r).optional "limit" 50 historyLimit =
        .accepted (user, limit) := by rw [read, limited]; rfl
    rw [serve, both]
    exact foreseen_shown (by decide) ⟨records, w, found⟩
  | createEscrow =>
    obtain ⟨form, brings⟩ := accepts
    have decimals : ∀ spec ∈ form.milestones.map MilestoneForm.toSpec,
        ∃ d, spec.amount = .decimal d := by
      intro spec mem
      obtain ⟨m, -, rfl⟩ := List.mem_map.mp mem
      exact ⟨m.amount, rfl⟩
    have dated : (now.addDays? config.expiryDays).isSome := Option.isSome_iff_ne_none.mpr dated
    rw [serve, requireBody_eq brings]
    refine foreseen_answer (by decide) (RefusesFrom.bind
      (Service.refusesFrom_createEscrow orderly _ decimals dated _ _) fun e after done => ?_)
    exact onlyFails_of_exists (View.exists_escrow
      (Service.orderly_of_createEscrow orderly aware done))
  | listEscrows =>
    obtain ⟨user, read⟩ := accepts
    obtain ⟨all, listed, known⟩ := Service.exists_listEscrows orderly.vault user
    obtain ⟨document, shown⟩ := View.exists_escrows user known
    rw [serve, read]
    refine foreseen_present (by decide) ⟨document, w, ?_⟩
    rw [Service.runFrom_bind_ok listed, shown, Service.runFrom_check]
  | escrow id =>
    exact foreseen_answer (by decide) (RefusesFrom.bind (Service.refusesFrom_getEscrow id)
      fun e _ done => onlyFails_of_exists
        (View.exists_escrow (Service.orderly_of_getEscrow orderly done)))
  | releaseMilestone escrowId milestoneId =>
    obtain ⟨form, served⟩ := allowBody_eq {} accepts _
    rw [serve, served]
    exact foreseen_answer (by decide) (RefusesFrom.bind
      (Service.refusesFrom_releaseMilestone orderly _ _ _ _) fun _ _ _ => onlyFails_ok _)
  | clawBack escrowId =>
    obtain ⟨form, served⟩ := allowBody_eq {} accepts _
    rw [serve, served]
    refine foreseen_answer (by decide) (RefusesFrom.bind
      (Service.refusesFrom_clawBack regular orderly _ _ _) fun receipt after done => ?_)
    exact onlyFails_of_exists (View.exists_clawback (Service.showable_of_clawBack orderly done))
  | reputation user =>
    obtain ⟨snapshot, read⟩ := Service.exists_reputation w user
    exact foreseen_shown (by decide) ⟨snapshot, w, read⟩
  | recordEvent user =>
    obtain ⟨form, brings⟩ := accepts
    rw [serve, requireBody_eq brings]
    exact foreseen_shown (by decide)
      (Service.exists_recordEvent orderly user form.kind form.description)
  | summary user =>
    obtain ⟨-, -, figures, added, -⟩ := Service.exists_summary
      (fun i mem => (orderly.intents i mem).timed) orderly.records orderly.vault user
    exact foreseen_shown (by decide) ⟨figures, w, added⟩

end Http

namespace Sample

open Http

/-- Opens a wallet. -/
def opening : Request :=
  { method := .post, path := "/v1/wallets"
    content := some (.document (.object [("user_id", .text "reader"), ("balance", .text "1000")])) }

/-- Asks for an intent of some twenty-seven thousand years. -/
def overlong : Request :=
  { method := .post, path := "/v1/intents"
    content := some (.document (.object
      [("user_id", .text "reader"), ("source_text", .text "Books for a very long time"),
       ("policy", .object
         [("amount_limit", .text "500"), ("allowed_categories", .array [.text "books"]),
          ("validity_days", .int 10000000)])])) }

/-- The world in which the wallet was opened. -/
def opened (b : Backend) : World b := ((handle config today opening).run {}).2

theorem opening_brings : ∃ form, Brings opening WalletForm.rule form := by
  have read : (match WalletForm.rule ["body"] (.object [("user_id", .text "reader"),
      ("balance", .text "1000")]) with
    | .accepted _ => true
    | .refused _ => false) = true := by decide +kernel
  split at read
  · exact ⟨_, _, rfl, ‹_›⟩
  · cases read

theorem overlong_brings : ∃ form policy, Brings overlong IntentForm.rule form ∧
    form.policy.toPolicy = .ok policy ∧ today.addDays? policy.validityDays = none := by
  cases body : bodyOf overlong with
  | error fault => cases body
  | ok found =>
    cases body
    have read : (match IntentForm.rule ["body"] (.object
      [("user_id", .text "reader"), ("source_text", .text "Books for a very long time"),
       ("policy", .object
         [("amount_limit", .text "500"), ("allowed_categories", .array [.text "books"]),
          ("validity_days", .int 10000000)])]) with
      | .accepted form => (form.policy.toPolicy.toOption.map fun policy =>
          today.addDays? policy.validityDays) == some none
      | .refused _ => false) = true := by decide +kernel
    split at read
    · rename_i form accepted
      cases made : form.policy.toPolicy with
      | error failure => simp [made, Except.toOption] at read
      | ok policy =>
        exact ⟨form, policy, ⟨_, rfl, accepted⟩, made, by simpa [made, Except.toOption] using read⟩
    · cases read

end Sample

namespace Http

variable {config : Config} {now : Time} {r : Request} {w : World .memory}

/-- Whatever requests came before, an endpoint that accepts a request answers with success or with
a refusal of the domain, unless the request asks for something that ends behind the calendar. For
such an intent, whatever the store, nothing is foreseen; while a policy that is not accepted is
refused for a value. -/
theorem answers_foreseen (regular : config.IsRegular) (reached : Reachable config w)
    (aware : now.offset.isSome) {endpoint : Endpoint}
    (found : Route.of r.method r.path = .found endpoint) (accepts : endpoint.Accepts r) :
    (¬endpoint.Overruns config now r →
      ((handle config now r).run w).1.status ∈ [200, 201, 404, 409, 422]) ∧
    (endpoint = .createIntent → ∀ (b : Backend) (v : World b),
      (endpoint.Overruns config now r → ((handle config now r).run v).1.status = 500) ∧
      ∀ form failure, Brings r IntentForm.rule form → form.policy.toPolicy = .error failure →
        ((handle config now r).run v).1.status = 422) := by
  constructor
  · intro dated
    rw [status_handle config now w found]
    exact foreseen_serve regular reached.orderly aware accepts dated
  · rintro rfl b v
    rw [status_handle config now v found]
    exact ⟨status_of_overruns config v, fun form failure brings refused =>
      status_of_policy_refused config now v brings refused⟩

/-- Over a database, a request whose parts are all accepted ends in a fault of the service. -/
theorem overlong_intent_crashes :
    (∃ form policy, Brings Sample.overlong IntentForm.rule form ∧
      form.policy.toPolicy = .ok policy) ∧
    ((handle Sample.config Sample.today Sample.opening).run ({} : World .relational)).1.status =
      201 ∧
    ((handle Sample.config Sample.today Sample.overlong).run
      (Sample.opened .relational)).1.status = 500 := by
  obtain ⟨form, policy, brings, made, -⟩ := Sample.overlong_brings
  exact ⟨⟨form, policy, brings, made⟩, by decide +kernel, by decide +kernel⟩

end Http

end Earmark
