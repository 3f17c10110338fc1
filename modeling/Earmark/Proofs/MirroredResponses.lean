import Earmark.Proofs.BackendEquivalence
import Earmark.Proofs.Reckoning
import Earmark.Proofs.Responses

/-!
One service over two stores. Every request is answered with the same status over records that are
kept as they are and over rows of a database, and leaves a world and its mirror
(`World.Servable.handled`). So what is foreseen of the one is foreseen of the other
(`Http.accepted_answered`).
-/

namespace Earmark

open scoped Earmark.Whole

variable {α α' : Type} {config : Config} {now : Time} {w : World .memory}

/-! ### What requests state -/

theorem Numeral.States.hasTwelveDigits {n : Numeral} {cents : Int} (states : n.States cents) :
    n.HasTwelveDigits := by
  intro d brought
  obtain ⟨amount, value, fits⟩ := states.holds brought
  have small : |(cents : ℚ)| ≤ 10 ^ (14 : Nat) := by
    rw [← Int.cast_abs, Int.abs_eq_natAbs]
    exact_mod_cast fits.le
  rw [amount.toRat_eq, value, abs_div]
  norm_num at small ⊢
  linarith

theorem Decimal.Holds.cents_lt {d : Decimal} {cents : Int} (holds : d.Holds cents) :
    d.cents < 10 ^ (15 : Nat) := by
  have fits := holds.fits
  rw [holds.value]
  omega

theorem Decimal.States.natAbs_lt {d amount : Decimal} {cents : Int} (states : d.States cents)
    (brought : (Numeral.decimal d).toAmount = .ok amount) :
    amount.cents.natAbs < 10 ^ (15 : Nat) := by
  have fits := states.fits
  rw [(states.holds brought).value]
  omega

theorem Decimal.Holds.toRat_le {d : Decimal} {cents : Int} (holds : d.Holds cents) :
    d.toRat ≤ 10 ^ (12 : Nat) := by
  have fits := holds.fits
  have small : (cents : ℚ) ≤ 10 ^ (14 : Nat) := by
    have : cents ≤ 10 ^ (14 : Nat) := by omega
    exact_mod_cast this
  rw [holds.amount.toRat_eq, holds.value]
  norm_num at small ⊢
  linarith

theorem Decimal.toRat_ofInt (n : Int) : (ofInt n).toRat = n := by
  rw [ofInt, toRat, signed_natAbs_self, zpow_zero, mul_one]

/-- A rule whose parts passed the checks is built from their texts. -/
theorem SplitRule.exists_build {spend save : Decimal} {s : SplitRule} (spent : spend.IsWritten)
    (saved : save.IsWritten) (made : ofParts spend save = .ok s) :
    ∃ first second, build first second = .ok s := by
  refine ⟨.decimal spend, .decimal save, ?_⟩
  rw [build, Numeral.written, Numeral.written, Numeral.shown, Numeral.shown,
    Decimal.ofText?_toText spent, Decimal.ofText?_toText saved]
  exact made

namespace Http

variable {r : Request} {place : List String} {j : Json}

/-- A decimal that is accepted is the one that the document states. -/
theorem Rule.value_of_decimal {allowed : Option Digits} {limits : List (Limit Decimal)}
    {d : Decimal} (read : decimal allowed limits place j = .accepted d) :
    decimalValue j = .ok d := by
  obtain ⟨found, value, done⟩ := bind_ok_iff.mp (accepted_ofCheck read)
  cases found with
  | infinity neg => cases done
  | nan neg signalling payload => cases done
  | finite neg coeff exp =>
    dsimp only at done
    split at done
    · cases done
    · unfold within at done
      split at done
      · cases done
      · exact value.trans done

/-- A share has an exponent that a text can state. -/
theorem Rule.isWritten_of_share {d : Decimal} (read : share place j = .accepted d) :
    d.IsWritten := by
  obtain ⟨finite, nonneg, le_one⟩ := isRate_of_share read
  have value := value_of_decimal read
  have stated {s : String}
      (parsed : (Decimal.ofText? s).elim (Except.error Fault.decimalText) Except.ok = .ok d) :
      d.IsWritten := by
    cases known : Decimal.ofText? s with
    | none => rw [known] at parsed; cases parsed
    | some other =>
      rw [known] at parsed
      obtain rfl := Except.ok.inj parsed
      exact Decimal.isWritten_of_ofText? known finite
  cases j with
  | text s =>
    rw [decimalValue] at value
    exact stated value
  | float x =>
    rw [decimalValue] at value
    exact stated value
  | int n =>
    rw [decimalValue] at value
    obtain rfl := Except.ok.inj value
    rw [Decimal.toRat_ofInt] at nonneg le_one
    obtain rfl | rfl : n = 0 ∨ n = 1 := by
      have low : 0 ≤ n := by exact_mod_cast nonneg
      have high : n ≤ 1 := by exact_mod_cast le_one
      omega
    all_goals
      simp only [Decimal.ofInt, Decimal.IsWritten]
      decide +kernel
  | null | bool _ | array _ | object _ | unpaired _ => cases value

theorem IntentForm.isAccepted_of_rule {form : IntentForm} {policy : Policy}
    (read : rule place j = .accepted form) (made : form.policy.toPolicy = .ok policy) :
    policy.IsAccepted := by
  obtain ⟨_, _, readPolicy⟩ := policy_of_rule read
  have isBuilt := PolicyForm.isBuilt_of_toPolicy made
  obtain ⟨geo, placed, rest⟩ := bind_ok_iff.mp made
  obtain ⟨split, shared, built⟩ := bind_ok_iff.mp rest
  obtain ⟨limit, -, -, -, -, rfl⟩ := Policy.build_ok_iff.mp built
  refine ⟨isBuilt, fun g restricted => ?_, fun s splits => ?_⟩
  · obtain rfl : geo = some g := restricted
    obtain ⟨f, -, built⟩ := exists_of_mapM_some placed
    exact ⟨_, _, _, built⟩
  · obtain rfl : split = some s := splits
    obtain ⟨f, stated, built⟩ := exists_of_mapM_some shared
    obtain ⟨_, _, readSplit⟩ := PolicyForm.split_of_rule readPolicy f stated
    obtain ⟨⟨_, _, spent⟩, _, _, saved⟩ := SplitForm.shares_of_rule readSplit
    exact SplitRule.exists_build (Rule.isWritten_of_share spent) (Rule.isWritten_of_share saved)
      built

theorem isAccepted_of_commandOf {user text : String} {policy : Policy}
    (command : commandOf now r = some (.createIntent user text policy)) : policy.IsAccepted := by
  unfold commandOf at command
  split at command
  case h_2 => cases command
  case h_3 => cases command
  case h_1 endpoint found =>
    cases endpoint with
    | createIntent =>
      obtain ⟨form, brought, command⟩ := Option.bind_eq_some_iff.mp command
      obtain ⟨policy, made, same⟩ := Option.map_eq_some_iff.mp command
      cases same
      obtain ⟨_, read⟩ := accepted_of_bodyForm? brought
      exact IntentForm.isAccepted_of_rule read (eq_ok_of_toOption made)
    | openWallet | pay | createEscrow | releaseMilestone | clawBack | recordEvent =>
      obtain ⟨form, -, other⟩ := Option.map_eq_some_iff.mp command
      cases other
    | _ => cases command

/-- What requests ask for are calls. -/
theorem isCall_of_commandOf {c : Command} (command : commandOf now r = some c) : c.IsCall := by
  have states := statesMoney_of_commandOf command
  cases c with
  | openWallet user balance =>
    obtain ⟨cents, -, states⟩ := states
    exact states.hasTwelveDigits
  | createIntent user text policy =>
    exact ⟨isAccepted_of_commandOf command, states.2.toRat_le⟩
  | pay request =>
    obtain ⟨cents, states⟩ := states
    exact states.hasTwelveDigits
  | createEscrow user specs title intentId =>
    intro spec asked
    obtain ⟨cents, -, states⟩ := states spec asked
    exact states.hasTwelveDigits
  | lockFunds | releaseFunds | addIntent => exact states.elim
  | _ => trivial

/-- A limit of a history is small. -/
theorem fits_of_historyLimit {limit : Int}
    (read : (queryOf r).optional "limit" 50 historyLimit = .accepted limit) :
    0 ≤ limit ∧ limit < 2 ^ (63 : Nat) := by
  by_cases default : limit = 50
  · omega
  · obtain ⟨_, _, read⟩ := Rule.Fields.accepted_optional read default
    rw [historyLimit, Rule.whole] at read
    obtain ⟨found, -, done⟩ := bind_ok_iff.mp (Rule.accepted_ofCheck read)
    unfold Rule.within at done
    split at done
    · cases done
    · rename_i kept
      obtain rfl := Except.ok.inj done
      simp only [List.findSome?_eq_none_iff, List.mem_cons, List.not_mem_nil, or_false,
        forall_eq_or_imp, forall_eq, Rule.Limit.fault?, ite_eq_left_iff, reduceCtorEq, imp_false,
        not_not, Option.some.injEq, compare_lt_iff_lt, compare_eq_iff_eq, compare_gt_iff_gt] at kept
      omega

end Http

/-! ### Reading the records -/

/-- A limit that fits its column selects among the records. -/
theorem Backend.exists_newest (records : List TransactionRecord) {limit : Option Int}
    (fits : ∀ n ∈ limit, 0 ≤ n ∧ n < 2 ^ (63 : Nat)) :
    ∃ all, newest records limit = .ok all ∧ ∀ r ∈ all, r ∈ records := by
  cases limit with
  | none => exact ⟨_, rfl, fun r mem => List.mem_mergeSort.mp mem⟩
  | some n =>
    obtain ⟨nonneg, lt⟩ := fits n rfl
    simp only [newest, Column.ofWhole_eq nonneg lt, ok_bind, if_pos nonneg]
    exact ⟨_, rfl, fun r mem => List.mem_mergeSort.mp (List.mem_of_mem_take mem)⟩

namespace Service

/-- What succeeds from a world and its mirror, and leaves them, mirrors itself. -/
theorem mirrors_of_ok {op : Service .memory α} {op' : Service .relational α'} {a : α} {a' : α'}
    {after : World .memory} (ran : op.runFrom w = (.ok a, after))
    (ran' : op'.runFrom w.mirror = (.ok a', after.mirror)) (stored : w.Stored → after.Stored) :
    Mirrors (fun _ _ => True) w op op' := by
  refine ⟨?_, ?_, ?_⟩
  · rw [ran, ran']
    exact .ok trivial
  · rw [ran, ran']
  · rw [ran]
    exact stored

theorem Mirrors.runFrom_mirror {op : Service .memory α} {op' : Service .relational α}
    (mirrors : Mirrors Eq w op op') {a : α} {after : World .memory}
    (ran : op.runFrom w = (.ok a, after)) : op'.runFrom w.mirror = (.ok a, after.mirror) := by
  obtain ⟨result, world, -⟩ := mirrors
  rw [ran] at result world
  refine Prod.ext ?_ world
  cases done : (op'.runFrom w.mirror).1 with
  | error failure => rw [done] at result; cases result
  | ok a' =>
    rw [done] at result
    cases result with
    | ok same => exact congrArg _ same.symm

theorem exists_history_mirror (stored : w.Stored) (user : String) {limit : Option Int}
    (fits : ∀ n ∈ limit, 0 ≤ n ∧ n < 2 ^ (63 : Nat)) :
    ∃ all, (history user limit).runFrom w.mirror = (.ok all, w.mirror) ∧
      ∀ r ∈ all, r.amount.IsAmount := by
  have own : Backend.relational.records.ofUser user w.mirror.store.records =
      .ok ((w.records.filter (·.user == user)).map TransactionRecord.unsigned) :=
    Table.ofUser_map (fun _ => rfl) fun record mem =>
      RecordRow.toRecord_plain (stored.records record mem)
  obtain ⟨all, latest, known⟩ := Backend.exists_newest
    ((w.records.filter (·.user == user)).map TransactionRecord.unsigned) fits
  refine ⟨all, ?_, fun r mem => ?_⟩
  · rw [history, runFrom_get_bind, own, runFrom_check_ok]
    exact congrArg (·, w.mirror) latest
  · obtain ⟨record, listed, rfl⟩ := List.mem_map.mp (known r mem)
    exact (stored.records record (List.mem_of_mem_filter listed)).amount.unsignedZero.1

/-- A history is read of both, be it in another order where records are of one time. -/
theorem mirrors_history_any (stored : w.Stored) (user : String) {limit : Option Int}
    (fits : ∀ n ∈ limit, 0 ≤ n ∧ n < 2 ^ (63 : Nat)) :
    Mirrors (fun _ _ => True) w (history user limit) (history user limit) := by
  obtain ⟨records, read, -⟩ := exists_history w user limit
  obtain ⟨records', read', -⟩ := exists_history_mirror stored user fits
  exact mirrors_of_ok read read' id

/-- A summary is read of both. -/
theorem mirrors_summary_any (orderly : w.Orderly) (stored : w.Stored) (user : String) :
    Mirrors (fun _ _ => True) w (summary user) (summary user) := by
  obtain ⟨-, -, figures, added, -⟩ := exists_summary
    (fun i mem => (orderly.intents i mem).timed) orderly.records orderly.vault user
  obtain ⟨records, read, amounts⟩ :
      ∃ records, (history user none).runFrom w.mirror = (.ok records, w.mirror) ∧
        ∀ r ∈ records, r.amount.IsAmount := exists_history_mirror stored user (by simp)
  obtain ⟨intents, listed, known⟩ :=
    exists_listIntents (fun i mem => (orderly.intents i mem).timed) user
  obtain ⟨escrows, listed', whole⟩ := exists_listEscrows orderly.vault user
  obtain ⟨figures', added'⟩ := SpendingSummary.exists_of user amounts
    (fun i mem => (orderly.intents i (known i mem)).sound) whole
  have mirrored : (summary user).runFrom w.mirror = (.ok figures', w.mirror) := by
    rw [summary, runFrom_bind_ok read,
      runFrom_bind_ok ((mirrors_listIntents stored user).runFrom_mirror listed),
      runFrom_bind_ok ((mirrors_listEscrows stored user).runFrom_mirror listed'), added',
      runFrom_check]
  exact mirrors_of_ok added mirrored id

end Service

/-! ### Statuses -/

namespace Failure.Alike

variable {failure failure' : Failure}

theorem status?_eq (alike : failure.Alike failure') : failure'.status? = failure.status? := by
  cases alike <;> rfl

theorem isDomain_eq (alike : failure.Alike failure') : failure'.isDomain = failure.isDomain := by
  cases alike <;> rfl

end Failure.Alike

namespace Http

open Service (Mirrors)

variable {r : Request}

/-- A world and its mirror are answered with one status. -/
def SameStatus (w : World .memory) (serve : StateM (World .memory) Response)
    (serve' : StateM (World .relational) Response) : Prop :=
  (serve'.run w.mirror).1.status = (serve.run w).1.status

theorem status_reportFailure {failure failure' : Failure} (alike : failure.Alike failure') :
    (reportFailure failure').status = (reportFailure failure).status := by
  simp only [reportFailure, alike.status?_eq]
  cases failure.status? <;> rfl

theorem sameStatus_answer (status : Nat) {R : Json → Json → Prop} {op : Service .memory Json}
    {op' : Service .relational Json} (mirrors : Mirrors R w op op') :
    SameStatus w (answer status op) (answer status op') := by
  have result := mirrors.result
  rw [SameStatus, run_answer, run_answer]
  dsimp only
  generalize (op.runFrom w).1 = outcome at result ⊢
  generalize (op'.runFrom w.mirror).1 = outcome' at result ⊢
  cases result with
  | ok => rfl
  | error alike => exact status_reportFailure alike

theorem sameStatus_present (status : Nat) {R : Json → Json → Prop} {op : Service .memory Json}
    {op' : Service .relational Json} (mirrors : Mirrors R w op op') :
    SameStatus w (present status op) (present status op') := by
  have result := mirrors.result
  rw [SameStatus, run_present, run_present]
  dsimp only
  generalize (op.runFrom w).1 = outcome at result ⊢
  generalize (op'.runFrom w.mirror).1 = outcome' at result ⊢
  cases result <;> rfl

/-- What is shown of an operation is shown of both. -/
theorem mirrors_shown {R : α → α' → Prop} {op : Service .memory α} {op' : Service .relational α'}
    (mirrors : Mirrors R w op op') (show? : α → Json) (show?' : α' → Json) :
    Mirrors (fun _ _ => True) w (op >>= fun a => pure (show? a))
      (op' >>= fun a => pure (show?' a)) :=
  mirrors.bind fun _ _ _ => Service.mirrors_pure trivial

theorem mirrors_checked {op : Service .memory α} {op' : Service .relational α}
    (mirrors : Mirrors Eq w op op') (view : α → Except Failure Json) :
    Mirrors Eq w (op >>= fun a => Service.check (view a))
      (op' >>= fun a => Service.check (view a)) :=
  mirrors.bind fun _ _ same => same ▸ Service.mirrors_check (.refl _)

theorem sameStatus_answerPayment (traceId : String) (form : PaymentForm)
    (mirrors : Mirrors Eq w (Service.pay config now (form.toRequest traceId now))
      (Service.pay config now (form.toRequest traceId now))) :
    SameStatus w (answerPayment config now traceId form)
      (answerPayment config now traceId form) := by
  have result := mirrors.result
  rw [SameStatus, run_answerPayment, run_answerPayment]
  dsimp only
  generalize ((Service.pay config now (form.toRequest traceId now)).runFrom w).1 = outcome
    at result ⊢
  generalize ((Service.pay config now (form.toRequest traceId now)).runFrom w.mirror).1 = outcome'
    at result ⊢
  cases result with
  | ok same =>
    obtain rfl := same
    rfl
  | error alike =>
    simp only [alike.isDomain_eq]
    split
    · exact status_reportFailure alike
    · rfl

/-! ### Bodies -/

theorem sameStatus_answerTo {reading : Reading α} {serve : α → StateM (World .memory) Response}
    {serve' : α → StateM (World .relational) Response}
    (each : ∀ a, reading = .accepted a → SameStatus w (serve a) (serve' a)) :
    SameStatus w (answerTo reading serve) (answerTo reading serve') := by
  cases reading with
  | accepted a => exact each a rfl
  | refused faults => rfl

theorem sameStatus_requireBody {rule : Rule α} {serve : α → StateM (World .memory) Response}
    {serve' : α → StateM (World .relational) Response}
    (each : ∀ form document, rule ["body"] document = .accepted form →
      SameStatus w (serve form) (serve' form)) :
    SameStatus w (requireBody r rule serve) (requireBody r rule serve') := by
  unfold requireBody withBody
  rcases bodyOf r with fault | _ | document
  · cases fault <;> rfl
  · rfl
  · exact sameStatus_answerTo fun form read => each form document read

theorem sameStatus_allowBody {rule : Rule α} (default : α)
    {serve : α → StateM (World .memory) Response}
    {serve' : α → StateM (World .relational) Response}
    (each : ∀ form, SameStatus w (serve form) (serve' form)) :
    SameStatus w (allowBody r rule default serve) (allowBody r rule default serve') := by
  unfold allowBody withBody
  rcases bodyOf r with fault | _ | document
  · cases fault <;> rfl
  · exact each default
  · exact sameStatus_answerTo fun form _ => each (form.getD default)

end Http

/-! ### Requests -/

/-- A time that a clock of universal time shows. -/
structure Time.IsUniversal (now : Time) : Prop where
  offset : now.offset = some 0
  onCalendar : Time.onCalendar now.micros = true

theorem Time.IsUniversal.isSome (universal : now.IsUniversal) : now.offset.isSome := by
  rw [universal.offset]
  rfl

/-- A world and its mirror can serve so many requests alike. -/
structure World.Servable (w : World .memory) (requests : Nat) : Prop where
  orderly : w.Orderly
  stored : w.Stored
  roomy : ∀ i ∈ w.intents, i.Fits requests

namespace Http

open Service (Mirrors)

/-- Whatever the endpoint, a world and its mirror are answered with one status. -/
theorem sameStatus_serve (servable : w.Servable 1)
    (named : ∀ id m, config.directory id = .ok m → ∃ name, m.id = .text name)
    (clock : now.IsUniversal) (r : Request) (endpoint : Endpoint) :
    SameStatus w (serve config now r endpoint) (serve config now r endpoint) := by
  obtain ⟨orderly, stored, roomy⟩ := servable
  obtain ⟨universal, onCalendar⟩ := clock
  have showsWallet {after : World .memory} (stored : after.Stored) (user : String) :
      Mirrors (fun _ _ => True) after (showWallet user) (showWallet user) :=
    (Service.mirrors_available stored user).bind fun _ kept _ =>
      mirrors_shown (Service.mirrors_locked (kept stored) user) _ _
  cases endpoint with
  | health => rfl
  | metrics => rfl
  | openWallet =>
    apply sameStatus_requireBody
    intro form document read
    obtain ⟨cents, -, states⟩ := WalletForm.states_of_rule read
    have opens : Mirrors Eq w (Service.openWallet form.user (.decimal form.balance))
        (Service.openWallet form.user (.decimal form.balance)) :=
      Service.mirrors_openWallet fun d brought => states.natAbs_lt brought
    apply sameStatus_answer
    exact opens.bind fun _ kept _ => showsWallet (kept stored) form.user
  | wallet user =>
    apply sameStatus_answer
    exact showsWallet stored user
  | createIntent =>
    apply sameStatus_requireBody
    intro form document read
    obtain ⟨cents, -, states⟩ := IntentForm.states_of_rule read
    apply sameStatus_answer (R := Eq)
    refine Service.mirrors_check_bind (.refl _) fun {policy policy'} made same => ?_
    obtain rfl := same
    have accepted := IntentForm.isAccepted_of_rule read made
    have limit := (PolicyForm.holds_of_toPolicy states made).cents_lt
    exact mirrors_checked (Service.mirrors_createIntent stored config universal onCalendar form.user
      form.text accepted limit) _
  | listIntents =>
    apply sameStatus_answerTo
    intro user read
    apply sameStatus_present
    exact mirrors_checked (Service.mirrors_listIntents stored user) _
  | intent id =>
    apply sameStatus_answer
    exact mirrors_checked (Service.mirrors_getIntent stored id) _
  | cancelIntent id =>
    apply sameStatus_answer
    exact (Service.mirrors_cancelIntent stored roomy).bind fun _ kept _ =>
      mirrors_shown (Service.mirrors_getIntent (kept stored) id) _ _
  | pay =>
    apply sameStatus_requireBody
    intro form document read
    obtain ⟨cents, states⟩ := PaymentForm.states_of_rule read
    apply sameStatus_answerPayment
    exact Service.mirrors_pay stored roomy config universal
      (fun d brought => states.natAbs_lt brought) (named _)
  | history =>
    apply sameStatus_answerTo
    rintro ⟨user, limit⟩ read
    simp only [Reading.seq_accepted_iff, Reading.map_accepted_iff] at read
    obtain ⟨_, few, ⟨_, -, rfl⟩, limited, same⟩ := read
    obtain ⟨-, rfl⟩ := Prod.mk.inj same
    have fits : ∀ n ∈ some few, 0 ≤ n ∧ n < 2 ^ (63 : Nat) := by
      rintro n ⟨⟩
      exact fits_of_historyLimit limited
    apply sameStatus_present
    exact mirrors_shown (Service.mirrors_history_any stored user fits) _ _
  | createEscrow =>
    apply sameStatus_requireBody
    intro form document read
    have small : ∀ spec ∈ form.milestones.map MilestoneForm.toSpec, ∀ d,
        spec.amount.toAmount = .ok d → d.cents.natAbs < 10 ^ (15 : Nat) := by
      intro spec asked d brought
      obtain ⟨m, mem, rfl⟩ := List.mem_map.mp asked
      obtain ⟨cents, -, states⟩ := EscrowForm.states_of_rule read m mem
      exact states.natAbs_lt brought
    apply sameStatus_answer
    exact mirrors_checked (Service.mirrors_createEscrow stored config universal form.user small
      form.title form.intentId) _
  | listEscrows =>
    apply sameStatus_answerTo
    intro user read
    apply sameStatus_present
    exact mirrors_checked (Service.mirrors_listEscrows stored user) _
  | escrow id =>
    apply sameStatus_answer
    exact mirrors_checked (Service.mirrors_getEscrow stored id) _
  | releaseMilestone escrowId milestoneId =>
    apply sameStatus_allowBody
    intro form
    apply sameStatus_answer
    exact mirrors_shown
      (Service.mirrors_releaseMilestone stored config universal onCalendar _ _ _ _) _ _
  | clawBack escrowId =>
    apply sameStatus_allowBody
    intro form
    apply sameStatus_answer
    exact mirrors_checked (Service.mirrors_clawBack stored config universal onCalendar _ _ _) _
  | reputation user =>
    apply sameStatus_present
    exact mirrors_shown (Service.mirrors_reputation stored config user) _ _
  | recordEvent user =>
    apply sameStatus_requireBody
    intro form document read
    apply sameStatus_present
    exact mirrors_shown
      (Service.mirrors_recordEvent config universal user form.kind form.description) _ _
  | summary user =>
    apply sameStatus_present
    exact mirrors_shown (Service.mirrors_summary_any orderly stored user) _ _

theorem sameStatus_handle (servable : w.Servable 1)
    (named : ∀ id m, config.directory id = .ok m → ∃ name, m.id = .text name)
    (clock : now.IsUniversal) (r : Request) :
    SameStatus w (handle config now r) (handle config now r) := by
  cases route : Route.of r.method r.path with
  | found endpoint =>
    rw [SameStatus, status_handle config now _ route, status_handle config now _ route]
    exact sameStatus_serve servable named clock r endpoint
  | wrongMethod | unknown =>
    simp only [SameStatus, handle, route]
    rfl

end Http

/-! ### Runs -/

open Http (Request handle commandOf after_handle)

namespace World

theorem Servable.of_empty (empty : w.store = {}) (healthy : w.outage = {}) (requests : Nat) :
    w.Servable requests where
  orderly := Http.orderly_of_empty empty healthy
  stored := (Mirrorable.of_empty empty []).stored
  roomy := by simp [intents_of_empty empty]

theorem exists_mirror_of_empty {start : World .relational} (empty : start.store = {}) :
    ∃ kept : World .memory, kept.store = {} ∧ kept.outage = start.outage ∧ kept.mirror = start := by
  obtain ⟨store, ids, journal, tallies, outage, eventWrites, recordWrites⟩ := start
  obtain rfl : store = {} := empty
  exact ⟨{ ids, journal, tallies, outage, eventWrites, recordWrites }, rfl, rfl, rfl⟩

/-- A request leaves a world and its mirror, which can serve one request less. -/
theorem Servable.handled {n : Nat} (servable : w.Servable (n + 1)) (few : n < 2 ^ (63 : Nat))
    (named : ∀ id m, config.directory id = .ok m → ∃ name, m.id = .text name)
    (universal : now.IsUniversal) (r : Request) :
    ((handle config now r).run w).2.Servable n ∧
      ((handle config now r).run w.mirror).2 = ((handle config now r).run w).2.mirror := by
  obtain ⟨orderly, stored, roomy⟩ := servable
  have orderlyNext := (Http.leads_handle config now r w).orderly orderly universal.isSome
  rw [after_handle] at orderlyNext ⊢
  rw [after_handle]
  cases command : commandOf now r with
  | none => exact ⟨⟨orderly, stored, fun i mem => (roomy i mem).mono (by omega)⟩, rfl⟩
  | some c =>
    rw [command] at orderlyNext
    have mirrors := Service.mirrors_command stored
      (fun i mem => (roomy i mem).mono (by omega)) named universal.offset universal.onCalendar
      (Http.isCall_of_commandOf command)
    obtain ⟨next, turn, books⟩ := Service.step_turn config now w c
    have moves := turn.moves (Http.isServed_of_commandOf command).regular orderly.ledgers
    refine ⟨⟨orderlyNext, mirrors.stored stored, ?_⟩, mirrors.world⟩
    rw [serving, books.intents]
    exact moves.fits universal.onCalendar few roomy

/-- Requests leave a world and its mirror. -/
theorem Servable.served
    (named : ∀ id m, config.directory id = .ok m → ∃ name, m.id = .text name)
    {run : List (Time × Request)} (clock : ∀ entry ∈ run, entry.1.IsUniversal) {n : Nat}
    (few : run.length + n ≤ 2 ^ (63 : Nat)) (servable : w.Servable (run.length + n)) :
    (w.served config run).Servable n ∧
      w.mirror.served config run = (w.served config run).mirror := by
  induction run generalizing w with
  | nil =>
    rw [List.length_nil, Nat.zero_add] at servable
    exact ⟨servable, rfl⟩
  | cons entry rest ih =>
    obtain ⟨now, r⟩ := entry
    obtain ⟨first, clock⟩ := List.forall_mem_cons.mp clock
    rw [List.length_cons, Nat.add_right_comm] at few servable
    obtain ⟨servable', mirror⟩ := servable.handled (by omega) named first r
    rw [World.served, World.served, mirror]
    exact ih clock (by omega) servable'

/-- Whatever requests came before, every request is answered with the same status over both
stores. -/
theorem statuses_agree
    (named : ∀ id m, config.directory id = .ok m → ∃ name, m.id = .text name)
    {start : World .memory} (empty : start.store = {}) (healthy : start.outage = {})
    {run : List (Time × Request)} (clock : ∀ entry ∈ run, entry.1.IsUniversal)
    (few : run.length < 2 ^ (63 : Nat)) (universal : now.IsUniversal) (r : Request) :
    ((handle config now r).run (start.mirror.served config run)).1.status =
      ((handle config now r).run (start.served config run)).1.status := by
  obtain ⟨servable, mirror⟩ :=
    Servable.served (n := 1) named clock few (.of_empty empty healthy _)
  rw [mirror]
  exact Http.sameStatus_handle servable named universal r

end World

namespace Http

theorem Reachable.served {start : World .memory} (reached : Reachable config start)
    {run : List (Time × Request)} (clock : ∀ entry ∈ run, entry.1.IsUniversal) :
    Reachable config (start.served config run) := by
  induction run generalizing start with
  | nil => exact reached
  | cons entry rest ih =>
    obtain ⟨now, r⟩ := entry
    obtain ⟨first, clock⟩ := List.forall_mem_cons.mp clock
    exact ih (reached.handled first.isSome r) clock

/-- The worlds that requests bring about, from an empty store of which no writes fail: over records
that are kept as they are, by any clock with an offset, and over rows of a database, by a clock of
universal time, of merchants whose ids are texts, and before a count takes more than 64 bits. -/
inductive Attained (config : Config) (now : Time) : {b : Backend} → World b → Prop
  | kept {w : World .memory} (reached : Reachable config w) (aware : now.offset.isSome) :
      Attained config now w
  | stored {start : World .relational} {run : List (Time × Request)} (empty : start.store = {})
      (healthy : start.outage = {})
      (named : ∀ id m, config.directory id = .ok m → ∃ name, m.id = .text name)
      (clock : ∀ entry ∈ run, entry.1.IsUniversal) (few : run.length < 2 ^ (63 : Nat))
      (universal : now.IsUniversal) : Attained config now (start.served config run)

/-- Whatever is attained, requests are answered as they are over records that are kept. -/
theorem Attained.exists_reachable {b : Backend} {w : World b} (attained : Attained config now w)
    (r : Request) :
    ∃ kept, Reachable config kept ∧ now.offset.isSome ∧
      ((handle config now r).run w).1.status = ((handle config now r).run kept).1.status := by
  cases attained with
  | @kept kept reached aware => exact ⟨kept, reached, aware, rfl⟩
  | @stored start run empty healthy named clock few universal =>
    obtain ⟨kept, empty', outage, rfl⟩ := World.exists_mirror_of_empty empty
    have healthy' : kept.outage = {} := outage.trans healthy
    have reached : Reachable config kept := .start empty' healthy'
    exact ⟨kept.served config run, reached.served clock, universal.isSome,
      World.statuses_agree named empty' healthy' clock few universal r⟩

/-- Whatever requests came before, and over both stores, an endpoint that accepts a request answers
with success or with a refusal of the domain, unless the request asks for something that ends behind
the calendar. For such an intent nothing is foreseen, while a policy that is not accepted is refused
for a value. -/
theorem accepted_answered (regular : config.IsRegular) {b : Backend} {w : World b}
    (attained : Attained config now w) {r : Request} {endpoint : Endpoint}
    (found : Route.of r.method r.path = .found endpoint) (accepts : endpoint.Accepts r) :
    (¬endpoint.Overruns config now r →
      ((handle config now r).run w).1.status ∈ [200, 201, 404, 409, 422]) ∧
    (endpoint = .createIntent →
      (endpoint.Overruns config now r → ((handle config now r).run w).1.status = 500) ∧
      ∀ form failure, Brings r IntentForm.rule form → form.policy.toPolicy = .error failure →
        ((handle config now r).run w).1.status = 422) := by
  obtain ⟨kept, reached, aware, same⟩ := attained.exists_reachable r
  obtain ⟨foreseen, intents⟩ := answers_foreseen regular reached aware found accepts
  rw [same]
  exact ⟨foreseen, fun creates => intents creates .memory kept⟩

/-- Over a database, a wallet is opened, and an intent that ends behind the calendar is a fault. -/
theorem accepted_answered_opened :
    ((handle Sample.config Sample.today Sample.opening).run ({} : World .relational)).1.status ∈
        [200, 201, 404, 409, 422] ∧
      ((handle Sample.config Sample.today Sample.overlong).run
        (Sample.opened .relational)).1.status = 500 := by
  have universal : Sample.today.IsUniversal := ⟨rfl, by decide +kernel⟩
  have attained (run : List (Time × Request)) (clock : ∀ entry ∈ run, entry.1.IsUniversal)
      (few : run.length < 2 ^ (63 : Nat)) :
      Attained Sample.config Sample.today (({} : World .relational).served Sample.config run) :=
    .stored rfl rfl Sample.named_catalog clock few universal
  have opening : Route.of Sample.opening.method Sample.opening.path = .found .openWallet := by
    decide +kernel
  have overlong : Route.of Sample.overlong.method Sample.overlong.path = .found .createIntent := by
    decide +kernel
  obtain ⟨form, policy, brings, made, behind⟩ := Sample.overlong_brings
  obtain ⟨foreseen, -⟩ := accepted_answered Config.isRegular_catalog
    (attained [] (by simp) (by decide)) opening Sample.opening_brings
  obtain ⟨-, crashes⟩ := accepted_answered Config.isRegular_catalog
    (attained [(Sample.today, Sample.opening)] (by simpa using universal) (by decide)) overlong
    ⟨form, brings⟩
  exact ⟨foreseen id, (crashes rfl).1 ⟨form, policy, brings, made, behind⟩⟩

end Http

end Earmark
