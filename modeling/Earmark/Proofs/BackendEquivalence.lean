import Earmark.Proofs.MirroredEscrows
import Earmark.Proofs.UserIsolation

/-!
Two backends, one behaviour. Calls and reads that are made of a store that keeps records as they
are, and of one that keeps rows of them, have the same outcomes, one after the other, when amounts
are compared as numbers (`World.backends_agree`). The whole numbers of a database have 64 bits, and
only beyond these do the two differ (`World.backends_differ`).
-/

namespace Earmark

open scoped Earmark.Whole

/-! ### Outcomes compared as numbers -/

/-- The answer with amounts as numbers: zero has no sign. -/
def Answer.unsigned : Answer → Answer
  | .amount d => .amount d.unsignedZero
  | .payments records => .payments (records.map TransactionRecord.unsigned)
  | .summary figures => .summary figures.unsigned
  | other => other

/-- The outcomes are the same, but for the signs of zeros that are read. -/
inductive Outcome.Same : Outcome → Outcome → Prop
  | reply (r : Reply) : Same (.reply r) (.reply r)
  | answer {a a' : Answer} (same : a.unsigned = a'.unsigned) : Same (.answer a) (.answer a')

theorem TransactionRecord.unsigned_unsigned (record : TransactionRecord) :
    record.unsigned.unsigned = record.unsigned := by
  simp only [unsigned, Decimal.unsignedZero_unsignedZero]

/-! ### Calls -/

/-- What is brought to the cent has at most twelve digits before the point, or is rounded up to one
more. -/
def Numeral.HasTwelveDigits (n : Numeral) : Prop :=
  ∀ d, n.toAmount = .ok d → |d.toRat| ≤ 10 ^ (12 : Nat)

/-- Whether a command is one of the calls of a service, with policies that were accepted and amounts
of at most twelve digits before the point. -/
def Command.IsCall : Command → Prop
  | .openWallet _ balance => balance.HasTwelveDigits
  | .createIntent _ _ policy => policy.IsAccepted ∧ policy.limit.toRat ≤ 10 ^ (12 : Nat)
  | .pay request => request.amount.HasTwelveDigits
  | .createEscrow _ specs _ _ => ∀ spec ∈ specs, spec.amount.HasTwelveDigits
  | .useIntent .. | .violateIntent _ | .cancelIntent _ | .releaseMilestone .. | .clawBack ..
  | .recordEvent .. => True
  | .lockFunds .. | .releaseFunds .. | .addIntent _ => False

/-- Whether an operation is a call, or a read with a limit that fits a column, if it has one. -/
def Operation.IsCall : Operation → Prop
  | .command c => c.IsCall
  | .inquiry (.payments _ limit) => ∀ n ∈ limit, 0 ≤ n ∧ n < 2 ^ (63 : Nat)
  | .inquiry _ => True

theorem Decimal.IsAmount.natAbs_cents_lt {d : Decimal} (amount : d.IsAmount)
    (small : |d.toRat| ≤ 10 ^ (12 : Nat)) : d.cents.natAbs < 10 ^ (15 : Nat) := by
  obtain ⟨low, high⟩ := abs_le.mp small
  rw [amount.toRat_eq] at low high
  have low' : (-(10 ^ (14 : Nat) : ℤ) : ℚ) ≤ d.cents := by
    norm_num at low ⊢
    linarith
  have high' : (d.cents : ℚ) ≤ (10 ^ (14 : Nat) : ℤ) := by
    norm_num at high ⊢
    linarith
  have low : -10 ^ (14 : Nat) ≤ d.cents := by exact_mod_cast low'
  have high : d.cents ≤ 10 ^ (14 : Nat) := by exact_mod_cast high'
  omega

theorem Numeral.HasTwelveDigits.natAbs_lt {n : Numeral} (digits : n.HasTwelveDigits) {d : Decimal}
    (brought : n.toAmount = .ok d) : d.cents.natAbs < 10 ^ (15 : Nat) :=
  (isAmount_of_toAmount brought).natAbs_cents_lt (digits d brought)

variable {config : Config} {now : Time} {w next : World .memory} {c : Command}
  {reply : Except Failure Reply}

namespace Service

/-! ### One operation -/

theorem Mirrors.map {α β : Type} {op : Service .memory α} {op' : Service .relational α}
    (mirrors : Mirrors Eq w op op') (f : α → β) :
    Mirrors Eq w (op >>= fun a => pure (f a)) (op' >>= fun a => pure (f a)) :=
  mirrors.bind fun _ _ same => mirrors_pure (same ▸ rfl)

theorem mirrors_command (stored : w.Stored) (roomy : ∀ i ∈ w.intents, i.Fits 1)
    (named : ∀ id m, config.directory id = .ok m → ∃ name, m.id = .text name)
    (universal : now.offset = some 0) (onCalendar : Time.onCalendar now.micros = true)
    (call : c.IsCall) : Mirrors Eq w (c.run config now) (c.run config now) := by
  cases c with
  | openWallet user balance =>
    exact (mirrors_openWallet fun d brought => Numeral.HasTwelveDigits.natAbs_lt call brought).map _
  | lockFunds => exact call.elim
  | releaseFunds => exact call.elim
  | addIntent => exact call.elim
  | createIntent user text policy =>
    obtain ⟨accepted, small⟩ := call
    obtain ⟨amount, positive⟩ := accepted.built.limit
    have limit_lt := amount.natAbs_cents_lt ((abs_of_pos (amount.toRat_pos positive)).le.trans small)
    exact (mirrors_createIntent stored config universal onCalendar user text accepted
      (by omega)).map _
  | useIntent id amount => exact (mirrors_useIntent stored roomy amount).map _
  | violateIntent id => exact (mirrors_violateIntent stored roomy).map _
  | cancelIntent id => exact (mirrors_cancelIntent stored roomy).map _
  | pay request =>
    exact (mirrors_pay stored roomy config universal
      (fun d brought => Numeral.HasTwelveDigits.natAbs_lt call brought) (named _)).map _
  | createEscrow user specs title intentId =>
    exact (mirrors_createEscrow stored config universal user
      (fun spec asked d brought => (call spec asked).natAbs_lt brought) title intentId).map _
  | releaseMilestone escrowId milestoneId proof merchantId =>
    exact (mirrors_releaseMilestone stored config universal onCalendar _ _ _ _).map _
  | clawBack escrowId reason part =>
    exact (mirrors_clawBack stored config universal onCalendar _ _ _).map _
  | recordEvent user kind description =>
    exact (mirrors_recordEvent config universal _ _ _).map _

theorem mirrors_inquiry (stored : w.Stored) (inOrder : TransactionRecord.InOrder w.records)
    (config : Config) {q : Inquiry} (call : (Operation.inquiry q).IsCall) :
    Mirrors (fun a a' => a.unsigned = a'.unsigned) w (q.ask config) (q.ask config) := by
  cases q with
  | available user =>
    exact (mirrors_available stored user).bind fun _ _ same =>
      mirrors_pure (congrArg Answer.amount same.unsignedZero_eq)
  | locked user =>
    exact (mirrors_locked stored user).bind fun _ _ same => mirrors_pure (same ▸ rfl)
  | intent id =>
    exact (mirrors_getIntent stored id).bind fun _ _ same => mirrors_pure (same ▸ rfl)
  | intents user =>
    exact (mirrors_listIntents stored user).bind fun _ _ same => mirrors_pure (same ▸ rfl)
  | payments user limit =>
    refine (mirrors_history stored inOrder user call).bind fun _ _ same => mirrors_pure ?_
    rw [same, Answer.unsigned, Answer.unsigned, List.map_map]
    congr 2
    funext record
    exact record.unsigned_unsigned.symm
  | escrow id =>
    exact (mirrors_getEscrow stored id).bind fun _ _ same => mirrors_pure (same ▸ rfl)
  | escrows user =>
    exact (mirrors_listEscrows stored user).bind fun _ _ same => mirrors_pure (same ▸ rfl)
  | reputation user =>
    exact (mirrors_reputation stored config user).bind fun _ _ same => mirrors_pure (same ▸ rfl)
  | summary user =>
    exact (mirrors_summary stored inOrder user).bind fun _ _ same =>
      mirrors_pure (congrArg Answer.summary same)

theorem mirrors_operation (stored : w.Stored) (roomy : ∀ i ∈ w.intents, i.Fits 1)
    (inOrder : TransactionRecord.InOrder w.records)
    (named : ∀ id m, config.directory id = .ok m → ∃ name, m.id = .text name)
    (universal : now.offset = some 0) (onCalendar : Time.onCalendar now.micros = true)
    {op : Operation} (call : op.IsCall) :
    Mirrors Outcome.Same w (op.run config now) (op.run config now) := by
  cases op with
  | command c =>
    exact (mirrors_command stored roomy named universal onCalendar call).bind fun _ _ same =>
      mirrors_pure (same ▸ .reply _)
  | inquiry q =>
    exact (mirrors_inquiry stored inOrder config call).bind fun _ _ same =>
      mirrors_pure (.answer same)

end Service

/-! ### Runs -/

theorem Command.IsCall.regular (call : c.IsCall) : c.Regular := by
  cases c with
  | createIntent => exact call.1.built
  | addIntent => exact call
  | _ => trivial

/-- A turn counts at most one more violation and one more approval of an intent. -/
theorem Intent.Moves.fits {intents after : List Intent} {changes : Nat}
    (moves : Moves now intents after) (onCalendar : Time.onCalendar now.micros = true)
    (few : changes < 2 ^ (63 : Nat)) (fits : ∀ i ∈ intents, i.Fits (changes + 1)) :
    ∀ i ∈ after, i.Fits changes := by
  intro k mem
  cases moves with
  | same => exact (fits k mem).mono (by omega)
  | opened built opened fresh =>
    rcases List.mem_append.mp mem with old | new
    · exact (fits k old).mono (by omega)
    · rw [List.mem_singleton] at new
      exact new ▸ fits_of_opened onCalendar opened few
  | changed found change =>
    rcases mem_replaceIn mem with rfl | ⟨old, -⟩
    · exact (fits _ (mem_of_findIn found)).change change
    · exact (fits k old).mono (by omega)

/-- A turn logs at most one payment, at its own time. -/
theorem Turn.records_dated (turn : Turn config now w c reply next) :
    next.records = w.records ∨
      ∃ added, added.createdAt = now ∧ next.records = w.records ++ [added] := by
  have logged (w : World .memory) (record : TransactionRecord) (dated : record.createdAt = now) :
      (w.logging record).records = w.records ∨
        ∃ added, added.createdAt = now ∧ (w.logging record).records = w.records ++ [added] := by
    rw [World.records_logging]
    split
    · exact .inl rfl
    · exact .inr ⟨record, dated, rfl⟩
  cases turn with
  | payNowhere => exact logged _ (Payment.record _ now _ _) rfl
  | pay => exact logged ((w.withWallets _).withIntents _) (Payment.record _ now _ _) rfl
  | _ => exact .inl rfl

/-- What a world keeps can be mirrored through some operations that are still to come. -/
structure World.Mirrorable (w : World .memory) (rest : List (Time × Operation)) : Prop where
  stored : w.Stored
  ledgers : Intent.Ledgers w.intents
  roomy : ∀ i ∈ w.intents, i.Fits rest.length
  inOrder : TransactionRecord.InOrder w.records
  earlier : ∀ r ∈ w.records, ∀ entry ∈ rest, r.createdAt.instant < entry.1.instant

theorem World.Mirrorable.of_empty (empty : w.store = {}) (rest : List (Time × Operation)) :
    w.Mirrorable rest := by
  have wallets := World.wallets_of_empty empty
  have intents := World.intents_of_empty empty
  have escrows : w.escrows = [] := by rw [World.escrows, empty]; rfl
  have records := World.records_of_empty empty
  have events : w.events = [] := by rw [World.events, empty]; rfl
  exact
    { stored := ⟨by simp [wallets], by simp [wallets], by simp [intents], by simp [escrows],
        by simp [records], by simp [events]⟩
      ledgers := .of_empty empty
      roomy := by simp [intents]
      inOrder := by simp [records, TransactionRecord.InOrder]
      earlier := by simp [records] }

/-- When and how an operation is called: by a clock of universal time, and as a call. -/
def Operation.IsCalledAt (op : Operation) (now : Time) : Prop :=
  op.IsCall ∧ now.offset = some 0 ∧ Time.onCalendar now.micros = true

theorem World.Mirrorable.step {op : Operation} {rest : List (Time × Operation)}
    (mirrorable : w.Mirrorable ((now, op) :: rest))
    (named : ∀ id m, config.directory id = .ok m → ∃ name, m.id = .text name)
    (called : op.IsCalledAt now) (few : rest.length < 2 ^ (63 : Nat))
    (later : ∀ entry ∈ rest, now.instant < entry.1.instant) :
    Service.Mirrors Outcome.Same w (op.run config now) (op.run config now) ∧
      ((op.run config now).runFrom w).2.Mirrorable rest := by
  obtain ⟨call, universal, onCalendar⟩ := called
  have mirrors := Service.mirrors_operation mirrorable.stored
    (fun i mem => (mirrorable.roomy i mem).mono (by simp)) mirrorable.inOrder named universal
    onCalendar call
  refine ⟨mirrors, ?_⟩
  have stored := mirrors.stored mirrorable.stored
  have earlier : ∀ r ∈ w.records, ∀ entry ∈ rest, r.createdAt.instant < entry.1.instant :=
    fun r mem entry known => mirrorable.earlier r mem entry (by simp [known])
  cases op with
  | inquiry q =>
    have same : ((Operation.inquiry q).run config now).runFrom w =
        (_, ((q.ask config).runFrom w).2) := Service.runFrom_map w _ Outcome.answer
    have read : ((q.ask config).runFrom w).2 = w := Service.readsOnly_ask config q w
    rw [same, read]
    exact ⟨mirrorable.stored, mirrorable.ledgers,
      fun i mem => (mirrorable.roomy i mem).mono (by simp), mirrorable.inOrder, earlier⟩
  | command c =>
    have same : ((Operation.command c).run config now).runFrom w =
        (_, (w.step config now c).2) := Service.runFrom_map w _ Outcome.reply
    rw [same] at stored ⊢
    obtain ⟨next, turn, books⟩ := Service.step_turn config now w c
    have regular := Command.IsCall.regular call
    have moves := turn.moves regular mirrorable.ledgers
    have before : ∀ r ∈ w.records, r.createdAt.instant < now.instant :=
      fun r mem => mirrorable.earlier r mem (now, .command c) (by simp)
    refine ⟨stored, books.intents ▸ mirrorable.ledgers.turn regular turn,
      books.intents ▸ moves.fits onCalendar few mirrorable.roomy, ?_, ?_⟩
    all_goals
      rw [books.records]
      rcases turn.records_dated with kept | ⟨added, dated, logged⟩
    · exact kept ▸ mirrorable.inOrder
    · rw [logged]
      refine List.pairwise_append.mpr ⟨mirrorable.inOrder, List.pairwise_singleton _ _, ?_⟩
      rintro r mem _ (_ | ⟨_, ⟨⟩⟩)
      exact dated ▸ before r mem
    · exact kept ▸ earlier
    · rw [logged]
      refine List.forall_mem_append.mpr ⟨earlier, List.forall_mem_singleton.mpr ?_⟩
      exact dated ▸ later

/-- The world after some operations, each at its time and each succeeding or failing. -/
def World.afterOperations {b : Backend} (config : Config) (w : World b) :
    List (Time × Operation) → World b
  | [] => w
  | (now, op) :: rest => ((op.run config now).runFrom w).2.afterOperations config rest

/-- Calls and reads have the same outcomes in a world and its mirror, and end in a world and its
mirror. -/
theorem World.Mirrorable.outcomes
    (named : ∀ id m, config.directory id = .ok m → ∃ name, m.id = .text name)
    {run : List (Time × Operation)} (called : ∀ entry ∈ run, entry.2.IsCalledAt entry.1)
    (clock : run.Pairwise (·.1.instant < ·.1.instant)) (few : run.length < 2 ^ (63 : Nat))
    (mirrorable : w.Mirrorable run) :
    List.Forall₂ (SameResult Outcome.Same) (w.outcomes config run) (w.mirror.outcomes config run) ∧
      (w.afterOperations config run).Stored ∧
      w.mirror.afterOperations config run = (w.afterOperations config run).mirror := by
  induction run generalizing w with
  | nil => exact ⟨.nil, mirrorable.stored, rfl⟩
  | cons entry rest ih =>
    obtain ⟨now, op⟩ := entry
    obtain ⟨later, clock⟩ := List.pairwise_cons.mp clock
    obtain ⟨first, called⟩ := List.forall_mem_cons.mp called
    rw [List.length_cons] at few
    obtain ⟨mirrors, mirrorable⟩ := mirrorable.step named first (by omega) later
    have rest := ih called clock (by omega) mirrorable
    rw [← mirrors.world] at rest
    obtain ⟨outcomes, stored, world⟩ := rest
    exact ⟨.cons mirrors.result outcomes, stored, world⟩

/-- Calls and reads, made one after the other over records that are kept as they are and over rows
of a database, each from empty, under the same ids and by the same clock, have the same outcomes:
the same results, amounts compared as numbers, and failures of the same kind. The events of a user
that are read behind them are the same, in the same order. -/
theorem World.backends_agree
    (named : ∀ id m, config.directory id = .ok m → ∃ name, m.id = .text name) (ids : Ids)
    (outage : Outage) {run : List (Time × Operation)}
    (called : ∀ entry ∈ run, entry.2.IsCalledAt entry.1)
    (clock : run.Pairwise (·.1.instant < ·.1.instant)) (few : run.length < 2 ^ (63 : Nat)) :
    List.Forall₂ (SameResult Outcome.Same)
      (({ ids, outage } : World .memory).outcomes config run)
      (({ ids, outage } : World .relational).outcomes config run) ∧
    ∀ user, ∃ events,
      ((Service.eventsOf user).runFrom
        (({ ids, outage } : World .memory).afterOperations config run)).1 = .ok events ∧
      ((Service.eventsOf user).runFrom
        (({ ids, outage } : World .relational).afterOperations config run)).1 = .ok events := by
  have start : ({ ids, outage } : World .memory).mirror = { ids, outage } := rfl
  obtain ⟨outcomes, stored, world⟩ :=
    World.Mirrorable.outcomes named called clock few (w := { ids, outage }) (.of_empty rfl run)
  rw [start] at outcomes world
  refine ⟨outcomes, fun user => ?_⟩
  obtain ⟨read, read'⟩ := Service.runFrom_eventsOf_mirror stored user
  exact ⟨_, congrArg Prod.fst read, by rw [world, read']⟩

/-! ### A purchase, and a limit beyond the columns -/

namespace Sample

def minute (n : Int) : Time := { today with micros := today.micros + n * 60000000 }

/-- A purchase for an intent, and what is read behind it. -/
def operations : List (Time × Operation) :=
  [(minute 0, .command (.openWallet "reader" (.whole 100))),
   (minute 1, .command (.createIntent "reader" "books" policy)),
   (minute 2, .command (.pay
     { user := "reader", merchant := "MRC001", amount := .decimal (.ofCents 2550)
       requestedAt := minute 2 })),
   (minute 3, .inquiry (.payments "reader" (some 50))),
   (minute 4, .inquiry (.summary "reader"))]

theorem named_catalog (id : String) (m : Merchant) (known : Sample.config.directory id = .ok m) :
    ∃ name, m.id = .text name := by
  have listed := Directory.mem_of_ofList known
  simp only [Directory.catalog, List.mem_cons, List.not_mem_nil, or_false] at listed
  rcases listed with rfl | rfl | rfl | rfl | rfl | rfl | rfl | rfl <;> exact ⟨_, rfl⟩

theorem operations_called : ∀ entry ∈ operations, entry.2.IsCalledAt entry.1 := by
  have small (d : Decimal) (finite : |d.toRat| ≤ 10 ^ (12 : Nat)) (n : Numeral)
      (same : n.toAmount = .ok d) : n.HasTwelveDigits := by
    intro other brought
    cases same.symm.trans brought
    exact finite
  have hundred : (Numeral.whole 100).HasTwelveDigits :=
    small (.ofCents 10000) (by norm_num [Decimal.toRat, Decimal.ofCents, Decimal.signed]) _
      (eq_ok_of_toOption (by decide +kernel))
  have price : (Numeral.decimal (.ofCents 2550)).HasTwelveDigits :=
    small (.ofCents 2550) (by norm_num [Decimal.toRat, Decimal.ofCents, Decimal.signed]) _
      (eq_ok_of_toOption (by decide +kernel))
  have accepted : policy.IsAccepted := ⟨policy_isBuilt, by rintro g ⟨⟩, by rintro s ⟨⟩⟩
  have limit : policy.limit.toRat ≤ 10 ^ (12 : Nat) := by
    norm_num [policy, Decimal.toRat, Decimal.ofCents, Decimal.signed]
  simp only [operations, List.forall_mem_cons, List.not_mem_nil, false_implies, implies_true,
    and_true]
  refine ⟨⟨hundred, rfl, by decide +kernel⟩, ⟨⟨accepted, limit⟩, rfl, by decide +kernel⟩,
    ⟨price, rfl, by decide +kernel⟩, ⟨?_, rfl, by decide +kernel⟩, ⟨trivial, rfl, by decide +kernel⟩⟩
  rintro n ⟨⟩
  decide

end Sample

theorem World.backends_agree_purchase :
    List.Forall₂ (SameResult Outcome.Same)
      (({} : World .memory).outcomes Sample.config Sample.operations)
      (({} : World .relational).outcomes Sample.config Sample.operations) ∧
    (({} : World .memory).outcomes Sample.config Sample.operations).map (·.isOk) =
      [true, true, true, true, true] :=
  ⟨(World.backends_agree Sample.named_catalog {} {} Sample.operations_called (by decide +kernel)
    (by decide)).1, by decide +kernel⟩

/-- A limit of 64 bits is no limit to records that are kept as they are, but fits no column. -/
theorem World.backends_differ :
    ({} : World .memory).outcomes Sample.config
        [(Sample.today, .inquiry (.payments "reader" (some (2 ^ (63 : Nat)))))] =
      [.ok (.answer (.payments []))] ∧
    ({} : World .relational).outcomes Sample.config
        [(Sample.today, .inquiry (.payments "reader" (some (2 ^ (63 : Nat)))))] =
      [.error .outOfRange] := ⟨rfl, rfl⟩

end Earmark
