import Earmark.Proofs.Advice
import Earmark.Proofs.Gauges
import Earmark.Proofs.PolicyDecisions
import Earmark.Proofs.ReputationTotals

/-!
The counters reconcile with the stores. From empty stores whose writes go through, whatever is
called and whether it succeeds or fails, every counter stands at what the rows of the store tell of
it, and the counter of lost events at the number of follow-up writes that failed
(`World.counters_reconcile`). A counter is moved apart from the write it describes; what one call
does to both is `World.Balances`, and a run adds up its calls.
-/

namespace Earmark

variable {b : Backend} {α β : Type} {g : Gauge b}

/-- What a counter should stand at, by what is stored. Lost events leave nothing in a store. -/
def Store.due (g : Gauge b) (s : Store b) : Tally → Nat
  | .validation .approved => s.records.countP fun row => g.approved row && !g.bypass row
  | .validation .rejected => s.records.countP fun row => !g.approved row
  | .validation .emergency => s.records.countP g.bypass
  | .rejection stage => s.records.countP (g.failedAt · == some stage)
  | .override => s.records.countP g.bypass
  | .latency => s.records.length
  | .release => (s.escrows.map g.completions).sum
  | .clawback reason => s.escrows.countP (g.claim · == some reason)
  | .event kind => s.events.countP (g.kind · == some kind)
  | .lostEvent => 0

/-- Whether the log of payments takes the records of a merchant. -/
def Backend.Logs (b : Backend) (m : Merchant) : Prop :=
  ∀ record : TransactionRecord, record.merchantId = m.id → ∃ row, b.records.write record = .ok row

namespace World

/-- The numbers of the writes of events that were tried from a world to a later one. -/
def tried (w after : World b) : List Nat :=
  List.range' w.eventWrites (after.eventWrites - w.eventWrites)

/-- What counters can be held against: escrows with ids of their own, records that were judged, and
a log of payments that takes its writes. -/
structure Countable (g : Gauge b) (w : World b) : Prop where
  distinct : (w.store.escrows.map b.escrows.id).Nodup
  sound : ∀ row ∈ w.store.escrows, g.Sound row
  judged : ∀ row ∈ w.store.records, g.approved row = (g.failedAt row).isNone
  recordsUp : ∀ n, w.outage.records n = false

/-- From a world on, the counters move by what the store moves. -/
structure Counts (g : Gauge b) (w after : World b) : Prop where
  countable : after.Countable g
  eventsDown : after.outage.events = w.outage.events
  writes : w.eventWrites ≤ after.eventWrites
  moves : ∀ t, t ≠ .lostEvent →
    after.count t + w.store.due g t = w.count t + after.store.due g t

/-- And the events that are lost are those whose writes fail. -/
structure Balances (g : Gauge b) (w after : World b) : Prop extends Counts g w after where
  lost : after.count .lostEvent = w.count .lostEvent + (w.tried after).countP w.outage.events

theorem Balances.trans {w middle after : World b} (first : w.Balances g middle)
    (second : middle.Balances g after) : w.Balances g after where
  countable := second.countable
  eventsDown := second.eventsDown.trans first.eventsDown
  writes := first.writes.trans second.writes
  moves t stored := by
    have moved := first.moves t stored
    have moved' := second.moves t stored
    omega
  lost := by
    have early := first.writes
    have late := second.writes
    have joined := List.range'_append_1 (s := w.eventWrites)
      (m := middle.eventWrites - w.eventWrites) (n := after.eventWrites - middle.eventWrites)
    rw [show w.eventWrites + (middle.eventWrites - w.eventWrites) = middle.eventWrites by omega,
      show middle.eventWrites - w.eventWrites + (after.eventWrites - middle.eventWrites) =
        after.eventWrites - w.eventWrites by omega] at joined
    rw [second.lost, first.lost, first.eventsDown, Nat.add_assoc, ← List.countP_append]
    exact congrArg (fun numbers => _ + List.countP _ numbers) joined

/-- What is due depends on what is filed. -/
theorem due_of_filing {w after : World b} (same : after.filing = w.filing) :
    after.store.due g = w.store.due g := by
  have records : after.store.records = w.store.records := congrArg Filing.records same
  have escrows : after.store.escrows = w.store.escrows := congrArg Filing.escrows same
  have events : after.store.events = w.store.events := congrArg Filing.events same
  funext t
  unfold Store.due
  rw [records, escrows, events]

theorem Countable.of_filing {w after : World b} (countable : w.Countable g)
    (same : after.filing = w.filing) : after.Countable g := by
  obtain ⟨distinct, sound, judged, recordsUp⟩ := countable
  simp only [World.filing, Filing.mk.injEq] at same
  obtain ⟨records, escrows, -, -, -, -, recordsDown⟩ := same
  exact ⟨escrows ▸ distinct, escrows ▸ sound, records ▸ judged, recordsDown ▸ recordsUp⟩

/-- Where nothing is filed otherwise, there was nothing to count. -/
theorem Balances.of_filing {w after : World b} (countable : w.Countable g)
    (same : after.filing = w.filing) : w.Balances g after := by
  have writes : after.eventWrites = w.eventWrites := congrArg Filing.eventWrites same
  have counted (t : Tally) : after.count t = w.count t :=
    congrArg (List.count t) (congrArg Filing.tallies same)
  refine ⟨⟨countable.of_filing same, congrArg Filing.eventsDown same, writes.ge, fun t _ => ?_⟩, ?_⟩
  · rw [counted, due_of_filing same]
  · rw [counted, tried, writes, Nat.sub_self]
    rfl

end World

namespace Service

/-- The operation moves the counters by what it does to the store. -/
def Balanced (g : Gauge b) (op : Service b α) : Prop :=
  ∀ w : World b, w.Countable g → w.Balances g (op.runFrom w).2

/-! ### What such an operation is made of -/

theorem Detached.balanced {op : Service b α} (detached : Detached op) : Balanced g op :=
  fun w countable => .of_filing countable (detached.filing w)

theorem Balanced.bindWith {p : α → Prop} {op : Service b α} {next : α → Service b β}
    (first : Balanced g op) (yields : Yields p op) (rest : ∀ a, p a → Balanced g (next a)) :
    Balanced g (op >>= next) := by
  intro w countable
  have balances := first w countable
  rw [runFrom_bind]
  rcases ran : op.runFrom w with ⟨failure | a, middle⟩
  · rwa [ran] at balances
  · rw [ran] at balances
    exact balances.trans (rest a (yields ran) middle balances.countable)

theorem Balanced.bind {op : Service b α} {next : α → Service b β} (first : Balanced g op)
    (rest : ∀ a, Balanced g (next a)) : Balanced g (op >>= next) :=
  first.bindWith (fun _ _ _ _ => trivial : Yields (fun _ => True) op) fun a _ => rest a

theorem balanced_ite {condition : Prop} [Decidable condition] {op other : Service b α}
    (first : Balanced g op) (second : Balanced g other) :
    Balanced g (if condition then op else other) := by
  split
  · exact first
  · exact second

theorem balanced_pure (a : α) : Balanced g (pure a : Service b α) := (detached_pure a).balanced

theorem balanced_note (entry : LogEntry) : Balanced g (note entry : Service b Unit) :=
  (detached_note entry).balanced

/-! ### Events -/

/-- An event is counted as it is written, or fails before either. -/
theorem runFrom_recordEvent_counted (g : Gauge b) (config : Config) (d : EventDraft)
    (w : World b) :
    (w.outage.events w.eventWrites = true ∧
      (recordEvent config d.time d.user d.kind d.description).runFrom w =
        (.error (.storeDown "reputation"), { w with eventWrites := w.eventWrites + 1 })) ∨
    (w.outage.events w.eventWrites = false ∧ ∃ event row scores ids, g.kind row = some d.kind ∧
      (recordEvent config d.time d.user d.kind d.description).runFrom w = (.ok event,
        { w with
          eventWrites := w.eventWrites + 1, ids
          store := { w.store with events := w.store.events ++ [row], scores }
          tallies := .event d.kind :: w.tallies })) := by
  simp only [recordEvent, runFrom_get_bind, runFrom_modify_bind]
  cases w.outage.events w.eventWrites with
  | true => exact .inl ⟨rfl, rfl⟩
  | false =>
    refine .inr ⟨rfl, ?_⟩
    simp only [Bool.false_eq_true, ↓reduceIte, scoreOf, bind_assoc, pure_bind, runFrom_get_bind,
      runFrom_modify_bind]
    obtain ⟨row, written, kind⟩ := g.event_written (Reputation.event (Ids.event (w.ids.events + 1))
      d.user d.kind d.description ((w.store.scores.lookup d.user).getD config.baseline) d.time)
    rw [runFrom_bind, runFrom_take, written]
    exact ⟨_, row, _, _, kind, rfl⟩

/-- A write of an event that fails is counted, if it follows a change. -/
theorem balances_lost {w : World b} (countable : w.Countable g)
    (down : w.outage.events w.eventWrites = true) (journal : List LogEntry) :
    w.Balances g
      { w with eventWrites := w.eventWrites + 1, tallies := .lostEvent :: w.tallies, journal } where
  countable := ⟨countable.distinct, countable.sound, countable.judged, countable.recordsUp⟩
  eventsDown := rfl
  writes := Nat.le_succ _
  moves t stored := by
    have other : (Tally.lostEvent :: w.tallies).count t = w.tallies.count t :=
      List.count_cons_of_ne (Ne.symm stored)
    exact congrArg (· + w.store.due g t) other
  lost := by simp [World.tried, World.count, down]

theorem due_event {s : Store b} {row : b.events.Row} {kind : EventKind}
    (told : g.kind row = some kind) (scores : List (String × Int)) (t : Tally) :
    Store.due g { s with events := s.events ++ [row], scores } t =
      s.due g t + [Tally.event kind].count t := by
  cases t with
  | event other =>
    by_cases same : kind = other <;>
      simp [Store.due, List.countP_append, told, same]
  | validation outcome => cases outcome <;> rfl
  | _ => rfl

theorem balances_event {w : World b} (countable : w.Countable g) {row : b.events.Row}
    {kind : EventKind} (told : g.kind row = some kind)
    (up : w.outage.events w.eventWrites = false) (scores : List (String × Int)) (ids : Ids) :
    w.Balances g
      { w with
        eventWrites := w.eventWrites + 1, ids
        store := { w.store with events := w.store.events ++ [row], scores }
        tallies := .event kind :: w.tallies } where
  countable := ⟨countable.distinct, countable.sound, countable.judged, countable.recordsUp⟩
  eventsDown := rfl
  writes := Nat.le_succ _
  moves t stored := by
    rw [due_event told]
    simp only [World.count, List.count_cons, List.count_nil]
    omega
  lost := by simp [World.tried, World.count, up]

theorem balanced_follow (config : Config) (now : Time) (user : String) (kind : EventKind)
    (description : String) :
    Balanced g (follow config now user kind description : Service b Unit) := by
  intro w countable
  have tried := runFrom_attempt w
    (recordEvent config now user kind description : Service b ReputationEvent)
  rcases runFrom_recordEvent_counted g config ⟨user, kind, description, now⟩ w with
    ⟨down, failed⟩ | ⟨up, event, row, scores, ids, told, done⟩
  · rw [failed] at tried
    rw [follow, runFrom_bind_ok tried]
    exact balances_lost countable down _
  · rw [done] at tried
    rw [follow, runFrom_bind_ok tried]
    exact balances_event countable told up scores ids

/-- An event that is recorded directly is counted when it is written; a write that fails is told to
the caller and not counted. -/
theorem counts_recordEvent (config : Config) (now : Time) (user : String) (kind : EventKind)
    (description : String) {w : World b} (countable : w.Countable g) :
    w.Counts g ((recordEvent config now user kind description : Service b _).runFrom w).2 ∧
      ((recordEvent config now user kind description : Service b _).runFrom w).2.count .lostEvent =
        w.count .lostEvent := by
  rcases runFrom_recordEvent_counted g config ⟨user, kind, description, now⟩ w with
    ⟨-, failed⟩ | ⟨up, event, row, scores, ids, told, done⟩
  · rw [failed]
    exact ⟨⟨⟨countable.distinct, countable.sound, countable.judged, countable.recordsUp⟩, rfl,
      Nat.le_succ _, fun _ _ => rfl⟩, rfl⟩
  · have balances := balances_event countable told up scores ids
    rw [done]
    exact ⟨balances.toCounts, List.count_cons_of_ne (by simp)⟩

/-! ### Payments -/

end Service

namespace Verdict

/-- What is counted of a verdict, the latest first. -/
def tallies (v : Verdict) : List Tally :=
  .latency :: (v.failedAt.map Tally.rejection).toList ++
    .validation (Service.outcomeOf v) :: if v.bypass then [.override] else []

theorem count_tallies (v : Verdict) (t : Tally) :
    v.tallies.count t = match t with
      | .latency => 1
      | .rejection stage => if v.failedAt = some stage then 1 else 0
      | .validation outcome => if Service.outcomeOf v = outcome then 1 else 0
      | .override => if v.bypass then 1 else 0
      | _ => 0 := by
  have blamed : ((v.failedAt.map Tally.rejection).toList).count t = match t with
      | .rejection stage => if v.failedAt = some stage then 1 else 0
      | _ => 0 := by
    cases v.failedAt <;> cases t <;> simp [List.count_singleton]
  have overridden : (if v.bypass then [Tally.override] else []).count t = match t with
      | .override => if v.bypass then 1 else 0
      | _ => 0 := by
    cases v.bypass <;> cases t <;> simp
  rw [tallies, List.count_append, List.count_cons, blamed, List.count_cons, overridden]
  cases t <;> simp

/-- A refusal is at a stage, and an override is an approval. -/
theorem stage_of_validate {thresholds : RiskThresholds} {intent : Option Intent} {m : Merchant}
    {d : Decimal} {context : Context} {v : Verdict} (whole : d.IsAmount)
    (judged : validate thresholds intent m (.decimal d) context = .ok v) :
    v.approved = v.failedAt.isNone ∧ (v.bypass = true → v.approved = true) := by
  refine ⟨?_, approved_of_bypass whole judged⟩
  have judged := judge_of_validate whole judged
  unfold judge at judged
  split at judged
  · simp only [override, bind_ok_iff] at judged
    obtain ⟨risk, -, merchant, -, judged⟩ := judged
    cases judged
    rfl
  · obtain ⟨checks, -, judged⟩ := bind_ok_iff.mp judged
    obtain ⟨failedAt, approved⟩ := failedAt_of_ofChecks judged
    rw [failedAt, approved, Option.isNone_map]

end Verdict

namespace Service

theorem runFrom_countPayment (p : Payment) (intentId : Option String) (v : Verdict) (w : World b) :
    ∃ journal, (countPayment p intentId v).runFrom w =
      (.ok (), { w with tallies := v.tallies ++ w.tallies, journal }) := by
  unfold countPayment Verdict.tallies
  cases v.bypass <;> cases v.failedAt <;> exact ⟨_, rfl⟩

theorem runFrom_logPayment_written {w : World b} {record : TransactionRecord}
    {row : b.records.Row} (up : w.outage.records w.recordWrites = false)
    (written : b.records.write record = .ok row) :
    (logPayment record : Service b Unit).runFrom w =
      (.ok (), { w with
        recordWrites := w.recordWrites + 1
        store := { w.store with records := w.store.records ++ [row] } }) := by
  have tried := runFrom_attempt w (addRecord record : Service b Unit)
  have added : (addRecord record : Service b Unit).runFrom w =
      (.ok (), { w with
        recordWrites := w.recordWrites + 1
        store := { w.store with records := w.store.records ++ [row] } }) := by
    simp only [addRecord, runFrom_get_bind, runFrom_modify_bind, up, Bool.false_eq_true,
      ↓reduceIte, written, runFrom_check_ok]
    rfl
  rw [added] at tried
  rw [logPayment, runFrom_bind_ok tried]
  rfl

theorem due_record {s : Store b} {row : b.records.Row} {v : Verdict}
    (told : g.approved row = v.approved ∧ g.bypass row = v.bypass ∧ g.failedAt row = v.failedAt)
    (overrides : v.bypass = true → v.approved = true) (t : Tally) :
    Store.due g { s with records := s.records ++ [row] } t = s.due g t + v.tallies.count t := by
  obtain ⟨approved, bypass, failedAt⟩ := told
  have counted (p : b.records.Row → Bool) :
      (s.records ++ [row]).countP p = s.records.countP p + if p row then 1 else 0 := by
    simp [List.countP_append]
  rw [Verdict.count_tallies]
  cases t with
  | validation outcome =>
    cases bypassed : v.bypass <;> cases approval : v.approved
    case true.false => simp [overrides bypassed] at approval
    all_goals
      cases outcome <;>
        simp [Store.due, counted, approved, bypass, bypassed, approval, outcomeOf]
  | _ => simp [Store.due, counted, bypass, failedAt]

/-- A verdict is counted as its record is logged. -/
theorem balanced_logged {record : TransactionRecord} {row : b.records.Row} {v : Verdict}
    (written : b.records.write record = .ok row)
    (told : g.approved row = v.approved ∧ g.bypass row = v.bypass ∧ g.failedAt row = v.failedAt)
    (blamed : v.approved = v.failedAt.isNone) (overrides : v.bypass = true → v.approved = true)
    (p : Payment) (intentId : Option String) :
    Balanced g (do logPayment record; countPayment p intentId v : Service b Unit) := by
  intro w countable
  rw [runFrom_bind_ok (runFrom_logPayment_written (countable.recordsUp _) written)]
  obtain ⟨journal, done⟩ := runFrom_countPayment p intentId v
    { w with
      recordWrites := w.recordWrites + 1
      store := { w.store with records := w.store.records ++ [row] } }
  rw [done]
  constructor
  case lost => simp [World.tried, World.count, Verdict.count_tallies]
  constructor
  case countable =>
    refine ⟨countable.distinct, countable.sound, ?_, countable.recordsUp⟩
    refine List.forall_mem_append.mpr ⟨countable.judged, List.forall_mem_singleton.mpr ?_⟩
    rw [told.1, told.2.2, blamed]
  case eventsDown => rfl
  case writes => exact le_rfl
  case moves =>
    intro t _
    rw [due_record told overrides]
    simp only [World.count, List.count_append]
    omega

theorem balanced_rewardPayment (config : Config) (now : Time) (p : Payment) (v : Verdict) :
    Balanced g (rewardPayment config now p v : Service b Unit) :=
  balanced_ite ((balanced_note _).bind fun _ => balanced_follow _ _ _ _ _) <|
    balanced_ite ((balanced_follow _ _ _ _ _).bind fun _ =>
      balanced_ite (balanced_follow _ _ _ _ _) (balanced_pure _)) (balanced_follow _ _ _ _ _)

theorem balanced_payTo (config : Config) (now : Time) {p : Payment} (whole : p.amount.IsAmount)
    (logs : b.Logs p.merchant) (intentId : Option String) :
    Balanced g (payTo config now p intentId : Service b PaymentResult) := by
  refine (detached_commitPayment config p intentId).balanced.bindWith
    (yields_commitPayment config p intentId) ?_
  rintro ⟨v, i⟩ ⟨intent, judged⟩
  obtain ⟨blamed, overrides⟩ := Verdict.stage_of_validate whole judged
  obtain ⟨row, written⟩ := logs (.ofVerdict p.id p.user p.merchant intentId now p.amount v) rfl
  have logged := balanced_logged (g := g) written (g.record_written written) blamed overrides p
    intentId
  have balanced := logged.bind fun _ => (balanced_rewardPayment config now p v).bind fun _ =>
    balanced_pure (⟨.ofVerdict p.id p.user p.merchant intentId now p.amount v, v, i⟩ :
      PaymentResult)
  rwa [bind_assoc] at balanced

theorem balanced_pay (config : Config) (now : Time) (r : PaymentRequest)
    (logs : ∀ m, config.directory r.merchant = .ok m → b.Logs m) :
    Balanced g (pay config now r : Service b PaymentResult) := by
  have begins : Yields (fun p : Payment => p.amount.IsAmount ∧
      config.directory r.merchant = .ok p.merchant) (beginPayment config r : Service b Payment) :=
    yields_of_last fun _ => yields_of_last fun _ => (yields_check _).bind fun d brought =>
      (yields_check _).bind fun m known => yields_pure ⟨isAmount_of_toAmount brought, known⟩
  refine (detached_beginPayment config r).balanced.bindWith begins ?_
  rintro p ⟨whole, known⟩
  exact (detached_resolvePayment config p).balanced.bind fun intentId =>
    balanced_payTo config now whole (logs _ known) intentId

/-! ### Escrows -/

theorem runFrom_updateEscrow_row (w : World b) (id : String)
    (change : Escrow → Except Failure (α × Escrow)) :
    (∃ failure, (updateEscrow id change).runFrom w = (.error failure, w)) ∨
    ∃ row e x next changed, b.escrows.find? id w.store.escrows = some row ∧
      b.escrows.read row = .ok e ∧ change e = .ok (x, next) ∧
      b.escrows.update row next = .ok changed ∧
      (updateEscrow id change).runFrom w = (.ok x, { w with
        store := { w.store with escrows := b.escrows.replace id changed w.store.escrows } }) := by
  simp only [updateEscrow, runFrom_atomic, runFrom_get_bind]
  cases found : b.escrows.find? id w.store.escrows with
  | none => exact .inl ⟨.escrowNotFound id b.lookup, by simp⟩
  | some row =>
    dsimp only
    cases read : b.escrows.read row with
    | error failure => exact .inl ⟨failure, by simp [runFrom_check_error]⟩
    | ok e =>
      cases changes : change e with
      | error failure => exact .inl ⟨failure, by simp [changes, runFrom_check_error]⟩
      | ok moved =>
        obtain ⟨x, next⟩ := moved
        simp only [ok_bind, changes, runFrom_check_ok]
        cases updated : b.escrows.update row next with
        | error failure => exact .inl ⟨failure, by simp [runFrom_check_error]⟩
        | ok changed => exact .inr ⟨row, e, x, next, changed, rfl, read, changes, updated, rfl⟩

end Service

/-- What the row of an escrow adds to what is due. -/
def Gauge.weight (g : Gauge b) (row : b.escrows.Row) : Tally → Nat
  | .release => g.completions row
  | .clawback reason => if g.claim row = some reason then 1 else 0
  | _ => 0

/-- What an escrow adds to what is due. -/
def Escrow.weight (e : Escrow) : Tally → Nat
  | .release => e.completions
  | .clawback reason => if e.claim = some reason then 1 else 0
  | _ => 0

theorem Gauge.weight_eq {row : b.escrows.Row} {e : Escrow}
    (told : g.completions row = e.completions ∧ g.claim row = e.claim) :
    g.weight row = e.weight := by
  funext t
  unfold weight Escrow.weight
  rw [told.1, told.2]

namespace Store

variable {s : Store b} {row : b.escrows.Row} {id : String}

theorem due_escrow (row : b.escrows.Row) (t : Tally) :
    due g { s with escrows := s.escrows ++ [row] } t = s.due g t + g.weight row t := by
  cases t with
  | validation outcome => cases outcome <;> rfl
  | release => simp [due, Gauge.weight]
  | clawback reason => simp [due, Gauge.weight, List.countP_append]
  | _ => rfl

theorem countP_eq_sum (p : b.escrows.Row → Bool) (rows : List b.escrows.Row) :
    rows.countP p = (rows.map fun row => if p row then 1 else 0).sum := by
  induction rows with
  | nil => rfl
  | cons row rest ih =>
    rw [List.countP_cons, ih, List.map_cons, List.sum_cons, Nat.add_comm]

/-- Where ids are shared by no two escrows, what is due exchanges what a row adds for what the row
in its place adds. -/
theorem due_replaced (distinct : (s.escrows.map b.escrows.id).Nodup)
    (found : b.escrows.find? id s.escrows = some row) (changed : b.escrows.Row) (t : Tally) :
    due g { s with escrows := b.escrows.replace id changed s.escrows } t + g.weight row t =
      s.due g t + g.weight changed t := by
  cases t with
  | validation outcome => cases outcome <;> rfl
  | release => exact sum_replaced g.completions distinct found
  | clawback reason =>
    have exchanged := sum_replaced (y := changed)
      (fun row => if g.claim row == some reason then 1 else 0) distinct found
    simp only [due, Gauge.weight, countP_eq_sum, Table.replace]
    simpa only [beq_iff_eq] using exchanged
  | _ => rfl

end Store

namespace Service

/-- A change of an escrow is counted if what its row adds grows by what is counted. -/
theorem balances_changed {w : World b} (countable : w.Countable g) {id : String}
    {row changed : b.escrows.Row} (found : b.escrows.find? id w.store.escrows = some row)
    (same : b.escrows.id changed = b.escrows.id row) (sound : g.Sound changed) {counted : Tally}
    (stored : counted ≠ .lostEvent)
    (grows : ∀ t, g.weight changed t = g.weight row t + [counted].count t) :
    w.Balances g
      { w with
        store := { w.store with escrows := b.escrows.replace id changed w.store.escrows }
        tallies := counted :: w.tallies } := by
  have at_id : b.escrows.id row = id := by simpa using List.find?_some found
  constructor
  case lost =>
    simp [World.tried, World.count, List.count_cons_of_ne stored]
  constructor
  case countable =>
    refine ⟨?_, fun other mem => ?_, countable.judged, countable.recordsUp⟩
    · have ids : (b.escrows.replace id changed w.store.escrows).map b.escrows.id =
          w.store.escrows.map b.escrows.id := by
        rw [Table.replace, List.map_map]
        refine List.map_congr_left fun old _ => ?_
        rw [Function.comp_apply]
        split
        · rename_i at_
          rw [same, at_id]
          exact (beq_iff_eq.mp at_).symm
        · rfl
      exact ids ▸ countable.distinct
    · obtain ⟨old, known, rfl⟩ := List.mem_map.mp mem
      split
      · exact sound
      · exact countable.sound old known
  case eventsDown => rfl
  case writes => exact le_rfl
  case moves =>
    intro t _
    have exchanged := Store.due_replaced (g := g) countable.distinct found changed t
    have grown := grows t
    simp only [World.count, List.count_cons, List.count_nil] at grown ⊢
    omega

/-- A change that keeps the terms of an escrow and is counted for what it adds. -/
theorem balanced_changed {id : String} {change : Escrow → Except Failure (α × Escrow)}
    (counted : Tally) (stored : counted ≠ .lostEvent)
    (keeps : ∀ {e x next}, change e = .ok (x, next) → e.Precedes next)
    (grows : ∀ {e x next}, change e = .ok (x, next) →
      ∀ t, next.weight t = e.weight t + [counted].count t) :
    Balanced g (updateEscrow id change >>= fun x => tally counted >>= fun _ => pure x :
      Service b α) := by
  intro w countable
  rcases runFrom_updateEscrow_row w id change with
    ⟨failure, failed⟩ | ⟨row, e, x, next, changed, found, read, changes, updated, done⟩
  · rw [runFrom_bind_error failed]
    exact .of_filing countable rfl
  · rw [runFrom_bind_ok done]
    have later := keeps changes
    have ids : next.milestones.map (·.id) = e.milestones.map (·.id) := by
      simpa [Function.comp_def, Milestone.terms] using congrArg (List.map Prod.fst) later.terms
    have known : row ∈ w.store.escrows := List.mem_of_find?_eq_some found
    obtain ⟨same, sound, told⟩ :=
      g.escrow_updated (countable.sound row known) read later.id ids updated
    refine balances_changed countable found same sound stored fun t => ?_
    rw [Gauge.weight_eq told, Gauge.weight_eq (g.escrow_read read), grows changes]

/-- What follows a change that is counted. -/
theorem Balanced.tallied {op : Service b α} {counted : Tally} {next : α → Service b β}
    (first : Balanced g (op >>= fun x => tally counted >>= fun _ => pure x))
    (rest : ∀ x, Balanced g (next x)) :
    Balanced g (op >>= fun x => tally counted >>= fun _ => next x) := by
  have both := first.bind rest
  simpa only [bind_assoc, pure_bind] using both

theorem weight_of_releaseIn {milestoneId : String} {now : Time}
    {proof merchantId : Option String} {e next : Escrow} {answer : ReleaseReceipt × String}
    (done : releaseIn milestoneId proof now merchantId e = .ok (answer, next)) (t : Tally) :
    next.weight t = e.weight t + [Tally.release].count t := by
  obtain ⟨claim, completions⟩ := Escrow.countP_completed_of_releaseIn done
  cases t with
  | release => exact completions
  | clawback reason => simp [Escrow.weight, Escrow.claim, claim]
  | _ => rfl

theorem balanced_releaseMilestone (config : Config) (now : Time)
    (escrowId milestoneId : String) (proof merchantId : Option String) :
    Balanced g (releaseMilestone config now escrowId milestoneId proof merchantId :
      Service b ReleaseReceipt) := by
  refine (balanced_changed .release nofun Escrow.precedes_of_releaseIn
    weight_of_releaseIn).tallied fun x => ?_
  exact (balanced_note _).bind fun _ =>
    balanced_ite ((balanced_follow _ _ _ _ _).bind fun _ => balanced_pure _) (balanced_pure _)

theorem balanced_clawBack (config : Config) (now : Time) (escrowId : String)
    (reason : ClawbackReason) (part : Option Numeral) :
    Balanced g (clawBack config now escrowId reason part : Service b ClawbackReceipt) := by
  have moves {e next : Escrow} {x : ClawbackReceipt × String}
      (done : clawBackIn reason part now config.rates e = .ok (x, next)) :
      ∃ receipt, e.clawBack reason now part config.rates = .ok (receipt, next) := by
    obtain ⟨⟨receipt, after⟩, recovered, made⟩ := bind_ok_iff.mp done
    cases made
    exact ⟨receipt, recovered⟩
  have changed : Balanced g (updateEscrow escrowId (clawBackIn reason part now config.rates) >>=
      fun x => tally (.clawback reason) >>= fun _ => pure x : Service b _) := by
    refine balanced_changed _ nofun (fun done => ?_) fun done t => ?_
    · obtain ⟨receipt, recovered⟩ := moves done
      exact Escrow.precedes_of_clawBack recovered
    · obtain ⟨receipt, recovered⟩ := moves done
      obtain ⟨unclaimed, rfl, rfl⟩ := Escrow.claimed_of_clawBack recovered
      cases t with
      | clawback other => simp [Escrow.weight, Escrow.claim, unclaimed, List.count_singleton]
      | _ => rfl
  refine changed.tallied fun x => ?_
  exact (balanced_note _).bind fun _ =>
    balanced_ite ((balanced_follow _ _ _ _ _).bind fun _ => balanced_pure _) (balanced_pure _)

/-! ### New escrows and intents -/

/-- An escrow that was just built adds nothing to what is due. -/
theorem balanced_addEscrow {ids : Ids} {user title : String} {specs : List MilestoneSpec}
    {now : Time} {intentId : Option String} {days : Int} {e : Escrow}
    (built : (Escrow.build ids user specs now intentId title days).2 = .ok e) :
    Balanced g (addEscrow e : Service b Unit) := by
  obtain ⟨unclaimed, -, unique, fresh⟩ := Escrow.milestones_of_build built
  have weightless (t : Tally) : e.weight t = 0 := by
    have pending : e.completions = 0 := List.countP_eq_zero.mpr fun m mem => by
      simp [(fresh m mem).1]
    cases t <;> simp [Escrow.weight, Escrow.claim, unclaimed, pending]
  intro w countable
  simp only [addEscrow, runFrom_atomic, runFrom_get_bind]
  cases found : b.escrows.find? e.id w.store.escrows with
  | some other => simpa using .of_filing countable rfl
  | none =>
    cases written : b.escrows.write e with
    | error failure => simpa [runFrom_check_error] using .of_filing countable rfl
    | ok row =>
      obtain ⟨same, sound, told⟩ := g.escrow_written unique written
      have unlike (old : b.escrows.Row) (mem : old ∈ w.store.escrows) :
          b.escrows.id old ≠ b.escrows.id row := by
        have other := List.find?_eq_none.mp found old mem
        simpa [same] using other
      change w.Balances g { w with
        store := { w.store with escrows := w.store.escrows ++ [row] } }
      constructor
      case lost => simp [World.tried, World.count]
      constructor
      case countable =>
        refine ⟨?_, ?_, countable.judged, countable.recordsUp⟩
        · rw [List.map_append, List.nodup_append]
          exact ⟨countable.distinct, by simp, by simpa using unlike⟩
        · exact List.forall_mem_append.mpr ⟨countable.sound, List.forall_mem_singleton.mpr sound⟩
      case eventsDown => rfl
      case writes => exact le_rfl
      case moves =>
        intro t _
        have due := Store.due_escrow (g := g) (s := w.store) row t
        rw [Gauge.weight_eq told, weightless, Nat.add_zero] at due
        exact congrArg (w.count t + ·) due.symm

theorem balanced_createEscrow (config : Config) (now : Time) (user : String)
    (specs : List MilestoneSpec) (title : String) (intentId : Option String) :
    Balanced g (createEscrow config now user specs title intentId : Service b Escrow) := by
  intro w countable
  rw [createEscrow, runFrom_get_bind]
  rcases made : Escrow.build w.ids user specs now intentId title config.expiryDays with ⟨ids, built⟩
  dsimp only
  rw [runFrom_modify_bind]
  have numbered : w.Balances g { w with ids } := .of_filing countable rfl
  have rest : Balanced g (do
      let e ← check built
      addEscrow e
      note (.escrowCreated e.id user (← check e.total))
      return e : Service b Escrow) :=
    (detached_check _).balanced.bindWith (yields_check _) fun e given =>
      (balanced_addEscrow ((congrArg Prod.snd made).trans given)).bind fun _ =>
        (detached_check _).balanced.bind fun _ => (balanced_note _).bind fun _ =>
          balanced_pure _
  exact numbered.trans (rest _ numbered.countable)

theorem balanced_createIntent (config : Config) (now : Time) (user text : String)
    (policy : Policy) :
    Balanced g (createIntent config now user text policy : Service b Intent) := by
  refine (detached_openIntent user text policy now).balanced.bind fun i =>
    (detached_lockFunds user _ (detached_addIntent i)).attempt.balanced.bind fun result => ?_
  cases result with
  | error failure => exact (detached_throw _).balanced
  | ok done =>
    exact (balanced_note _).bind fun _ =>
      balanced_ite ((balanced_follow _ _ _ _ _).bind fun _ => balanced_pure _) (balanced_pure _)

/-! ### Calls -/

theorem Balanced.reply {op : Service b α} (balanced : Balanced g op) (f : α → β) :
    Balanced g (op >>= fun a => pure (f a)) := balanced.bind fun _ => balanced_pure _

theorem balanced_run (config : Config) (now : Time)
    (logs : ∀ merchant m, config.directory merchant = .ok m → b.Logs m) {c : Command}
    (served : c.recordsDirectly = false) : Balanced g (c.run config now : Service b Reply) := by
  cases c with
  | createIntent user text policy =>
    exact (balanced_createIntent config now user text policy).reply _
  | pay r => exact (balanced_pay config now r (logs _)).reply _
  | createEscrow user specs title intentId =>
    exact (balanced_createEscrow config now user specs title intentId).reply _
  | releaseMilestone escrowId milestoneId proof merchantId =>
    exact (balanced_releaseMilestone config now escrowId milestoneId proof merchantId).reply _
  | clawBack escrowId reason part =>
    exact (balanced_clawBack config now escrowId reason part).reply _
  | recordEvent => cases served
  | _ => exact (detached_run config now rfl).balanced

end Service

/-- Whether an operation is itself an entry of the log of events. -/
def Operation.recordsDirectly : Operation → Bool
  | .command c => c.recordsDirectly
  | .inquiry _ => false

namespace World

/-- How many writes of events failed that followed an operation. -/
def lostBy (config : Config) (w : World b) (now : Time) (op : Operation) : Nat :=
  if op.recordsDirectly then 0
  else (w.tried ((op.run config now).runFrom w).2).countP w.outage.events

/-- How many failed in a run of operations. -/
def lost (config : Config) (w : World b) : List (Time × Operation) → Nat
  | [] => 0
  | (now, op) :: rest =>
    w.lostBy config now op + ((op.run config now).runFrom w).2.lost config rest

/-- What one operation does to the counters and to the store. -/
theorem Countable.step {w : World b} (countable : w.Countable g) (config : Config) (now : Time)
    (logs : ∀ merchant m, config.directory merchant = .ok m → b.Logs m) (op : Operation) :
    w.Counts g ((op.run config now).runFrom w).2 ∧
      ((op.run config now).runFrom w).2.count .lostEvent =
        w.count .lostEvent + w.lostBy config now op := by
  cases direct : op.recordsDirectly with
  | false =>
    have balanced : Service.Balanced g (op.run config now : Service b Outcome) := by
      cases op with
      | command c => exact (Service.balanced_run config now logs direct).reply _
      | inquiry q =>
        intro w countable
        have read := (Service.readsOnly_ask config q).bind
          (fun a => Service.readsOnly_pure (Outcome.answer a)) w
        exact .of_filing countable (congrArg World.filing read)
    have balances := balanced w countable
    exact ⟨balances.toCounts, by rw [lostBy, direct]; exact balances.lost⟩
  | true =>
    cases op with
    | inquiry q => cases direct
    | command c =>
      cases c with
      | recordEvent user kind description =>
        have same : (((Operation.command (.recordEvent user kind description)).run config now :
            Service b Outcome).runFrom w).2 =
              ((Service.recordEvent config now user kind description).runFrom w).2 := by
          change (((Service.recordEvent config now user kind description >>= fun event =>
            pure (Reply.event event)) >>= fun reply => pure (Outcome.reply reply)).runFrom w).2 = _
          rw [bind_assoc, Service.runFrom_bind]
          rcases (Service.recordEvent config now user kind description).runFrom w with
            ⟨failure | event, after⟩ <;> rfl
        rw [same, lostBy, direct]
        exact Service.counts_recordEvent config now user kind description countable
      | _ => cases direct

/-- From a world on, a run moves the counters by what it moves in the store, and the counter of lost
events by the writes that failed behind its operations. -/
theorem Countable.run {w : World b} (countable : w.Countable g) (config : Config)
    (logs : ∀ merchant m, config.directory merchant = .ok m → b.Logs m)
    (run : List (Time × Operation)) :
    w.Counts g (w.afterOperations config run) ∧
      (w.afterOperations config run).count .lostEvent = w.count .lostEvent + w.lost config run ∧
      ((∀ n, w.outage.events n = false) → w.lost config run = 0) := by
  induction run generalizing w with
  | nil =>
    have balances : w.Balances g w := .of_filing countable rfl
    exact ⟨balances.toCounts, rfl, fun _ => rfl⟩
  | cons entry rest ih =>
    obtain ⟨now, op⟩ := entry
    obtain ⟨counts, counted⟩ := countable.step config now logs op
    obtain ⟨later, missed, kept⟩ := ih counts.countable
    refine ⟨⟨later.countable, later.eventsDown.trans counts.eventsDown,
      counts.writes.trans later.writes, fun t stored => ?_⟩, ?_, fun up => ?_⟩
    · have moved := counts.moves t stored
      have moved' := later.moves t stored
      simp only [afterOperations] at moved' ⊢
      omega
    · simp only [afterOperations, lost]
      rw [missed, counted, Nat.add_assoc]
    · have none_failed (numbers : List Nat) : numbers.countP w.outage.events = 0 :=
        List.countP_eq_zero.mpr fun n _ => by simp [up n]
      rw [lost, lostBy, none_failed, ite_self, kept (counts.eventsDown ▸ up)]

/-- Each refusal is at one of the stages. -/
theorem Countable.sum_rejections {w : World b} (countable : w.Countable g) :
    (Stage.order.map fun stage => w.store.due g (.rejection stage)).sum =
      w.store.due g (.validation .rejected) := by
  have once (row : b.records.Row) (judged : g.approved row = (g.failedAt row).isNone) :
      (Stage.order.map fun stage => if g.failedAt row == some stage then 1 else 0).sum =
        if !g.approved row then 1 else 0 := by
    rw [judged]
    cases g.failedAt row with
    | none => rfl
    | some stage => cases stage <;> rfl
  have each (rows : List b.records.Row)
      (judged : ∀ row ∈ rows, g.approved row = (g.failedAt row).isNone) :
      (Stage.order.map fun stage => rows.countP (g.failedAt · == some stage)).sum =
        rows.countP fun row => !g.approved row := by
    induction rows with
    | nil => rfl
    | cons row rest ih =>
      obtain ⟨first, later⟩ := List.forall_mem_cons.mp judged
      simp only [List.countP_cons, List.sum_map_add]
      rw [ih later, once row first]
  exact each w.store.records countable.judged

end World

theorem Backend.memory_logs (m : Merchant) : Backend.memory.Logs m := fun record _ => ⟨record, rfl⟩

/-- A table of a database takes the payments to merchants whose ids are texts. -/
theorem Backend.relational_logs {m : Merchant} (named : ∃ name, m.id = .text name) :
    Backend.relational.Logs m := by
  obtain ⟨name, named⟩ := named
  intro record same
  have written : RecordRow.textColumn record.merchantId = .ok name := by rw [same, named]; rfl
  exact ⟨_, by
    change RecordRow.ofRecord record = _
    rw [RecordRow.ofRecord, written]
    rfl⟩

/-- The counters reconcile with the stores. From empty stores and counters, where the log of
payments takes its writes, and whatever is called and read, succeeding or failing, every counter
stands at what the store holds: the verdicts by their outcomes at the records that are approved,
rejected or overridden, the overrides at the records of overrides, the rejections of a stage at the
records that failed there, the releases at the completed milestones, the clawbacks for a reason at
the escrows with a receipt of that reason, the events of a kind at the events of that kind. The
rejections of all stages are all rejections. The counter of lost events is the number of the writes
of events that failed behind the operations of the run, and zero where none fails. -/
theorem World.counters_reconcile (g : Gauge b) {config : Config} {start : World b}
    (logs : ∀ merchant m, config.directory merchant = .ok m → b.Logs m)
    (empty : start.store = {}) (zeroed : start.tallies = [])
    (recordsUp : ∀ n, start.outage.records n = false) (run : List (Time × Operation)) :
    let w := start.afterOperations config run
    (∀ t, t ≠ .lostEvent → w.count t = w.store.due g t) ∧
      (Stage.order.map fun stage => w.count (.rejection stage)).sum =
        w.count (.validation .rejected) ∧
      w.count .lostEvent = start.lost config run ∧
      ((∀ n, start.outage.events n = false) → w.count .lostEvent = 0) := by
  intro w
  have countable : start.Countable g := by
    refine ⟨?_, ?_, ?_, recordsUp⟩ <;> simp [empty]
  obtain ⟨counts, missed, kept⟩ := countable.run config logs run
  have none_counted (t : Tally) : start.count t = 0 := by simp [World.count, zeroed]
  have none_due (t : Tally) : start.store.due g t = 0 := by
    rw [empty]
    cases t with
    | validation outcome => cases outcome <;> rfl
    | _ => rfl
  have reconciled (t : Tally) (stored : t ≠ .lostEvent) : w.count t = w.store.due g t := by
    have moved := counts.moves t stored
    rw [none_counted, none_due] at moved
    simpa using moved
  refine ⟨reconciled, ?_, ?_, ?_⟩
  · have rejections : (fun stage => w.count (.rejection stage)) =
        fun stage => w.store.due g (.rejection stage) :=
      funext fun stage => reconciled _ nofun
    rw [rejections, reconciled (.validation .rejected) nofun]
    exact counts.countable.sum_rejections
  · rw [missed, none_counted, Nat.zero_add]
  · intro up
    rw [missed, none_counted, kept up]

namespace Sample

/-- The second event that is to be written is lost. -/
def forgetful : World b := { outage := { events := (· == 1) } }

def schoolDay : List (Time × Operation) := schooling.map (Prod.map id .command)

/-- What a day at school counts. -/
def tallies : List Tally :=
  [.validation .approved, .validation .rejected, .validation .emergency, .release,
   .clawback .misuse, .event .intentCompliance]

end Sample

/-- One payment of three is approved, one is rejected and one overrides; a milestone is completed
and the rest clawed back, and the event of the approval is lost. It is the same over records that
are kept as they are and over rows of a database. -/
theorem World.counters_reconcile_schooling :
    (Sample.tallies.map ((Sample.forgetful.afterOperations Sample.config Sample.schoolDay).store.due
        Backend.memoryGauge) = [1, 1, 1, 1, 1, 0] ∧
      (Sample.forgetful : World .memory).lost Sample.config Sample.schoolDay = 1) ∧
    Sample.tallies.map ((Sample.forgetful.afterOperations Sample.config Sample.schoolDay).store.due
        Backend.relationalGauge) = [1, 1, 1, 1, 1, 0] ∧
      (Sample.forgetful : World .relational).lost Sample.config Sample.schoolDay = 1 := by
  have stored (t : Tally) (mem : t ∈ Sample.tallies) : t ≠ .lostEvent := by
    rintro rfl
    simp [Sample.tallies] at mem
  constructor
  · obtain ⟨reconciled, -, lost, -⟩ := World.counters_reconcile Backend.memoryGauge
      (fun _ m _ => Backend.memory_logs m) (rfl : Sample.forgetful.store = {}) rfl (fun _ => rfl)
      Sample.schoolDay
    have same := List.map_congr_left fun t mem => (reconciled t (stored t mem)).symm
    exact ⟨same.trans (by decide +kernel), lost.symm.trans (by decide +kernel)⟩
  · obtain ⟨reconciled, -, lost, -⟩ := World.counters_reconcile Backend.relationalGauge
      (fun id m known => Backend.relational_logs (Sample.named_catalog id m known))
      (rfl : Sample.forgetful.store = {}) rfl (fun _ => rfl) Sample.schoolDay
    have same := List.map_congr_left fun t mem => (reconciled t (stored t mem)).symm
    exact ⟨same.trans (by decide +kernel), lost.symm.trans (by decide +kernel)⟩

end Earmark
