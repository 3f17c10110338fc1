import Earmark.Proofs.Runs

/-!
Bookkeeping decides nothing. Whichever writes of the two logs fail, every call answers as it does
when none fails and leaves the same wallets, intents and escrows, and each log holds the entries
whose writes went through (`World.logs_isolated`).
-/

namespace Earmark

/-- An event that is to be recorded, before it has an id and a score. -/
structure EventDraft where
  user : String
  kind : EventKind
  description : String
  time : Time

/-- What was to be written to the logs, in its order. -/
structure Attempts where
  records : List TransactionRecord := []
  events : List EventDraft := []

/-- The entries whose writes go through, where the first of them is the write of a number. -/
def surviving {α : Type} (down : Nat → Bool) (number : Nat) : List α → List α
  | [] => []
  | entry :: rest =>
    if down number then surviving down (number + 1) rest
    else entry :: surviving down (number + 1) rest

section

variable {α : Type} {down : Nat → Bool}

theorem surviving_append (number : Nat) (entries : List α) (entry : α) :
    surviving down number (entries ++ [entry]) =
      surviving down number entries ++ if down (number + entries.length) then [] else [entry] := by
  induction entries generalizing number with
  | nil => simp [surviving]
  | cons first rest ih =>
    have next : number + 1 + rest.length = number + (rest.length + 1) := by omega
    by_cases lost : down number = true
    · simp [surviving, lost, ih, next]
    · simp [surviving, lost, ih, next]

theorem surviving_all (down : Nat → Bool) (up : ∀ n, down n = false) (number : Nat) (entries : List α) :
    surviving down number entries = entries := by
  induction entries generalizing number with
  | nil => rfl
  | cons first rest ih => simp [surviving, up, ih]

end

variable {b : Backend}

/-- The log of events with the scores that it led to and the last number given to an event. -/
structure EventLog (b : Backend) where
  rows : List b.events.Row
  scores : List (String × Int)
  last : Nat

/-- The log with one more event, which follows the user's score, if the table takes it. -/
def EventLog.append (config : Config) (log : EventLog b) (d : EventDraft) : EventLog b :=
  let prior := (log.scores.lookup d.user).getD config.baseline
  let event := Reputation.event (Ids.event (log.last + 1)) d.user d.kind d.description prior d.time
  match b.events.write event with
  | .ok row =>
    { rows := log.rows ++ [row], scores := Service.setScore d.user event.scoreAfter log.scores
      last := log.last + 1 }
  | .error _ => { log with last := log.last + 1 }

/-- The log of payments with one more record, if the table takes it. -/
def appendRecord (rows : List b.records.Row) (record : TransactionRecord) : List b.records.Row :=
  match b.records.write record with
  | .ok row => rows ++ [row]
  | .error _ => rows

namespace World

def eventLog (w : World b) : EventLog b :=
  { rows := w.store.events, scores := w.store.scores, last := w.ids.events }

/-- The same world with some writes of events and of records failing. -/
def losing (w : World b) (events records : Nat → Bool) : World b :=
  { w with outage := { events, records } }

/-- The logs of a world are those of a start and, of what was attempted since, what survived. -/
structure Logs (config : Config) (start : World b) (given : Outage) (tried : Attempts)
    (w : World b) : Prop where
  outage : w.outage = given
  recordWrites : w.recordWrites = start.recordWrites + tried.records.length
  eventWrites : w.eventWrites = start.eventWrites + tried.events.length
  records : w.store.records =
    (surviving given.records start.recordWrites tried.records).foldl appendRecord
      start.store.records
  events : w.eventLog =
    (surviving given.events start.eventWrites tried.events).foldl (.append config) start.eventLog

/-- Taking back what a store holds leaves the logs alone where nothing was attempted. -/
theorem Logs.takenBack {config : Config} {start w after : World b} {given : Outage}
    {tried : Attempts} (before : Logs config start given tried w)
    (logs : Logs config start given tried after) :
    Logs config start given tried { after with store := w.store } where
  outage := logs.outage
  recordWrites := logs.recordWrites
  eventWrites := logs.eventWrites
  records := before.records
  events := by
    have same : w.eventLog = after.eventLog := before.events.trans logs.events.symm
    have last : w.ids.events = after.ids.events := congrArg EventLog.last same
    rw [← before.events, eventLog, eventLog, last]

/-- The world after an attempt to record an event. -/
def recorded (config : Config) (w : World b) (d : EventDraft) : World b :=
  let counted := { w with eventWrites := w.eventWrites + 1 }
  if w.outage.events w.eventWrites then counted
  else
    let log := w.eventLog.append config d
    { counted with
      store := { w.store with events := log.rows, scores := log.scores }
      ids := { w.ids with events := log.last } }

/-- The world after an attempt to log a payment. -/
def recording (w : World b) (record : TransactionRecord) : World b :=
  let counted := { w with recordWrites := w.recordWrites + 1 }
  if w.outage.records w.recordWrites then counted
  else { counted with store := { w.store with records := appendRecord w.store.records record } }

theorem Logs.recorded {config : Config} {start w : World b} {given : Outage} {tried : Attempts}
    (logs : Logs config start given tried w) (d : EventDraft) :
    Logs config start given { tried with events := tried.events ++ [d] } (w.recorded config d) := by
  have wrote : w.eventWrites + 1 = start.eventWrites + (tried.events ++ [d]).length := by
    rw [logs.eventWrites, List.length_append, List.length_singleton, Nat.add_assoc]
  have down : w.outage.events w.eventWrites =
      given.events (start.eventWrites + tried.events.length) := by
    rw [logs.outage, logs.eventWrites]
  rw [World.recorded, down]
  split
  · rename_i lost
    refine { logs with eventWrites := wrote, events := ?_ }
    rw [surviving_append, lost, if_pos rfl, List.append_nil]
    exact logs.events
  · rename_i kept
    refine { logs with eventWrites := wrote, events := ?_ }
    rw [surviving_append, if_neg kept, List.foldl_append, ← logs.events]
    rfl

theorem Logs.recording {config : Config} {start w : World b} {given : Outage} {tried : Attempts}
    (logs : Logs config start given tried w) (record : TransactionRecord) :
    Logs config start given { tried with records := tried.records ++ [record] }
      (w.recording record) := by
  have wrote : w.recordWrites + 1 = start.recordWrites + (tried.records ++ [record]).length := by
    rw [logs.recordWrites, List.length_append, List.length_singleton, Nat.add_assoc]
  have down : w.outage.records w.recordWrites =
      given.records (start.recordWrites + tried.records.length) := by
    rw [logs.outage, logs.recordWrites]
  rw [World.recording, down]
  split
  · rename_i lost
    refine { logs with recordWrites := wrote, records := ?_ }
    rw [surviving_append, lost, if_pos rfl, List.append_nil]
    exact logs.records
  · rename_i kept
    refine { logs with recordWrites := wrote, records := ?_ }
    rw [surviving_append, if_neg kept, List.foldl_append, ← logs.records]
    rfl

end World

namespace Service

theorem runFrom_atomic (w : World b) (op : Service b α) :
    (atomically op).runFrom w =
      match op.runFrom w with
      | (.error failure, after) =>
        (.error failure, if b.rollsBack then { after with store := w.store } else after)
      | done => done := rfl

/-- A row that a table takes or refuses, at once with what is written of it. -/
theorem runFrom_take {α : Type} (w : World b) (taken : Except Failure α)
    (put : α → Store b → Store b) :
    (atomically do modifyStore (put (← check taken)) : Service b Unit).runFrom w =
      match taken with
      | .ok row => (.ok (), { w with store := put row w.store })
      | .error failure => (.error failure, w) := by
  cases taken with
  | ok row => rfl
  | error failure =>
    rw [runFrom_atomic, runFrom_check_error]
    simp only [ite_self]

theorem runFrom_recordEvent (config : Config) (d : EventDraft) (w : World b) :
    ∃ result tallies,
      (recordEvent config d.time d.user d.kind d.description : Service b _).runFrom w =
        (result, { w.recorded config d with tallies }) := by
  simp only [recordEvent, runFrom_get_bind, runFrom_modify_bind, World.recorded]
  cases w.outage.events w.eventWrites with
  | true => exact ⟨_, w.tallies, rfl⟩
  | false =>
    simp only [Bool.false_eq_true, ↓reduceIte, scoreOf, bind_assoc, pure_bind, runFrom_get_bind,
      runFrom_modify_bind]
    rw [runFrom_bind, runFrom_take]
    simp only [EventLog.append, World.eventLog]
    cases b.events.write (Reputation.event (Ids.event (w.ids.events + 1)) d.user d.kind
      d.description ((w.store.scores.lookup d.user).getD config.baseline) d.time) with
    | ok row => exact ⟨_, _, rfl⟩
    | error failure => exact ⟨_, _, rfl⟩

theorem runFrom_follow (config : Config) (d : EventDraft) (w : World b) :
    ∃ journal tallies,
      (follow config d.time d.user d.kind d.description : Service b _).runFrom w =
        (.ok (), { w.recorded config d with journal, tallies }) := by
  obtain ⟨result, tallies, done⟩ := runFrom_recordEvent config d w
  have tried := runFrom_attempt w
    (recordEvent config d.time d.user d.kind d.description : Service b _)
  rw [done] at tried
  rw [follow, runFrom_bind_ok tried]
  cases result with
  | ok event => exact ⟨_, tallies, rfl⟩
  | error failure => exact ⟨_, _, rfl⟩

theorem runFrom_logging (record : TransactionRecord) (w : World b) :
    ∃ journal tallies, (logPayment record : Service b Unit).runFrom w =
      (.ok (), { w.recording record with journal, tallies }) := by
  have tried := runFrom_attempt w (addRecord record : Service b Unit)
  have added : ∃ result, (addRecord record : Service b Unit).runFrom w =
      (result, w.recording record) := by
    simp only [addRecord, runFrom_get_bind, runFrom_modify_bind, World.recording, appendRecord]
    cases w.outage.records w.recordWrites with
    | true => exact ⟨_, rfl⟩
    | false => cases b.records.write record <;> exact ⟨_, rfl⟩
  obtain ⟨result, done⟩ := added
  rw [done] at tried
  rw [logPayment, runFrom_bind_ok tried]
  cases result with
  | ok done => exact ⟨_, _, rfl⟩
  | error failure => exact ⟨_, _, rfl⟩

end Service

/-- Two runs from one start that differ in which writes of the logs fail. -/
structure Twins (b : Backend) where
  config : Config
  start : World b
  first : Outage
  second : Outage
  refusals : first.intents = second.intents

namespace Twins

open Service

variable {t : Twins b} {α β : Type} {tried : Attempts} {w₁ w₂ : World b}

/-- The worlds of two runs are the same but for the logs, to which both tried to write the same. -/
structure Alike (t : Twins b) (tried : Attempts) (w₁ w₂ : World b) : Prop where
  wallets : w₁.store.wallets = w₂.store.wallets
  intents : w₁.store.intents = w₂.store.intents
  escrows : w₁.store.escrows = w₂.store.escrows
  ids : { w₁.ids with events := 0 } = { w₂.ids with events := 0 }
  first : World.Logs t.config t.start t.first tried w₁
  second : World.Logs t.config t.start t.second tried w₂

theorem Alike.refusals (alike : t.Alike tried w₁ w₂) : w₁.outage.intents = w₂.outage.intents := by
  rw [alike.first.outage, alike.second.outage, t.refusals]

/-- Both runs of the operation answer the same, and attempt nothing. -/
def Steady (t : Twins b) (op : Service b α) : Prop :=
  ∀ ⦃tried : Attempts⦄ ⦃w₁ w₂ : World b⦄, t.Alike tried w₁ w₂ →
    (op.runFrom w₁).1 = (op.runFrom w₂).1 ∧ t.Alike tried (op.runFrom w₁).2 (op.runFrom w₂).2

/-- Both runs of the operation answer the same, and attempt the same. -/
def Blind (t : Twins b) (op : Service b α) : Prop :=
  ∀ ⦃tried : Attempts⦄ ⦃w₁ w₂ : World b⦄, t.Alike tried w₁ w₂ →
    (op.runFrom w₁).1 = (op.runFrom w₂).1 ∧
      ∃ tried, t.Alike tried (op.runFrom w₁).2 (op.runFrom w₂).2

/-! ### What both runs may do -/

theorem Steady.blind {op : Service b α} (steady : t.Steady op) : t.Blind op :=
  fun tried _ _ alike => ⟨(steady alike).1, tried, (steady alike).2⟩

theorem Steady.bind {op : Service b α} {next : α → Service b β} (first : t.Steady op)
    (rest : ∀ a, t.Steady (next a)) : t.Steady (op >>= next) := by
  intro tried w₁ w₂ alike
  obtain ⟨same, alike⟩ := first alike
  rw [runFrom_bind, runFrom_bind]
  cases done₁ : op.runFrom w₁ with
  | mk result₁ after₁ =>
    cases done₂ : op.runFrom w₂ with
    | mk result₂ after₂ =>
      rw [done₁, done₂] at same alike
      obtain rfl : result₁ = result₂ := same
      cases result₁ with
      | error failure => exact ⟨rfl, alike⟩
      | ok a => exact rest a alike

theorem Blind.bind {op : Service b α} {next : α → Service b β} (first : t.Blind op)
    (rest : ∀ a, t.Blind (next a)) : t.Blind (op >>= next) := by
  intro tried w₁ w₂ alike
  obtain ⟨same, tried, alike⟩ := first alike
  rw [runFrom_bind, runFrom_bind]
  cases done₁ : op.runFrom w₁ with
  | mk result₁ after₁ =>
    cases done₂ : op.runFrom w₂ with
    | mk result₂ after₂ =>
      rw [done₁, done₂] at same alike
      obtain rfl : result₁ = result₂ := same
      cases result₁ with
      | error failure => exact ⟨rfl, tried, alike⟩
      | ok a => exact rest a alike

theorem steady_pure (a : α) : t.Steady (pure a : Service b α) := fun _ _ _ alike => ⟨rfl, alike⟩

theorem steady_throw (failure : Failure) : t.Steady (throw failure : Service b α) :=
  fun _ _ _ alike => ⟨rfl, alike⟩

theorem steady_check (result : Except Failure α) : t.Steady (check result : Service b α) :=
  fun _ _ _ alike => ⟨rfl, alike⟩

/-- What goes on from the world goes on alike if it reads only what is alike. -/
theorem steady_get {next : World b → Service b α}
    (same : ∀ {tried w₁ w₂}, t.Alike tried w₁ w₂ → next w₁ = next w₂)
    (rest : ∀ w, t.Steady (next w)) : t.Steady (get >>= next) := by
  intro tried w₁ w₂ alike
  rw [runFrom_get_bind, runFrom_get_bind, same alike]
  exact rest w₂ alike

/-- A change that leaves the logs alone, and what is alike alike. -/
theorem steady_modify {f : World b → World b}
    (logs : ∀ {given tried w}, World.Logs t.config t.start given tried w →
      World.Logs t.config t.start given tried (f w))
    (books : ∀ {tried w₁ w₂}, t.Alike tried w₁ w₂ →
      (f w₁).store.wallets = (f w₂).store.wallets ∧ (f w₁).store.intents = (f w₂).store.intents ∧
        (f w₁).store.escrows = (f w₂).store.escrows ∧
        { (f w₁).ids with events := 0 } = { (f w₂).ids with events := 0 }) :
    t.Steady (modify f : Service b Unit) := by
  intro tried w₁ w₂ alike
  obtain ⟨wallets, intents, escrows, ids⟩ := books alike
  exact ⟨rfl, ⟨wallets, intents, escrows, ids, logs alike.first, logs alike.second⟩⟩

theorem steady_note (entry : LogEntry) : t.Steady (note entry : Service b Unit) :=
  steady_modify (fun logs => { logs with })
    fun alike => ⟨alike.wallets, alike.intents, alike.escrows, alike.ids⟩

theorem steady_tally (counted : Tally) : t.Steady (tally counted : Service b Unit) :=
  steady_modify (fun logs => { logs with })
    fun alike => ⟨alike.wallets, alike.intents, alike.escrows, alike.ids⟩

theorem steady_ite {condition : Prop} [Decidable condition] {op other : Service b α}
    (first : t.Steady op) (second : t.Steady other) :
    t.Steady (if condition then op else other) := by
  split
  · exact first
  · exact second

theorem Steady.attempt {op : Service b α} (steady : t.Steady op) : t.Steady op.attempt := by
  intro tried w₁ w₂ alike
  obtain ⟨same, after⟩ := steady alike
  exact ⟨congrArg Except.ok same, after⟩

/-- What is taken back was alike, and nothing was attempted meanwhile. -/
theorem Steady.atomically {op : Service b α} (steady : t.Steady op) :
    t.Steady (atomically op) := by
  intro tried w₁ w₂ alike
  obtain ⟨same, after⟩ := steady alike
  rw [runFrom_atomic, runFrom_atomic]
  cases done₁ : op.runFrom w₁ with
  | mk result₁ after₁ =>
    cases done₂ : op.runFrom w₂ with
    | mk result₂ after₂ =>
      rw [done₁, done₂] at same after
      obtain rfl : result₁ = result₂ := same
      cases result₁ with
      | ok a => exact ⟨rfl, after⟩
      | error failure =>
        refine ⟨rfl, ?_⟩
        cases b.rollsBack with
        | false => exact after
        | true =>
          exact ⟨alike.wallets, alike.intents, alike.escrows, after.ids,
            alike.first.takenBack after.first, alike.second.takenBack after.second⟩

/-! ### Wallets and intents -/

theorem steady_findWallet (user : String) : t.Steady (findWallet user : Service b Wallet) :=
  steady_get (fun alike => by rw [alike.wallets]) fun _ => steady_check _

theorem steady_setLocked (user : String) (locked : Decimal) :
    t.Steady (setLocked user locked : Service b Unit) :=
  steady_modify (fun logs => { logs with }) fun alike =>
    ⟨congrArg (List.map _) alike.wallets, alike.intents, alike.escrows, alike.ids⟩

theorem steady_openWallet (user : String) (balance : Numeral) :
    t.Steady (openWallet user balance : Service b Unit) := by
  refine Steady.atomically (steady_get (fun alike => by rw [alike.wallets]) fun w =>
    steady_ite (steady_throw _) ((steady_check _).bind fun d => ?_))
  exact steady_modify (fun logs => { logs with }) fun alike =>
    ⟨congrArg (· ++ _) alike.wallets, alike.intents, alike.escrows, alike.ids⟩

theorem steady_availableIn (wallet : Wallet) :
    t.Steady (availableIn wallet : Service b Decimal) :=
  (steady_check _).bind fun _ => (steady_check _).bind fun _ => steady_check _

theorem steady_lockFunds (user : String) (amount : Numeral) {op : Service b α}
    (steady : t.Steady op) : t.Steady (lockFunds user amount op) :=
  (steady_check _).bind fun _ => .atomically <| (steady_findWallet user).bind fun wallet =>
    (steady_availableIn wallet).bind fun _ => (steady_check _).bind fun _ =>
      steady_ite (steady_throw _) <| steady.bind fun _ => (steady_check _).bind fun _ =>
        (steady_check _).bind fun _ => (steady_setLocked user _).bind fun _ => steady_pure _

theorem steady_releaseFunds (user : String) (amount : Numeral) :
    t.Steady (releaseFunds user amount : Service b Unit) :=
  (steady_check _).bind fun _ => .atomically <| (steady_findWallet user).bind fun _ =>
    (steady_check _).bind fun _ => (steady_check _).bind fun _ =>
      steady_ite (steady_throw _) <| (steady_check _).bind fun _ => steady_setLocked user _

theorem steady_addIntent (i : Intent) : t.Steady (addIntent i : Service b Unit) := by
  refine .atomically (steady_get (fun alike => ?_) fun w => steady_ite (steady_throw _) ?_)
  · simp only [alike.refusals, alike.intents]
  · refine (steady_check _).bind fun row => steady_ite (steady_throw _) ?_
    exact steady_modify (fun logs => { logs with }) fun alike =>
      ⟨alike.wallets, congrArg (· ++ _) alike.intents, alike.escrows, alike.ids⟩

theorem steady_findIntent? (id : String) : t.Steady (findIntent? id : Service b _) :=
  steady_get (fun alike => by rw [alike.intents]) fun _ => steady_check _

theorem steady_listIntents (user : String) : t.Steady (listIntents user : Service b _) :=
  steady_get (fun alike => by rw [alike.intents]) fun _ => steady_check _

theorem steady_updateIntent (id : String) {change : Intent → Service b (α × Intent)}
    (steady : ∀ i, t.Steady (change i)) : t.Steady (updateIntent id change) := by
  refine .atomically (steady_get (fun alike => by rw [alike.intents]) fun w => ?_)
  cases b.intents.find? id w.store.intents with
  | none => exact steady_throw _
  | some row =>
    refine (steady_check _).bind fun i => (steady i).bind fun _ => (steady_check _).bind fun _ =>
      Steady.bind ?_ fun _ => steady_pure _
    exact steady_modify (fun logs => { logs with }) fun alike =>
      ⟨alike.wallets, congrArg (b.intents.replace id _) alike.intents, alike.escrows, alike.ids⟩

theorem steady_releaseRest (i : Intent) (rest : Decimal) :
    t.Steady (releaseRest i rest : Service b Unit) :=
  (steady_check _).bind fun _ => steady_ite (steady_releaseFunds _ _) (steady_pure _)

theorem Alike.numbers (alike : t.Alike tried w₁ w₂) :
    w₁.ids.intents = w₂.ids.intents ∧ w₁.ids.escrows = w₂.ids.escrows ∧
      w₁.ids.milestones = w₂.ids.milestones ∧ w₁.ids.transactions = w₂.ids.transactions := by
  simpa only [Ids.mk.injEq, true_and] using alike.ids

/-- Taking ids of other things than events. -/
theorem steady_number {f : Ids → Ids}
    (aside : ∀ ids n, f { ids with events := n } = { f ids with events := n }) :
    t.Steady (modify fun w => { w with ids := f w.ids } : Service b Unit) := by
  have events (ids : Ids) : (f ids).events = ids.events := by
    have same := congrArg Ids.events (aside ids ids.events)
    exact same
  refine steady_modify (fun logs => { logs with events := ?_ }) fun alike =>
    ⟨alike.wallets, alike.intents, alike.escrows, ?_⟩
  · rw [← logs.events, World.eventLog, World.eventLog, events]
  · dsimp only
    rw [← aside, ← aside, alike.ids]

theorem steady_openIntent (user text : String) (policy : Policy) (now : Time) :
    t.Steady (openIntent user text policy now : Service b Intent) := by
  refine steady_get (fun alike => by rw [alike.numbers.1]) fun w => Steady.bind ?_ fun _ =>
    steady_check _
  exact steady_number (f := fun ids => { ids with intents := w.ids.intents + 1 }) fun _ _ => rfl

theorem steady_useIntent (id : String) (amount : Numeral) :
    t.Steady (useIntent id amount : Service b Intent) :=
  steady_updateIntent id fun _ => (steady_check _).bind fun _ => steady_pure _

theorem steady_violateIntent (id : String) : t.Steady (violateIntent id : Service b Intent) :=
  steady_updateIntent id fun _ => steady_pure _

theorem steady_cancelIntent (id : String) : t.Steady (cancelIntent id : Service b Decimal) :=
  (steady_updateIntent id fun _ => (steady_check _).bind fun _ =>
    (steady_releaseRest _ _).bind fun _ => steady_pure _).bind fun _ =>
      (steady_note _).bind fun _ => steady_pure _

/-! ### The logs -/

/-- What each run does to the logs, it does to nothing else. -/
theorem blind_of_writes {op : Service b Unit} (f : World b → World b) (more : Attempts → Attempts)
    (runs : ∀ w, ∃ journal tallies, op.runFrom w = (.ok (), { f w with journal, tallies }))
    (logs : ∀ {given tried w}, World.Logs t.config t.start given tried w →
      World.Logs t.config t.start given (more tried) (f w))
    (books : ∀ w, (f w).store.wallets = w.store.wallets ∧ (f w).store.intents = w.store.intents ∧
      (f w).store.escrows = w.store.escrows ∧
      { (f w).ids with events := 0 } = { w.ids with events := 0 }) : t.Blind op := by
  intro tried w₁ w₂ alike
  obtain ⟨journal₁, tallies₁, runs₁⟩ := runs w₁
  obtain ⟨journal₂, tallies₂, runs₂⟩ := runs w₂
  obtain ⟨wallets₁, intents₁, escrows₁, ids₁⟩ := books w₁
  obtain ⟨wallets₂, intents₂, escrows₂, ids₂⟩ := books w₂
  rw [runs₁, runs₂]
  refine ⟨rfl, more tried, ?_⟩
  exact
    { wallets := wallets₁.trans (alike.wallets.trans wallets₂.symm)
      intents := intents₁.trans (alike.intents.trans intents₂.symm)
      escrows := escrows₁.trans (alike.escrows.trans escrows₂.symm)
      ids := ids₁.trans (alike.ids.trans ids₂.symm)
      first := { logs alike.first with }
      second := { logs alike.second with } }

theorem blind_follow (now : Time) (user : String) (kind : EventKind) (description : String) :
    t.Blind (follow t.config now user kind description : Service b Unit) := by
  let draft : EventDraft := { user, kind, description, time := now }
  refine blind_of_writes (·.recorded t.config draft)
    (fun tried => { tried with events := tried.events ++ [draft] })
    (runFrom_follow t.config draft) (fun logs => logs.recorded draft) fun w => ?_
  unfold World.recorded
  split <;> exact ⟨rfl, rfl, rfl, rfl⟩

theorem blind_logPayment (record : TransactionRecord) :
    t.Blind (logPayment record : Service b Unit) := by
  refine blind_of_writes (·.recording record)
    (fun tried => { tried with records := tried.records ++ [record] })
    (runFrom_logging record) (fun logs => logs.recording record) fun w => ?_
  unfold World.recording
  split <;> exact ⟨rfl, rfl, rfl, rfl⟩

/-! ### Payments and escrows -/

theorem blind_ite {condition : Prop} [Decidable condition] {op other : Service b α}
    (first : t.Blind op) (second : t.Blind other) :
    t.Blind (if condition then op else other) := by
  split
  · exact first
  · exact second

theorem blind_createIntent (now : Time) (user text : String) (policy : Policy) :
    t.Blind (createIntent t.config now user text policy : Service b Intent) := by
  refine (steady_openIntent user text policy now).blind.bind fun intent =>
    (steady_lockFunds user _ (steady_addIntent intent)).attempt.blind.bind fun
    | .error failure => (steady_throw _).blind
    | .ok () => (steady_note _).blind.bind fun _ => ?_
  exact blind_ite ((blind_follow _ _ _ _).bind fun _ => (steady_pure _).blind) (steady_pure _).blind

theorem steady_beginPayment (r : PaymentRequest) :
    t.Steady (beginPayment t.config r : Service b Payment) := by
  refine steady_get (fun alike => by rw [alike.numbers.2.2.2]) fun w => Steady.bind ?_ fun _ =>
    (steady_check _).bind fun _ => (steady_check _).bind fun _ => steady_pure _
  exact steady_number (f := fun ids => { ids with transactions := w.ids.transactions + 1 })
    fun _ _ => rfl

theorem steady_resolvePayment (p : Payment) :
    t.Steady (resolvePayment t.config p : Service b (Option String)) := by
  unfold resolvePayment
  cases p.named with
  | some id =>
    refine (steady_findIntent? id).bind fun found => ?_
    cases found with
    | some i => exact steady_ite (steady_pure _) (steady_throw _)
    | none => exact steady_throw _
  | none =>
    exact steady_ite (steady_pure _) <| (steady_listIntents p.user).bind fun _ =>
      (steady_check _).bind fun _ => steady_pure _

theorem steady_settlePayment (p : Payment) (i : Intent) :
    t.Steady (settlePayment t.config p i : Service b _) :=
  (steady_check _).bind fun _ => steady_ite (steady_pure _) <|
    steady_ite ((steady_check _).bind fun _ => steady_pure _) <| (steady_check _).bind fun _ =>
      (steady_releaseRest i _).bind fun _ => steady_pure _

theorem steady_commitPayment (p : Payment) (intentId : Option String) :
    t.Steady (commitPayment t.config p intentId : Service b _) := by
  cases intentId with
  | none => exact (steady_check _).bind fun _ => steady_pure _
  | some id =>
    exact (steady_updateIntent id (steady_settlePayment p)).bind fun _ => steady_pure _

theorem steady_countPayment (p : Payment) (intentId : Option String) (v : Verdict) :
    t.Steady (countPayment p intentId v : Service b Unit) := by
  have closing : t.Steady (do
      tally .latency
      note (.validated p.id p.user intentId p.merchant.id v.approved v.failedAt) :
        Service b Unit) := (steady_tally _).bind fun _ => steady_note _
  unfold countPayment
  dsimp only
  refine steady_ite ((steady_tally _).bind fun _ => ?counting) ?counting
  refine (steady_tally _).bind fun _ => ?_
  split
  · exact (steady_tally _).bind fun _ => closing
  · exact closing

theorem blind_rewardPayment (now : Time) (p : Payment) (v : Verdict) :
    t.Blind (rewardPayment t.config now p v : Service b Unit) :=
  blind_ite ((steady_note _).blind.bind fun _ => blind_follow _ _ _ _) <|
    blind_ite ((blind_follow _ _ _ _).bind fun _ =>
      blind_ite (blind_follow _ _ _ _) (steady_pure _).blind) (blind_follow _ _ _ _)

theorem blind_pay (now : Time) (r : PaymentRequest) :
    t.Blind (pay t.config now r : Service b PaymentResult) :=
  (steady_beginPayment r).blind.bind fun p => (steady_resolvePayment p).blind.bind fun intentId =>
    (steady_commitPayment p intentId).blind.bind fun (verdict, _) =>
    (blind_logPayment _).bind fun _ => (steady_countPayment p intentId verdict).blind.bind fun _ =>
    (blind_rewardPayment now p verdict).bind fun _ => (steady_pure _).blind

theorem steady_addEscrow (e : Escrow) : t.Steady (addEscrow e : Service b Unit) := by
  refine .atomically (steady_get (fun alike => by rw [alike.escrows]) fun w =>
    steady_ite (steady_throw _) ((steady_check _).bind fun row => ?_))
  exact steady_modify (fun logs => { logs with }) fun alike =>
    ⟨alike.wallets, alike.intents, congrArg (· ++ _) alike.escrows, alike.ids⟩

theorem steady_updateEscrow (id : String) (change : Escrow → Except Failure (α × Escrow)) :
    t.Steady (updateEscrow id change : Service b α) := by
  refine .atomically (steady_get (fun alike => by rw [alike.escrows]) fun w => ?_)
  cases b.escrows.find? id w.store.escrows with
  | none => exact steady_throw _
  | some row =>
    refine (steady_check _).bind fun _ => (steady_check _).bind fun _ => Steady.bind ?_ fun _ =>
      steady_pure _
    exact steady_modify (fun logs => { logs with }) fun alike =>
      ⟨alike.wallets, alike.intents, congrArg (b.escrows.replace id _) alike.escrows, alike.ids⟩

/-- Building an escrow takes no id of an event and depends on none. -/
theorem build_events (ids : Ids) (n : Nat) (user : String) (specs : List MilestoneSpec)
    (now : Time) (intentId : Option String) (title : String) (expiryDays : Int) :
    Escrow.build { ids with events := n } user specs now intentId title expiryDays =
      ({ (Escrow.build ids user specs now intentId title expiryDays).1 with events := n },
        (Escrow.build ids user specs now intentId title expiryDays).2) := by
  unfold Escrow.build
  split
  · rfl
  · dsimp only
    rcases Milestone.build ids.milestones specs with ⟨last, failure | milestones⟩ <;> rfl

theorem steady_createEscrow (now : Time) (user : String) (specs : List MilestoneSpec)
    (title : String) (intentId : Option String) :
    t.Steady (createEscrow t.config now user specs title intentId : Service b Escrow) := by
  let built (ids : Ids) := Escrow.build ids user specs now intentId title t.config.expiryDays
  let numbering : Service b Unit := modify fun w => { w with ids := (built w.ids).1 }
  let closing (result : Except Failure Escrow) : Service b Escrow := do
    let escrow ← check result
    addEscrow escrow
    note (.escrowCreated escrow.id user (← check escrow.total))
    return escrow
  have closed (result : Except Failure Escrow) : t.Steady (closing result) :=
    (steady_check _).bind fun escrow => (steady_addEscrow escrow).bind fun _ =>
      (steady_check _).bind fun _ => (steady_note _).bind fun _ => steady_pure _
  have numbered : t.Steady numbering :=
    steady_number (f := fun ids => (built ids).1) fun ids n => by
      simp only [built, build_events]
  intro tried w₁ w₂ alike
  have same : (built w₁.ids).2 = (built w₂.ids).2 := by
    have first := congrArg Prod.snd (build_events w₁.ids 0 user specs now intentId title
      t.config.expiryDays)
    have second := congrArg Prod.snd (build_events w₂.ids 0 user specs now intentId title
      t.config.expiryDays)
    rw [alike.ids] at first
    exact first.symm.trans second
  have runs (w : World b) :
      (createEscrow t.config now user specs title intentId : Service b Escrow).runFrom w =
        (closing (built w.ids).2).runFrom ((numbering).runFrom w).2 := rfl
  rw [runs, runs, same]
  exact (closed _) (numbered alike).2

theorem blind_releaseMilestone (now : Time) (escrowId milestoneId : String)
    (proof merchantId : Option String) :
    t.Blind (releaseMilestone t.config now escrowId milestoneId proof merchantId :
      Service b ReleaseReceipt) :=
  (steady_updateEscrow _ _).blind.bind fun _ => (steady_tally _).blind.bind fun _ =>
    (steady_note _).blind.bind fun _ =>
      blind_ite ((blind_follow _ _ _ _).bind fun _ => (steady_pure _).blind) (steady_pure _).blind

theorem blind_clawBack (now : Time) (escrowId : String) (reason : ClawbackReason)
    (part : Option Numeral) :
    t.Blind (clawBack t.config now escrowId reason part : Service b ClawbackReceipt) :=
  (steady_updateEscrow _ _).blind.bind fun _ => (steady_tally _).blind.bind fun _ =>
    (steady_note _).blind.bind fun _ =>
      blind_ite ((blind_follow _ _ _ _).bind fun _ => (steady_pure _).blind) (steady_pure _).blind

/-! ### Commands and runs -/

theorem Blind.reply {op : Service b α} (blind : t.Blind op) (f : α → Reply) :
    t.Blind (op >>= fun a => pure (f a)) := blind.bind fun a => (steady_pure (f a)).blind

end Twins

/-- Whether a command is itself an entry of the log of events. -/
def Command.recordsDirectly : Command → Bool
  | .recordEvent .. => true
  | _ => false

namespace Twins

open Service

variable {t : Twins b} {tried : Attempts} {w₁ w₂ : World b}

theorem blind_run (now : Time) {c : Command} (served : c.recordsDirectly = false) :
    t.Blind (c.run t.config now : Service b Reply) := by
  cases c with
  | openWallet user balance => exact (steady_openWallet user balance).blind.reply fun _ => .done
  | lockFunds user amount fails =>
    refine (steady_lockFunds user amount ?_).blind.reply fun _ => .done
    exact steady_ite (steady_throw _) (steady_pure _)
  | releaseFunds user amount => exact (steady_releaseFunds user amount).blind.reply fun _ => .done
  | createIntent user text policy => exact (blind_createIntent now user text policy).reply .intent
  | addIntent i => exact (steady_addIntent i).blind.reply fun _ => .done
  | useIntent id amount => exact (steady_useIntent id amount).blind.reply .intent
  | violateIntent id => exact (steady_violateIntent id).blind.reply .intent
  | cancelIntent id => exact (steady_cancelIntent id).blind.reply .amount
  | pay request => exact (blind_pay now request).reply .payment
  | createEscrow user specs title intentId =>
    exact (steady_createEscrow now user specs title intentId).blind.reply .escrow
  | releaseMilestone escrowId milestoneId proof merchantId =>
    exact (blind_releaseMilestone now escrowId milestoneId proof merchantId).reply .release
  | clawBack escrowId reason part => exact (blind_clawBack now escrowId reason part).reply .clawback
  | recordEvent => cases served

theorem replies_eq_and_alike_after (alike : t.Alike tried w₁ w₂) {run : List (Time × Command)}
    (served : ∀ entry ∈ run, entry.2.recordsDirectly = false) :
    w₁.replies t.config run = w₂.replies t.config run ∧
      ∃ tried, t.Alike tried (w₁.after t.config run) (w₂.after t.config run) := by
  induction run generalizing tried w₁ w₂ with
  | nil => exact ⟨rfl, tried, alike⟩
  | cons entry rest ih =>
    obtain ⟨same, next, stepped⟩ := blind_run entry.1 (served entry (by simp)) alike
    obtain ⟨replies, final, after⟩ := ih stepped fun other mem => served other (by simp [mem])
    refine ⟨?_, final, after⟩
    exact List.cons_eq_cons.mpr ⟨same, replies⟩

end Twins

namespace World

/-- Whichever writes of the two logs fail, every call answers as it does when none fails, and the
wallets, intents and escrows come out the same. Of the entries that the healthy run adds to a log
the other adds those whose own writes go through, each event with the score that follows from the
events before it. -/
theorem logs_isolated (config : Config) (w : World b) (events records : Nat → Bool)
    {run : List (Time × Command)} (served : ∀ entry ∈ run, entry.2.recordsDirectly = false) :
    let healthy := w.losing (fun _ => false) (fun _ => false)
    let failing := w.losing events records
    failing.replies config run = healthy.replies config run ∧
      (failing.after config run).store.wallets = (healthy.after config run).store.wallets ∧
      (failing.after config run).store.intents = (healthy.after config run).store.intents ∧
      (failing.after config run).store.escrows = (healthy.after config run).store.escrows ∧
      ∃ tried : Attempts,
        (healthy.after config run).store.records =
          tried.records.foldl appendRecord w.store.records ∧
        (failing.after config run).store.records =
          (surviving records w.recordWrites tried.records).foldl appendRecord w.store.records ∧
        (healthy.after config run).eventLog =
          tried.events.foldl (EventLog.append config) w.eventLog ∧
        (failing.after config run).eventLog =
          (surviving events w.eventWrites tried.events).foldl (EventLog.append config)
            w.eventLog := by
  intro healthy failing
  let t : Twins b :=
    { config, start := w, first := { events, records }, second := {}, refusals := rfl }
  have start : t.Alike {} failing healthy :=
    ⟨rfl, rfl, rfl, rfl, ⟨rfl, rfl, rfl, rfl, rfl⟩, ⟨rfl, rfl, rfl, rfl, rfl⟩⟩
  obtain ⟨replies, tried, after⟩ := t.replies_eq_and_alike_after start served
  refine ⟨replies, after.wallets, after.intents, after.escrows, tried, ?_, after.first.records, ?_,
    after.first.events⟩
  · rw [← surviving_all (fun _ => false) (fun _ => rfl) w.recordWrites tried.records]
    exact after.second.records
  · rw [← surviving_all (fun _ => false) (fun _ => rfl) w.eventWrites tried.events]
    exact after.second.events

/-- Without the second event and the first record both runs answer the same. -/
theorem logs_isolated_cancelled :
    let healthy := Sample.start.losing (fun _ => false) (fun _ => false)
    let failing := Sample.start.losing (· == 1) (· == 0)
    let spared := failing.after Sample.config Sample.cancelled
    let full := healthy.after Sample.config Sample.cancelled
    failing.replies Sample.config Sample.cancelled =
        healthy.replies Sample.config Sample.cancelled ∧
      full.records.map (·.id) = [Ids.transaction 1, Ids.transaction 2] ∧
      spared.records.map (·.id) = [Ids.transaction 2] ∧
      full.eventLog.scores = [("reader", 497)] ∧ spared.eventLog.scores = [("reader", 487)] := by
  intro healthy failing spared full
  refine ⟨(logs_isolated Sample.config Sample.start (· == 1) (· == 0) ?_).1, ?_⟩
  · decide
  · decide +kernel

end World

end Earmark
