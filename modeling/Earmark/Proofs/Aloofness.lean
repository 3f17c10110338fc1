import Earmark.Proofs.Sequels
import Earmark.Service.Inquiry

/-!
What operations do not look at. Operations on wallets and intents commute with putting anything else
in the place of the logs, the escrows and the counters (`Service.Detached`). The log of payments is
written and never read to decide anything: every command but a payment, which adds a record of what
it has come to, commutes with putting other rows in its place (`Service.aloof_run`).
-/

namespace Earmark

variable {b : Backend} {α β : Type}

/-- What of a world has nothing to do with wallets and intents. -/
structure Filing (b : Backend) where
  records : List b.records.Row
  escrows : List b.escrows.Row
  events : List b.events.Row
  tallies : List Tally
  eventWrites : Nat
  eventsDown : Nat → Bool
  recordsDown : Nat → Bool

namespace World

def filing (w : World b) : Filing b :=
  { records := w.store.records, escrows := w.store.escrows, events := w.store.events
    tallies := w.tallies, eventWrites := w.eventWrites, eventsDown := w.outage.events
    recordsDown := w.outage.records }

/-- The world with another filing. -/
def refiled (w : World b) (f : Filing b) : World b :=
  { w with
    store := { w.store with records := f.records, escrows := f.escrows, events := f.events }
    tallies := f.tallies, eventWrites := f.eventWrites
    outage := { w.outage with events := f.eventsDown, records := f.recordsDown } }

/-- The world with other rows in its log of payments. -/
def relogged (w : World b) (rows : List b.records.Row) : World b :=
  { w with store := { w.store with records := rows } }

end World

namespace Service

/-- The operation does not look at the filing and leaves it alone. -/
def Detached (op : Service b α) : Prop :=
  ∀ (w : World b) (f : Filing b),
    op.runFrom (w.refiled f) = ((op.runFrom w).1, (op.runFrom w).2.refiled f)

theorem Detached.filing {op : Service b α} (detached : Detached op) (w : World b) :
    (op.runFrom w).2.filing = w.filing := by
  have same : op.runFrom w = ((op.runFrom w).1, (op.runFrom w).2.refiled w.filing) :=
    detached w w.filing
  rw [same]
  rfl

/-! ### What such an operation is made of -/

theorem Detached.bind {op : Service b α} {next : α → Service b β} (first : Detached op)
    (rest : ∀ a, Detached (next a)) : Detached (op >>= next) := by
  intro w f
  rw [runFrom_bind, runFrom_bind, first w f]
  rcases op.runFrom w with ⟨failure | a, after⟩
  · rfl
  · exact rest a after f

theorem detached_pure (a : α) : Detached (pure a : Service b α) := fun _ _ => rfl

theorem detached_throw (failure : Failure) : Detached (throw failure : Service b α) :=
  fun _ _ => rfl

theorem detached_check (result : Except Failure α) : Detached (check result : Service b α) :=
  fun _ _ => rfl

/-- What goes on from a world is detached if it goes on alike whatever is filed. -/
theorem detached_get {next : World b → Service b α}
    (blind : ∀ w f, next (w.refiled f) = next w) (rest : ∀ w, Detached (next w)) :
    Detached (get >>= next) := by
  intro w f
  rw [runFrom_get_bind, runFrom_get_bind, blind]
  exact rest w w f

theorem detached_modify {change : World b → World b}
    (apart : ∀ w f, change (w.refiled f) = (change w).refiled f) :
    Detached (modify change : Service b Unit) := by
  intro w f
  rw [runFrom_modify, runFrom_modify, apart]

theorem detached_note (entry : LogEntry) : Detached (note entry : Service b Unit) :=
  detached_modify fun _ _ => rfl

theorem detached_ite {condition : Prop} [Decidable condition] {op other : Service b α}
    (first : Detached op) (second : Detached other) :
    Detached (if condition then op else other) := by
  split
  · exact first
  · exact second

theorem Detached.attempt {op : Service b α} (detached : Detached op) : Detached op.attempt := by
  intro w f
  rw [runFrom_attempt, runFrom_attempt, detached w f]

theorem Detached.atomically {op : Service b α} (detached : Detached op) :
    Detached (atomically op) := by
  intro w f
  rw [runFrom_atomic, runFrom_atomic, detached w f]
  rcases op.runFrom w with ⟨failure | a, after⟩
  · dsimp only
    split <;> rfl
  · rfl

/-! ### Wallets -/

theorem detached_findWallet (user : String) : Detached (findWallet user : Service b Wallet) :=
  detached_get (fun _ _ => rfl) fun _ => detached_check _

theorem detached_setLocked (user : String) (amount : Decimal) :
    Detached (setLocked user amount : Service b Unit) := detached_modify fun _ _ => rfl

theorem detached_availableIn (wallet : Wallet) :
    Detached (availableIn wallet : Service b Decimal) :=
  (detached_check _).bind fun _ => (detached_check _).bind fun _ => detached_check _

theorem detached_openWallet (user : String) (balance : Numeral) :
    Detached (openWallet user balance : Service b Unit) :=
  .atomically <| detached_get (fun _ _ => rfl) fun _ => detached_ite (detached_throw _) <|
    (detached_check _).bind fun _ => detached_modify fun _ _ => rfl

theorem detached_lockFunds (user : String) (amount : Numeral) {op : Service b α}
    (detached : Detached op) : Detached (lockFunds user amount op) :=
  (detached_check _).bind fun _ => .atomically <| (detached_findWallet user).bind fun _ =>
    (detached_availableIn _).bind fun _ => (detached_check _).bind fun _ =>
      detached_ite (detached_throw _) <| detached.bind fun _ => (detached_check _).bind fun _ =>
        (detached_check _).bind fun _ => (detached_setLocked _ _).bind fun _ => detached_pure _

theorem detached_releaseFunds (user : String) (amount : Numeral) :
    Detached (releaseFunds user amount : Service b Unit) :=
  (detached_check _).bind fun _ => .atomically <| (detached_findWallet user).bind fun _ =>
    (detached_check _).bind fun _ => (detached_check _).bind fun _ =>
      detached_ite (detached_throw _) <| (detached_check _).bind fun _ => detached_setLocked _ _

/-! ### Intents -/

theorem detached_addIntent (i : Intent) : Detached (addIntent i : Service b Unit) :=
  .atomically <| detached_get (fun _ _ => rfl) fun _ => detached_ite (detached_throw _) <|
    (detached_check _).bind fun _ => detached_ite (detached_throw _) <|
      detached_modify fun _ _ => rfl

theorem detached_findIntent? (id : String) :
    Detached (findIntent? id : Service b (Option Intent)) :=
  detached_get (fun _ _ => rfl) fun _ => detached_check _

theorem detached_listIntents (user : String) :
    Detached (listIntents user : Service b (List Intent)) :=
  detached_get (fun _ _ => rfl) fun _ => detached_check _

theorem detached_updateIntent (id : String) {change : Intent → Service b (α × Intent)}
    (detached : ∀ i, Detached (change i)) : Detached (updateIntent id change) := by
  refine .atomically <| detached_get (fun _ _ => rfl) fun w => ?_
  cases b.intents.find? id w.store.intents with
  | none => exact detached_throw _
  | some row =>
    exact (detached_check _).bind fun i => (detached i).bind fun _ =>
      (detached_check _).bind fun _ => (detached_modify fun _ _ => rfl).bind fun _ =>
        detached_pure _

theorem detached_releaseRest (i : Intent) (rest : Decimal) :
    Detached (releaseRest i rest : Service b Unit) :=
  (detached_check _).bind fun _ => detached_ite (detached_releaseFunds _ _) (detached_pure _)

theorem detached_openIntent (user text : String) (policy : Policy) (now : Time) :
    Detached (openIntent user text policy now : Service b Intent) :=
  detached_get (fun _ _ => rfl) fun _ => (detached_modify fun _ _ => rfl).bind fun _ =>
    detached_check _

theorem detached_useIntent (id : String) (amount : Numeral) :
    Detached (useIntent id amount : Service b Intent) :=
  detached_updateIntent id fun _ => (detached_check _).bind fun _ => detached_pure _

theorem detached_cancelIntent (id : String) : Detached (cancelIntent id : Service b Decimal) := by
  refine (detached_updateIntent id fun i => ?_).bind fun _ => (detached_note _).bind fun _ =>
    detached_pure _
  exact (detached_check _).bind fun _ => (detached_releaseRest i _).bind fun _ => detached_pure _

theorem Detached.reply {op : Service b α} (detached : Detached op) (f : α → Reply) :
    Detached (op >>= fun a => pure (f a)) := detached.bind fun _ => detached_pure _

/-- Commands that do nothing behind the books are detached. -/
theorem detached_run (config : Config) (now : Time) {c : Command} (books : c.keepsToBooks = true) :
    Detached (c.run config now : Service b Reply) := by
  cases c with
  | openWallet user balance => exact (detached_openWallet user balance).reply _
  | lockFunds user amount fails =>
    refine (detached_lockFunds user amount ?_).reply _
    exact detached_ite (detached_throw _) (detached_pure _)
  | releaseFunds user amount => exact (detached_releaseFunds user amount).reply _
  | addIntent i => exact (detached_addIntent i).reply _
  | useIntent id amount => exact (detached_useIntent id amount).reply _
  | violateIntent id =>
    exact (detached_updateIntent id fun _ => detached_pure _).reply _
  | cancelIntent id => exact (detached_cancelIntent id).reply _
  | _ => cases books

/-! ### Payments up to their commit -/

theorem detached_beginPayment (config : Config) (r : PaymentRequest) :
    Detached (beginPayment config r : Service b Payment) :=
  detached_get (fun _ _ => rfl) fun _ => (detached_modify fun _ _ => rfl).bind fun _ =>
    (detached_check _).bind fun _ => (detached_check _).bind fun _ => detached_pure _

theorem detached_resolvePayment (config : Config) (p : Payment) :
    Detached (resolvePayment config p : Service b (Option String)) := by
  unfold resolvePayment
  cases p.named with
  | some id =>
    refine (detached_findIntent? id).bind fun found => ?_
    cases found with
    | some i => exact detached_ite (detached_pure _) (detached_throw _)
    | none => exact detached_throw _
  | none =>
    exact detached_ite (detached_pure _) <| (detached_listIntents p.user).bind fun _ =>
      (detached_check _).bind fun _ => detached_pure _

theorem detached_commitPayment (config : Config) (p : Payment) (intentId : Option String) :
    Detached (commitPayment config p intentId : Service b (Verdict × Option Intent)) := by
  cases intentId with
  | none => exact (detached_check _).bind fun _ => detached_pure _
  | some id =>
    refine (detached_updateIntent id fun i => ?_).bind fun _ => detached_pure _
    exact (detached_check _).bind fun _ => detached_ite (detached_pure _) <|
      detached_ite ((detached_check _).bind fun _ => detached_pure _) <|
        (detached_check _).bind fun _ => (detached_releaseRest i _).bind fun _ =>
          detached_pure _

/-! ### Apart from the log of payments -/

/-- The operation does not look at the log of payments and leaves it alone. -/
def Aloof (op : Service b α) : Prop :=
  ∀ (w : World b) (rows : List b.records.Row),
    op.runFrom (w.relogged rows) = ((op.runFrom w).1, (op.runFrom w).2.relogged rows)

theorem Aloof.records {op : Service b α} (aloof : Aloof op) (w : World b) :
    (op.runFrom w).2.store.records = w.store.records := by
  have same : op.runFrom w = ((op.runFrom w).1, (op.runFrom w).2.relogged w.store.records) :=
    aloof w w.store.records
  rw [same]
  rfl

theorem Aloof.bind {op : Service b α} {next : α → Service b β} (first : Aloof op)
    (rest : ∀ a, Aloof (next a)) : Aloof (op >>= next) := by
  intro w rows
  rw [runFrom_bind, runFrom_bind, first w rows]
  rcases op.runFrom w with ⟨failure | a, after⟩
  · rfl
  · exact rest a after rows

theorem aloof_pure (a : α) : Aloof (pure a : Service b α) := fun _ _ => rfl

theorem aloof_throw (failure : Failure) : Aloof (throw failure : Service b α) := fun _ _ => rfl

theorem aloof_check (result : Except Failure α) : Aloof (check result : Service b α) :=
  fun _ _ => rfl

/-- What goes on from a world is aloof if it goes on alike whatever the log holds. -/
theorem aloof_get {next : World b → Service b α}
    (blind : ∀ w rows, next (w.relogged rows) = next w) (rest : ∀ w, Aloof (next w)) :
    Aloof (get >>= next) := by
  intro w rows
  rw [runFrom_get_bind, runFrom_get_bind, blind]
  exact rest w w rows

theorem aloof_modify {f : World b → World b}
    (apart : ∀ w rows, f (w.relogged rows) = (f w).relogged rows) :
    Aloof (modify f : Service b Unit) := by
  intro w rows
  rw [runFrom_modify, runFrom_modify, apart]

theorem aloof_note (entry : LogEntry) : Aloof (note entry : Service b Unit) :=
  aloof_modify fun _ _ => rfl

theorem aloof_tally (counted : Tally) : Aloof (tally counted : Service b Unit) :=
  aloof_modify fun _ _ => rfl

theorem aloof_ite {condition : Prop} [Decidable condition] {op other : Service b α}
    (first : Aloof op) (second : Aloof other) : Aloof (if condition then op else other) := by
  split
  · exact first
  · exact second

theorem Aloof.attempt {op : Service b α} (aloof : Aloof op) : Aloof op.attempt := by
  intro w rows
  rw [runFrom_attempt, runFrom_attempt, aloof w rows]

theorem Aloof.atomically {op : Service b α} (aloof : Aloof op) : Aloof (atomically op) := by
  intro w rows
  rw [runFrom_atomic, runFrom_atomic, aloof w rows]
  rcases op.runFrom w with ⟨failure | a, after⟩
  · dsimp only
    split <;> rfl
  · rfl

theorem Detached.aloof {op : Service b α} (detached : Detached op) : Aloof op := by
  intro w rows
  have other : op.runFrom (w.relogged rows) = ((op.runFrom w).1,
      (op.runFrom w).2.refiled { w.filing with records := rows }) :=
    detached w { w.filing with records := rows }
  rw [other, ← detached.filing w]
  rfl

/-! ### Reputation and payments -/

theorem aloof_scoreOf (config : Config) (user : String) :
    Aloof (scoreOf config user : Service b Int) :=
  aloof_get (fun _ _ => rfl) fun _ => aloof_pure _

theorem aloof_recordEvent (config : Config) (now : Time) (user : String) (kind : EventKind)
    (description : String) :
    Aloof (recordEvent config now user kind description : Service b ReputationEvent) := by
  refine aloof_get (fun _ _ => rfl) fun _ => (aloof_modify fun _ _ => rfl).bind fun _ =>
    aloof_get (fun _ _ => rfl) fun _ => aloof_ite (aloof_throw _) ?_
  refine (aloof_scoreOf config user).bind fun _ => aloof_get (fun _ _ => rfl) fun _ =>
    (aloof_modify fun _ _ => rfl).bind fun _ => Aloof.bind (.atomically ?_) fun _ =>
      (aloof_tally _).bind fun _ => aloof_pure _
  exact (aloof_check _).bind fun _ => aloof_modify fun _ _ => rfl

theorem aloof_follow (config : Config) (now : Time) (user : String) (kind : EventKind)
    (description : String) : Aloof (follow config now user kind description : Service b Unit) := by
  refine (aloof_recordEvent config now user kind description).attempt.bind fun result => ?_
  cases result with
  | ok event => exact aloof_pure _
  | error failure => exact (aloof_tally _).bind fun _ => aloof_note _

theorem aloof_createIntent (config : Config) (now : Time) (user text : String) (policy : Policy) :
    Aloof (createIntent config now user text policy : Service b Intent) := by
  refine (detached_openIntent user text policy now).aloof.bind fun i =>
    (detached_lockFunds user _ (detached_addIntent i)).attempt.aloof.bind fun result => ?_
  cases result with
  | error failure => exact aloof_throw _
  | ok done =>
    exact (aloof_note _).bind fun _ =>
      aloof_ite ((aloof_follow _ _ _ _ _).bind fun _ => aloof_pure _) (aloof_pure _)

theorem aloof_countPayment (p : Payment) (intentId : Option String) (v : Verdict) :
    Aloof (countPayment p intentId v : Service b Unit) := by
  have closing : Aloof (do
      tally .latency
      note (.validated p.id p.user intentId p.merchant.id v.approved v.failedAt) :
        Service b Unit) := (aloof_tally _).bind fun _ => aloof_note _
  unfold countPayment
  dsimp only
  refine aloof_ite ((aloof_tally _).bind fun _ => ?counting) ?counting
  refine (aloof_tally _).bind fun _ => ?_
  split
  · exact (aloof_tally _).bind fun _ => closing
  · exact closing

theorem aloof_rewardPayment (config : Config) (now : Time) (p : Payment) (v : Verdict) :
    Aloof (rewardPayment config now p v : Service b Unit) :=
  aloof_ite ((aloof_note _).bind fun _ => aloof_follow _ _ _ _ _) <|
    aloof_ite ((aloof_follow _ _ _ _ _).bind fun _ =>
      aloof_ite (aloof_follow _ _ _ _ _) (aloof_pure _)) (aloof_follow _ _ _ _ _)

/-! ### Escrows -/

theorem aloof_updateEscrow (id : String) (change : Escrow → Except Failure (α × Escrow)) :
    Aloof (updateEscrow id change : Service b α) := by
  refine .atomically <| aloof_get (fun _ _ => rfl) fun w => ?_
  cases b.escrows.find? id w.store.escrows with
  | none => exact aloof_throw _
  | some row =>
    exact (aloof_check _).bind fun _ => (aloof_check _).bind fun _ =>
      (aloof_modify fun _ _ => rfl).bind fun _ => aloof_pure _

theorem aloof_createEscrow (config : Config) (now : Time) (user : String)
    (specs : List MilestoneSpec) (title : String) (intentId : Option String) :
    Aloof (createEscrow config now user specs title intentId : Service b Escrow) := by
  have adding (e : Escrow) : Aloof (addEscrow e : Service b Unit) :=
    .atomically <| aloof_get (fun _ _ => rfl) fun _ => aloof_ite (aloof_throw _) <|
      (aloof_check _).bind fun _ => aloof_modify fun _ _ => rfl
  exact aloof_get (fun _ _ => rfl) fun _ => (aloof_modify fun _ _ => rfl).bind fun _ =>
    (aloof_check _).bind fun e => (adding e).bind fun _ => (aloof_check _).bind fun _ =>
      (aloof_note _).bind fun _ => aloof_pure _

theorem aloof_releaseMilestone (config : Config) (now : Time) (escrowId milestoneId : String)
    (proof merchantId : Option String) :
    Aloof (releaseMilestone config now escrowId milestoneId proof merchantId :
      Service b ReleaseReceipt) :=
  (aloof_updateEscrow _ _).bind fun _ => (aloof_tally _).bind fun _ => (aloof_note _).bind fun _ =>
    aloof_ite ((aloof_follow _ _ _ _ _).bind fun _ => aloof_pure _) (aloof_pure _)

theorem aloof_clawBack (config : Config) (now : Time) (escrowId : String)
    (reason : ClawbackReason) (part : Option Numeral) :
    Aloof (clawBack config now escrowId reason part : Service b ClawbackReceipt) :=
  (aloof_updateEscrow _ _).bind fun _ => (aloof_tally _).bind fun _ => (aloof_note _).bind fun _ =>
    aloof_ite ((aloof_follow _ _ _ _ _).bind fun _ => aloof_pure _) (aloof_pure _)

/-! ### Commands and inquiries -/

/-- Every command but a payment is aloof. -/
theorem aloof_run (config : Config) (now : Time) {c : Command} (other : ∀ r, c ≠ .pay r) :
    Aloof (c.run config now : Service b Reply) := by
  cases c with
  | createIntent user text policy =>
    exact (aloof_createIntent config now user text policy).bind fun _ => aloof_pure _
  | pay r => exact absurd rfl (other r)
  | createEscrow user specs title intentId =>
    exact (aloof_createEscrow config now user specs title intentId).bind fun _ => aloof_pure _
  | releaseMilestone escrowId milestoneId proof merchantId =>
    exact (aloof_releaseMilestone config now escrowId milestoneId proof merchantId).bind fun _ =>
      aloof_pure _
  | clawBack escrowId reason part =>
    exact (aloof_clawBack config now escrowId reason part).bind fun _ => aloof_pure _
  | recordEvent user kind description =>
    exact (aloof_recordEvent config now user kind description).bind fun _ => aloof_pure _
  | _ => exact (detached_run config now rfl).aloof

/-- Every inquiry is aloof but those into payments. -/
theorem aloof_ask (config : Config) {q : Inquiry} (other : ∀ user limit, q ≠ .payments user limit)
    (unsummed : ∀ user, q ≠ .summary user) : Aloof (q.ask config : Service b Answer) := by
  cases q with
  | available user =>
    exact (((detached_findWallet user).bind detached_availableIn).bind fun _ =>
      detached_pure _).aloof
  | locked user =>
    exact (((detached_findWallet user).bind fun _ => detached_check _).bind fun _ =>
      detached_pure _).aloof
  | intent id =>
    exact (((detached_findIntent? id).bind fun _ => detached_check _).bind fun _ =>
      detached_pure _).aloof
  | intents user => exact ((detached_listIntents user).bind fun _ => detached_pure _).aloof
  | payments user limit => exact absurd rfl (other user limit)
  | escrow id =>
    exact (aloof_get (fun _ _ => rfl) fun _ => (aloof_check _).bind fun _ =>
      aloof_check _).bind fun _ => aloof_pure _
  | escrows user =>
    exact (aloof_get (fun _ _ => rfl) fun _ => aloof_check _).bind fun _ => aloof_pure _
  | reputation user =>
    refine Aloof.bind ?_ fun _ => aloof_pure _
    exact (aloof_get (fun _ _ => rfl) fun _ => aloof_check _).bind fun _ =>
      (aloof_scoreOf config user).bind fun _ => aloof_pure _
  | summary user => exact absurd rfl (unsummed user)

end Service

end Earmark
