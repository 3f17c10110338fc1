import Earmark.Proofs.Atomicity
import Earmark.Proofs.Faithfulness
import Earmark.Proofs.ReputationLog
import Earmark.Proofs.UnsignedZeros

/-!
One world over two stores. A world whose records are kept as they are has a mirror, in which the
rows of those records stand in the same order (`World.mirror`). Two operations mirror each other
from a world when the one, run from the mirror, ends as the other and in the mirror of its world
(`Mirrors`).
-/

namespace Earmark

open scoped Earmark.Whole

/-! ### Rows of records -/

namespace RecordRow

/-- The row of a record that has one. -/
def plain (r : TransactionRecord) : RecordRow :=
  { id := r.id, user := r.user, merchantId := (textColumn r.merchantId).toOption.getD ""
    amount := Column.ofMoney r.amount, approved := r.approved, createdAt := Column.ofTime r.createdAt
    intentId := r.intentId, failedAt := r.failedAt.map Stage.word, reason := r.reason
    reference := r.reference, riskLevel := r.riskLevel.map RiskLevel.word, bypass := r.bypass
    category := r.category }

end RecordRow

/-- What a record of a payment needs for its row to say all of it. -/
structure TransactionRecord.Storable (r : TransactionRecord) : Prop where
  merchant : ∃ name, r.merchantId = .text name
  amount : r.amount.IsAmount
  keeps : Column.Keeps r.amount
  createdAt : r.createdAt.offset = some 0

namespace RecordRow

variable {r : TransactionRecord}

theorem ofRecord_eq (storable : r.Storable) : ofRecord r = .ok (plain r) := by
  obtain ⟨name, merchant⟩ := storable.merchant
  rw [ofRecord, plain, merchant]
  rfl

theorem toRecord_plain (storable : r.Storable) : (plain r).toRecord = .ok r.unsigned := by
  obtain ⟨name, merchant⟩ := storable.merchant
  obtain ⟨row, written, read⟩ :=
    exists_ofRecord merchant storable.amount storable.keeps storable.createdAt
  rw [ofRecord_eq storable] at written
  rwa [Except.ok.inj written]

end RecordRow

theorem EventRow.toEvent_ofEvent {e : ReputationEvent} (universal : e.time.offset = some 0) :
    (ofEvent e).toEvent = .ok e := by
  obtain ⟨row, written, read, -⟩ := Backend.relational_keepsEvent universal
  rw [← Except.ok.inj written] at read
  exact read

/-! ### Tables of rows -/

namespace Table

variable {α γ : Type} {t : Table α} {keep : γ → t.Row} {name owner : γ → String}

theorem find?_map (ids : ∀ x, t.id (keep x) = name x) (id : String) (xs : List γ) :
    t.find? id (xs.map keep) = (xs.find? (name · == id)).map keep := by
  rw [find?, List.find?_map]
  congr 2
  funext x
  exact congrArg (· == id) (ids x)

theorem replace_map (ids : ∀ x, t.id (keep x) = name x) (id : String) (y : γ) (xs : List γ) :
    t.replace id (keep y) (xs.map keep) = (xs.map fun x => if name x == id then y else x).map keep := by
  rw [replace, List.map_map, List.map_map]
  refine List.map_congr_left fun x _ => ?_
  rw [Function.comp_apply, Function.comp_apply, ids x]
  split <;> rfl

theorem ofUser_map {view : γ → α} {user : String} {xs : List γ}
    (owners : ∀ x, t.user (keep x) = owner x)
    (read : ∀ x ∈ xs, t.read (keep x) = .ok (view x)) :
    t.ofUser user (xs.map keep) = .ok ((xs.filter (owner · == user)).map view) := by
  have own : (xs.map keep).filter (t.user · == user) = (xs.filter (owner · == user)).map keep := by
    rw [List.filter_map]
    congr 2
    funext x
    exact congrArg (· == user) (owners x)
  rw [ofUser, own]
  exact mapM_map_eq fun x mem => read x (List.mem_of_mem_filter mem)

theorem ofUser_direct (id owner : α → String) (user : String) (xs : List α) :
    (direct id owner).ofUser user xs = .ok (xs.filter (owner · == user)) :=
  Service.mapM_ok _

end Table

/-! ### Mirrors of worlds -/

/-- The log of reputation, as it is kept. -/
def World.events (w : World .memory) : List ReputationEvent := w.store.events

def Store.mirror (s : Store .memory) : Store .relational where
  wallets := s.wallets
  intents := s.intents.map IntentRow.plain
  escrows := s.escrows.map EscrowRow.ofEscrow
  records := s.records.map RecordRow.plain
  events := s.events.map EventRow.ofEvent
  scores := s.scores

/-- The same world with a row in the place of each record. -/
def World.mirror (w : World .memory) : World .relational where
  store := w.store.mirror
  ids := w.ids
  journal := w.journal
  tallies := w.tallies
  outage := w.outage
  eventWrites := w.eventWrites
  recordWrites := w.recordWrites

/-- A wallet with a balance that a money column keeps, and no more than that locked of it. -/
structure Wallet.Storable (wallet : Wallet) : Prop where
  balance : wallet.balance.IsAmount
  locked : wallet.locked.IsAmount
  balance_lt : wallet.balance.cents.natAbs < 10 ^ (15 : Nat)
  nonneg : 0 ≤ wallet.locked.cents
  covered : wallet.locked.cents ≤ max wallet.balance.cents 0
  unsigned : wallet.locked.unsignedZero = wallet.locked

/-- Every record has a row that says all of it, and has one of the ids given so far. -/
structure World.Stored (w : World .memory) : Prop where
  users : (w.wallets.map Wallet.user).Nodup
  wallets : ∀ wallet ∈ w.wallets, wallet.Storable
  intents : ∀ i ∈ w.intents, i.Storable ∧ ∃ n ≤ w.ids.intents, i.id = Ids.intent n
  escrows : ∀ e ∈ w.escrows, e.Storable ∧ ∃ n ≤ w.ids.escrows, e.id = Ids.escrow n
  records : ∀ r ∈ w.records, r.Storable
  events : ∀ e ∈ w.events, e.time.offset = some 0

theorem World.Stored.sound {w : World .memory} (stored : w.Stored) {id : String} {i : Intent}
    (found : Intent.findIn w.intents id = some i) : i.Sound :=
  (stored.intents i (Intent.mem_of_findIn found)).1.sound

/-! ### Results -/

/-- Failures of one kind. How a record was looked for may differ, and the sign of a zero. -/
inductive Failure.Alike : Failure → Failure → Prop
  | refl (failure : Failure) : Alike failure failure
  | intentNotFound (id : String) (lookup lookup' : Lookup) :
      Alike (.intentNotFound id lookup) (.intentNotFound id lookup')
  | escrowNotFound (id : String) (lookup lookup' : Lookup) :
      Alike (.escrowNotFound id lookup) (.escrowNotFound id lookup')
  | insufficientFunds {free free' : Decimal} (required : Decimal)
      (same : free.unsignedZero = free'.unsignedZero) :
      Alike (.insufficientFunds free required) (.insufficientFunds free' required)

/-- Failures of one kind are reported alike when an intent cannot be recorded. -/
theorem Failure.Alike.reported {failure failure' : Failure} (alike : failure.Alike failure') :
    (if failure.isDomain then failure else .creationRejected failure).Alike
      (if failure'.isDomain then failure' else .creationRejected failure') := by
  cases alike with
  | refl => exact .refl _
  | intentNotFound => exact .intentNotFound _ _ _
  | escrowNotFound => exact .escrowNotFound _ _ _
  | insufficientFunds _ same => exact .insufficientFunds _ same

/-- Both succeed, with results in a relation, or both fail in one way. -/
inductive SameResult {α β : Type} (R : α → β → Prop) : Except Failure α → Except Failure β → Prop
  | ok {a : α} {b : β} (same : R a b) : SameResult R (.ok a) (.ok b)
  | error {failure failure' : Failure} (alike : failure.Alike failure') :
      SameResult R (.error failure) (.error failure')

theorem SameResult.refl {α : Type} (result : Except Failure α) : SameResult Eq result result := by
  cases result with
  | ok a => exact .ok rfl
  | error failure => exact .error (.refl failure)

theorem SameResult.mono {α β : Type} {R R' : α → β → Prop} (weaker : ∀ a b, R a b → R' a b)
    {result : Except Failure α} {result' : Except Failure β} (same : SameResult R result result') :
    SameResult R' result result' := by
  cases same with
  | ok same => exact .ok (weaker _ _ same)
  | error alike => exact .error alike

theorem SameResult.bind {α β α' β' : Type} {R : α → α' → Prop} {S : β → β' → Prop}
    {result : Except Failure α} {result' : Except Failure α'} {next : α → Except Failure β}
    {next' : α' → Except Failure β'} (same : SameResult R result result')
    (rest : ∀ a a', R a a' → SameResult S (next a) (next' a')) :
    SameResult S (result >>= next) (result' >>= next') := by
  cases same with
  | ok same => exact rest _ _ same
  | error alike => exact .error alike

/-- What is seen of the results of each item is seen of the results of all. -/
theorem SameResult.mapM {α β γ : Type} {f g : α → Except Failure β} (view : β → γ) (xs : List α)
    (same : ∀ x, SameResult (fun b c => view b = view c) (f x) (g x)) :
    SameResult (fun bs cs => bs.map view = cs.map view) (xs.mapM f) (xs.mapM g) := by
  induction xs with
  | nil => exact .ok rfl
  | cons x rest ih =>
    rw [List.mapM_cons, List.mapM_cons]
    exact (same x).bind fun b c first => ih.bind fun bs cs others =>
      .ok (by rw [List.map_cons, List.map_cons, first, others])

namespace Service

variable {α β α' β' : Type} {R : α → α' → Prop} {S : β → β' → Prop} {w : World .memory}

/-- From a world and its mirror both operations end alike, and in a world and its mirror. -/
structure Mirrors (R : α → α' → Prop) (w : World .memory) (op : Service .memory α)
    (op' : Service .relational α') : Prop where
  result : SameResult R (op.runFrom w).1 (op'.runFrom w.mirror).1
  world : (op'.runFrom w.mirror).2 = (op.runFrom w).2.mirror
  stored : w.Stored → (op.runFrom w).2.Stored

theorem Mirrors.mono {R' : α → α' → Prop} {op : Service .memory α} {op' : Service .relational α'}
    (weaker : ∀ a a', R a a' → R' a a') (mirrors : Mirrors R w op op') : Mirrors R' w op op' :=
  ⟨mirrors.result.mono weaker, mirrors.world, mirrors.stored⟩

theorem mirrors_pure {a : α} {a' : α'} (same : R a a') :
    Mirrors R w (pure a) (pure a') := ⟨.ok same, rfl, id⟩

theorem mirrors_throw {failure failure' : Failure} (alike : failure.Alike failure') :
    Mirrors R w (throw failure) (throw failure') := ⟨.error alike, rfl, id⟩

theorem check_ok_bind {b : Backend} (a : α) (next : α → Service b β) :
    check (.ok a) >>= next = next a := rfl

theorem mirrors_check {result : Except Failure α} {result' : Except Failure α'}
    (same : SameResult R result result') : Mirrors R w (check result) (check result') :=
  ⟨same, rfl, id⟩

theorem Mirrors.bind {op : Service .memory α} {op' : Service .relational α'}
    {next : α → Service .memory β} {next' : α' → Service .relational β'} (first : Mirrors R w op op')
    (rest : ∀ {a a' after}, op.runFrom w = (.ok a, after) → (w.Stored → after.Stored) → R a a' →
      Mirrors S after (next a) (next' a')) : Mirrors S w (op >>= next) (op' >>= next') := by
  obtain ⟨result, world, stored⟩ := first
  rcases ran : op.runFrom w with ⟨outcome, after⟩
  rcases ran' : op'.runFrom w.mirror with ⟨outcome', after'⟩
  rw [ran, ran'] at result world
  rw [ran] at stored
  obtain rfl : after' = after.mirror := world
  cases result with
  | error alike =>
    refine ⟨?_, ?_, ?_⟩
    · rw [runFrom_bind_error ran, runFrom_bind_error ran']
      exact .error alike
    · rw [runFrom_bind_error ran, runFrom_bind_error ran']
    · rw [runFrom_bind_error ran]
      exact stored
  | ok same =>
    obtain ⟨result, world, stored'⟩ := rest ran stored same
    refine ⟨?_, ?_, ?_⟩
    · rwa [runFrom_bind_ok ran, runFrom_bind_ok ran']
    · rwa [runFrom_bind_ok ran, runFrom_bind_ok ran']
    · rw [runFrom_bind_ok ran]
      exact fun before => stored' (stored before)

theorem mirrors_check_bind {result : Except Failure α} {result' : Except Failure α'}
    {next : α → Service .memory β} {next' : α' → Service .relational β'}
    (same : SameResult R result result')
    (rest : ∀ {a a'}, result = .ok a → R a a' → Mirrors S w (next a) (next' a')) :
    Mirrors S w (check result >>= next) (check result' >>= next') :=
  (mirrors_check same).bind fun ran _ related => by
    obtain ⟨rfl, rfl⟩ := Prod.mk.inj ran
    exact rest rfl related

theorem mirrors_get {next : World .memory → Service .memory β}
    {next' : World .relational → Service .relational β'}
    (rest : Mirrors S w (next w) (next' w.mirror)) : Mirrors S w (get >>= next) (get >>= next') :=
  ⟨rest.result, rest.world, rest.stored⟩

theorem mirrors_modify {f : World .memory → World .memory}
    {f' : World .relational → World .relational} (same : f' w.mirror = (f w).mirror)
    (stored : w.Stored → (f w).Stored) :
    Mirrors Eq w (modify f : Service .memory Unit) (modify f' : Service .relational Unit) :=
  ⟨.ok rfl, same, stored⟩

theorem mirrors_ite {condition : Prop} [Decidable condition] {op other : Service .memory α}
    {op' other' : Service .relational α'} (first : condition → Mirrors R w op op')
    (second : ¬condition → Mirrors R w other other') :
    Mirrors R w (if condition then op else other) (if condition then op' else other') := by
  split
  · exact first ‹_›
  · exact second ‹_›

theorem mirrors_note (entry : LogEntry) : Mirrors Eq w (note entry) (note entry) :=
  mirrors_modify rfl fun stored => { stored with }

theorem mirrors_tally (counted : Tally) : Mirrors Eq w (tally counted) (tally counted) :=
  mirrors_modify rfl fun stored => { stored with }

theorem Mirrors.attempt {op : Service .memory α} {op' : Service .relational α'}
    (mirrors : Mirrors R w op op') : Mirrors (SameResult R) w op.attempt op'.attempt :=
  ⟨.ok mirrors.result, mirrors.world, mirrors.stored⟩

/-- What is taken back in the mirror was not changed in the world. -/
theorem Mirrors.atomically {op : Service .memory α} {op' : Service .relational α'}
    (mirrors : Mirrors R w op op') (atomic : AtomicFrom w (Service.atomically op)) :
    Mirrors R w (Service.atomically op) (Service.atomically op') := by
  obtain ⟨result, world, stored⟩ := mirrors
  have back := runFrom_atomic w.mirror op'
  rcases ran : op.runFrom w with ⟨outcome, after⟩
  rcases ran' : op'.runFrom w.mirror with ⟨outcome', after'⟩
  rw [ran, ran'] at result world
  rw [ran] at stored
  rw [ran'] at back
  obtain rfl : after' = after.mirror := world
  cases result with
  | error alike =>
    have kept : ({ after.mirror with store := w.mirror.store } : World .relational) =
        after.mirror := by
      have same := atomic _ after ((runFrom_atomically w op).trans ran)
      rw [World.mirror, World.mirror, same]
    dsimp only at back
    refine ⟨?_, ?_, ?_⟩ <;> rw [runFrom_atomically, ran]
    · rw [back]
      exact .error alike
    · rw [back]
      exact kept
    · exact stored
  | ok same =>
    dsimp only at back
    refine ⟨?_, ?_, ?_⟩ <;> rw [runFrom_atomically, ran]
    · rw [back]
      exact .ok same
    · rw [back]
    · exact stored

end Service

end Earmark
