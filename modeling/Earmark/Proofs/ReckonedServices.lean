import Earmark.Proofs.Counters
import Earmark.Proofs.ReckonedStores

/-!
Services beside a ledger in whole cents. Each operation on wallets, intents, escrows and payments
does to a store what the ledger books for it, whatever else it does, and one that fails books
nothing (`Service.Books`); so no sum or difference that is taken of amounts on the way is rounded.
-/

namespace Earmark

variable {b : Backend} {α β : Type}

/-- What the ledger is once an operation ended: a failed one books nothing. -/
def Reckoning.entered (L : Reckoning) (entry : α → Reckoning → Reckoning) :
    Except Failure α → Reckoning
  | .ok a => entry a L
  | .error _ => L

@[simp] theorem Reckoning.entered_ok (L : Reckoning) (entry : α → Reckoning → Reckoning) (a : α) :
    L.entered entry (.ok a) = entry a L := rfl

@[simp] theorem Reckoning.entered_error (L : Reckoning) (entry : α → Reckoning → Reckoning)
    (failure : Failure) : L.entered entry (.error failure) = L := rfl

@[simp] theorem Reckoning.locking_zero (L : Reckoning) (user : String) : L.locking user 0 = L := by
  simp [Reckoning.locking]

namespace Service

/-- The operation does to a store what the entry says of its result. -/
def Books (c : MoneyColumns b) (op : Service b α) (entry : α → Reckoning → Reckoning) : Prop :=
  ∀ ⦃w : World b⦄ ⦃L : Reckoning⦄, w.store.Reckoned c L →
    (op.runFrom w).2.store.Reckoned c (L.entered entry (op.runFrom w).1)

/-- The operation does not fail, and does to a store what the entry says. -/
def Enters (c : MoneyColumns b) (op : Service b α) (a : α) (entry : Reckoning → Reckoning) : Prop :=
  ∀ ⦃w : World b⦄ ⦃L : Reckoning⦄, w.store.Reckoned c L →
    ∃ after, op.runFrom w = (.ok a, after) ∧ after.store.Reckoned c (entry L)

variable {c : MoneyColumns b} {op : Service b α} {next : α → Service b β}

/-! ### What such operations are made of -/

theorem Enters.bind {a : α} {x : β} {entry : Reckoning → Reckoning}
    (first : Enters c op a entry) (rest : Enters c (next a) x id) :
    Enters c (op >>= next) x entry := by
  intro w L reckoned
  obtain ⟨middle, done, kept⟩ := first reckoned
  obtain ⟨after, done', kept'⟩ := rest kept
  exact ⟨after, (runFrom_bind_ok done next).trans done', kept'⟩

theorem enters_pure (a : α) : Enters c (pure a : Service b α) a id :=
  fun w _ reckoned => ⟨w, rfl, reckoned⟩

theorem enters_check (a : α) : Enters c (check (.ok a) : Service b α) a id :=
  fun w _ reckoned => ⟨w, rfl, reckoned⟩

theorem enters_note (entry : LogEntry) : Enters c (note entry : Service b Unit) () id :=
  fun _ _ reckoned => ⟨_, rfl, reckoned⟩

theorem enters_tally (counted : Tally) : Enters c (tally counted : Service b Unit) () id :=
  fun _ _ reckoned => ⟨_, rfl, reckoned⟩

theorem enters_ite {condition : Prop} [Decidable condition] {other : Service b α} {a : α}
    {entry : Reckoning → Reckoning} (first : Enters c op a entry)
    (second : Enters c other a entry) : Enters c (if condition then op else other) a entry := by
  split
  · exact first
  · exact second

theorem Books.bind {entry : α → Reckoning → Reckoning} {entry' : β → Reckoning → Reckoning}
    {f : α → β} (first : Books c op entry)
    (rest : ∀ a, ∃ more, Enters c (next a) (f a) more ∧
      ∀ L, entry' (f a) L = more (entry a L)) : Books c (op >>= next) entry' := by
  intro w L reckoned
  have kept := first reckoned
  rcases ran : op.runFrom w with ⟨failure | a, middle⟩
  · rw [ran] at kept
    rw [runFrom_bind_error ran]
    exact kept
  · rw [ran] at kept
    obtain ⟨more, enters, same⟩ := rest a
    obtain ⟨after, done, kept'⟩ := enters kept
    rw [runFrom_bind_ok ran, done]
    simpa only [Reckoning.entered, same] using kept'

/-- The operation leaves alone what a ledger tells of. -/
def Apart (op : Service b α) : Prop :=
  ∀ ⦃w : World b⦄ ⦃c : MoneyColumns b⦄ ⦃L : Reckoning⦄, w.store.Reckoned c L →
    (op.runFrom w).2.store.Reckoned c L

theorem Apart.bind {p : α → Prop} {entry : β → Reckoning → Reckoning} (first : Apart op)
    (yields : Yields p op) (rest : ∀ a, p a → Books c (next a) entry) :
    Books c (op >>= next) entry := by
  intro w L reckoned
  have kept := first reckoned
  rcases ran : op.runFrom w with ⟨failure | a, middle⟩
  · rw [ran] at kept
    rw [runFrom_bind_error ran]
    exact kept
  · rw [ran] at kept
    rw [runFrom_bind_ok ran]
    exact rest a (yields ran) kept

theorem Books.atomically {entry : α → Reckoning → Reckoning} (books : Books c op entry) :
    Books c (atomically op) entry := by
  intro w L reckoned
  have kept := books reckoned
  rw [runFrom_atomic]
  rcases ran : op.runFrom w with ⟨failure | a, after⟩ <;> rw [ran] at kept
  · dsimp only
    split
    · exact reckoned
    · exact kept
  · exact kept

theorem ReadsOnly.apart (only : ReadsOnly op) : Apart op := by
  intro w c L reckoned
  rwa [only w]

theorem Apart.books (apart : Apart op) : Books c op fun _ L => L := by
  intro w L reckoned
  have kept := apart reckoned
  cases (op.runFrom w).1 <;> exact kept

theorem reckoned_recorded {w : World b} {L : Reckoning} (reckoned : w.store.Reckoned c L)
    (config : Config) (d : EventDraft) : (w.recorded config d).store.Reckoned c L := by
  unfold World.recorded
  split
  · exact reckoned
  · exact ⟨reckoned.wallets, reckoned.intents, reckoned.escrows, reckoned.records⟩

theorem apart_recordEvent (config : Config) (now : Time) (user : String) (kind : EventKind)
    (description : String) :
    Apart (recordEvent config now user kind description : Service b ReputationEvent) := by
  intro w c L reckoned
  obtain ⟨result, tallies, done⟩ := runFrom_recordEvent config ⟨user, kind, description, now⟩ w
  rw [done]
  exact reckoned_recorded reckoned config _

theorem enters_follow (config : Config) (now : Time) (user : String) (kind : EventKind)
    (description : String) :
    Enters c (follow config now user kind description : Service b Unit) () id := by
  intro w L reckoned
  obtain ⟨journal, tallies, done⟩ := runFrom_follow config ⟨user, kind, description, now⟩ w
  exact ⟨_, done, reckoned_recorded reckoned config _⟩

/-! ### Wallets -/

theorem books_openWallet {user : String} {balance : Numeral} {cents : Int} (nonneg : 0 ≤ cents)
    (states : balance.States cents) :
    Books c (openWallet user balance : Service b Unit) fun _ L => L.opened user cents := by
  intro w L reckoned
  simp only [openWallet, runFrom_atomic, runFrom_get_bind]
  cases taken : w.store.wallets.any (·.user == user) with
  | true => simpa using reckoned
  | false =>
    cases brought : balance.toAmount with
    | error failure => simpa [runFrom_check_error] using reckoned
    | ok d =>
      have fresh : ∀ wallet ∈ w.store.wallets, wallet.user ≠ user := by
        simpa using List.any_eq_false.mp taken
      exact reckoned.opened fresh (states.holds brought) nonneg

section

variable (faithful : c.Faithful) {w : World b} {L : Reckoning}
include faithful

/-- What is available of a wallet is its balance less what is locked. -/
theorem exists_available {wallet : Wallet} {balance locked : Int}
    (shows : wallet.Shows balance locked) (w : World b) :
    ∃ free, (availableIn wallet : Service b Decimal).runFrom w = (.ok free, w) ∧ free.IsAmount ∧
      free.cents = balance - locked := by
  obtain ⟨whole, brought, wholeHolds⟩ := faithful.money shows.balance
  obtain ⟨kept, given, keptHolds⟩ := faithful.money shows.locked
  have nonneg := shows.nonneg
  have within := shows.within
  have fits := shows.balance.fits
  obtain ⟨free, subtracted, amount, value⟩ := wholeHolds.amount.exists_sub keptHolds.amount (by
    rw [wholeHolds.value, keptHolds.value]
    simp only [Decimal.precision]
    omega)
  refine ⟨free, ?_, amount, by rw [value, wholeHolds.value, keptHolds.value]⟩
  simp only [availableIn, brought, given, runFrom_check_ok, subtracted, Failure.ofDecimal_ok,
    runFrom_check]

theorem books_releaseFunds {user : String} {amount : Decimal} {cents : Int}
    (holds : amount.Holds cents) (nonneg : 0 ≤ cents) :
    Books c (releaseFunds user (.decimal amount) : Service b Unit) fun _ L =>
      L.locking user (-cents) := by
  simp only [releaseFunds, Numeral.toAmount_decimal holds.amount]
  refine Apart.bind (ReadsOnly.apart (readsOnly_check _)) (yields_check _) ?_
  rintro d ⟨⟩
  refine Books.atomically fun w L reckoned => ?_
  simp only [findWallet, bind_assoc, runFrom_get_bind]
  cases found : w.store.wallets.find? (·.user == user) with
  | none => simpa [Failure.require, runFrom_check_error] using reckoned
  | some wallet =>
    have told := reckoned.wallets wallet (Wallet.mem_of_findIn found)
    rw [Wallet.user_of_findIn found] at told
    obtain ⟨kept, given, keptHolds⟩ := faithful.money told.locked
    have less := told.nonneg
    have within := told.within
    have fits := told.locked.fits
    simp only [Failure.require, runFrom_check_ok, given, holds.amount.gt?_eq keptHolds.amount,
      holds.value, keptHolds.value, Failure.ofDecimal_ok]
    by_cases beyond : L.locked user < cents
    · simpa [beyond] using reckoned
    · obtain ⟨left, subtracted, amount, value⟩ := keptHolds.amount.exists_sub holds.amount (by
        rw [keptHolds.value, holds.value]
        simp only [Decimal.precision]
        omega)
      rw [keptHolds.value, holds.value] at value
      simp only [beyond, decide_false, Bool.false_eq_true, ↓reduceIte, subtracted,
        Failure.ofDecimal_ok, runFrom_check_ok]
      exact reckoned.relocked ⟨amount, by omega, by omega⟩ (by omega) (by omega)

theorem books_releaseRest (i : Intent) {rest : Decimal} {cents : Int} (holds : rest.Holds cents)
    (nonneg : 0 ≤ cents) :
    Books c (releaseRest i rest : Service b Unit) fun _ L => L.locking i.user (-cents) := by
  simp only [releaseRest, holds.amount.gt?_zero, holds.value, Failure.ofDecimal_ok]
  refine Apart.bind (ReadsOnly.apart (readsOnly_check _)) (yields_check _) ?_
  rintro owed ⟨⟩
  by_cases positive : 0 < cents
  · simpa [positive] using books_releaseFunds faithful holds nonneg
  · obtain rfl : cents = 0 := by omega
    simpa using (ReadsOnly.apart (readsOnly_pure ())).books

theorem books_addIntent {i : Intent} {t : Tab} (shows : i.Shows t) (sound : t.Sound) :
    Books c (addIntent i : Service b Unit) fun _ L => L.noting i.id t := by
  refine Books.atomically fun w L reckoned => ?_
  simp only [runFrom_get_bind]
  cases down : w.outage.intents with
  | true => simpa using reckoned
  | false =>
    cases written : b.intents.write i with
    | error failure => simpa [runFrom_check_error] using reckoned
    | ok row =>
      cases found : b.intents.find? i.id w.store.intents with
      | some other => simpa using reckoned
      | none =>
        obtain ⟨named, told⟩ := faithful.intent_written shows written
        simp only [Bool.false_eq_true, ↓reduceIte, runFrom_check_ok, Option.isSome_none]
        exact reckoned.added found named told sound

/-- Locking an intent's limit as the intent is added books both. -/
theorem books_lockFunds {i : Intent} {t : Tab} (shows : i.Shows t) (sound : t.Sound)
    (positive : 0 < t.limit) :
    Books c (lockFunds t.owner (.decimal i.limit) (addIntent i) : Service b Unit) fun _ L =>
      (L.noting i.id t).locking t.owner t.limit := by
  simp only [lockFunds, Numeral.toAmount_decimal shows.limit.amount]
  refine Apart.bind (ReadsOnly.apart (readsOnly_check _)) (yields_check _) ?_
  rintro d ⟨⟩
  refine Books.atomically fun w L reckoned => ?_
  simp only [findWallet, bind_assoc, runFrom_get_bind]
  cases found : w.store.wallets.find? (·.user == t.owner) with
  | none => simpa [Failure.require, runFrom_check_error] using reckoned
  | some wallet =>
    have told := reckoned.wallets wallet (Wallet.mem_of_findIn found)
    rw [Wallet.user_of_findIn found] at told
    obtain ⟨free, available, whole, value⟩ := exists_available faithful told w
    simp only [Failure.require, runFrom_check_ok]
    rw [runFrom_bind_ok available, shows.limit.amount.gt?_eq whole, Failure.ofDecimal_ok,
      runFrom_check_ok]
    by_cases short : free.cents < i.limit.cents
    · simpa [short] using reckoned
    · simp only [short, decide_false, Bool.false_eq_true, ↓reduceIte]
      have kept := books_addIntent faithful shows sound reckoned
      rcases ran : (addIntent i : Service b Unit).runFrom w with ⟨failure | done, after⟩ <;>
        rw [ran] at kept
      · rw [runFrom_bind_error ran]
        exact kept
      · obtain ⟨locked, given, holds⟩ := faithful.money told.locked
        have nonneg := told.nonneg
        have within := told.within
        have fits := told.balance.fits
        have limit := shows.limit.value
        obtain ⟨sum, added, amount, total⟩ := holds.amount.exists_add shows.limit.amount (by
          rw [holds.value, limit]
          simp only [Decimal.precision]
          omega)
        rw [holds.value, limit] at total
        have later : 0 ≤ L.locked t.owner + t.limit := by omega
        have most : L.locked t.owner + t.limit ≤ L.balance t.owner := by omega
        have sums : sum.Holds (L.locked t.owner + t.limit) := ⟨amount, total, by omega⟩
        rw [runFrom_bind_ok ran]
        simp only [given, runFrom_check_ok, added, Failure.ofDecimal_ok]
        exact kept.relocked sums later most

/-! ### Intents -/

/-- A change of an intent brings a store from one ledger to what it is once funds of the owner are
unlocked, and leaves the intent to be kept as the tab says. -/
structure Amends (c : MoneyColumns b) (id : String) (L : Reckoning) (cents : Int) (t : Tab)
    (next : Intent) (after : World b) : Prop where
  reckoned : after.store.Reckoned c (L.locking (L.tab id).owner (-cents))
  named : next.id = id
  owner : t.owner = (L.tab id).owner
  limit : t.limit = (L.tab id).limit
  shows : next.Shows t
  sound : t.Sound

/-- The change fails and books nothing, or it is booked as the entry says once it is written. -/
def Settles (c : MoneyColumns b) (id : String) (change : Intent → Service b (α × Intent))
    (entry : α → Reckoning → Reckoning) : Prop :=
  ∀ ⦃w : World b⦄ ⦃L : Reckoning⦄ ⦃i : Intent⦄, w.store.Reckoned c L → i.id = id →
    i.Shows (L.tab id) → (L.tab id).Sound →
      (∃ failure after, (change i).runFrom w = (.error failure, after) ∧
        after.store.Reckoned c L) ∨
      ∃ a next after cents t, (change i).runFrom w = (.ok (a, next), after) ∧
        Amends c id L cents t next after ∧
          entry a L = (L.locking (L.tab id).owner (-cents)).noting id t

theorem books_updateIntent {id : String} {change : Intent → Service b (α × Intent)}
    {entry : α → Reckoning → Reckoning} (settles : Settles c id change entry) :
    Books c (updateIntent id change) entry := by
  intro w L reckoned
  simp only [updateIntent, runFrom_atomic, runFrom_get_bind]
  cases found : b.intents.find? id w.store.intents with
  | none => simpa using reckoned
  | some row =>
    have named : b.intents.id row = id := by simpa using List.find?_some found
    obtain ⟨shows, sound⟩ := reckoned.intents row (List.mem_of_find?_eq_some found)
    rw [named] at shows sound
    dsimp only
    cases read : b.intents.read row with
    | error failure => simpa [runFrom_check_error] using reckoned
    | ok i =>
      obtain ⟨same, shown⟩ := faithful.intent_read shows read
      simp only [runFrom_check_ok]
      rcases settles reckoned (same.trans named) shown sound with
        ⟨failure, after, failed, kept⟩ | ⟨a, next, after, cents, t, done, amends, booked⟩
      · rw [runFrom_bind_error failed]
        dsimp only
        split
        · exact reckoned
        · exact kept
      · rw [runFrom_bind_ok done]
        cases updated : b.intents.update row next with
        | error failure =>
          have taken := faithful.intent_taken_back updated
          simpa [runFrom_check_error, taken] using reckoned
        | ok changed =>
          obtain ⟨kept, told⟩ := faithful.intent_updated shows
            (amends.named.trans named.symm) amends.shows amends.owner amends.limit updated
          simp only [runFrom_check_ok]
          change Store.Reckoned c _ (entry a L)
          rw [booked]
          exact amends.reckoned.noted (kept.trans named) told amends.sound

omit faithful in
theorem Amends.kept (reckoned : w.store.Reckoned c L) {id : String} {next : Intent}
    (named : next.id = id) (shows : next.Shows (L.tab id)) (sound : (L.tab id).Sound) :
    Amends c id L 0 (L.tab id) next w :=
  ⟨by simpa using reckoned, named, rfl, rfl, shows, sound⟩

/-- Unlocking what an active intent leaves books that it is closed. -/
theorem amends_closed (reckoned : w.store.Reckoned c L) {id : String} {i k : Intent}
    (named : k.id = id) (shows : k.Shows (L.tab id)) (sound : (L.tab id).Sound)
    (active : k.status = .active) {rest : Decimal} (remaining : k.remaining = .ok rest)
    (mine : i.user = (L.tab id).owner) (status : IntentStatus) :
    (∃ failure after, (releaseRest i rest : Service b Unit).runFrom w = (.error failure, after) ∧
      after.store.Reckoned c L) ∨
    ∃ after, (releaseRest i rest : Service b Unit).runFrom w = (.ok (), after) ∧
      Amends c id L (L.tab id).rest { L.tab id with status } { k with status } after ∧
      L.closed id status =
        (L.locking (L.tab id).owner (-(L.tab id).rest)).noting id { L.tab id with status } := by
  obtain ⟨nonneg, holds⟩ := shows.holds_remaining sound remaining
  have kept := books_releaseRest faithful i holds nonneg reckoned
  rcases ran : (releaseRest i rest : Service b Unit).runFrom w with ⟨failure | done, after⟩ <;>
    rw [ran] at kept
  · exact .inl ⟨failure, after, rfl, kept⟩
  · rw [mine] at kept
    refine .inr ⟨after, rfl, ?_, ?_⟩
    · exact ⟨kept, named, rfl, rfl, ⟨shows.owner, shows.limit, shows.used, rfl⟩,
        ⟨sound.nonneg, sound.within⟩⟩
    · simp only [Reckoning.closed, ← shows.status, active, ↓reduceIte]

omit faithful in
theorem noting_tab (L : Reckoning) (id : String) :
    L = (L.locking (L.tab id).owner (-0)).noting id (L.tab id) := by
  simp [Reckoning.noting]

/-- Where an intent is found to be over, that it is closed is booked, and otherwise nothing is. -/
theorem amends_expired (reckoned : w.store.Reckoned c L) {id : String} {i k next : Intent}
    (named : k.id = id) (shows : k.Shows (L.tab id)) (sound : (L.tab id).Sound)
    (mine : i.user = (L.tab id).owner) {now : Time} {rest : Decimal}
    (expired : k.expire now = .ok (rest, next)) :
    (∃ failure after, (releaseRest i rest : Service b Unit).runFrom w = (.error failure, after) ∧
      after.store.Reckoned c L) ∨
    ∃ after cents t, (releaseRest i rest : Service b Unit).runFrom w = (.ok (), after) ∧
      Amends c id L cents t next after ∧
      (if next.status = .expired then L.closed next.id .expired else L) =
        (L.locking (L.tab id).owner (-cents)).noting id t := by
  rcases Intent.expire_ok_iff.mp expired with ⟨rfl, rfl, -⟩ | ⟨active, -, remaining, rfl⟩
  · have nothing : Decimal.zero.Holds 0 := ⟨Decimal.isAmount_zero, rfl, by norm_num⟩
    have kept := books_releaseRest faithful i nothing le_rfl reckoned
    rcases ran : (releaseRest i .zero : Service b Unit).runFrom w with ⟨failure | done, after⟩ <;>
      rw [ran] at kept
    · exact .inl ⟨failure, after, rfl, kept⟩
    · refine .inr ⟨after, 0, L.tab id, rfl, .kept (by simpa using kept) named shows sound, ?_⟩
      rw [← noting_tab]
      by_cases ended : next.status = .expired
      · -- What was closed before is not closed again.
        have inactive : (L.tab id).status ≠ .active := by
          rw [← shows.status, ended]
          decide
        simp [ended, named, Reckoning.closed, inactive]
      · simp [ended]
  · rcases amends_closed faithful reckoned named shows sound active remaining mine .expired with
      failed | ⟨after, done, amends, booked⟩
    · exact .inl failed
    · exact .inr ⟨after, _, _, done, amends, by simpa [named] using booked⟩

theorem settles_cancel (id : String) :
    Settles c id (fun i => do
      let (rest, cancelled) ← check i.cancel
      releaseRest i rest
      return (rest, cancelled) : Intent → Service b (Decimal × Intent))
      fun _ L => L.closed id .cancelled := by
  intro w L i reckoned named shows sound
  dsimp only
  cases cancelled : i.cancel with
  | error failure => exact .inl ⟨failure, w, runFrom_check_error .., reckoned⟩
  | ok closed =>
    obtain ⟨rest, next⟩ := closed
    obtain ⟨active, remaining, rfl⟩ := Intent.cancel_ok_iff.mp cancelled
    rw [runFrom_check_ok]
    rcases amends_closed faithful reckoned named shows sound active remaining shows.owner
        .cancelled with ⟨failure, after, failed, kept⟩ | ⟨after, done, amends, booked⟩
    · exact .inl ⟨failure, after, runFrom_bind_error failed _, kept⟩
    · exact .inr ⟨rest, _, after, _, _, runFrom_bind_ok done _, amends, booked⟩

theorem books_cancelIntent (id : String) :
    Books c (cancelIntent id : Service b Decimal) fun _ L => L.closed id .cancelled :=
  Books.bind (books_updateIntent faithful (settles_cancel faithful id)) fun released =>
    ⟨_, (enters_note _).bind (enters_pure released), fun _ => rfl⟩

/-! ### Payments -/

theorem settles_settlePayment (config : Config) {p : Payment} {cents : Int}
    (holds : p.amount.Holds cents) (id : String) :
    Settles c id (settlePayment config p : Intent → Service b _) fun x L =>
      L.settled cents x.1 (some x.2) := by
  intro w L i reckoned named shows sound
  unfold settlePayment judgePayment
  cases judged : Verdict.validate config.thresholds (some i) p.merchant (.decimal p.amount)
      p.context with
  | error failure => exact .inl ⟨failure, w, runFrom_check_error .., reckoned⟩
  | ok v =>
    simp only [runFrom_check_ok]
    by_cases bypass : v.bypass = true
    · simp only [bypass, ↓reduceIte]
      refine .inr ⟨(v, i), i, w, 0, L.tab id, rfl, .kept reckoned named shows sound, ?_⟩
      simpa [Reckoning.settled, bypass] using noting_tab L id
    by_cases approved : v.approved = true
    · simp only [bypass, approved, Bool.false_eq_true, ↓reduceIte]
      cases spent : i.spend (.decimal p.amount) with
      | error failure => exact .inl ⟨failure, w, runFrom_check_error .., reckoned⟩
      | ok j =>
        obtain ⟨kept, shown, fine⟩ := shows.spent sound holds spent
        refine .inr ⟨(v, j), j, w, 0, (L.tab id).spend cents, rfl, ?_, ?_⟩
        · exact ⟨by simpa using reckoned, kept.trans named, rfl, rfl, shown, fine⟩
        · simp [Reckoning.settled, bypass, approved, kept.trans named]
    · simp only [bypass, approved, Bool.false_eq_true, ↓reduceIte]
      have shown : i.recordViolation.Shows (L.tab id) :=
        ⟨shows.owner, shows.limit, shows.used, shows.status⟩
      cases expired : i.recordViolation.expire p.context.requestedAt with
      | error failure => exact .inl ⟨failure, w, runFrom_check_error .., reckoned⟩
      | ok closed =>
        obtain ⟨rest, next⟩ := closed
        simp only [runFrom_check_ok]
        rcases amends_expired faithful reckoned (k := i.recordViolation) named shown sound
            shows.owner expired with
          ⟨failure, after, failed, kept⟩ | ⟨after, left, t, done, amends, booked⟩
        · exact .inl ⟨failure, after, runFrom_bind_error failed _, kept⟩
        · refine .inr ⟨(v, next), next, after, left, t, runFrom_bind_ok done _, amends, ?_⟩
          simpa [Reckoning.settled, bypass, approved] using booked

theorem books_commitPayment (config : Config) {p : Payment} {cents : Int}
    (holds : p.amount.Holds cents) (intentId : Option String) :
    Books c (commitPayment config p intentId : Service b (Verdict × Option Intent)) fun x L =>
      L.settled cents x.1 x.2 := by
  cases intentId with
  | none =>
    exact Books.bind (ReadsOnly.apart (readsOnly_check _)).books fun v =>
      ⟨id, enters_pure (v, none), fun _ => rfl⟩
  | some id =>
    exact Books.bind (books_updateIntent faithful (settles_settlePayment faithful config holds id))
      fun x => ⟨_, enters_pure (x.1, some x.2), fun _ => rfl⟩

theorem enters_logPayment {record : TransactionRecord} {cents : Int}
    (holds : record.amount.Holds cents) :
    Enters c (logPayment record : Service b Unit) () fun L => L.logging cents := by
  intro w L reckoned
  obtain ⟨journal, tallies, done⟩ := runFrom_logging record w
  refine ⟨_, done, ?_⟩
  simp only [World.recording]
  split
  · exact reckoned.booked cents
  · simp only [appendRecord]
    cases written : b.records.write record with
    | error failure => exact reckoned.booked cents
    | ok row => exact reckoned.recorded (faithful.record_written holds written)

omit faithful in
theorem enters_countPayment (p : Payment) (intentId : Option String) (v : Verdict) :
    Enters c (countPayment p intentId v : Service b Unit) () id := by
  intro w L reckoned
  obtain ⟨journal, done⟩ := runFrom_countPayment p intentId v w
  exact ⟨_, done, reckoned⟩

omit faithful in
theorem enters_rewardPayment (config : Config) (now : Time) (p : Payment) (v : Verdict) :
    Enters c (rewardPayment config now p v : Service b Unit) () id :=
  enters_ite ((enters_note _).bind (enters_follow _ _ _ _ _)) <|
    enters_ite ((enters_follow _ _ _ _ _).bind
      (enters_ite (enters_follow _ _ _ _ _) (enters_pure _))) (enters_follow _ _ _ _ _)

theorem books_payTo (config : Config) (now : Time) {p : Payment} {cents : Int}
    (holds : p.amount.Holds cents) (intentId : Option String) :
    Books c (payTo config now p intentId : Service b PaymentResult) fun paid L =>
      (L.settled cents paid.verdict paid.intent).logging cents := by
  let result (x : Verdict × Option Intent) : PaymentResult :=
    ⟨.ofVerdict p.id p.user p.merchant intentId now p.amount x.1, x.1, x.2⟩
  exact Books.bind (f := result) (books_commitPayment faithful config holds intentId) fun x =>
    ⟨_, (enters_logPayment faithful holds).bind <| (enters_countPayment p intentId x.1).bind <|
      (enters_rewardPayment config now p x.1).bind (enters_pure (result x)), fun _ => rfl⟩

theorem books_pay (config : Config) (now : Time) {r : PaymentRequest} {cents : Int}
    (states : r.amount.States cents) :
    Books c (pay config now r : Service b PaymentResult) fun paid L =>
      (L.settled cents paid.verdict paid.intent).logging cents := by
  rw [pay_eq]
  have apart : Apart (beginPayment config r : Service b Payment) := by
    intro w c L reckoned
    rw [runFrom_begun]
    exact reckoned
  have begins : Yields (fun p : Payment => p.amount.Holds cents)
      (beginPayment config r : Service b Payment) :=
    yields_of_last fun _ => yields_of_last fun _ => (yields_check _).bind fun d brought =>
      yields_of_last fun m => yields_pure (states.holds brought)
  exact apart.bind begins fun p holds =>
    (ReadsOnly.apart (readsOnly_resolvePayment config p)).bind (p := fun _ => True)
      (fun _ _ _ _ => trivial) fun intentId _ => books_payTo faithful config now holds intentId

/-! ### Making intents -/

theorem books_fundIntent (config : Config) (now : Time) {user text : String} {policy : Policy}
    {cents : Int} (holds : policy.limit.Holds cents) (positive : 0 < cents) {i : Intent}
    (owner : i.user = user) (terms : i.policy = policy) (unused : i.used = .zero)
    (active : i.status = .active) :
    Books c (fundIntent config now user text policy i : Service b Intent) fun i L =>
      (L.noting i.id { owner := user, limit := cents }).locking user cents := by
  have shows : i.Shows { owner := user, limit := cents } :=
    ⟨owner, by rw [Intent.limit, terms]; exact holds,
      by rw [unused]; exact ⟨Decimal.isAmount_zero, rfl, by norm_num⟩, active⟩
  have locks : Books c (lockFunds user (.decimal policy.limit) (addIntent i) : Service b Unit)
      fun _ L => (L.noting i.id { owner := user, limit := cents }).locking user cents := by
    have books := books_lockFunds faithful shows ⟨le_rfl, positive.le⟩ positive
    rwa [Intent.limit, terms] at books
  intro w L reckoned
  have kept := locks reckoned
  have tried := runFrom_attempt w
    (lockFunds user (.decimal policy.limit) (addIntent i) : Service b Unit)
  rw [fundIntent, runFrom_bind_ok tried]
  rcases ran : (lockFunds user (.decimal policy.limit) (addIntent i) : Service b Unit).runFrom w
    with ⟨failure | done, after⟩ <;> rw [ran] at kept
  · exact kept
  · have finishes : Enters c (do
        note (.intentCreated i.id user policy.limit)
        if config.rewards then
          follow config now user .intentCreated ("Created intent: \"" ++ shorten 50 text ++ "\"")
        return i : Service b Intent) i id :=
      (enters_note _).bind <| enters_ite ((enters_follow _ _ _ _ _).bind (enters_pure i))
        (enters_pure i)
    obtain ⟨last, finished, same⟩ := finishes kept
    dsimp only
    rw [finished]
    exact same

theorem books_createIntent (config : Config) (now : Time) (user text : String) {policy : Policy}
    {cents : Int} (holds : policy.limit.Holds cents) (positive : 0 < cents) :
    Books c (createIntent config now user text policy : Service b Intent) fun i L =>
      (L.noting i.id { owner := user, limit := cents }).locking user cents := by
  have parts : (createIntent config now user text policy : Service b Intent) =
      openIntent user text policy now >>= fundIntent config now user text policy := rfl
  have apart : Apart (openIntent user text policy now : Service b Intent) := by
    intro w c L reckoned
    exact reckoned
  have opens : Yields (fun i => ∃ id, Intent.opened id user text policy now = .ok i)
      (openIntent user text policy now : Service b Intent) :=
    yields_of_last fun _ => yields_of_last fun _ =>
      fun _ _ _ done => ⟨_, congrArg Prod.fst done⟩
  rw [parts]
  refine apart.bind opens fun i made => ?_
  obtain ⟨id, made⟩ := made
  obtain ⟨expiresAt, -, rfl⟩ := Intent.opened_iff.mp made
  exact books_fundIntent faithful config now holds positive rfl rfl rfl rfl

/-! ### Escrows -/

theorem books_addEscrow {e : Escrow} {parts : List Part} (shows : e.Shows parts)
    (sound : Part.Sound parts) :
    Books c (addEscrow e : Service b Unit) fun _ L => L.depositing e.id parts := by
  refine Books.atomically fun w L reckoned => ?_
  simp only [runFrom_get_bind]
  cases found : b.escrows.find? e.id w.store.escrows with
  | some other => simpa using reckoned
  | none =>
    cases written : b.escrows.write e with
    | error failure => simpa [runFrom_check_error] using reckoned
    | ok row =>
      obtain ⟨named, carries⟩ := faithful.escrow_written shows written
      exact reckoned.deposited found named carries sound

theorem books_createEscrow (config : Config) (now : Time) (user : String)
    {specs : List MilestoneSpec} (title : String) (intentId : Option String)
    (stated : ∀ spec ∈ specs, ∃ cents, 0 < cents ∧ spec.amount.States cents) :
    Books c (createEscrow config now user specs title intentId : Service b Escrow) fun e L =>
      L.depositing e.id (Reckoning.partsOf specs e.milestones) := by
  intro w L reckoned
  rw [createEscrow, runFrom_get_bind]
  rcases made : Escrow.build w.ids user specs now intentId title config.expiryDays with ⟨ids, built⟩
  dsimp only
  rw [runFrom_modify_bind]
  cases built with
  | error failure => exact reckoned
  | ok e =>
    have built := congrArg Prod.snd made
    obtain ⟨shows, sound⟩ := Escrow.shows_of_build stated built
    obtain ⟨total, totalled⟩ := Escrow.exists_total_of_build built
    rw [runFrom_check_ok]
    have books : Books c (addEscrow e >>= fun _ => do
        note (.escrowCreated e.id user (← check e.total))
        return e : Service b Escrow) fun e L =>
          L.depositing e.id (Reckoning.partsOf specs e.milestones) := by
      rw [totalled]
      exact Books.bind (f := fun _ => e) (books_addEscrow faithful shows sound) fun _ =>
        ⟨id, (enters_check total).bind ((enters_note _).bind (enters_pure e)),
          fun _ => rfl⟩
    exact books reckoned

theorem books_updateEscrow {id : String} {change : Escrow → Except Failure (α × Escrow)}
    {entry : List Part → List Part}
    (changes : ∀ {e next x parts}, Escrow.Shows e parts → Part.Sound parts →
      change e = .ok (x, next) → e.Precedes next ∧ next.Shows (entry parts) ∧
        Part.Sound (entry parts)) :
    Books c (updateEscrow id change : Service b α) fun _ L =>
      L.depositing id (entry (L.deposit id)) := by
  intro w L reckoned
  rcases runFrom_updateEscrow_row w id change with
    ⟨failure, failed⟩ | ⟨row, e, x, next, changed, found, read, made, updated, done⟩
  · rw [failed]
    exact reckoned
  · have named : b.escrows.id row = id := by simpa using List.find?_some found
    obtain ⟨carries, sound⟩ := reckoned.escrows row (List.mem_of_find?_eq_some found)
    rw [named] at carries sound
    obtain ⟨same, shows⟩ := faithful.escrow_read carries read
    obtain ⟨later, shown, fine⟩ := changes shows sound made
    obtain ⟨kept, told⟩ :=
      faithful.escrow_updated carries sound.ids read later.id later.terms shown updated
    rw [done]
    exact reckoned.redeposited (kept.trans named) told fine

theorem books_releaseMilestone (config : Config) (now : Time) (escrowId milestoneId : String)
    (proof merchantId : Option String) :
    Books c (releaseMilestone config now escrowId milestoneId proof merchantId :
      Service b ReleaseReceipt) fun _ L =>
        L.depositing escrowId (Part.release milestoneId (L.deposit escrowId)) := by
  have released : Books c (updateEscrow escrowId (releaseIn milestoneId proof now merchantId) :
      Service b _) fun _ L =>
        L.depositing escrowId (Part.release milestoneId (L.deposit escrowId)) :=
    books_updateEscrow faithful fun shows sound done =>
      ⟨Escrow.precedes_of_releaseIn done, shows.released sound done, sound.release milestoneId⟩
  exact Books.bind released fun x => ⟨_, (enters_tally _).bind <| (enters_note _).bind <|
    enters_ite ((enters_follow _ _ _ _ _).bind (enters_pure x.1)) (enters_pure x.1),
    fun _ => rfl⟩

theorem books_clawBack (config : Config) (now : Time) (escrowId : String)
    (reason : ClawbackReason) (part : Option Numeral) :
    Books c (clawBack config now escrowId reason part : Service b ClawbackReceipt)
      fun _ L => L := by
  have recovered : Books c (updateEscrow escrowId (clawBackIn reason part now config.rates) :
      Service b _) fun _ L => L.depositing escrowId (id (L.deposit escrowId)) := by
    refine books_updateEscrow faithful fun shows sound done => ?_
    obtain ⟨⟨receipt, after⟩, taken, made⟩ := bind_ok_iff.mp done
    cases made
    have later := Escrow.precedes_of_clawBack taken
    obtain ⟨-, -, rfl⟩ := Escrow.claimed_of_clawBack taken
    exact ⟨later, shows, sound⟩
  refine Books.bind recovered fun x => ⟨id, (enters_tally _).bind <|
    (enters_note _).bind <| enters_ite ((enters_follow _ _ _ _ _).bind (enters_pure x.1))
      (enters_pure x.1), fun L => ?_⟩
  simp [Reckoning.depositing]

/-! ### Commands -/

omit faithful in
theorem Books.reply {entry : α → Reckoning → Reckoning} {entry' : Reply → Reckoning → Reckoning}
    {f : α → Reply} (books : Books c op entry) (same : ∀ a L, entry' (f a) L = entry a L) :
    Books c (op >>= fun a => pure (f a)) entry' :=
  books.bind fun a => ⟨_, enters_pure (f a), fun L => same a L⟩

/-- Whatever a command does to the columns of a store is what a ledger books for it. -/
theorem books_run (config : Config) (now : Time) {command : Command} {limit : Int}
    (states : command.StatesMoney limit) :
    Books c (command.run config now : Service b Reply) fun reply L =>
      L.book limit command (.ok reply) := by
  cases command with
  | openWallet user balance =>
    obtain ⟨cents, nonneg, stated⟩ := states
    refine (books_openWallet nonneg stated).reply fun _ _ => ?_
    rw [Reckoning.book, stated.wholeCents_eq]
  | createIntent user text policy =>
    exact (books_createIntent faithful config now user text states.2 states.1).reply fun _ _ => rfl
  | cancelIntent id => exact (books_cancelIntent faithful id).reply fun _ _ => rfl
  | pay request =>
    obtain ⟨cents, stated⟩ := states
    refine (books_pay faithful config now stated).reply fun _ _ => ?_
    rw [Reckoning.book, stated.wholeCents_eq]
  | createEscrow user specs title intentId =>
    exact (books_createEscrow faithful config now user title intentId states).reply
      fun _ _ => rfl
  | releaseMilestone escrowId milestoneId proof merchantId =>
    exact (books_releaseMilestone faithful config now escrowId milestoneId proof
      merchantId).reply fun _ _ => rfl
  | clawBack escrowId reason part =>
    exact (books_clawBack faithful config now escrowId reason part).reply fun _ _ => rfl
  | recordEvent user kind description =>
    exact (apart_recordEvent config now user kind description).books.reply fun _ _ => rfl
  | lockFunds | releaseFunds | addIntent | useIntent | violateIntent => cases states

end

end Service

end Earmark
