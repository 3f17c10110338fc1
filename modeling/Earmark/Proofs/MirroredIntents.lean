import Earmark.Proofs.Mirrors

/-!
Wallets, events and intents over a world and its mirror. Every operation on them ends the same in
both, with the same result or a failure of the same kind: what is locked of a wallet is read back as
it is, for no more is locked than a balance covers, and rows follow the intents they are of.
-/

namespace Earmark

open scoped Earmark.Whole

/-- Two amounts of one value. -/
structure Decimal.SameAmount (d d' : Decimal) : Prop where
  first : d.IsAmount
  second : d'.IsAmount
  cents : d'.cents = d.cents

theorem Decimal.SameAmount.unsignedZero_eq {d d' : Decimal} (same : d.SameAmount d') :
    d.unsignedZero = d'.unsignedZero :=
  same.first.unsignedZero_eq same.second same.cents.symm

namespace Wallet.Storable

variable {wallet : Wallet}

theorem locked_lt (storable : wallet.Storable) :
    wallet.locked.cents.natAbs < 10 ^ (15 : Nat) := by
  have nonneg := storable.nonneg
  have covered := storable.covered
  have small := storable.balance_lt
  omega

theorem money_balance (storable : wallet.Storable) :
    Backend.relational.money wallet.balance = .ok wallet.balance.unsignedZero :=
  (Column.keeps_of_small storable.balance storable.balance_lt).toAmount storable.balance

theorem money_locked (storable : wallet.Storable) :
    Backend.relational.money wallet.locked = .ok wallet.locked :=
  (Column.keeps_of_small storable.locked storable.locked_lt).toAmount_eq storable.locked
    storable.unsigned

/-- A wallet stays one that can be stored when it locks what is free of it. -/
theorem lock (storable : wallet.Storable) {d : Decimal} (amount : d.IsAmount)
    (nonneg : 0 ≤ d.cents) (free : d.cents ≤ wallet.balance.cents - wallet.locked.cents) :
    ∃ total, wallet.locked.add d = .ok total ∧ ({ wallet with locked := total } : Wallet).Storable := by
  have locked := storable.nonneg
  have balance := storable.balance_lt
  have small : (wallet.locked.cents + d.cents).natAbs < 10 ^ Decimal.precision := by
    have : (10 : Nat) ^ (15 : Nat) ≤ 10 ^ Decimal.precision := by decide
    omega
  obtain ⟨total, added, whole, cents⟩ := storable.locked.exists_add amount small
  refine ⟨total, added, storable.balance, whole, balance, ?_, ?_, ?_⟩
  · dsimp only
    omega
  · dsimp only
    omega
  · exact Decimal.unsignedZero_eq_of_add storable.unsigned storable.locked amount small added

/-- A wallet stays one that can be stored when it unlocks what is locked of it. -/
theorem unlock (storable : wallet.Storable) {d : Decimal} (amount : d.IsAmount)
    (nonneg : 0 ≤ d.cents) (held : d.cents ≤ wallet.locked.cents) :
    ∃ left, wallet.locked.sub d = .ok left ∧ ({ wallet with locked := left } : Wallet).Storable := by
  have locked := storable.locked_lt
  have covered := storable.covered
  have small : (wallet.locked.cents - d.cents).natAbs < 10 ^ Decimal.precision := by
    have : (10 : Nat) ^ (15 : Nat) ≤ 10 ^ Decimal.precision := by decide
    omega
  obtain ⟨left, taken, whole, cents⟩ := storable.locked.exists_sub amount small
  refine ⟨left, taken, storable.balance, whole, storable.balance_lt, ?_, ?_, ?_⟩
  · dsimp only
    omega
  · dsimp only
    omega
  · exact Decimal.unsignedZero_eq_of_sub storable.unsigned storable.locked amount small taken

end Wallet.Storable

namespace Intent

variable {id user text : String} {policy : Policy} {now : Time} {i : Intent}

theorem storable_of_opened (accepted : policy.IsAccepted)
    (limit_lt : policy.limit.cents < 10 ^ (15 : Nat)) (universal : now.offset = some 0)
    (opened : opened id user text policy now = .ok i) : i.Storable := by
  have sound := Sound.of_opened accepted.built opened
  obtain ⟨expiresAt, added, rfl⟩ := opened_iff.mp opened
  exact ⟨sound, accepted, limit_lt, rfl, universal, (Time.offset_addDays added).trans universal⟩

/-- No time of the calendar is so many days after another that they do not fit a column. -/
theorem fits_of_opened (onCalendar : Time.onCalendar now.micros = true)
    (opened : opened id user text policy now = .ok i) {changes : Nat}
    (few : changes < 2 ^ (63 : Nat)) : i.Fits changes := by
  obtain ⟨expiresAt, added, rfl⟩ := opened_iff.mp opened
  have near : policy.validityDays < 2 ^ (63 : Nat) := by
    have dated := Failure.require_ok_iff.mp added
    simp only [Time.addDays?] at dated
    split at dated
    · rename_i later
      simp only [Time.onCalendar, Bool.and_eq_true, decide_eq_true_eq] at onCalendar later
      simp only [Time.dayCount, Time.dayMicros, Time.secondMicros] at onCalendar later
      omega
    · cases dated
  exact ⟨near, le_rfl, by simpa using few, by simpa using few⟩

end Intent

namespace Service

variable {α α' β β' : Type} {R : α → α' → Prop} {S : β → β' → Prop} {w : World .memory}
  {user : String}

/-! ### Wallets -/

theorem mirrors_findWallet_bind {next : Wallet → Service .memory β}
    {next' : Wallet → Service .relational β'}
    (rest : ∀ wallet, Wallet.findIn w.wallets user = some wallet →
      Mirrors S w (next wallet) (next' wallet)) :
    Mirrors S w (findWallet user >>= next) (findWallet user >>= next') := by
  have found : Mirrors Eq w (findWallet user) (findWallet user) := mirrors_get (mirrors_check (.refl _))
  refine found.bind fun {wallet wallet' after} ran _ same => ?_
  obtain rfl := same
  rw [runFrom_findWallet] at ran
  obtain ⟨found, rfl⟩ := Prod.mk.inj ran
  cases known : Wallet.findIn w.wallets user with
  | none =>
    rw [known] at found
    cases found
  | some other =>
    rw [known] at found
    obtain rfl := Except.ok.inj found
    exact rest _ known

theorem mirrors_setLocked {locked : Decimal} (storable : ∀ wallet,
    Wallet.findIn w.wallets user = some wallet → ({ wallet with locked } : Wallet).Storable) :
    Mirrors Eq w (setLocked user locked) (setLocked user locked) := by
  refine mirrors_modify rfl fun stored => { stored with users := ?_, wallets := ?_ }
  · exact (Wallet.map_user_relock locked).symm ▸ stored.users
  · intro wallet mem
    rcases Wallet.mem_relock mem with ⟨old, -⟩ | ⟨old, old_mem, rfl, rfl⟩
    · exact stored.wallets wallet old
    · exact storable old (Wallet.findIn_of_mem stored.users old_mem)

theorem mirrors_availableIn {wallet : Wallet} (storable : wallet.Storable) :
    Mirrors (fun free free' => free.SameAmount free' ∧
      free.cents = wallet.balance.cents - wallet.locked.cents) w
        (availableIn wallet) (availableIn wallet) := by
  have unsigned := storable.balance.unsignedZero
  have locked := storable.locked_lt
  have balance := storable.balance_lt
  have bound : (10 : Nat) ^ (15 : Nat) + 10 ^ (15 : Nat) ≤ 10 ^ Decimal.precision := by decide
  obtain ⟨free, left, amount, cents⟩ := storable.balance.exists_sub storable.locked
    (show (wallet.balance.cents - wallet.locked.cents).natAbs < 10 ^ Decimal.precision by omega)
  obtain ⟨free', left', amount', cents'⟩ := unsigned.1.exists_sub storable.locked
    (show (wallet.balance.unsignedZero.cents - wallet.locked.cents).natAbs <
      10 ^ Decimal.precision by rw [unsigned.2]; omega)
  simp only [availableIn, storable.money_balance, storable.money_locked, Backend.memory_money,
    check_ok_bind, left, left']
  exact mirrors_check (.ok ⟨⟨amount, amount', by rw [cents, cents', unsigned.2]⟩, cents⟩)

theorem mirrors_available (stored : w.Stored) (user : String) :
    Mirrors Decimal.SameAmount w (available user) (available user) :=
  mirrors_findWallet_bind fun wallet found =>
    (mirrors_availableIn (stored.wallets wallet (Wallet.mem_of_findIn found))).mono
      fun _ _ same => same.1

theorem mirrors_locked (stored : w.Stored) (user : String) :
    Mirrors Eq w (locked user) (locked user) := by
  refine mirrors_findWallet_bind fun wallet found => ?_
  have storable := stored.wallets wallet (Wallet.mem_of_findIn found)
  rw [storable.money_locked]
  exact mirrors_check (.ok rfl)

/-- An amount is locked beside an operation that leaves the wallets alone. -/
theorem mirrors_lockFunds (stored : w.Stored) {amount : Numeral}
    (nonneg : ∀ d, amount.toAmount = .ok d → 0 ≤ d.cents) {op : Service .memory α}
    {op' : Service .relational α'} (mirrors : Mirrors R w op op')
    (kept : ∀ a after, op.runFrom w = (.ok a, after) → after.wallets = w.wallets)
    (atomic : AtomicFrom w (lockFunds user amount op)) :
    Mirrors R w (lockFunds user amount op) (lockFunds user amount op') := by
  rw [lockFunds] at atomic
  refine mirrors_check_bind (.refl _) fun {d d'} brought same => ?_
  obtain rfl := same
  rw [brought, check_ok_bind] at atomic
  refine (mirrors_findWallet_bind fun wallet found => ?_).atomically atomic
  have storable := stored.wallets wallet (Wallet.mem_of_findIn found)
  refine (mirrors_availableIn storable).bind fun {free free' after} ran _ same => ?_
  obtain ⟨same, cents⟩ := same
  obtain ⟨-, rfl⟩ := Prod.mk.inj ran
  have whole := isAmount_of_toAmount brought
  rw [whole.gt?_eq same.first, whole.gt?_eq same.second, same.cents]
  simp only [Failure.ofDecimal_ok, check_ok_bind]
  refine mirrors_ite (fun _ => mirrors_throw (.insufficientFunds _ same.unsignedZero_eq))
    fun enough => mirrors.bind fun {a a' after} ran _ related => ?_
  have free : d.cents ≤ wallet.balance.cents - wallet.locked.cents := by
    rw [← cents]
    simpa using enough
  obtain ⟨total, added, locked⟩ := storable.lock whole (nonneg _ brought) free
  rw [storable.money_locked, Backend.memory_money, check_ok_bind, check_ok_bind, added,
    Failure.ofDecimal_ok, check_ok_bind, check_ok_bind]
  refine (mirrors_setLocked fun other found' => ?_).bind fun _ _ _ => mirrors_pure related
  rw [kept _ _ ran, found] at found'
  exact Option.some.inj found' ▸ locked

theorem mirrors_releaseFunds (stored : w.Stored) {amount : Numeral}
    (nonneg : ∀ d, amount.toAmount = .ok d → 0 ≤ d.cents) :
    Mirrors Eq w (releaseFunds user amount) (releaseFunds user amount) := by
  refine mirrors_check_bind (.refl _) fun {d d'} brought same => ?_
  obtain rfl := same
  refine Mirrors.atomically (mirrors_findWallet_bind fun wallet found => ?_) ?_
  · have storable := stored.wallets wallet (Wallet.mem_of_findIn found)
    have whole := isAmount_of_toAmount brought
    rw [storable.money_locked, Backend.memory_money, check_ok_bind, check_ok_bind,
      whole.gt?_eq storable.locked, Failure.ofDecimal_ok, check_ok_bind, check_ok_bind]
    refine mirrors_ite (fun _ => mirrors_throw (.refl _)) fun held => ?_
    obtain ⟨left, taken, unlocked⟩ :=
      storable.unlock whole (nonneg _ brought) (by simpa using held)
    rw [taken, Failure.ofDecimal_ok, check_ok_bind, check_ok_bind]
    refine mirrors_setLocked fun other found' => ?_
    exact Option.some.inj (found.symm.trans found') ▸ unlocked
  · intro failure after failed
    have ran := runFrom_releaseFunds w user amount
    rw [releaseFunds, brought, check_ok_bind, failed] at ran
    split at ran
    · cases ran
    · exact congrArg (fun ran => ran.2.store) ran

/-- What a closed intent leaves is unlocked. -/
theorem mirrors_releaseRest (stored : w.Stored) (i : Intent) {rest : Decimal}
    (amount : rest.IsAmount) :
    Mirrors Eq w (releaseRest i rest) (releaseRest i rest) := by
  rw [releaseRest, releaseRest, amount.gt?_zero, Failure.ofDecimal_ok, check_ok_bind, check_ok_bind]
  refine mirrors_ite (fun owed => mirrors_releaseFunds stored fun d brought => ?_) fun _ => mirrors_pure rfl
  rw [Numeral.toAmount_decimal amount] at brought
  obtain rfl := Except.ok.inj brought
  exact le_of_lt (by simpa using owed)

theorem mirrors_openWallet {balance : Numeral}
    (small : ∀ d, balance.toAmount = .ok d → d.cents.natAbs < 10 ^ (15 : Nat)) :
    Mirrors Eq w (openWallet user balance) (openWallet user balance) := by
  refine Mirrors.atomically (mirrors_get (mirrors_ite (fun _ => mirrors_throw (.refl _))
    fun fresh => mirrors_check_bind (.refl _) fun {d d'} brought same => ?_))
    (atomic_openWallet user balance w)
  obtain rfl := same
  refine mirrors_modify rfl fun stored => { stored with users := ?_, wallets := ?_ }
  · have new : user ∉ w.wallets.map Wallet.user := by
      rw [← Wallet.findIn_eq_none_iff, ← Option.not_isSome_iff_eq_none, Wallet.findIn]
      rwa [List.any_eq_true, ← List.find?_isSome] at fresh
    have users := stored.users.concat new
    rw [List.concat_eq_append] at users
    change (List.map Wallet.user (w.wallets ++ [_])).Nodup
    rwa [List.map_append]
  · intro wallet mem
    rcases List.mem_append.mp mem with old | added
    · exact stored.wallets wallet old
    · rw [List.mem_singleton] at added
      subst added
      exact ⟨isAmount_of_toAmount brought, Decimal.isAmount_zero, small d brought, le_rfl,
        le_max_right _ _, rfl⟩

/-! ### Events -/

theorem mirrors_scoreOf (config : Config) (user : String) :
    Mirrors Eq w (scoreOf config user) (scoreOf config user) := mirrors_get (mirrors_pure rfl)

/-- An event and its row are appended. -/
private theorem mirrors_appendEvent {event : ReputationEvent}
    (universal : event.time.offset = some 0)
    (change : List (String × Int) → List (String × Int)) :
    Mirrors Eq w
      (atomically do
        let row ← check (Backend.memory.events.write event)
        modifyStore fun s => { s with events := s.events ++ [row], scores := change s.scores })
      (atomically do
        let row ← check (Backend.relational.events.write event)
        modifyStore fun s => { s with events := s.events ++ [row], scores := change s.scores }) := by
  refine Mirrors.atomically (mirrors_check_bind (R := fun e row => e = event ∧ row = .ofEvent event)
    (.ok ⟨rfl, rfl⟩) fun {e row} _ same => ?_)
    (atomic_atomically (atomic_check_bind fun _ _ => atomic_of_sure (sure_modify _)) w)
  obtain ⟨rfl, rfl⟩ := same
  refine mirrors_modify ?_ fun stored => { stored with
    events := List.forall_mem_append.mpr ⟨stored.events, List.forall_mem_singleton.mpr universal⟩ }
  simp only [World.mirror, Store.mirror]
  congr 2
  exact (@List.map_append _ _ EventRow.ofEvent w.store.events [e]).symm

theorem mirrors_recordEvent (config : Config) {now : Time} (universal : now.offset = some 0)
    (user : String) (kind : EventKind) (description : String) :
    Mirrors Eq w (recordEvent config now user kind description)
      (recordEvent config now user kind description) := by
  refine mirrors_get ((mirrors_modify rfl fun stored => { stored with }).bind fun _ _ _ =>
    mirrors_get (mirrors_ite (fun _ => mirrors_throw (.refl _)) fun _ =>
      (mirrors_scoreOf config user).bind fun {prior prior' after} _ _ same => ?_))
  obtain rfl := same
  refine mirrors_get ((mirrors_modify rfl fun stored => { stored with }).bind fun _ _ _ => ?_)
  exact (mirrors_appendEvent universal _).bind fun _ _ _ =>
    (mirrors_tally _).bind fun _ _ _ => mirrors_pure rfl

theorem mirrors_follow (config : Config) {now : Time} (universal : now.offset = some 0)
    (user : String) (kind : EventKind) (description : String) :
    Mirrors Eq w (follow config now user kind description)
      (follow config now user kind description) := by
  refine (mirrors_recordEvent config universal user kind description).attempt.bind
    fun {result result' after} _ _ same => ?_
  cases same with
  | ok => exact mirrors_pure rfl
  | error => exact (mirrors_tally _).bind fun _ _ _ => mirrors_note _

/-- The events of a user are the same in both. -/
theorem runFrom_eventsOf_mirror (stored : w.Stored) (user : String) :
    (eventsOf user).runFrom w = (.ok (w.events.filter (·.user == user)), w) ∧
      (eventsOf user).runFrom w.mirror = (.ok (w.events.filter (·.user == user)), w.mirror) := by
  have own : Backend.memory.events.ofUser user w.store.events =
      .ok (w.events.filter (·.user == user)) :=
    Table.ofUser_direct ReputationEvent.id ReputationEvent.user user _
  have own' : Backend.relational.events.ofUser user w.mirror.store.events =
      .ok ((w.events.filter (·.user == user)).map id) :=
    Table.ofUser_map (fun _ => rfl) fun e mem => EventRow.toEvent_ofEvent (stored.events e mem)
  rw [List.map_id] at own'
  exact ⟨congrArg (·, w) own, congrArg (·, w.mirror) own'⟩

theorem mirrors_eventsOf (stored : w.Stored) (user : String) :
    Mirrors Eq w (eventsOf user) (eventsOf user) := by
  obtain ⟨read, read'⟩ := runFrom_eventsOf_mirror stored user
  exact ⟨by rw [read, read']; exact .ok rfl, by rw [read, read'], by rw [read]; exact id⟩

theorem mirrors_reputation (stored : w.Stored) (config : Config) (user : String) :
    Mirrors Eq w (reputation config user) (reputation config user) :=
  (mirrors_eventsOf stored user).bind fun _ _ same =>
    same ▸ (mirrors_scoreOf config user).bind fun _ _ same => mirrors_pure (same ▸ rfl)

/-! ### Intents -/

section

variable {id : String}

theorem find?_intents_mirror (w : World .memory) (id : String) :
    Backend.relational.intents.find? id w.mirror.store.intents =
      (Intent.findIn w.intents id).map IntentRow.plain :=
  Table.find?_map (fun _ => rfl) id w.intents

theorem mirrors_findIntent? (stored : w.Stored) (id : String) :
    Mirrors Eq w (findIntent? id) (findIntent? id) := by
  have kept : Backend.memory.intents.find? id w.store.intents = Intent.findIn w.intents id := rfl
  refine mirrors_get (mirrors_check ?_)
  rw [find?_intents_mirror, kept]
  cases found : Intent.findIn w.intents id with
  | none => exact .ok rfl
  | some i =>
    have read := IntentRow.toIntent_plain (stored.intents i (Intent.mem_of_findIn found)).1
    change SameResult Eq _ (some <$> (IntentRow.plain i).toIntent)
    rw [read]
    exact .ok rfl

theorem mirrors_getIntent (stored : w.Stored) (id : String) :
    Mirrors Eq w (getIntent id) (getIntent id) :=
  (mirrors_findIntent? stored id).bind fun _ _ same => same ▸ mirrors_check (.refl _)

theorem mirrors_listIntents (stored : w.Stored) (user : String) :
    Mirrors Eq w (listIntents user) (listIntents user) := by
  have own : Backend.memory.intents.ofUser user w.store.intents =
      .ok (w.intents.filter (·.user == user)) := Table.ofUser_direct Intent.id Intent.user user _
  have own' : Backend.relational.intents.ofUser user w.mirror.store.intents =
      .ok ((w.intents.filter (·.user == user)).map id) :=
    Table.ofUser_map (fun _ => rfl) fun i mem =>
      IntentRow.toIntent_plain (stored.intents i mem).1
  refine mirrors_get (mirrors_check ?_)
  rw [own, own', List.map_id]
  exact .refl _

/-- A change of an intent that mirrors itself, and leaves other intents alone, is followed by the
row of that intent. -/
theorem mirrors_updateIntent (stored : w.Stored) (roomy : ∀ i ∈ w.intents, i.Fits 1)
    {change : Intent → Service .memory (α × Intent)}
    {change' : Intent → Service .relational (α × Intent)}
    (mirrors : ∀ i, Intent.findIn w.intents id = some i →
      Mirrors (fun made made' => made = made' ∧ i.Changes made.2) w (change i) (change' i))
    (keeps : ∀ i, Keeps World.intents (change i))
    (atomic : AtomicFrom w (updateIntent id change)) :
    Mirrors Eq w (updateIntent id change) (updateIntent id change') := by
  have kept : Backend.memory.intents.find? id w.store.intents = Intent.findIn w.intents id := rfl
  refine Mirrors.atomically (mirrors_get ?_) atomic
  rw [find?_intents_mirror, kept]
  cases found : Intent.findIn w.intents id with
  | none => exact mirrors_throw (.intentNotFound _ _ _)
  | some i =>
    have mem := Intent.mem_of_findIn found
    have storable := (stored.intents i mem).1
    have read : Backend.memory.intents.read i = .ok i := rfl
    have read' : Backend.relational.intents.read (IntentRow.plain i) = .ok i :=
      IntentRow.toIntent_plain storable
    simp only [Option.map_some]
    rw [read, read', check_ok_bind, check_ok_bind]
    refine (mirrors i found).bind fun {made made' after} ran kept same => ?_
    obtain ⟨rfl, change⟩ := same
    obtain ⟨result, j⟩ := made
    have same : after.intents = w.intents := (congrArg (World.intents ·.2) ran).symm.trans (keeps i w)
    have updated : Backend.relational.intents.update (IntentRow.plain i) j =
        .ok (IntentRow.plain j) :=
      IntentRow.update_plain change.precedes (change.sound storable.sound)
        ((roomy i mem).change change)
    dsimp only
    rw [updated]
    refine mirrors_check_bind (R := fun row row' => j = row ∧ IntentRow.plain j = row')
      (.ok ⟨rfl, rfl⟩) fun {row row'} _ same => ?_
    obtain ⟨rfl, rfl⟩ := same
    refine (mirrors_modify ?_ fun before => ?_).bind fun _ _ _ => mirrors_pure rfl
    · simp only [World.mirror, Store.mirror]
      congr 2
      exact Table.replace_map (fun _ => rfl) id j after.intents
    · refine { before with intents := fun k mem' => ?_ }
      rcases Intent.mem_replaceIn mem' with rfl | ⟨old, -⟩
      · obtain ⟨number, bound, named⟩ := (before.intents i (same ▸ mem)).2
        exact ⟨storable.change change, number, bound, change.precedes.id.trans named⟩
      · exact before.intents k old

theorem mirrors_useIntent (stored : w.Stored) (roomy : ∀ i ∈ w.intents, i.Fits 1)
    (amount : Numeral) : Mirrors Eq w (useIntent id amount) (useIntent id amount) := by
  refine mirrors_updateIntent stored roomy (fun i found => mirrors_check_bind (.refl _)
    fun {j j'} spent same => ?_) (fun _ => keeps_bind (keeps_check _) fun _ => keeps_pure _)
    (atomic_useIntent id amount w)
  obtain ⟨d, -, spent⟩ := (stored.sound found).spent spent
  exact mirrors_pure ⟨same ▸ rfl, .spent spent⟩

theorem mirrors_violateIntent (stored : w.Stored) (roomy : ∀ i ∈ w.intents, i.Fits 1) :
    Mirrors Eq w (violateIntent id) (violateIntent id) :=
  mirrors_updateIntent stored roomy (fun _ _ => mirrors_pure ⟨rfl, .violated⟩)
    (fun _ => keeps_pure _) (atomic_violateIntent id w)

theorem keepsIntents_releaseRest (i : Intent) (rest : Decimal) :
    Keeps World.intents (releaseRest i rest) := by
  intro w
  rw [runFrom_releaseRest]
  split <;> rfl

theorem mirrors_cancelIntent (stored : w.Stored) (roomy : ∀ i ∈ w.intents, i.Fits 1) :
    Mirrors Eq w (cancelIntent id) (cancelIntent id) := by
  refine (mirrors_updateIntent stored roomy (fun i found => mirrors_check_bind (.refl _)
    fun {closed closed'} cancelled same => ?_)
    (fun i => keeps_bind (keeps_check _) fun _ =>
      keeps_bind (keepsIntents_releaseRest _ _) fun _ => keeps_pure _)
    (atomic_updateIntent id (fun i => atomic_bind (keeps_check _) fun _ =>
      atomic_bind_sure (atomic_releaseRest _ _) fun _ => sure_pure _) w)).bind
    fun _ _ same => same ▸ (mirrors_note _).bind fun _ _ _ => mirrors_pure rfl
  · obtain rfl := same
    obtain ⟨rest, j⟩ := closed
    obtain ⟨closed, -⟩ := (stored.sound found).closed_of_cancel cancelled
    exact (mirrors_releaseRest stored i closed.amount).bind fun _ _ _ =>
      mirrors_pure ⟨rfl, .closed closed⟩

end

/-! ### Making an intent -/

theorem mirrors_addIntent {i : Intent} {number : Nat} (storable : i.Storable) (fits : i.Fits 0)
    (fresh : Intent.findIn w.intents i.id = none) (named : i.id = Ids.intent number)
    (given : number ≤ w.ids.intents) : Mirrors Eq w (addIntent i) (addIntent i) := by
  have lost : Backend.memory.intents.find? i.id w.store.intents = none := fresh
  have lost' : Backend.relational.intents.find? i.id w.mirror.store.intents = none := by
    rw [find?_intents_mirror, fresh]
    rfl
  have written : Backend.relational.intents.write i = .ok (IntentRow.plain i) :=
    IntentRow.ofIntent_eq storable fits
  refine Mirrors.atomically (mirrors_get (mirrors_ite (fun _ => mirrors_throw (.refl _)) fun _ => ?_))
    ?_
  · rw [written, lost, lost']
    refine mirrors_check_bind (R := fun row row' => i = row ∧ IntentRow.plain i = row')
      (.ok ⟨rfl, rfl⟩) fun {row row'} _ same => ?_
    obtain ⟨rfl, rfl⟩ := same
    refine mirrors_modify ?_ fun stored => { stored with
      intents := List.forall_mem_append.mpr ⟨stored.intents,
        List.forall_mem_singleton.mpr ⟨storable, number, given, named⟩⟩ }
    simp only [World.mirror, Store.mirror]
    congr 2
    exact (@List.map_append _ _ IntentRow.plain w.intents [i]).symm
  · intro failure after failed
    have ran := runFrom_addIntent w i
    rw [addIntent, failed] at ran
    split at ran
    · exact congrArg (fun ran => ran.2.store) ran
    · split at ran
      · exact congrArg (fun ran => ran.2.store) ran
      · cases ran

theorem keepsWallets_addIntent (i : Intent) : Keeps World.wallets (addIntent i) := by
  intro w
  rw [runFrom_addIntent]
  split
  · rfl
  · split <;> rfl

/-- What is locked for a new intent is locked with it or not at all. -/
private theorem atomicFrom_lockAdded (stored : w.Stored) (user : String) {limit : Decimal}
    (amount : limit.IsAmount) (positive : 0 < limit.cents) (i : Intent) :
    AtomicFrom w (lockFunds user (.decimal limit) (addIntent i)) := by
  intro failure after failed
  rcases runFrom_lockAdded w user (.decimal limit) i with
    ⟨failure', refused⟩ | ⟨wallet, d, lockable, -, ⟨fault, short, -⟩ | ⟨locked, -, done⟩⟩
  · exact congrArg (fun ran => ran.2.store) (failed.symm.trans refused)
  · obtain ⟨found, brought, within⟩ := Wallet.lockable_ok
      (fun wallet mem => ⟨(stored.wallets wallet mem).balance, (stored.wallets wallet mem).locked⟩)
      (fun wallet mem => ⟨(stored.wallets wallet mem).nonneg, (stored.wallets wallet mem).covered⟩)
      lockable
    rw [Numeral.toAmount_decimal amount] at brought
    obtain rfl := Except.ok.inj brought
    obtain ⟨total, added, -⟩ := (stored.wallets wallet (Wallet.mem_of_findIn found)).lock amount
      positive.le (by omega)
    rw [added] at short
    cases short
  · rw [done] at failed
    cases failed

theorem mirrors_createIntent (stored : w.Stored) (config : Config) {now : Time}
    (universal : now.offset = some 0) (onCalendar : Time.onCalendar now.micros = true)
    (user text : String) {policy : Policy} (accepted : policy.IsAccepted)
    (limit_lt : policy.limit.cents < 10 ^ (15 : Nat)) :
    Mirrors Eq w (createIntent config now user text policy)
      (createIntent config now user text policy) := by
  have numbered : Mirrors Eq w (openIntent user text policy now) (openIntent user text policy now) := by
    refine mirrors_get ((mirrors_modify rfl fun stored => { stored with intents := fun i mem => ?_ }).bind
      fun _ _ _ => mirrors_check (.refl _))
    obtain ⟨storable, number, given, named⟩ := stored.intents i mem
    exact ⟨storable, number, by dsimp only; omega, named⟩
  refine numbered.bind fun {i i' after} ran kept same => ?_
  obtain rfl := same
  obtain ⟨opened, rfl⟩ := Prod.mk.inj ran
  have stored' := kept stored
  obtain ⟨amount, positive⟩ := accepted.built.limit
  have named : i.id = Ids.intent (w.ids.intents + 1) := by
    obtain ⟨expiresAt, -, rfl⟩ := Intent.opened_iff.mp opened
    rfl
  have fresh : Intent.findIn w.intents i.id = none := by
    rw [Intent.findIn_eq_none_iff, named]
    intro mem
    obtain ⟨old, old_mem, same⟩ := List.mem_map.mp mem
    exact Ids.next_ne (stored.intents old old_mem).2 same
  refine (mirrors_lockFunds stored' (fun d brought => ?_)
    (mirrors_addIntent (Intent.storable_of_opened accepted limit_lt universal opened)
      (Intent.fits_of_opened onCalendar opened (by norm_num)) fresh named (by dsimp only; omega))
    (fun a after ran => ?_) (atomicFrom_lockAdded stored' user amount positive i)).attempt.bind
      fun {result result' after} _ _ same => ?_
  · rw [Numeral.toAmount_decimal amount] at brought
    exact Except.ok.inj brought ▸ positive.le
  · exact (congrArg (World.wallets ·.2) ran).symm.trans (keepsWallets_addIntent i _)
  · cases same with
    | ok =>
      exact (mirrors_note _).bind fun _ _ _ => mirrors_ite
        (fun _ => (mirrors_follow config universal user _ _).bind fun _ _ _ => mirrors_pure rfl)
        fun _ => mirrors_pure rfl
    | error alike => exact mirrors_throw (alike.reported)

end Service

end Earmark
