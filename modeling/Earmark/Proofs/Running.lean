import Earmark.Service.Command
import Earmark.Proofs.Cents

/-!
What the operations of a service do to a world whose records are kept as they are. Each operation on
wallets and intents runs as a pure function of the wallets and intents before it, and a failed one
leaves them as they were.
-/

namespace Earmark

namespace World

/-- The wallets, the intents and the log of payments, as they are kept. -/
def wallets (w : World .memory) : List Wallet := w.store.wallets
def intents (w : World .memory) : List Intent := w.store.intents
def records (w : World .memory) : List TransactionRecord := w.store.records

def withWallets (w : World .memory) (wallets : List Wallet) : World .memory :=
  { w with store := { w.store with wallets } }
def withIntents (w : World .memory) (intents : List Intent) : World .memory :=
  { w with store := { w.store with intents } }
def withRecords (w : World .memory) (records : List TransactionRecord) : World .memory :=
  { w with store := { w.store with records } }

@[simp] theorem wallets_withWallets (w : World .memory) (wallets : List Wallet) :
    (w.withWallets wallets).wallets = wallets := rfl
@[simp] theorem intents_withWallets (w : World .memory) (wallets : List Wallet) :
    (w.withWallets wallets).intents = w.intents := rfl
@[simp] theorem records_withWallets (w : World .memory) (wallets : List Wallet) :
    (w.withWallets wallets).records = w.records := rfl
@[simp] theorem wallets_withIntents (w : World .memory) (intents : List Intent) :
    (w.withIntents intents).wallets = w.wallets := rfl
@[simp] theorem intents_withIntents (w : World .memory) (intents : List Intent) :
    (w.withIntents intents).intents = intents := rfl
@[simp] theorem records_withIntents (w : World .memory) (intents : List Intent) :
    (w.withIntents intents).records = w.records := rfl
@[simp] theorem wallets_withRecords (w : World .memory) (records : List TransactionRecord) :
    (w.withRecords records).wallets = w.wallets := rfl
@[simp] theorem intents_withRecords (w : World .memory) (records : List TransactionRecord) :
    (w.withRecords records).intents = w.intents := rfl
@[simp] theorem records_withRecords (w : World .memory) (records : List TransactionRecord) :
    (w.withRecords records).records = records := rfl

/-- Nothing changes of what holds funds and records payments, nor of which writes fail. -/
structure SameBooks (w after : World .memory) : Prop where
  wallets : after.wallets = w.wallets
  intents : after.intents = w.intents
  records : after.records = w.records
  outage : after.outage = w.outage
  recordWrites : after.recordWrites = w.recordWrites

theorem SameBooks.refl (w : World .memory) : w.SameBooks w := ⟨rfl, rfl, rfl, rfl, rfl⟩

theorem SameBooks.trans {w middle after : World .memory} (first : w.SameBooks middle)
    (second : middle.SameBooks after) : w.SameBooks after :=
  ⟨second.wallets.trans first.wallets, second.intents.trans first.intents,
    second.records.trans first.records, second.outage.trans first.outage,
    second.recordWrites.trans first.recordWrites⟩

end World

/-- The intents with one in the place of those of its id. -/
def Intent.replaceIn (intents : List Intent) (id : String) (changed : Intent) : List Intent :=
  intents.map fun old => if old.id == id then changed else old

def Intent.findIn (intents : List Intent) (id : String) : Option Intent :=
  intents.find? (·.id == id)

namespace Wallet

def findIn (wallets : List Wallet) (user : String) : Option Wallet :=
  wallets.find? (·.user == user)

/-- The wallets with so much locked of a user's. -/
def relock (wallets : List Wallet) (user : String) (locked : Decimal) : List Wallet :=
  wallets.map fun wallet => if wallet.user == user then { wallet with locked } else wallet

/-- The wallets after an amount of a user's is unlocked. -/
def released (wallets : List Wallet) (user : String) (amount : Numeral) :
    Except Failure (List Wallet) := do
  let amount ← amount.toAmount
  let wallet ← Failure.require (.walletNotFound user) (findIn wallets user)
  let beyond ← Failure.ofDecimal (amount.gt? wallet.locked)
  if beyond then .error (.releaseBeyondLock amount wallet.locked user)
  else
    let locked ← Failure.ofDecimal (wallet.locked.sub amount)
    .ok (relock wallets user locked)

/-- The wallets after what a closed intent leaves is unlocked. -/
def releasedRest (wallets : List Wallet) (i : Intent) (rest : Decimal) :
    Except Failure (List Wallet) := do
  let owed ← Failure.ofDecimal (rest.gt? (.ofNat 0))
  if owed then released wallets i.user (.decimal rest) else .ok wallets

/-- The wallet that an amount may be locked of, and the amount. -/
def lockable (wallets : List Wallet) (user : String) (amount : Numeral) :
    Except Failure (Wallet × Decimal) := do
  let amount ← amount.toAmount
  let wallet ← Failure.require (.walletNotFound user) (findIn wallets user)
  let free ← Failure.ofDecimal (wallet.balance.sub wallet.locked)
  let short ← Failure.ofDecimal (amount.gt? free)
  if short then .error (.insufficientFunds free amount) else .ok (wallet, amount)

end Wallet

@[simp] theorem Backend.memory_money (d : Decimal) : Backend.memory.money d = .ok d := rfl

namespace Service

variable {α β : Type}

theorem runFrom_bind_ok {b : Backend} {w after : World b} {op : Service b α} {a : α}
    (done : op.runFrom w = (.ok a, after)) (next : α → Service b β) :
    (op >>= next).runFrom w = (next a).runFrom after := by
  rw [runFrom_bind, done]

theorem runFrom_bind_error {b : Backend} {w after : World b} {op : Service b α}
    {failure : Failure} (failed : op.runFrom w = (.error failure, after))
    (next : α → Service b β) : (op >>= next).runFrom w = (.error failure, after) := by
  rw [runFrom_bind, failed]

/-- What was answered in two parts was answered by the first and then by the second. -/
theorem exists_of_bind {b : Backend} {w after : World b} {op : Service b α}
    {next : α → Service b β} {answer : β}
    (done : (op >>= next).runFrom w = (.ok answer, after)) :
    ∃ a middle, op.runFrom w = (.ok a, middle) ∧
      (next a).runFrom middle = (.ok answer, after) := by
  cases ran : op.runFrom w with
  | mk result middle =>
    cases result with
    | error failure =>
      rw [runFrom_bind_error ran] at done
      cases done
    | ok a =>
      rw [runFrom_bind_ok ran] at done
      exact ⟨a, middle, rfl, done⟩

@[simp] theorem runFrom_check_ok {b : Backend} (w : World b) (a : α) (next : α → Service b β) :
    (check (.ok a) >>= next).runFrom w = (next a).runFrom w := runFrom_bind_ok rfl next

@[simp] theorem runFrom_check_error {b : Backend} (w : World b) (failure : Failure)
    (next : α → Service b β) :
    (check (.error failure) >>= next).runFrom w = (.error failure, w) :=
  runFrom_bind_error rfl next

@[simp] theorem runFrom_get_bind {b : Backend} (w : World b) (next : World b → Service b β) :
    (get >>= next).runFrom w = (next w).runFrom w := runFrom_bind_ok rfl next

@[simp] theorem runFrom_modify_bind {b : Backend} (w : World b) (f : World b → World b)
    (next : Unit → Service b β) :
    (modify f >>= next).runFrom w = (next ()).runFrom (f w) := runFrom_bind_ok rfl next

/-- Records that are kept as they are do not go back, so what runs at once is only run. -/
@[simp] theorem runFrom_atomically (w : World .memory) (op : Service .memory α) :
    (atomically op).runFrom w = op.runFrom w := by
  unfold atomically
  cases done : op.runFrom w with
  | mk result after =>
    cases result <;> simp only [runFrom, ExceptT.run_mk, StateT.run] at done ⊢ <;> rw [done]
    rfl

theorem runFrom_findWallet (w : World .memory) (user : String) :
    (findWallet user).runFrom w =
      (Failure.require (.walletNotFound user) (Wallet.findIn w.wallets user), w) := by
  simp only [findWallet, runFrom_bind, runFrom_get, runFrom_check]
  rfl

theorem runFrom_releaseFunds (w : World .memory) (user : String) (amount : Numeral) :
    (releaseFunds user amount).runFrom w =
      match Wallet.released w.wallets user amount with
      | .ok wallets => (.ok (), w.withWallets wallets)
      | .error failure => (.error failure, w) := by
  simp only [releaseFunds, Wallet.released]
  cases brought : amount.toAmount with
  | error failure => rfl
  | ok d =>
    simp only [runFrom_check_ok, runFrom_atomically, ok_bind]
    have looked := runFrom_findWallet w user
    cases found : Wallet.findIn w.wallets user with
    | none =>
      rw [found] at looked
      rw [runFrom_bind_error looked]
      rfl
    | some wallet =>
      rw [found] at looked
      rw [runFrom_bind_ok looked]
      simp only [Failure.require, ok_bind, Backend.memory_money, runFrom_check_ok]
      cases d.gt? wallet.locked with
      | error fault => rfl
      | ok beyond =>
        cases beyond with
        | true => rfl
        | false =>
          cases wallet.locked.sub d with
          | error fault => rfl
          | ok locked => rfl

theorem runFrom_releaseRest (w : World .memory) (i : Intent) (rest : Decimal) :
    (releaseRest i rest).runFrom w =
      match Wallet.releasedRest w.wallets i rest with
      | .ok wallets => (.ok (), w.withWallets wallets)
      | .error failure => (.error failure, w) := by
  simp only [releaseRest, Wallet.releasedRest]
  cases rest.gt? (.ofNat 0) with
  | error fault => rfl
  | ok owed =>
    cases owed with
    | true => exact runFrom_releaseFunds w i.user (.decimal rest)
    | false => rfl

theorem runFrom_availableIn (w : World .memory) (wallet : Wallet) :
    (availableIn wallet).runFrom w =
      (Failure.ofDecimal (wallet.balance.sub wallet.locked), w) := rfl

theorem runFrom_lockFunds (w : World .memory) (user : String) (amount : Numeral)
    (op : Service .memory α) :
    (lockFunds user amount op).runFrom w =
      match Wallet.lockable w.wallets user amount with
      | .error failure => (.error failure, w)
      | .ok (wallet, d) =>
        match op.runFrom w with
        | (.error failure, after) => (.error failure, after)
        | (.ok a, after) =>
          match wallet.locked.add d with
          | .error fault => (.error (.arithmetic fault), after)
          | .ok locked => (.ok a, after.withWallets (Wallet.relock after.wallets user locked)) := by
  simp only [lockFunds, Wallet.lockable]
  cases amount.toAmount with
  | error failure => rfl
  | ok d =>
    simp only [runFrom_check_ok, runFrom_atomically, ok_bind]
    have looked := runFrom_findWallet w user
    cases found : Wallet.findIn w.wallets user with
    | none =>
      rw [found] at looked
      rw [runFrom_bind_error looked]
      rfl
    | some wallet =>
      rw [found] at looked
      rw [runFrom_bind_ok looked]
      have priced := runFrom_availableIn w wallet
      simp only [Failure.require, ok_bind, Backend.memory_money]
      cases remains : wallet.balance.sub wallet.locked with
      | error fault =>
        rw [remains] at priced
        rw [runFrom_bind_error priced]
        rfl
      | ok free =>
        rw [remains] at priced
        rw [runFrom_bind_ok priced]
        simp only [Failure.ofDecimal_ok, ok_bind]
        cases d.gt? free with
        | error fault => rfl
        | ok short =>
          cases short with
          | true => rfl
          | false =>
            change (op >>= _).runFrom w = _
            rw [runFrom_bind]
            simp only [Failure.ofDecimal_ok, ok_bind, Bool.false_eq_true, ↓reduceIte]
            cases op.runFrom w with
            | mk result after =>
              cases result with
              | error failure => rfl
              | ok a =>
                simp only [runFrom_check_ok]
                cases wallet.locked.add d <;> rfl

theorem runFrom_openWallet (w : World .memory) (user : String) (balance : Numeral) :
    (openWallet user balance).runFrom w =
      if (Wallet.findIn w.wallets user).isSome then (.error (.walletExists user), w)
      else
        match balance.toAmount with
        | .ok d => (.ok (), w.withWallets (w.wallets ++ [{ user, balance := d }]))
        | .error failure => (.error failure, w) := by
  have known : w.store.wallets.any (·.user == user) = (Wallet.findIn w.wallets user).isSome := by
    rw [Wallet.findIn, List.isSome_find?]
    rfl
  simp only [openWallet, runFrom_atomically, runFrom_get_bind, known]
  cases (Wallet.findIn w.wallets user).isSome with
  | true => rfl
  | false => cases balance.toAmount <;> rfl

theorem runFrom_addIntent (w : World .memory) (i : Intent) :
    (addIntent i).runFrom w =
      if w.outage.intents then (.error (.storeDown "intent_add"), w)
      else if (Intent.findIn w.intents i.id).isSome then (.error (.duplicateId i.id), w)
      else (.ok (), w.withIntents (w.intents ++ [i])) := by
  simp only [addIntent, runFrom_atomically, runFrom_get_bind]
  cases w.outage.intents with
  | true => rfl
  | false =>
    change Service.runFrom w (if (Intent.findIn w.intents i.id).isSome = true then _ else _) = _
    cases (Intent.findIn w.intents i.id).isSome <;> rfl

theorem runFrom_updateIntent (w : World .memory) (id : String)
    (change : Intent → Service .memory (α × Intent)) :
    (updateIntent id change).runFrom w =
      match Intent.findIn w.intents id with
      | none => (.error (.intentNotFound id .byKey), w)
      | some i =>
        match (change i).runFrom w with
        | (.ok (result, changed), after) =>
          (.ok result, after.withIntents (Intent.replaceIn after.intents id changed))
        | (.error failure, after) => (.error failure, after) := by
  simp only [updateIntent, runFrom_atomically, runFrom_get_bind]
  cases found : Backend.memory.intents.find? id w.store.intents with
  | none =>
    have missing : Intent.findIn w.intents id = none := found
    rw [missing]
    rfl
  | some i =>
    have known : Intent.findIn w.intents id = some i := found
    rw [known]
    dsimp only
    change (change i >>= _).runFrom w = _
    rw [runFrom_bind]
    cases (change i).runFrom w with
    | mk result after => cases result <;> rfl

/-! ### Operations that leave the books alone -/

/-- However the operation ends, it changes nothing of the books. -/
def KeepsBooks (op : Service .memory α) : Prop :=
  ∀ w : World .memory, w.SameBooks (op.runFrom w).2

theorem keepsBooks_bind {op : Service .memory α} {next : α → Service .memory β}
    (first : KeepsBooks op) (rest : ∀ a, KeepsBooks (next a)) : KeepsBooks (op >>= next) := by
  intro w
  have before := first w
  rw [runFrom_bind]
  cases done : op.runFrom w with
  | mk result after =>
    rw [done] at before
    cases result with
    | error failure => exact before
    | ok a => exact before.trans (rest a after)

theorem keepsBooks_check (result : Except Failure α) : KeepsBooks (check result) :=
  fun w => .refl w

theorem keepsBooks_get : KeepsBooks (get : Service .memory (World .memory)) := fun w => .refl w

theorem keepsBooks_pure (a : α) : KeepsBooks (pure a) := fun w => .refl w

theorem keepsBooks_throw (failure : Failure) : KeepsBooks (throw failure : Service .memory α) :=
  fun w => .refl w

theorem keepsBooks_modify {f : World .memory → World .memory}
    (same : ∀ w : World .memory, w.SameBooks (f w)) :
    KeepsBooks (modify f) := fun w => same w

theorem keepsBooks_atomically {op : Service .memory α} (kept : KeepsBooks op) :
    KeepsBooks (atomically op) := by
  intro w
  rw [runFrom_atomically]
  exact kept w

theorem keepsBooks_note (entry : LogEntry) : KeepsBooks (note entry) :=
  fun _ => ⟨rfl, rfl, rfl, rfl, rfl⟩

theorem keepsBooks_tally (t : Tally) : KeepsBooks (tally t) :=
  fun _ => ⟨rfl, rfl, rfl, rfl, rfl⟩

theorem keepsBooks_recordEvent (config : Config) (now : Time) (user : String) (kind : EventKind)
    (description : String) :
    KeepsBooks (recordEvent config now user kind description : Service .memory _) := by
  refine keepsBooks_bind keepsBooks_get fun w => keepsBooks_bind ?_ fun _ =>
    keepsBooks_bind keepsBooks_get fun w' => ?_
  · exact keepsBooks_modify fun w => ⟨rfl, rfl, rfl, rfl, rfl⟩
  · by_cases down : w'.outage.events w.eventWrites = true
    · simp only [down, ↓reduceIte]
      exact keepsBooks_throw _
    · simp only [down]
      refine keepsBooks_bind ?_ fun prior => keepsBooks_bind keepsBooks_get fun w'' =>
        keepsBooks_bind ?_ fun _ => keepsBooks_bind ?_ fun _ =>
        keepsBooks_bind (keepsBooks_tally _) fun _ => keepsBooks_pure _
      · exact keepsBooks_bind keepsBooks_get fun _ => keepsBooks_pure _
      · exact keepsBooks_modify fun w => ⟨rfl, rfl, rfl, rfl, rfl⟩
      · exact keepsBooks_atomically (keepsBooks_bind (keepsBooks_check _) fun row =>
          keepsBooks_modify fun w => ⟨rfl, rfl, rfl, rfl, rfl⟩)

/-- The operation succeeds and changes nothing of the books. -/
def Aside (op : Service .memory Unit) : Prop :=
  ∀ w : World .memory, ∃ after, op.runFrom w = (.ok (), after) ∧ w.SameBooks after

theorem aside_bind {op : Service .memory Unit} {next : Unit → Service .memory Unit}
    (first : Aside op) (rest : Aside (next ())) : Aside (op >>= next) := by
  intro w
  obtain ⟨middle, done, same⟩ := first w
  obtain ⟨after, done', same'⟩ := rest middle
  exact ⟨after, by rw [runFrom_bind_ok done, done'], same.trans same'⟩

theorem aside_note (entry : LogEntry) : Aside (note entry) :=
  fun _ => ⟨_, rfl, ⟨rfl, rfl, rfl, rfl, rfl⟩⟩

theorem aside_tally (t : Tally) : Aside (tally t) :=
  fun _ => ⟨_, rfl, ⟨rfl, rfl, rfl, rfl, rfl⟩⟩

theorem aside_pure : Aside (pure ()) := fun w => ⟨w, rfl, .refl w⟩

/-- An event that follows a change never fails and touches no funds. -/
theorem aside_follow (config : Config) (now : Time) (user : String) (kind : EventKind)
    (description : String) : Aside (follow config now user kind description) := by
  intro w
  have same := keepsBooks_recordEvent config now user kind description w
  have tried := runFrom_attempt w
    (recordEvent config now user kind description : Service .memory _)
  unfold follow
  rw [runFrom_bind_ok tried]
  cases done : (recordEvent config now user kind description : Service .memory _).runFrom w with
  | mk result after =>
    rw [done] at same
    cases result with
    | ok event => exact ⟨after, rfl, same⟩
    | error failure =>
      have lost : Aside (do tally .lostEvent; note (.eventLost user kind)) :=
        aside_bind (aside_tally _) (aside_note _)
      obtain ⟨noted, done, same'⟩ := lost after
      exact ⟨noted, done, same.trans same'⟩

end Service

end Earmark
