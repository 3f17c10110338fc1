import Earmark.Proofs.Conservation
import Earmark.Proofs.Milestones

/-!
All or nothing. An operation that fails leaves the store as it was: what can fail comes before what
writes (`Atomic`), and what follows a write never fails (`Sure`). In every state that calls can
bring about a call that fails has changed nothing, and an intent that is made is one more intent
and its limit locked (`World.calls_atomic`).
-/

namespace Earmark

namespace Service

variable {α β : Type}

/-- What is seen of a world stays as it is, however the operation ends. -/
def Keeps {γ : Type} (seen : World .memory → γ) (op : Service .memory α) : Prop :=
  ∀ w : World .memory, seen (op.runFrom w).2 = seen w

/-- From a world, the operation changes the store only if it succeeds. -/
def AtomicFrom (w : World .memory) (op : Service .memory α) : Prop :=
  ∀ (failure : Failure) (after : World .memory),
    op.runFrom w = (.error failure, after) → after.store = w.store

/-- The operation changes the store only if it succeeds. -/
def Atomic (op : Service .memory α) : Prop := ∀ w : World .memory, AtomicFrom w op

/-- The operation never fails. -/
def Sure (op : Service .memory α) : Prop :=
  ∀ w : World .memory, ∃ a after, op.runFrom w = (.ok a, after)

/-! ### Keeping what is seen -/

section

variable {γ : Type} {seen : World .memory → γ}

theorem keeps_bind {op : Service .memory α} {next : α → Service .memory β} (first : Keeps seen op)
    (rest : ∀ a, Keeps seen (next a)) : Keeps seen (op >>= next) := by
  intro w
  have before := first w
  rw [runFrom_bind]
  cases done : op.runFrom w with
  | mk result after =>
    rw [done] at before
    cases result with
    | error failure => exact before
    | ok a => exact (rest a after).trans before

theorem keeps_pure (a : α) : Keeps seen (pure a) := fun _ => rfl

theorem keeps_throw (failure : Failure) : Keeps seen (throw failure : Service .memory α) :=
  fun _ => rfl

theorem keeps_check (result : Except Failure α) : Keeps seen (check result) := fun _ => rfl

theorem keeps_get : Keeps seen (get : Service .memory (World .memory)) := fun _ => rfl

theorem keeps_modify {f : World .memory → World .memory} (same : ∀ w, seen (f w) = seen w) :
    Keeps seen (modify f) := same

end

theorem reads_beginPayment (config : Config) (r : PaymentRequest) :
    Keeps World.store (beginPayment config r : Service .memory _) :=
  keeps_bind keeps_get fun _ => keeps_bind (keeps_modify fun _ => rfl) fun _ =>
    keeps_bind (keeps_check _) fun _ => keeps_bind (keeps_check _) fun _ => keeps_pure _

theorem reads_resolvePayment (config : Config) (p : Payment) :
    Keeps World.store (resolvePayment config p : Service .memory _) := by
  intro w
  rw [runFrom_resolvePayment]

/-! ### Succeeding -/

theorem sure_pure (a : α) : Sure (pure a) := fun w => ⟨a, w, rfl⟩

theorem sure_modify (f : World .memory → World .memory) : Sure (modify f) := fun w => ⟨(), f w, rfl⟩

theorem sure_check_ok (a : α) : Sure (check (.ok a)) := fun w => ⟨a, w, rfl⟩

theorem sure_bind {op : Service .memory α} {next : α → Service .memory β} (first : Sure op)
    (rest : ∀ a, Sure (next a)) : Sure (op >>= next) := by
  intro w
  obtain ⟨a, middle, done⟩ := first w
  obtain ⟨b, after, done'⟩ := rest a middle
  exact ⟨b, after, by rw [runFrom_bind_ok done, done']⟩

theorem sure_of_aside {op : Service .memory Unit} (aside : Aside op) : Sure op := by
  intro w
  obtain ⟨after, done, -⟩ := aside w
  exact ⟨(), after, done⟩

theorem sure_logPayment (record : TransactionRecord) : Sure (logPayment record) := by
  intro w
  obtain ⟨after, done, -⟩ := runFrom_logPayment record w
  exact ⟨(), after, done⟩

/-! ### All or nothing -/

theorem atomic_of_reads {op : Service .memory α} (reads : Keeps World.store op) : Atomic op := by
  intro w failure after failed
  have same := reads w
  rwa [failed] at same

theorem atomic_of_sure {op : Service .memory α} (sure : Sure op) : Atomic op := by
  intro w failure after failed
  obtain ⟨a, after', done⟩ := sure w
  rw [done] at failed
  cases failed

/-- What can fail may follow what only reads. -/
theorem atomic_bind {op : Service .memory α} {next : α → Service .memory β}
    (first : Keeps World.store op) (rest : ∀ a, Atomic (next a)) : Atomic (op >>= next) := by
  intro w failure after failed
  have same := first w
  cases done : op.runFrom w with
  | mk result middle =>
    rw [done] at same
    cases result with
    | error failure' =>
      rw [runFrom_bind_error done] at failed
      cases failed
      exact same
    | ok a =>
      rw [runFrom_bind_ok done] at failed
      exact (rest a middle failure after failed).trans same

theorem atomic_check_bind {result : Except Failure α} {next : α → Service .memory β}
    (rest : ∀ a, result = .ok a → Atomic (next a)) : Atomic (check result >>= next) := by
  cases result with
  | error failure => exact atomic_of_reads fun _ => rfl
  | ok a => exact rest a rfl

/-- What never fails may follow anything. -/
theorem AtomicFrom.bind_sure {w : World .memory} {op : Service .memory α}
    {next : α → Service .memory β} (first : AtomicFrom w op) (rest : ∀ a, Sure (next a)) :
    AtomicFrom w (op >>= next) := by
  intro failure after failed
  cases done : op.runFrom w with
  | mk result middle =>
    cases result with
    | error failure' =>
      rw [runFrom_bind_error done] at failed
      cases failed
      exact first _ _ done
    | ok a =>
      obtain ⟨b, after', done'⟩ := rest a middle
      rw [runFrom_bind_ok done, done'] at failed
      cases failed

theorem atomic_bind_sure {op : Service .memory α} {next : α → Service .memory β}
    (first : Atomic op) (rest : ∀ a, Sure (next a)) : Atomic (op >>= next) :=
  fun w => AtomicFrom.bind_sure (first w) rest

theorem atomic_atomically {op : Service .memory α} (atomic : Atomic op) :
    Atomic (atomically op) := by
  intro w failure after failed
  rw [runFrom_atomically] at failed
  exact atomic w _ _ failed

theorem atomic_openWallet (user : String) (balance : Numeral) :
    Atomic (openWallet user balance : Service .memory Unit) := by
  refine atomic_atomically (atomic_bind keeps_get fun w => ?_)
  split
  · exact atomic_of_reads (keeps_throw _)
  · exact atomic_bind (keeps_check _) fun d => atomic_of_sure (sure_modify _)

theorem atomic_releaseRest (i : Intent) (rest : Decimal) : Atomic (releaseRest i rest) := by
  intro w failure after failed
  rw [runFrom_releaseRest] at failed
  split at failed
  · cases failed
  · cases failed
    rfl

/-- A change of an intent that is all or nothing is so in the store. -/
theorem atomic_updateIntent (id : String) {change : Intent → Service .memory (α × Intent)}
    (atomic : ∀ i, Atomic (change i)) : Atomic (updateIntent id change) := by
  intro w failure after failed
  rw [runFrom_updateIntent] at failed
  split at failed
  · cases failed
    rfl
  · rename_i i found
    cases done : (change i).runFrom w with
    | mk result middle =>
      rw [done] at failed
      cases result with
      | ok changed => cases failed
      | error failure' =>
        cases failed
        exact atomic i w _ _ done

theorem atomic_useIntent (id : String) (amount : Numeral) :
    Atomic (useIntent id amount : Service .memory Intent) :=
  atomic_updateIntent id fun _ => atomic_bind (keeps_check _) fun _ => atomic_of_sure (sure_pure _)

theorem atomic_violateIntent (id : String) :
    Atomic (violateIntent id : Service .memory Intent) :=
  atomic_updateIntent id fun _ => atomic_of_sure (sure_pure _)

theorem atomic_cancelIntent (id : String) :
    Atomic (cancelIntent id : Service .memory Decimal) := by
  refine atomic_bind_sure (atomic_updateIntent id fun i => ?_) fun released =>
    sure_bind (sure_of_aside (aside_note _)) fun _ => sure_pure _
  exact atomic_bind (keeps_check _) fun _ =>
    atomic_bind_sure (atomic_releaseRest _ _) fun _ => sure_pure _

theorem atomic_settlePayment (config : Config) (p : Payment) (i : Intent) :
    Atomic (settlePayment config p i) := by
  refine atomic_bind (keeps_check _) fun v => ?_
  split
  · exact atomic_of_sure (sure_pure _)
  · split
    · exact atomic_bind (keeps_check _) fun _ => atomic_of_sure (sure_pure _)
    · exact atomic_bind (keeps_check _) fun _ =>
        atomic_bind_sure (atomic_releaseRest _ _) fun _ => sure_pure _

theorem atomic_commitPayment (config : Config) (p : Payment) (intentId : Option String) :
    Atomic (commitPayment config p intentId) := by
  cases intentId with
  | none => exact atomic_bind (keeps_check _) fun _ => atomic_of_sure (sure_pure _)
  | some id =>
    exact atomic_bind_sure (atomic_updateIntent id (atomic_settlePayment config p)) fun _ =>
      sure_pure _

theorem atomic_pay (config : Config) (now : Time) (r : PaymentRequest) :
    Atomic (pay config now r) := by
  refine atomic_bind (reads_beginPayment config r) fun p =>
    atomic_bind (reads_resolvePayment config p) fun intentId =>
    atomic_bind_sure (atomic_commitPayment config p intentId) fun (verdict, intent) => ?_
  exact sure_bind (sure_logPayment _) fun _ =>
    sure_bind (sure_of_aside (aside_countPayment p intentId verdict)) fun _ =>
    sure_bind (sure_of_aside (aside_rewardPayment config now p verdict)) fun _ => sure_pure _

theorem atomic_recordEvent (config : Config) (now : Time) (user : String) (kind : EventKind)
    (description : String) :
    Atomic (recordEvent config now user kind description : Service .memory _) := by
  refine atomic_bind keeps_get fun w => atomic_bind (keeps_modify fun _ => rfl) fun _ =>
    atomic_bind keeps_get fun w' => ?_
  split
  · exact atomic_of_reads (keeps_throw _)
  · refine atomic_bind (keeps_bind keeps_get fun _ => keeps_pure _) fun prior =>
      atomic_bind keeps_get fun w'' => atomic_bind (keeps_modify fun _ => rfl) fun _ =>
      atomic_bind_sure (atomic_atomically (atomic_bind (keeps_check _) fun _ =>
        atomic_of_sure (sure_modify _))) fun _ =>
      sure_bind (sure_of_aside (aside_tally _)) fun _ => sure_pure _

/-! ### Escrows -/

theorem atomic_addEscrow (e : Escrow) : Atomic (addEscrow e : Service .memory Unit) := by
  refine atomic_atomically (atomic_bind keeps_get fun w => ?_)
  split
  · exact atomic_of_reads (keeps_throw _)
  · exact atomic_bind (keeps_check _) fun row => atomic_of_sure (sure_modify _)

theorem atomic_updateEscrow (id : String) (change : Escrow → Except Failure (α × Escrow)) :
    Atomic (updateEscrow id change : Service .memory α) := by
  refine atomic_atomically (atomic_bind keeps_get fun w => ?_)
  cases Backend.memory.escrows.find? id w.store.escrows with
  | none => exact atomic_of_reads (keeps_throw _)
  | some row =>
    exact atomic_bind (keeps_check _) fun _ => atomic_bind (keeps_check _) fun _ =>
      atomic_of_sure (sure_bind (sure_modify _) fun _ => sure_pure _)

/-- A built escrow has a total, so nothing fails after it is stored. -/
theorem atomic_createEscrow (config : Config) (now : Time) (user : String)
    (specs : List MilestoneSpec) (title : String) (intentId : Option String) :
    Atomic (createEscrow config now user specs title intentId : Service .memory Escrow) := by
  refine atomic_bind keeps_get fun w => atomic_bind (keeps_modify fun _ => rfl) fun _ =>
    atomic_check_bind fun escrow built => ?_
  obtain ⟨total, summed⟩ := Escrow.exists_total_of_build built
  refine atomic_bind_sure (atomic_addEscrow escrow) fun _ => ?_
  rw [summed]
  exact sure_bind (sure_check_ok total) fun _ => sure_bind (sure_of_aside (aside_note _)) fun _ =>
    sure_pure _

theorem sure_ite {condition : Prop} [Decidable condition] {op other : Service .memory α}
    (first : Sure op) (second : Sure other) : Sure (if condition then op else other) := by
  split
  · exact first
  · exact second

theorem atomic_releaseMilestone (config : Config) (now : Time) (escrowId milestoneId : String)
    (proof merchantId : Option String) :
    Atomic (releaseMilestone config now escrowId milestoneId proof merchantId :
      Service .memory _) := by
  refine atomic_bind_sure (atomic_updateEscrow _ _) fun _ =>
    sure_bind (sure_of_aside (aside_tally _)) fun _ =>
    sure_bind (sure_of_aside (aside_note _)) fun _ => ?_
  exact sure_ite (sure_bind (sure_of_aside (aside_follow _ _ _ _ _)) fun _ => sure_pure _)
    (sure_pure _)

theorem atomic_clawBack (config : Config) (now : Time) (escrowId : String)
    (reason : ClawbackReason) (part : Option Numeral) :
    Atomic (clawBack config now escrowId reason part : Service .memory _) := by
  refine atomic_bind_sure (atomic_updateEscrow _ _) fun _ =>
    sure_bind (sure_of_aside (aside_tally _)) fun _ =>
    sure_bind (sure_of_aside (aside_note _)) fun _ => ?_
  exact sure_ite (sure_bind (sure_of_aside (aside_follow _ _ _ _ _)) fun _ => sure_pure _)
    (sure_pure _)

/-! ### Making an intent -/

/-- Making an intent is all or nothing where what can be locked adds up with what is locked. -/
theorem atomicFrom_createIntent (config : Config) (now : Time) {w : World .memory}
    (user text : String) {policy : Policy} (adds : ∀ wallet d,
      Wallet.lockable w.wallets user (.decimal policy.limit) = .ok (wallet, d) →
        ∃ locked, wallet.locked.add d = .ok locked) :
    AtomicFrom w (createIntent config now user text policy) := by
  intro failure after failed
  rw [createIntent] at failed
  let numbered : World .memory := { w with ids := { w.ids with intents := w.ids.intents + 1 } }
  have began : (openIntent user text policy now).runFrom w =
      (Intent.opened (Ids.intent (w.ids.intents + 1)) user text policy now, numbered) := rfl
  cases opened : Intent.opened (Ids.intent (w.ids.intents + 1)) user text policy now with
  | error failure' =>
    rw [opened] at began
    rw [runFrom_bind_error began] at failed
    exact congrArg (fun ran => ran.2.store) failed.symm
  | ok i =>
    rw [opened] at began
    rw [runFrom_bind_ok began] at failed
    have tried := runFrom_attempt numbered
      (lockFunds user (.decimal policy.limit) (addIntent i) : Service .memory Unit)
    rcases runFrom_lockAdded numbered user (.decimal policy.limit) i with ⟨failure', refused⟩ |
      ⟨wallet, d, lockable, fresh, ⟨fault, short, refused⟩ | ⟨locked, added, done⟩⟩
    · rw [refused] at tried
      rw [runFrom_bind_ok tried] at failed
      cases failed
      rfl
    · obtain ⟨locked, added⟩ := adds wallet d lockable
      rw [added] at short
      cases short
    · rw [done] at tried
      rw [runFrom_bind_ok tried] at failed
      obtain ⟨after', -, closing⟩ := runFrom_created config now user text policy i
        ((numbered.withIntents (numbered.intents ++ [i])).withWallets
          (Wallet.relock numbered.wallets user locked))
      dsimp only at failed
      rw [closing] at failed
      cases failed

end Service

/-- What can be locked of a wallet adds up, to the cent, with what is locked of it. -/
theorem Wallet.Covers.exists_add {wallets : List Wallet} {intents : List Intent} {user : String}
    {amount : Numeral} {wallet : Wallet} {d : Decimal} (covers : Covers wallets intents)
    (sound : ∀ i ∈ intents, i.Sound)
    (lockable : Wallet.lockable wallets user amount = .ok (wallet, d)) :
    findIn wallets user = some wallet ∧ amount.toAmount = .ok d ∧
      ∃ locked, wallet.locked.add d = .ok locked ∧
        locked.toRat = wallet.locked.toRat + d.toRat := by
  obtain ⟨found, brought, within⟩ := lockable_ok covers.amounts
    (fun wallet mem => ⟨covers.nonneg sound mem, covers.covered wallet mem⟩) lockable
  have mem := mem_of_findIn found
  obtain ⟨balance, locked⟩ := covers.amounts wallet mem
  have amount := isAmount_of_toAmount brought
  have nonneg := covers.nonneg sound mem
  have high := balance.natAbs_lt
  have low := amount.natAbs_lt
  obtain ⟨sum, added, whole, value⟩ := locked.exists_add amount (by omega)
  refine ⟨found, brought, sum, added, ?_⟩
  rw [whole.toRat_eq, locked.toRat_eq, amount.toRat_eq, value, Int.cast_add, add_div]

namespace World

/-- A world that calls bring about: each under some configuration, at some time, with some writes
failing and whatever ids were given before. -/
inductive Reachable : World .memory → Prop
  | start {w : World .memory} (empty : w.store = { scores := w.store.scores }) : Reachable w
  | call {w : World .memory} (reachable : Reachable w) (config : Config) (now : Time) {c : Command}
      (regular : c.Regular) (served : c.locksDirectly = false) : Reachable (w.step config now c).2
  | aside {w after : World .memory} (reachable : Reachable w) (same : after.store = w.store) :
      Reachable after

theorem Reachable.invariant {w : World .memory} (reachable : w.Reachable) :
    Intent.Ledgers w.intents ∧ Wallet.Covers w.wallets w.intents := by
  induction reachable with
  | @start w empty =>
    have wallets : w.wallets = [] := by rw [World.wallets, empty]
    have intents : w.intents = [] := by
      rw [World.intents, empty]
      rfl
    rw [wallets, intents]
    exact ⟨⟨by simp, by simp⟩, Wallet.covers_nil⟩
  | @call w _ config now c regular served kept =>
    obtain ⟨ledgers, covers⟩ := kept
    obtain ⟨next, turn, same⟩ := Service.step_turn config now w c
    rw [same.intents, same.wallets]
    exact ⟨ledgers.turn regular turn, covers.turn regular served turn ledgers⟩
  | @aside w after _ same kept =>
    simpa only [World.intents, World.wallets, same] using kept

/-- One intent is made for a user: it is the only new one, its id is new, and of the wallets the
user's alone has changed, by the limit that is now locked. -/
structure Makes (w next : World .memory) (user : String) (policy : Policy) (i : Intent) :
    Prop where
  intents : next.intents = w.intents ++ [i]
  fresh : i.id ∉ w.intents.map Intent.id
  user_eq : i.user = user
  policy_eq : i.policy = policy
  users : (w.wallets.map Wallet.user).Nodup
  locked : ∃ wallet ∈ w.wallets, wallet.user = user ∧ ∃ locked,
    next.wallets = Wallet.relock w.wallets user locked ∧
      locked.toRat = wallet.locked.toRat + policy.limit.toRat

section

variable {w : World .memory} {config : Config} {now : Time} {c : Command}

theorem Reachable.atomicFrom (reachable : w.Reachable) (regular : c.Regular)
    (served : c.locksDirectly = false) :
    Service.AtomicFrom w (c.run config now : Service .memory Reply) := by
  have replying {α : Type} {op : Service .memory α} (f : α → Reply)
      (atomic : Service.AtomicFrom w op) :
      Service.AtomicFrom w (op >>= fun a => pure (f a)) :=
    atomic.bind_sure fun a => Service.sure_pure (f a)
  cases c with
  | openWallet user balance => exact replying _ (Service.atomic_openWallet user balance w)
  | lockFunds => cases served
  | releaseFunds => cases served
  | createIntent user text policy =>
    obtain ⟨ledgers, covers⟩ := reachable.invariant
    refine replying _
      (Service.atomicFrom_createIntent config now user text fun wallet d lockable => ?_)
    obtain ⟨-, -, locked, added, -⟩ := covers.exists_add ledgers.sound lockable
    exact ⟨locked, added⟩
  | addIntent => exact regular.elim
  | useIntent id amount => exact replying _ (Service.atomic_useIntent id amount w)
  | violateIntent id => exact replying _ (Service.atomic_violateIntent id w)
  | cancelIntent id => exact replying _ (Service.atomic_cancelIntent id w)
  | pay request => exact replying _ (Service.atomic_pay config now request w)
  | createEscrow user specs title intentId =>
    exact replying _ (Service.atomic_createEscrow config now user specs title intentId w)
  | releaseMilestone escrowId milestoneId proof merchantId =>
    exact replying _
      (Service.atomic_releaseMilestone config now escrowId milestoneId proof merchantId w)
  | clawBack escrowId reason part =>
    exact replying _ (Service.atomic_clawBack config now escrowId reason part w)
  | recordEvent user kind description =>
    exact replying _ (Service.atomic_recordEvent config now user kind description w)

theorem Reachable.makes (reachable : w.Reachable) {user text : String} {policy : Policy}
    {reply : Reply} {next : World .memory} (built : policy.IsBuilt)
    (done : w.step config now (.createIntent user text policy) = (.ok reply, next)) :
    ∃ i, reply = .intent i ∧ w.Makes next user policy i := by
  obtain ⟨ledgers, covers⟩ := reachable.invariant
  obtain ⟨turned, turn, same⟩ := Service.step_turn config now w (.createIntent user text policy)
  rw [done] at turn same
  cases turn with
  | aside aside => cases aside
  | @createIntent _ _ _ i wallet d locked number opened fresh lockable added =>
    obtain ⟨found, brought, sum, added', value⟩ := covers.exists_add ledgers.sound lockable
    obtain rfl : sum = locked := by simpa [added] using added'.symm
    obtain rfl : policy.limit = d := by
      simpa [Numeral.toAmount_decimal built.limit.1] using brought
    obtain ⟨expiresAt, -, rfl⟩ := Intent.opened_iff.mp opened
    refine ⟨_, rfl, ?_⟩
    constructor
    case intents => exact same.intents
    case fresh => exact Intent.findIn_eq_none_iff.mp fresh
    case user_eq => rfl
    case policy_eq => rfl
    case users => exact covers.unique
    case locked =>
      exact ⟨wallet, Wallet.mem_of_findIn found, Wallet.user_of_findIn found, sum, same.wallets,
        value⟩

/-- In every state that calls bring about, a call that fails leaves wallets, intents, escrows and
both logs exactly as they were, and a call that makes an intent makes one and locks its limit. -/
theorem calls_atomic (reachable : w.Reachable) (regular : c.Regular)
    (served : c.locksDirectly = false) :
    (∀ failure next, w.step config now c = (.error failure, next) → next.store = w.store) ∧
      ∀ user text policy, c = .createIntent user text policy →
        ∀ reply next, w.step config now c = (.ok reply, next) →
          ∃ i, reply = .intent i ∧ w.Makes next user policy i := by
  refine ⟨reachable.atomicFrom regular served, ?_⟩
  rintro user text policy rfl reply next done
  exact reachable.makes regular done

end

/-- Of a wallet of a hundred sixty are locked for an intent, and not for a second one. -/
theorem calls_atomic_second_intent :
    let create : Command := .createIntent "reader" "books" Sample.policy
    let opened := (Sample.start.step Sample.config Sample.today
      (.openWallet "reader" (.whole 100))).2
    let first := opened.step Sample.config Sample.today create
    let second := first.2.step Sample.config Sample.today create
    (∃ i, first.1 = .ok (.intent i) ∧ opened.Makes first.2 "reader" Sample.policy i) ∧
      ∃ failure, second.1 = .error failure ∧ second.2.store = first.2.store := by
  intro create opened first second
  have regular : create.Regular := Sample.policy_isBuilt
  have reachable : opened.Reachable :=
    (Reachable.start rfl).call Sample.config Sample.today trivial rfl
  have reachable' : first.2.Reachable := reachable.call Sample.config Sample.today regular rfl
  have accepted : first.1.isOk = true := by decide +kernel
  have refused : second.1.isOk = false := by decide +kernel
  constructor
  · cases done : first.1 with
    | error failure => simp [done, Except.isOk, Except.toBool] at accepted
    | ok reply =>
      obtain ⟨i, rfl, makes⟩ := (calls_atomic reachable regular rfl).2 _ _ _ rfl reply first.2
        (Prod.ext done rfl)
      exact ⟨i, rfl, makes⟩
  · cases done : second.1 with
    | error failure =>
      exact ⟨failure, rfl, (calls_atomic reachable' regular rfl).1 failure second.2
        (Prod.ext done rfl)⟩
    | ok reply => simp [done, Except.isOk, Except.toBool] at refused

end World

end Earmark
