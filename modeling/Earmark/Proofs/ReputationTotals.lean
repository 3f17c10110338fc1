import Earmark.Proofs.Conservation
import Earmark.Proofs.Reconciliation
import Earmark.Proofs.Sequels

/-!
Reputation against what happened. Where the logs take their writes and nothing else writes events,
the events of a user count, kind by kind, what the user's intents, payments and escrows came to
(`World.reputation_earned`): a step adds to an event's count what it adds to the count of what the
event stands for.
-/

namespace Earmark

/-- How many events of a kind there are in a user's reputation log. -/
def World.marked (w : World .memory) (user : String) (kind : EventKind) : Nat :=
  w.store.events.countP fun e => e.user == user && e.kind == kind

theorem World.marked_eq_count (w : World .memory) (user : String) (kind : EventKind) :
    w.marked user kind = w.marks.count (user, kind) := by
  rw [marked, marks, List.count_eq_countP, List.countP_map]
  rfl

/-- The reputation log of a user counts what happened. -/
structure World.Earned (w : World .memory) (user : String) : Prop where
  created : w.marked user .intentCreated = w.intents.countP (·.user == user)
  compliant : w.marked user .intentCompliance =
    w.records.countP fun r => r.user == user && (r.approved && !r.bypass)
  blamed : w.marked user .intentViolationAttempt =
    w.records.countP fun r => r.user == user && !r.approved
  overridden : w.marked user .emergencyOverride =
    w.records.countP fun r => r.user == user && r.bypass
  released : w.marked user .escrowReleased =
    ((w.escrows.filter (·.user == user)).map fun e => e.milestones.countP (·.isCompleted)).sum
  misused : w.marked user .escrowClawbackMisuse =
    w.escrows.countP fun e => e.user == user && e.clawback.any (·.reason == .misuse)
  proved : w.marked user .proofSubmitted ≤ w.marked user .intentCompliance
  unsaved : w.marked user .savingsMilestone = 0

/-! ### What a command adds -/

namespace Command

/-- How many intents of a user a command, answered so, makes. -/
def opens (user : String) : Command → Except Failure Reply → Nat
  | .createIntent owner _ _, .ok _ => if owner = user then 1 else 0
  | _, _ => 0

/-- The record that a command, answered so, logs. -/
def logs : Command → Except Failure Reply → List TransactionRecord
  | .pay _, .ok (.payment result) => [result.record]
  | _, _ => []

@[simp] theorem opens_error (user : String) (c : Command) (failure : Failure) :
    c.opens user (.error failure) = 0 := by cases c <;> rfl

@[simp] theorem logs_error (c : Command) (failure : Failure) : c.logs (.error failure) = [] := by
  cases c <;> rfl

variable {c : Command}

theorem opens_of_books (books : c.keepsToBooks = true) (user : String)
    (reply : Except Failure Reply) : c.opens user reply = 0 := by
  cases c <;> first | rfl | cases books

theorem logs_of_books (books : c.keepsToBooks = true) (reply : Except Failure Reply) :
    c.logs reply = [] := by
  cases c <;> first | rfl | cases books

end Command

section

variable {config : Config} {now : Time} {w next : World .memory} {c : Command}
  {reply : Except Failure Reply} {escrows : List Escrow} {marks : List Mark}

/-- A turn adds a new intent to its owner's, and changes no owner. -/
theorem Turn.opens (turn : Turn config now w c reply next) (regular : c.Regular)
    (served : c.locksDirectly = false) (ledgers : Intent.Ledgers w.intents)
    (covers : Wallet.Covers w.wallets w.intents) (user : String) :
    next.intents.countP (·.user == user) =
      w.intents.countP (·.user == user) + c.opens user reply := by
  have replaced {id : String} {i j : Intent} (found : Intent.findIn w.intents id = some i)
      (same : j.user = i.user) : (Intent.replaceIn w.intents id j).countP (·.user == user) =
        w.intents.countP (·.user == user) := by
    rw [Intent.replaceIn, List.countP_map]
    refine List.countP_congr fun old mem => ?_
    by_cases at_ : old.id = id
    · obtain rfl : old = i := Intent.eq_of_id ledgers.unique (Intent.mem_of_findIn found) mem
        (at_.trans (Intent.id_of_findIn found).symm)
      simp [at_, same]
    · simp [at_]
  cases turn with
  | failed => simp
  | aside aside => cases c <;> first | rfl | cases aside
  | openWallet => rfl
  | lockFunds => cases served
  | releaseFunds => cases served
  | createIntent opened =>
    obtain ⟨expiresAt, -, rfl⟩ := Intent.opened_iff.mp opened
    simp [Command.opens, List.countP_append, List.countP_singleton]
  | createUnlocked opened fresh lockable refused =>
    have new := Intent.Sound.of_opened regular opened
    obtain ⟨expiresAt, -, rfl⟩ := Intent.opened_iff.mp opened
    obtain ⟨locked, added, -⟩ := covers.exists_locked ledgers.sound new rfl lockable
    rw [added] at refused
    cases refused
  | addIntent => exact regular.elim
  | useIntent found spent =>
    obtain ⟨d, -, spent⟩ := (ledgers.sound_of_findIn found).spent spent
    exact replaced found spent.later.user
  | violateIntent found => exact replaced found rfl
  | cancelIntent found cancelled =>
    obtain ⟨closed, -⟩ := (ledgers.sound_of_findIn found).closed_of_cancel cancelled
    exact replaced found closed.later.user
  | payNowhere =>
    rw [World.intents_logging]
    rfl
  | pay brought known begun target found judged settled =>
    have amount : Decimal.IsAmount _ := isAmount_of_toAmount brought
    subst begun
    have settled := (ledgers.sound_of_findIn found).settled amount settled
    rw [World.intents_logging]
    exact replaced found settled.changes.precedes.user

/-- Where the log takes its writes, a turn logs what it answers of a payment. -/
theorem Turn.logs (turn : Turn config now w c reply next)
    (writes : ∀ n, w.outage.records n = false) : next.records = w.records ++ c.logs reply := by
  obtain ⟨-, ⟨same, failing⟩ | ⟨request, result, rfl, rfl, -, logged⟩⟩ := turn.records_cases
  · have nothing : c.logs reply = [] := by
      cases c with
      | pay request =>
        obtain ⟨failure, rfl⟩ := failing request rfl
        rfl
      | _ => rfl
    rw [same, nothing, List.append_nil]
  · rw [logged, writes]
    rfl

/-! ### The events of a command -/

/-- A command makes an intent of a user's exactly when it leaves the event of that, and nothing saves
anything. -/
theorem Sequel.count_created (sequel : Sequel config now w c reply escrows marks)
    (rewards : config.rewards = true) (served : c.recordsDirectly = false) (user : String) :
    marks.count (user, .intentCreated) = c.opens user reply ∧
      marks.count (user, .savingsMilestone) = 0 := by
  cases sequel with
  | failed => simp
  | books books => simp [Command.opens_of_books books]
  | createIntent => simp [rewards, Command.opens, List.count_singleton]
  | pay =>
    simp only [Payment.marks, Command.opens]
    split_ifs <;> simp
  | createEscrow => exact ⟨rfl, rfl⟩
  | releaseMilestone => simp [rewards, Command.opens]
  | clawBack =>
    simp only [Command.opens]
    split_ifs <;> simp
  | recordEvent => cases served

/-- The events of a payment are what its record says of it, and a proof is counted only with a
compliant payment. -/
theorem Sequel.count_paid (sequel : Sequel config now w c reply escrows marks)
    (served : c.recordsDirectly = false) (user : String) :
    marks.count (user, .intentCompliance) =
        ((c.logs reply).countP fun r => r.user == user && (r.approved && !r.bypass)) ∧
      marks.count (user, .intentViolationAttempt) =
        ((c.logs reply).countP fun r => r.user == user && !r.approved) ∧
      marks.count (user, .emergencyOverride) =
        ((c.logs reply).countP fun r => r.user == user && r.bypass) ∧
      marks.count (user, .proofSubmitted) ≤ marks.count (user, .intentCompliance) := by
  cases sequel with
  | failed => simp
  | books books => simp [Command.logs_of_books books]
  | createIntent =>
    simp only [Command.logs]
    split_ifs <;> simp
  | @pay request d m p v _ _ _ brought known begun validated =>
    have amount : p.amount.IsAmount := by
      subst begun
      exact isAmount_of_toAmount brought
    have overrides := Verdict.approved_of_bypass amount validated
    simp only [Payment.marks, Command.logs, List.countP_singleton, Payment.record_user,
      Payment.record_approved, Payment.record_bypass]
    by_cases bypass : v.bypass = true
    · simp [bypass, overrides bypass, List.count_singleton]
    · by_cases approved : v.approved = true
      · by_cases proof : p.context.proof = true
        · simp [bypass, approved, proof, List.count_cons]
        · simp [bypass, approved, proof, List.count_singleton]
      · simp [bypass, approved, List.count_singleton]
  | createEscrow => simp [Command.logs]
  | releaseMilestone =>
    simp only [Command.logs]
    split_ifs <;> simp
  | clawBack =>
    simp only [Command.logs]
    split_ifs <;> simp
  | recordEvent => cases served

end

namespace Escrow

variable {escrows : List Escrow} {e next : Escrow} {id : String}

/-- A sum over a user's escrows grows by what the one that is replaced grows by. -/
theorem sum_replaceIn (f : Escrow → Nat) (unique : (escrows.map Escrow.id).Nodup)
    (found : findIn escrows id = some e) (same : next.user = e.user) {n : Nat}
    (grown : f next = f e + n) (user : String) :
    (((replaceIn escrows id next).filter (·.user == user)).map f).sum =
      ((escrows.filter (·.user == user)).map f).sum + if e.user = user then n else 0 := by
  let own (e : Escrow) : Nat := if e.user = user then f e else 0
  have filtered (all : List Escrow) :
      ((all.filter (·.user == user)).map f).sum = (all.map own).sum := by
    simp [own, List.sum_map_ite, beq_eq_decide]
  have exchanged : ((replaceIn escrows id next).map own).sum + own e =
      (escrows.map own).sum + own next := sum_replaced own unique found
  have change : own next = own e + if e.user = user then n else 0 := by
    by_cases at_ : e.user = user
    · simp [own, same, at_, grown]
    · simp [own, same, at_]
  rw [filtered, filtered]
  omega

theorem countP_eq_sum (p : Escrow → Bool) (user : String) (escrows : List Escrow) :
    (escrows.countP fun e => e.user == user && p e) =
      ((escrows.filter (·.user == user)).map fun e => if p e then 1 else 0).sum := by
  induction escrows with
  | nil => rfl
  | cons e rest ih =>
    rw [List.countP_cons, ih]
    by_cases own : e.user = user
    · simp [own, add_comm]
    · simp [own]

/-- A release completes one milestone more. -/
theorem countP_completed_of_releaseIn {milestoneId : String} {now : Time}
    {proof merchantId : Option String} {answer : ReleaseReceipt × String}
    (done : Service.releaseIn milestoneId proof now merchantId e = .ok (answer, next)) :
    next.clawback = e.clawback ∧
      next.milestones.countP (·.isCompleted) = e.milestones.countP (·.isCompleted) + 1 := by
  cases releaseIn_ok done with
  | release unclaimed place wasPending completed =>
    refine ⟨rfl, ?_⟩
    simp only [place, List.countP_append, List.countP_cons, wasPending, completed]
    simp only [Bool.false_eq_true, ↓reduceIte]
    omega

end Escrow

section

variable {config : Config} {now : Time} {w : World .memory} {c : Command}
  {reply : Except Failure Reply} {escrows : List Escrow} {marks : List Mark}

/-- A milestone is completed exactly when the owner of its escrow gets the event of that, and so is
an escrow clawed back for misuse. -/
theorem Sequel.count_escrows (sequel : Sequel config now w c reply escrows marks)
    (rewards : config.rewards = true) (served : c.recordsDirectly = false)
    (vaults : Escrow.Vaults w.escrows) (user : String) :
    ((escrows.filter (·.user == user)).map fun e => e.milestones.countP (·.isCompleted)).sum =
        ((w.escrows.filter (·.user == user)).map fun e =>
          e.milestones.countP (·.isCompleted)).sum + marks.count (user, .escrowReleased) ∧
      (escrows.countP fun e => e.user == user && e.clawback.any (·.reason == .misuse)) =
        (w.escrows.countP fun e => e.user == user && e.clawback.any (·.reason == .misuse)) +
          marks.count (user, .escrowClawbackMisuse) := by
  cases sequel with
  | failed => simp
  | books => simp
  | createIntent => simp [rewards]
  | pay =>
    simp only [Payment.marks]
    split_ifs <;> simp
  | @createEscrow owner title specs intentId e built =>
    obtain ⟨unclaimed, -, -, fresh⟩ := Escrow.milestones_of_build built
    have pending : e.milestones.countP (·.isCompleted) = 0 :=
      List.countP_eq_zero.mpr fun m mem => by simp [(fresh m mem).1]
    by_cases own : e.user = user
    · simp [own, pending, unclaimed, List.countP_append]
    · simp [own, unclaimed, List.countP_append]
  | @releaseMilestone escrowId milestoneId proof merchantId e next receipt owner found released =>
    obtain ⟨-, owned, -⟩ := Escrow.owner_of_releaseIn released
    obtain ⟨clawback, completed⟩ := Escrow.countP_completed_of_releaseIn released
    have counted := Escrow.sum_replaceIn (fun e => e.milestones.countP (·.isCompleted))
      vaults.unique found owned completed user
    have misused := Escrow.sum_replaceIn (n := 0)
      (fun e => if e.clawback.any (·.reason == .misuse) then 1 else 0) vaults.unique found owned
      (by rw [clawback, add_zero]) user
    rw [Escrow.countP_eq_sum, Escrow.countP_eq_sum, counted, misused]
    simp [rewards, List.count_singleton]
  | @clawBack escrowId reason part e next receipt found recovered =>
    obtain ⟨-, owned⟩ := Escrow.owner_of_clawBack recovered
    obtain ⟨unclaimed, given, made⟩ := Escrow.claimed_of_clawBack recovered
    have counted := Escrow.sum_replaceIn (n := 0) (fun e => e.milestones.countP (·.isCompleted))
      vaults.unique found owned (by rw [made, add_zero]) user
    have misused := Escrow.sum_replaceIn (n := if reason = .misuse then 1 else 0)
      (fun e => if e.clawback.any (·.reason == .misuse) then 1 else 0) vaults.unique found owned
      (by simp [made, unclaimed, given]) user
    rw [Escrow.countP_eq_sum, Escrow.countP_eq_sum, counted, misused]
    by_cases misuse : reason = .misuse
    · simp [misuse, rewards, List.count_singleton]
    · simp [misuse]
  | recordEvent => cases served

/-! ### Runs -/

/-- Ledgers, wallets and escrows are sound, and the log of payments takes its writes. -/
structure World.Tidy (w : World .memory) : Prop where
  ledgers : Intent.Ledgers w.intents
  covers : Wallet.Covers w.wallets w.intents
  vaults : Escrow.Vaults w.escrows
  records : ∀ n, w.outage.records n = false

theorem World.Tidy.of_empty (empty : w.store = {}) (records : ∀ n, w.outage.records n = false) :
    w.Tidy := ⟨.of_empty empty, .of_empty empty, .of_empty empty, records⟩

theorem World.Tidy.step (tidy : w.Tidy) (config : Config) (now : Time) (regular : c.Regular)
    (served : c.locksDirectly = false) : (w.step config now c).2.Tidy := by
  obtain ⟨next, turn, same⟩ := Service.step_turn config now w c
  constructor
  case ledgers => exact same.intents ▸ tidy.ledgers.turn regular turn
  case covers =>
    exact same.wallets ▸ same.intents ▸ tidy.covers.turn regular served turn tidy.ledgers
  case vaults => exact tidy.vaults.moves (World.moves_step config w now c)
  case records => exact same.outage ▸ turn.records_cases.1 ▸ tidy.records

/-- What is kept on the way: the events count what happened, where both logs take their writes. -/
structure World.Counted (w : World .memory) : Prop extends w.Tidy where
  events : ∀ n, w.outage.events n = false
  earned : ∀ user, w.Earned user

theorem World.Earned.step {after : World .memory} {user : String} (earned : w.Earned user)
    (counts : ∀ kind, after.marked user kind = w.marked user kind + marks.count (user, kind))
    (escrowed : after.escrows = escrows) (sequel : Sequel config now w c reply escrows marks)
    (rewards : config.rewards = true) (served : c.recordsDirectly = false)
    (vaults : Escrow.Vaults w.escrows)
    (opened : after.intents.countP (·.user == user) =
      w.intents.countP (·.user == user) + c.opens user reply)
    (logged : after.records = w.records ++ c.logs reply) : after.Earned user := by
  obtain ⟨created, unsaved⟩ := sequel.count_created rewards served user
  obtain ⟨compliant, blamed, overridden, proved⟩ := sequel.count_paid served user
  obtain ⟨released, misused⟩ := sequel.count_escrows rewards served vaults user
  constructor
  case created => rw [counts, opened, earned.created, created]
  case compliant => rw [counts, logged, List.countP_append, earned.compliant, compliant]
  case blamed => rw [counts, logged, List.countP_append, earned.blamed, blamed]
  case overridden => rw [counts, logged, List.countP_append, earned.overridden, overridden]
  case released => rw [counts, escrowed, earned.released, released]
  case misused => rw [counts, escrowed, earned.misused, misused]
  case proved =>
    rw [counts, counts]
    exact Nat.add_le_add earned.proved proved
  case unsaved => rw [counts, earned.unsaved, unsaved]

theorem World.Counted.step (counted : w.Counted) (rewards : config.rewards = true)
    (allowed : c.Regular ∧ c.locksDirectly = false ∧ c.recordsDirectly = false) :
    (w.step config now c).2.Counted := by
  obtain ⟨regular, unlocked, served⟩ := allowed
  obtain ⟨next, turn, same⟩ := Service.step_turn config now w c
  obtain ⟨escrows, marks, sequel, proceeds⟩ := Service.step_sequel config now w c
  constructor
  case toTidy => exact counted.toTidy.step config now regular unlocked
  case events =>
    have outage : (w.step config now c).2.outage = w.outage := proceeds.outage
    exact outage ▸ counted.events
  case earned =>
    intro user
    have counts (kind : EventKind) : (w.step config now c).2.marked user kind =
        w.marked user kind + marks.count (user, kind) := by
      rw [World.marked_eq_count, World.marked_eq_count, proceeds.marks counted.events,
        List.count_append]
    refine (counted.earned user).step counts proceeds.escrows sequel rewards served counted.vaults
      ?_ ?_
    · rw [same.intents]
      exact turn.opens regular unlocked counted.ledgers counted.covers user
    · rw [same.records]
      exact turn.logs counted.records

theorem World.Counted.of_empty (empty : w.store = {}) (events : ∀ n, w.outage.events n = false)
    (records : ∀ n, w.outage.records n = false) : w.Counted where
  toTidy := .of_empty empty records
  events := events
  earned user := by
    have none_marked (kind : EventKind) : w.marked user kind = 0 := by
      rw [marked, empty]
      rfl
    constructor <;>
      simp [none_marked, intents_of_empty empty, records_of_empty empty, escrows_of_empty empty]

/-- In every state of every run from an empty store, where both logs take their writes and events are
written for what happens alone, the reputation log of each user counts what happened: the user's
intents, the compliant, rejected and overriding payments in the log, the completed milestones of the
user's escrows and those of them that were clawed back for misuse; no more proofs are counted than
compliant payments, and nothing else. -/
theorem World.reputation_earned {start : World .memory} (empty : start.store = {})
    (rewards : config.rewards = true) (events : ∀ n, start.outage.events n = false)
    (records : ∀ n, start.outage.records n = false) {run : List (Time × Command)}
    (allowed : ∀ entry ∈ run, entry.2.Regular ∧ entry.2.locksDirectly = false ∧
      entry.2.recordsDirectly = false)
    (reached : start.after config run = w) (user : String) : w.Earned user := by
  have counted : (start.after config run).Counted :=
    after_steps (fun _ c => c.Regular ∧ c.locksDirectly = false ∧ c.recordsDirectly = false) Counted
      (fun allowed counted => counted.step rewards allowed) (.of_empty empty events records) allowed
  exact reached ▸ counted.earned user

end

theorem World.reputation_earned_schooling :
    (Sample.start.after Sample.config Sample.schooling).Earned "reader" ∧
      EventKind.all.map ((Sample.start.after Sample.config Sample.schooling).marked "reader") =
        [1, 1, 1, 1, 0, 1, 1, 0] := by
  have allowed : ∀ entry ∈ Sample.schooling, entry.2.Regular ∧ entry.2.locksDirectly = false ∧
      entry.2.recordsDirectly = false := by
    simp [Sample.schooling, Sample.payments, Command.Regular, Command.locksDirectly,
      Command.recordsDirectly, Sample.policy_isBuilt]
  exact ⟨World.reputation_earned rfl rfl (fun _ => rfl) (fun _ => rfl) allowed rfl "reader",
    by decide +kernel⟩

end Earmark
