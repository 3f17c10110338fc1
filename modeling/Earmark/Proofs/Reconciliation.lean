import Earmark.Proofs.Runs
import Earmark.Proofs.Verdicts

/-!
The log of payments against the ledgers. Each figure of an intent's ledger changes with a payment by
what the record of that payment adds to it (`Counts`), so where every write to the log succeeds and
intents are spent by payments alone, the log adds up to the ledgers.
-/

namespace Earmark

namespace TransactionRecord

/-- What a record adds to the amount used of its intent, in cents, to the approvals and to the
violations. -/
def spentCents (r : TransactionRecord) : ℤ := if r.approved && !r.bypass then r.amount.cents else 0
def approvals (r : TransactionRecord) : ℤ := if r.approved && !r.bypass then 1 else 0
def violations (r : TransactionRecord) : ℤ := if !r.approved then 1 else 0

end TransactionRecord

/-- A figure of an intent's ledger, and what the record of a payment adds to it. -/
structure Counts (f : Intent → ℤ) (g : TransactionRecord → ℤ) : Prop where
  opened : ∀ {id user text : String} {policy : Policy} {now : Time} {i : Intent},
    Intent.opened id user text policy now = .ok i → f i = 0
  closed : ∀ {i j : Intent} {rest : Decimal}, i.Closed rest j → f j = f i
  settled : ∀ {p : Payment} {wallets left : List Wallet} {i j : Intent} {v : Verdict} (now : Time)
    (target : Option String), Settled p wallets i v left j →
    (v.bypass = true → v.approved = true) → f j = f i + g (p.record now target v)

theorem counts_used : Counts (·.used.cents) TransactionRecord.spentCents where
  opened opened := by
    obtain ⟨expiresAt, -, rfl⟩ := Intent.opened_iff.mp opened
    rfl
  closed closed := by rw [closed.used]
  settled now target settled overrides := by
    cases settled with
    | bypass bypass =>
      simp [TransactionRecord.spentCents, bypass]
    | approved bypass approved spent =>
      simp [TransactionRecord.spentCents, bypass, approved, spent.used]
    | rejected bypass approved =>
      simp [TransactionRecord.spentCents, approved,
        Intent.recordViolation]
    | lapsed bypass approved closed =>
      simp [TransactionRecord.spentCents, approved,
        closed.used, Intent.recordViolation]

theorem counts_approvals : Counts (·.approvals) TransactionRecord.approvals where
  opened opened := by
    obtain ⟨expiresAt, -, rfl⟩ := Intent.opened_iff.mp opened
    rfl
  closed closed := closed.approvals
  settled now target settled overrides := by
    cases settled with
    | bypass bypass =>
      simp [TransactionRecord.approvals, bypass]
    | approved bypass approved spent =>
      simp [TransactionRecord.approvals, bypass, approved, spent.approvals]
    | rejected bypass approved =>
      simp [TransactionRecord.approvals, approved,
        Intent.recordViolation]
    | lapsed bypass approved closed =>
      simp [TransactionRecord.approvals, approved,
        closed.approvals, Intent.recordViolation]

theorem counts_violations : Counts (·.violations) TransactionRecord.violations where
  opened opened := by
    obtain ⟨expiresAt, -, rfl⟩ := Intent.opened_iff.mp opened
    rfl
  closed closed := closed.violations
  settled now target settled overrides := by
    cases settled with
    | bypass bypass =>
      simp [TransactionRecord.violations, overrides bypass]
    | approved bypass approved spent =>
      simp [TransactionRecord.violations, approved,
        spent.violations]
    | rejected bypass approved =>
      simp [TransactionRecord.violations, approved,
        Intent.recordViolation]
    | lapsed bypass approved closed =>
      simp [TransactionRecord.violations, approved,
        closed.violations, Intent.recordViolation]

namespace World

/-- What the records of an intent add up to. -/
def logged (w : World .memory) (id : String) (g : TransactionRecord → ℤ) : ℤ :=
  (w.records.map fun r => if r.intentId = some id then g r else 0).sum

theorem records_logging (w : World .memory) (record : TransactionRecord) :
    (w.logging record).records =
      if w.outage.records w.recordWrites then w.records else w.records ++ [record] := by
  unfold logging
  split <;> rfl

@[simp] theorem outage_logging (w : World .memory) (record : TransactionRecord) :
    (w.logging record).outage = w.outage := by
  unfold logging
  split <;> rfl

end World

variable {config : Config} {now : Time} {w next : World .memory} {c : Command}
  {reply : Except Failure Reply} {run : List (Time × Command)}

/-- A turn that returns a payment tries to log its record; any other one logs nothing. -/
theorem Turn.records_cases (turn : Turn config now w c reply next) :
    next.outage = w.outage ∧
      ((next.records = w.records ∧
          ∀ request, c = .pay request → ∃ failure, reply = .error failure) ∨
        ∃ request result, c = .pay request ∧ reply = .ok (.payment result) ∧
          result.record.amount.IsAmount ∧
          next.records = if w.outage.records w.recordWrites then w.records
            else w.records ++ [result.record]) := by
  cases turn with
  | failed => exact ⟨rfl, .inl ⟨rfl, fun _ _ => ⟨_, rfl⟩⟩⟩
  | aside aside =>
    refine ⟨rfl, .inl ⟨rfl, ?_⟩⟩
    rintro request rfl
    cases aside
  | openWallet => exact ⟨rfl, .inl ⟨rfl, by simp⟩⟩
  | lockFunds => exact ⟨rfl, .inl ⟨rfl, by simp⟩⟩
  | releaseFunds => exact ⟨rfl, .inl ⟨rfl, by simp⟩⟩
  | createIntent => exact ⟨rfl, .inl ⟨rfl, by simp⟩⟩
  | createUnlocked => exact ⟨rfl, .inl ⟨rfl, by simp⟩⟩
  | addIntent => exact ⟨rfl, .inl ⟨rfl, by simp⟩⟩
  | useIntent => exact ⟨rfl, .inl ⟨rfl, by simp⟩⟩
  | violateIntent => exact ⟨rfl, .inl ⟨rfl, by simp⟩⟩
  | cancelIntent => exact ⟨rfl, .inl ⟨rfl, by simp⟩⟩
  | payNowhere brought known begun =>
    subst begun
    refine ⟨World.outage_logging _ _, .inr ⟨_, _, rfl, rfl, isAmount_of_toAmount brought, ?_⟩⟩
    exact World.records_logging _ _
  | pay brought known begun =>
    subst begun
    refine ⟨World.outage_logging _ _, .inr ⟨_, _, rfl, rfl, isAmount_of_toAmount brought, ?_⟩⟩
    exact World.records_logging _ _

/-- Every amount in the log is in whole cents. -/
theorem Turn.amounts_logged (turn : Turn config now w c reply next)
    (amounts : ∀ r ∈ w.records, r.amount.IsAmount) : ∀ r ∈ next.records, r.amount.IsAmount := by
  intro r mem
  obtain ⟨-, ⟨same, -⟩ | ⟨request, result, -, -, amount, logs⟩⟩ := turn.records_cases
  · exact amounts r (same ▸ mem)
  · rw [logs] at mem
    split at mem
    · exact amounts r mem
    · rcases List.mem_append.mp mem with known | new
      · exact amounts r known
      · exact List.mem_singleton.mp new ▸ amount

/-- Whether a command spends or blames an intent by itself, for no payment. -/
def Command.usesDirectly : Command → Bool
  | .useIntent .. | .violateIntent .. => true
  | _ => false

/-- The log of a world adds up to its ledgers, and no write to it fails. -/
structure World.Reconciled (w : World .memory) : Prop where
  ledgers : Intent.Ledgers w.intents
  writes : ∀ n, w.outage.records n = false
  amounts : ∀ r ∈ w.records, r.amount.IsAmount
  counted : ∀ {f g}, Counts f g → ∀ id, w.logged id g = Intent.sumBy Intent.id w.intents id f

theorem World.logged_logging (w : World .memory) (writes : ∀ n, w.outage.records n = false)
    (record : TransactionRecord) (id : String) (g : TransactionRecord → ℤ) :
    (w.logging record).logged id g =
      w.logged id g + if record.intentId = some id then g record else 0 := by
  simp [logged, records_logging, writes]

/-- What a settled payment adds to a figure of its intent is what its record counts for. -/
theorem Counts.sumBy_settled {f : Intent → ℤ} {g : TransactionRecord → ℤ} (counts : Counts f g)
    {wallets left : List Wallet} {intents : List Intent} {goal : String} {i j : Intent}
    {p : Payment} {v : Verdict} (unique : (intents.map Intent.id).Nodup)
    (found : Intent.findIn intents goal = some i) (settled : Settled p wallets i v left j)
    (overrides : v.bypass = true → v.approved = true) (now : Time) (id : String) :
    Intent.sumBy Intent.id (Intent.replaceIn intents goal j) id f =
      Intent.sumBy Intent.id intents id f +
        if goal = id then g (p.record now (some goal) v) else 0 := by
  have step := counts.settled now (some goal) settled overrides
  rw [Intent.sumBy_replaceIn unique found settled.changes.precedes.id, Intent.id_of_findIn found,
    step, add_sub_cancel_left]

/-- Where every write to the log succeeds, a turn adds the same to a figure of an intent's ledger
and to what the log says of it. -/
theorem Turn.counted (turn : Turn config now w c reply next) (regular : c.Regular)
    (paid : c.usesDirectly = false) (ledgers : Intent.Ledgers w.intents)
    (writes : ∀ n, w.outage.records n = false) {f : Intent → ℤ} {g : TransactionRecord → ℤ}
    (counts : Counts f g) (id : String) :
    next.logged id g - Intent.sumBy Intent.id next.intents id f =
      w.logged id g - Intent.sumBy Intent.id w.intents id f := by
  have opens {number : Nat} {owner text : String} {policy : Policy} {i : Intent}
      (opened : Intent.opened (Ids.intent number) owner text policy now = .ok i) :
      Intent.sumBy Intent.id (w.intents ++ [i]) id f = Intent.sumBy Intent.id w.intents id f := by
    rw [Intent.sumBy_append, counts.opened opened]
    simp
  cases turn with
  | failed => rfl
  | aside => rfl
  | openWallet => rfl
  | lockFunds => rfl
  | releaseFunds => rfl
  | createIntent opened => exact congrArg (w.logged id g - ·) (opens opened)
  | createUnlocked opened => exact congrArg (w.logged id g - ·) (opens opened)
  | addIntent => exact regular.elim
  | useIntent => cases paid
  | violateIntent => cases paid
  | cancelIntent found cancelled =>
    obtain ⟨closed, -⟩ := (ledgers.sound_of_findIn found).closed_of_cancel cancelled
    refine congrArg (w.logged id g - ·) ?_
    rw [World.intents_withIntents, Intent.sumBy_replaceIn ledgers.unique found closed.later.id,
      counts.closed closed, sub_self, ite_self, add_zero]
  | payNowhere =>
    rw [World.logged_logging w writes, World.intents_logging]
    simp
  | @pay request number d m p v goal i j left brought known begun target found judged settled =>
    have amount : p.amount.IsAmount := by
      subst begun
      exact isAmount_of_toAmount brought
    have settled := (ledgers.sound_of_findIn found).settled amount settled
    have step := counts.sumBy_settled ledgers.unique found settled
      (Verdict.approved_of_bypass amount judged) now id
    have logs := World.logged_logging
      ((w.withWallets left).withIntents (Intent.replaceIn w.intents goal j)) writes
      (p.record now (some goal) v) id g
    rw [logs, World.intents_logging, World.intents_withIntents, step, Payment.record_intentId]
    simp only [Option.some.injEq]
    exact add_sub_add_right_eq_sub _ _ _

theorem World.Reconciled.turn (turn : Turn config now w c reply next) (regular : c.Regular)
    (paid : c.usesDirectly = false) (reconciled : w.Reconciled) : next.Reconciled := by
  refine ⟨reconciled.ledgers.turn regular turn, fun n => ?_, turn.amounts_logged reconciled.amounts,
    fun counts id => ?_⟩
  · rw [turn.records_cases.1]
    exact reconciled.writes n
  · have step := turn.counted regular paid reconciled.ledgers reconciled.writes counts id
    have before := reconciled.counted counts id
    omega

theorem World.Reconciled.after
    (allowed : ∀ entry ∈ run, entry.2.Regular ∧ entry.2.usesDirectly = false)
    (reconciled : w.Reconciled) : (w.after config run).Reconciled := by
  refine World.after_keeps (fun c => c.Regular ∧ c.usesDirectly = false) World.Reconciled ?_ ?_
    reconciled allowed
  · rintro w after same ⟨ledgers, writes, amounts, counted⟩
    refine ⟨same.intents ▸ ledgers, same.outage ▸ writes, same.records ▸ amounts, ?_⟩
    intro f g counts id
    rw [World.logged, same.records, same.intents]
    exact counted counts id
  · rintro now w next c reply ⟨regular, paid⟩ turn reconciled
    exact reconciled.turn turn regular paid

/-- The records of the approved payments of an intent, without overrides. -/
def World.spending (w : World .memory) (id : String) : List TransactionRecord :=
  w.records.filter fun r => r.intentId == some id && r.approved && !r.bypass

/-- The records of the rejected payments of an intent. -/
def World.rejections (w : World .memory) (id : String) : List TransactionRecord :=
  w.records.filter fun r => r.intentId == some id && !r.approved

private theorem sum_of_filtered {α : Type} (xs : List α) (q r : α → Bool) (f : α → ℤ) :
    (xs.map fun x => if q x then if r x then f x else 0 else 0).sum =
      ((xs.filter fun x => q x && r x).map f).sum := by
  induction xs with
  | nil => rfl
  | cons x rest ih =>
    cases chosen : q x with
    | false => simpa [chosen] using ih
    | true =>
      cases counted : r x with
      | false => simpa [chosen, counted] using ih
      | true => simpa [chosen, counted] using ih

/-- What the log says of an intent is what its ledger says. -/
structure World.Reconciles (w : World .memory) (i : Intent) : Prop where
  used : i.used.toRat = ((w.spending i.id).map (·.amount.toRat)).sum
  approvals : i.approvals = (w.spending i.id).length
  violations : i.violations = (w.rejections i.id).length

private theorem World.logged_eq_filter (w : World .memory) (id : String)
    (counted : TransactionRecord → Bool) (f : TransactionRecord → ℤ) :
    w.logged id (fun r => if counted r then f r else 0) =
      ((w.records.filter fun r => r.intentId == some id && counted r).map f).sum := by
  rw [← sum_of_filtered]
  simp [logged]

/-- The amounts of the approved payments of an intent add up to what they count for. -/
theorem World.sum_spending (amounts : ∀ r ∈ w.records, r.amount.IsAmount) (id : String) :
    ((w.spending id).map (·.amount.toRat)).sum =
      (w.logged id TransactionRecord.spentCents : ℚ) / 100 := by
  have whole : ∀ d ∈ (w.spending id).map (·.amount), d.IsAmount := by
    intro d known
    obtain ⟨r, logged, rfl⟩ := List.mem_map.mp known
    exact amounts r (List.mem_filter.mp logged).1
  have total : w.logged id TransactionRecord.spentCents =
      ((w.spending id).map (·.amount.cents)).sum := by
    have filtered := w.logged_eq_filter id (fun r => r.approved && !r.bypass) (·.amount.cents)
    simp only [← Bool.and_assoc] at filtered
    exact filtered
  have sum := Decimal.sum_toRat whole
  rw [List.map_map, List.map_map] at sum
  rw [total]
  exact sum

theorem World.Reconciled.reconciles (reconciled : w.Reconciled) {i : Intent} (mem : i ∈ w.intents) :
    w.Reconciles i := by
  have counted {f : Intent → ℤ} {g : TransactionRecord → ℤ} (counts : Counts f g) :
      f i = w.logged i.id g := by
    rw [reconciled.counted counts, Intent.sumBy_id_of_mem reconciled.ledgers.unique mem]
  refine ⟨?_, ?_, ?_⟩
  · rw [(reconciled.ledgers.sound i mem).used.toRat_eq, counted counts_used,
      World.sum_spending reconciled.amounts]
  · have approvals := (counted counts_approvals).trans (World.logged_eq_filter w i.id _ _)
    simpa only [World.spending, Bool.and_assoc, List.map_const', List.sum_replicate, smul_eq_mul,
      mul_one, nsmul_eq_mul] using approvals
  · have violations := (counted counts_violations).trans (World.logged_eq_filter w i.id _ _)
    simpa only [World.rejections, List.map_const', List.sum_replicate, smul_eq_mul, mul_one,
      nsmul_eq_mul] using violations

/-- In every state of every run from an empty store in which payments alone spend and blame intents
and every write to the log succeeds: the ledger of each intent is what the log says of it, and a
payment that returns logs exactly its record, one that fails none. -/
theorem World.log_reconciles {start : World .memory} (empty : start.store = {})
    (writes : ∀ n, start.outage.records n = false)
    (allowed : ∀ entry ∈ run, entry.2.Regular ∧ entry.2.usesDirectly = false)
    (reached : start.after config run = w) :
    (∀ i ∈ w.intents, w.Reconciles i) ∧
      ∀ now request,
        (∃ result, (w.step config now (.pay request)).1 = .ok (.payment result) ∧
          (w.step config now (.pay request)).2.records = w.records ++ [result.record]) ∨
        (∃ failure, (w.step config now (.pay request)).1 = .error failure ∧
          (w.step config now (.pay request)).2.records = w.records) := by
  have begun : start.Reconciled := by
    refine ⟨.of_empty empty, writes, ?_, fun counts id => ?_⟩
    · rw [records_of_empty empty]
      simp
    · rw [logged, records_of_empty empty, intents_of_empty empty]
      rfl
  have reconciled : w.Reconciled := reached ▸ begun.after allowed
  refine ⟨fun i mem => reconciled.reconciles mem, fun now request => ?_⟩
  obtain ⟨next, turn, same⟩ := Service.step_turn config now w (.pay request)
  rw [same.records]
  obtain ⟨-, ⟨kept, fails⟩ | ⟨_, result, -, done, -, logs⟩⟩ := turn.records_cases
  · obtain ⟨failure, failed⟩ := fails request rfl
    exact .inr ⟨failure, failed, kept⟩
  · rw [reconciled.writes] at logs
    exact .inl ⟨result, done, logs⟩

theorem World.log_reconciles_cancelled :
    ∃ i ∈ (Sample.start.after Sample.config Sample.cancelled).intents,
      (Sample.start.after Sample.config Sample.cancelled).Reconciles i ∧
      i.used = .ofCents 2550 ∧ i.approvals = 1 ∧ i.violations = 1 := by
  have ledger : ∃ i ∈ (Sample.start.after Sample.config Sample.cancelled).intents,
      i.used = .ofCents 2550 ∧ i.approvals = 1 ∧ i.violations = 1 := by decide +kernel
  have allowed : ∀ entry ∈ Sample.cancelled, entry.2.Regular ∧ entry.2.usesDirectly = false := by
    simp [Sample.cancelled, Sample.payments, Command.Regular, Command.usesDirectly,
      Sample.policy_isBuilt]
  obtain ⟨i, mem, figures⟩ := ledger
  exact ⟨i, mem, (World.log_reconciles rfl (fun _ => rfl) allowed rfl).1 i mem, figures⟩

end Earmark
