import Earmark.Proofs.Reconciliation
import Earmark.Proofs.Selection

/-!
Enforcement of policies. Every approval in the log that no override made stands for a payment that
the policy of its intent allowed when it was requested, and all of them together stay within the
limit of the intent. Terms, owner and window of an intent never change.
-/

namespace Earmark

/-! ### Directories -/

private theorem Directory.mem_of_insert {merchants : List Merchant} {new m : Merchant}
    (mem : m ∈ insert merchants new) : m ∈ merchants ∨ m = new := by
  unfold insert at mem
  split at mem
  · obtain ⟨old, known, rfl⟩ := List.mem_map.mp mem
    split
    · exact .inr rfl
    · exact .inl known
  · simpa using mem

private theorem Directory.mem_of_foldl {merchants before : List Merchant} {m : Merchant}
    (mem : m ∈ merchants.foldl insert before) : m ∈ before ∨ m ∈ merchants := by
  induction merchants generalizing before with
  | nil => exact .inl mem
  | cons first rest ih =>
    rcases ih mem with known | known
    · rcases mem_of_insert known with known | rfl
      · exact .inl known
      · exact .inr (by simp)
    · exact .inr (by simp [known])

/-- A merchant that a directory finds is one of those it was made of. -/
theorem Directory.mem_of_ofList {merchants : List Merchant} {id : String} {m : Merchant}
    (found : Directory.ofList merchants id = .ok m) : m ∈ merchants := by
  simp only [ofList, lookUp, bind_ok_iff] at found
  obtain ⟨known, listed, found⟩ := found
  unfold entries at listed
  split at listed
  · cases listed
    simp only [isKey, ↓reduceIte, Failure.require_ok_iff] at found
    rcases mem_of_foldl (List.mem_of_find?_eq_some found) with known | known
    · simp at known
    · exact known
  · cases listed

/-! ### Approvals -/

/-- A record stands for a requested payment that its intent allowed. -/
structure TransactionRecord.Enforced (record : TransactionRecord) (request : PaymentRequest)
    (i : Intent) (m : Merchant) : Prop where
  user : record.user = request.user
  intent : record.intentId = some i.id
  owner : i.user = record.user
  positive : 0 < record.amount.toRat
  merchant : record.merchantId = m.id
  admits : i.policy.Admits m
  /-- The time of the request compares with both ends of the window. -/
  compares : i.createdAt.offset.isSome = request.requestedAt.offset.isSome ∧
    request.requestedAt.offset.isSome = i.expiresAt.offset.isSome
  begun : i.createdAt.instant ≤ request.requestedAt.instant
  unexpired : request.requestedAt.instant ≤ i.expiresAt.instant
  proof : i.policy.proofRequired = true → request.proof = true

/-- It still does so of a later state of the intent. -/
theorem TransactionRecord.Enforced.later {record : TransactionRecord} {request : PaymentRequest}
    {i j : Intent} {m : Merchant} (enforced : record.Enforced request i m) (later : i.Precedes j) :
    record.Enforced request j m where
  user := enforced.user
  intent := enforced.intent.trans (congrArg some later.id.symm)
  owner := later.user.trans enforced.owner
  positive := enforced.positive
  merchant := enforced.merchant
  admits := later.policy ▸ enforced.admits
  compares := later.createdAt ▸ later.expiresAt ▸ enforced.compares
  begun := later.createdAt ▸ enforced.begun
  unexpired := later.expiresAt ▸ enforced.unexpired
  proof := later.policy ▸ enforced.proof

variable {config : Config} {now : Time} {w next : World .memory} {c : Command}
  {reply : Except Failure Reply} {run : List (Time × Command)}

/-- An approval that a turn logs, and no override made, is enforced. -/
theorem Turn.enforced (turn : Turn config now w c reply next) (ledgers : Intent.Ledgers w.intents)
    {record : TransactionRecord} (logged : next.records = w.records ++ [record])
    (approved : record.approved = true) (bypass : record.bypass = false) :
    ∃ request result i m, c = .pay request ∧ reply = .ok (.payment result) ∧
      result.record = record ∧ i ∈ w.intents ∧ config.directory request.merchant = .ok m ∧
      record.Enforced request i m := by
  obtain ⟨-, ⟨same, -⟩ | ⟨request, result, rfl, rfl, amount, logs⟩⟩ := turn.records_cases
  · simp [same] at logged
  have made : record = result.record := by
    rw [logs] at logged
    split at logged
    · simp at logged
    · simpa using logged.symm
  subst made
  cases turn with
  | aside aside => cases aside
  | payNowhere brought known begun target judged =>
    have overridden := Verdict.bypass_of_approved_without amount judged approved
    rw [Payment.record_bypass, overridden] at bypass
    cases bypass
  | @pay _ _ d m p v id i j left brought known begun target found judged settled =>
    have mem := Intent.mem_of_findIn found
    have at_ := Intent.id_of_findIn found
    have allows := Intent.Allows.of_validate (ledgers.sound i mem) amount judged bypass approved
    obtain ⟨owner, ownerMem, sameId, own, -⟩ := Payment.exists_of_target target
    obtain rfl : owner = i := by
      have looked := Intent.findIn_of_mem ledgers.unique ownerMem
      rw [sameId, found] at looked
      simpa using looked.symm
    subst begun
    obtain ⟨before, begun⟩ := Time.after_eq_false_iff.mp allows.begun
    obtain ⟨behind, unexpired⟩ := Time.after_eq_false_iff.mp allows.unexpired
    refine ⟨request, _, owner, m, rfl, rfl, rfl, mem, known, ⟨rfl, ?_, own, ?_, rfl, allows.admits,
      ⟨before, behind⟩, begun, unexpired, allows.proof⟩⟩
    · rw [Payment.record_intentId, at_]
    · exact Decimal.IsAmount.toRat_pos amount allows.positive

/-! ### The log through runs -/

namespace World

/-- What was logged stays, in its place. -/
theorem records_prefix (config : Config) (w : World .memory) (run : List (Time × Command)) :
    w.records <+: (w.after config run).records := by
  refine after_keeps (fun _ => True) (fun later => w.records <+: later.records) ?_ ?_
    (List.prefix_refl _) fun _ _ => trivial
  · exact fun same kept => same.records ▸ kept
  · rintro now w' next c reply - turn kept
    obtain ⟨-, ⟨same, -⟩ | ⟨_, _, -, -, -, logs⟩⟩ := turn.records_cases
    · exact same ▸ kept
    · rw [logs]
      split
      · exact kept
      · exact kept.trans (List.prefix_append _ _)

/-- What does not hold before a run and holds after it comes about in one of its steps. -/
theorem exists_step {P : World .memory → Prop} (before : ¬P w) (after_ : P (w.after config run)) :
    ∃ first now c rest, run = first ++ (now, c) :: rest ∧ ¬P (w.after config first) ∧
      P ((w.after config first).step config now c).2 := by
  induction run generalizing w with
  | nil => exact absurd after_ before
  | cons entry rest ih =>
    obtain ⟨now, c⟩ := entry
    by_cases soon : P (w.step config now c).2
    · exact ⟨[], now, c, rest, rfl, before, soon⟩
    · obtain ⟨first, later, other, tail, rfl, still, holds⟩ := ih soon after_
      exact ⟨(now, c) :: first, later, other, tail, rfl, still, holds⟩

/-- Every entry of the log was appended by a step of the run. -/
theorem exists_logging {front back : List TransactionRecord} {record : TransactionRecord}
    (empty : w.records = []) (records : (w.after config run).records = front ++ record :: back) :
    ∃ first now c rest, run = first ++ (now, c) :: rest ∧ (w.after config first).records = front ∧
      ((w.after config first).step config now c).2.records = front ++ [record] := by
  -- the step wanted is the one at which the log grows past the entries in front
  have short : ¬front.length < w.records.length := by simp [empty]
  have long : front.length < (w.after config run).records.length := by simp [records]
  obtain ⟨first, now, c, rest, rfl, before, after_⟩ :=
    exists_step (P := fun w => front.length < w.records.length) short long
  obtain ⟨next, turn, same⟩ := Service.step_turn config now (w.after config first) c
  obtain ⟨tail, rejoined⟩ := records_prefix config ((w.after config first).step config now c).2 rest
  rw [← after_cons, ← after_append, records] at rejoined
  rw [same.records] at after_ rejoined
  obtain ⟨-, ⟨kept, -⟩ | ⟨_, result, -, -, -, logs⟩⟩ := turn.records_cases
  · rw [kept] at after_
    exact absurd after_ before
  · split at logs
    · rw [logs] at after_
      exact absurd after_ before
    · rw [logs] at after_ rejoined
      have length : (w.after config first).records.length = front.length := by
        simp at after_
        omega
      rw [List.append_assoc] at rejoined
      obtain ⟨same_front, same_rest⟩ := List.append_inj rejoined length
      obtain ⟨rfl, -⟩ : result.record = record ∧ tail = back := by simpa using same_rest
      exact ⟨first, now, c, rest, rfl, same_front, by rw [same.records, logs, same_front]⟩

end World

/-! ### What the log says was spent -/

theorem Intent.Precedes.used_cents_le {i j : Intent} (later : i.Precedes j) (sound : i.Sound)
    (sound' : j.Sound) : i.used.cents ≤ j.used.cents :=
  (sound.used.toRat_le_iff sound'.used).mp later.used

/-- Nothing that was used of an intent is given back. -/
theorem Intent.Moves.sumBy_used_le {intents after : List Intent} (moves : Moves now intents after)
    (ledgers : Ledgers intents) (id : String) :
    sumBy Intent.id intents id (·.used.cents) ≤ sumBy Intent.id after id (·.used.cents) := by
  cases moves with
  | same => exact le_rfl
  | @opened number user text policy i built opened fresh =>
    have nonneg := (Sound.of_opened built opened).used_nonneg
    rw [sumBy_append]
    split <;> omega
  | @changed at_ i j found change =>
    have sound := ledgers.sound_of_findIn found
    have more := change.precedes.used_cents_le sound (change.sound sound)
    rw [sumBy_replaceIn ledgers.unique found change.precedes.id]
    split <;> omega

/-- The ledgers are sound, and back what the log says was spent. -/
structure World.Backed (w : World .memory) : Prop where
  ledgers : Intent.Ledgers w.intents
  amounts : ∀ r ∈ w.records, r.amount.IsAmount
  spent : ∀ id, w.logged id TransactionRecord.spentCents ≤
    Intent.sumBy Intent.id w.intents id (·.used.cents)

theorem Turn.logged_le (turn : Turn config now w c reply next) (regular : c.Regular)
    (backed : w.Backed) (id : String) :
    next.logged id TransactionRecord.spentCents ≤
      Intent.sumBy Intent.id next.intents id (·.used.cents) := by
  have ledgers := backed.ledgers
  have before := backed.spent id
  have more := (turn.moves regular ledgers).sumBy_used_le ledgers id
  by_cases same : next.records = w.records
  · rw [World.logged, same]
    exact before.trans more
  · obtain ⟨-, ⟨kept, -⟩ | ⟨request, result, rfl, rfl, amount, logs⟩⟩ := turn.records_cases
    · exact absurd kept same
    have logged : next.logged id TransactionRecord.spentCents =
        w.logged id TransactionRecord.spentCents +
          if result.record.intentId = some id then result.record.spentCents else 0 := by
      split at logs
      · exact absurd logs same
      · simp [World.logged, logs]
    rw [logged]
    cases turn with
    | aside aside => cases aside
    | payNowhere =>
      simpa using before
    | @pay _ _ d m p v goal i j left brought known begun target found judged settled =>
      have settled := (ledgers.sound_of_findIn found).settled amount settled
      have step := counts_used.settled now (some goal) settled
        (Verdict.approved_of_bypass amount judged)
      have at_ := Intent.id_of_findIn found
      have replaced : Intent.sumBy Intent.id (Intent.replaceIn w.intents goal j) id (·.used.cents) =
          Intent.sumBy Intent.id w.intents id (·.used.cents) +
            if i.id = id then j.used.cents - i.used.cents else 0 :=
        Intent.sumBy_replaceIn ledgers.unique found settled.changes.precedes.id
      rw [World.intents_logging, World.intents_withIntents, replaced, at_]
      simp only [Payment.record_intentId, Option.some.injEq]
      split <;> omega

theorem World.Backed.after (regular : ∀ entry ∈ run, entry.2.Regular) (backed : w.Backed) :
    (w.after config run).Backed := by
  refine after_keeps Command.Regular World.Backed ?_ ?_ backed regular
  · rintro w after same ⟨ledgers, amounts, spent⟩
    refine ⟨same.intents ▸ ledgers, same.records ▸ amounts, fun id => ?_⟩
    rw [World.logged, same.records, same.intents]
    exact spent id
  · rintro now w next c reply regular turn backed
    exact ⟨backed.ledgers.turn regular turn, turn.amounts_logged backed.amounts,
      fun id => turn.logged_le regular backed id⟩

/-- In every state of every run from an empty store over a directory of merchants: each entry of the
log that is approved without an override was logged by a payment that an intent of the payer's
allowed, at a merchant of the directory; what the log says was spent of an intent is at most its
limit; and policy, owner and window of an intent are the same in every later state as when it was
made. -/
theorem World.approvals_enforced {start : World .memory} {merchants : List Merchant}
    (directory : config.directory = Directory.ofList merchants) (empty : start.store = {})
    (regular : ∀ entry ∈ run, entry.2.Regular) (reached : start.after config run = w) :
    (∀ front record back, w.records = front ++ record :: back → record.approved = true →
      record.bypass = false →
      ∃ first now request rest result i m, run = first ++ (now, .pay request) :: rest ∧
        (start.after config first).records = front ∧
        ((start.after config first).step config now (.pay request)).1 = .ok (.payment result) ∧
        result.record = record ∧ i ∈ w.intents ∧ m ∈ merchants ∧
        Directory.ofList merchants request.merchant = .ok m ∧ record.Enforced request i m) ∧
      (∀ i ∈ w.intents, ((w.spending i.id).map (·.amount.toRat)).sum ≤ i.limit.toRat) ∧
      (∀ i ∈ w.intents, ∀ more, (∀ entry ∈ more, entry.2.Regular) →
        ∃ j ∈ (start.after config (run ++ more)).intents, j.id = i.id ∧ j.policy = i.policy ∧
          j.user = i.user ∧ j.createdAt = i.createdAt ∧ j.expiresAt = i.expiresAt) ∧
      ∀ now user text policy i,
        (w.step config now (.createIntent user text policy)).1 = .ok (.intent i) →
        i ∈ (w.step config now (.createIntent user text policy)).2.intents ∧ i.user = user ∧
          i.policy = policy ∧ i.createdAt = now := by
  have begun : start.Backed := by
    refine ⟨.of_empty empty, ?_, fun id => ?_⟩
    · rw [records_of_empty empty]
      simp
    · rw [logged, records_of_empty empty, intents_of_empty empty]
      rfl
  have backed : w.Backed := reached ▸ begun.after regular
  refine ⟨fun front record back records approved bypass => ?_, fun i mem => ?_,
    fun i mem more allowed => ?_, fun now user text policy i made => ?_⟩
  · rw [← reached] at records
    obtain ⟨first, now, c, rest, rfl, before, logs⟩ :=
      exists_logging (records_of_empty empty) records
    have earlier : Intent.Ledgers (start.after config first).intents :=
      (begun.after fun entry mem => regular entry (by simp [mem])).ledgers
    obtain ⟨next, turn, same⟩ := Service.step_turn config now (start.after config first) c
    have appended : next.records = (start.after config first).records ++ [record] := by
      rw [← same.records, logs, before]
    obtain ⟨request, result, i, m, rfl, done, made, mem, found, enforced⟩ :=
      turn.enforced earlier appended approved bypass
    have onward : ∀ entry ∈ (now, Command.pay request) :: rest, entry.2.Regular :=
      fun entry mem => regular entry (List.mem_append_right first mem)
    obtain ⟨j, later, precedes⟩ := earlier.exists_later_after config onward mem
    rw [← after_append, reached] at later
    rw [directory] at found
    exact ⟨first, now, request, rest, result, j, m, rfl, before, done, made, later,
      Directory.mem_of_ofList found, found, enforced.later precedes⟩
  · have sound := backed.ledgers.sound i mem
    have spent := backed.spent i.id
    have within := sound.used_le
    rw [Intent.sumBy_id_of_mem backed.ledgers.unique mem] at spent
    rw [sum_spending backed.amounts, sound.limit.toRat_eq]
    have cast : ((w.logged i.id TransactionRecord.spentCents : ℤ) : ℚ) ≤ i.limit.cents := by
      exact_mod_cast spent.trans within
    linarith
  · obtain ⟨j, later, precedes⟩ := backed.ledgers.exists_later_after config allowed mem
    rw [after_append, reached]
    exact ⟨j, later, precedes.id, precedes.policy, precedes.user, precedes.createdAt,
      precedes.expiresAt⟩
  · obtain ⟨next, turn, same⟩ := Service.step_turn config now w (.createIntent user text policy)
    rw [made] at turn
    rw [same.intents]
    exact turn.created

theorem World.approvals_enforced_payments :
    ∃ record ∈ (Sample.start.after Sample.config Sample.payments).records,
      record.approved = true ∧ record.bypass = false ∧
      ∃ request i m, m ∈ Directory.catalog ∧ record.Enforced request i m := by
  have outcomes : (Sample.start.after Sample.config Sample.payments).records.map
      (fun r => (r.approved, r.bypass)) = [(true, false), (false, false)] := by decide +kernel
  have regular : ∀ entry ∈ Sample.payments, entry.2.Regular := by
    simp [Sample.payments, Command.Regular, Sample.policy_isBuilt]
  have directory : Sample.config.directory = Directory.ofList Directory.catalog := rfl
  have empty : Sample.start.store = {} := rfl
  obtain ⟨enforced, -⟩ := World.approvals_enforced directory empty regular rfl
  cases records : (Sample.start.after Sample.config Sample.payments).records with
  | nil => simp [records] at outcomes
  | cons record back =>
    simp only [records, List.map_cons, List.cons.injEq, Prod.mk.injEq] at outcomes
    obtain ⟨⟨approved, bypass⟩, -⟩ := outcomes
    obtain ⟨first, now, request, rest, result, i, m, -, -, -, -, -, listed, -, done⟩ :=
      enforced [] record back records approved bypass
    exact ⟨record, by simp, approved, bypass, request, i, m, listed, done⟩

end Earmark
