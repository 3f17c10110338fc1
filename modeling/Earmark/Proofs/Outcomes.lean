import Earmark.Proofs.OrderlyWorlds

/-!
How operations end in an orderly world. An operation of the domain is carried out or refused
(`Service.RefusesFrom`), and what only looks up or adds up is carried out.
-/

namespace Earmark.Service

variable {α β : Type} {w : World .memory}

/-- From a world, the operation is carried out or refused. -/
def RefusesFrom (w : World .memory) (op : Service .memory α) : Prop := OnlyRefuses (op.runFrom w).1

theorem RefusesFrom.bind {op : Service .memory α} {next : α → Service .memory β}
    (first : RefusesFrom w op)
    (rest : ∀ a after, op.runFrom w = (.ok a, after) → RefusesFrom after (next a)) :
    RefusesFrom w (op >>= next) := by
  cases done : op.runFrom w with
  | mk result after =>
    cases result with
    | error failure =>
      rw [RefusesFrom, runFrom_bind_error done]
      exact onlyFails_error (first failure (by rw [done]))
    | ok a =>
      rw [RefusesFrom, runFrom_bind_ok done]
      exact rest a after done

theorem refusesFrom_check_bind {result : Except Failure α} {next : α → Service .memory β}
    (first : OnlyRefuses result) (rest : ∀ a, result = .ok a → RefusesFrom w (next a)) :
    RefusesFrom w (check result >>= next) := by
  refine RefusesFrom.bind first fun a after done => ?_
  cases done
  exact rest a rfl

theorem refusesFrom_of_sure {op : Service .memory α} (sure : Sure op) : RefusesFrom w op := by
  obtain ⟨a, after, done⟩ := sure w
  rw [RefusesFrom, done]
  exact onlyFails_ok a

theorem refusesFrom_ite {condition : Prop} [Decidable condition] {op other : Service .memory α}
    (first : RefusesFrom w op) (second : RefusesFrom w other) :
    RefusesFrom w (if condition then op else other) := by
  split
  · exact first
  · exact second

/-! ### Wallets and intents -/

theorem refusesFrom_openWallet (user : String) (d : Decimal) :
    RefusesFrom w (openWallet user (.decimal d)) := by
  rw [RefusesFrom, runFrom_openWallet]
  split
  · exact onlyFails_error ⟨409, rfl, by decide⟩
  · split
    · exact onlyFails_ok ()
    · rename_i failure failed
      exact onlyFails_error (onlyRefuses_toAmount d failure failed)

theorem refusesFrom_getIntent (id : String) : RefusesFrom w (getIntent id) := by
  rw [getIntent]
  refine RefusesFrom.bind ?_ fun found after done => onlyFails_require ⟨404, rfl, by decide⟩ found
  rw [RefusesFrom, runFrom_findIntent?]
  exact onlyFails_ok _

theorem refusesFrom_updateIntent (id : String) {change : Intent → Service .memory (α × Intent)}
    (refuses : ∀ i, Intent.findIn w.intents id = some i → RefusesFrom w (change i)) :
    RefusesFrom w (updateIntent id change) := by
  rw [RefusesFrom, runFrom_updateIntent]
  cases found : Intent.findIn w.intents id with
  | none => exact onlyFails_error ⟨404, rfl, by decide⟩
  | some i =>
    have known := refuses i found
    dsimp only
    cases done : (change i).runFrom w with
    | mk result after =>
      cases result with
      | error failure => exact onlyFails_error (known failure (by rw [done]))
      | ok changed => exact onlyFails_ok _

section

variable {config : Config} {now : Time}

theorem refusesFrom_releaseRest (orderly : w.Orderly) (i : Intent) {rest : Decimal}
    (whole : rest.IsAmount) : RefusesFrom w (releaseRest i rest) := by
  have releases := Wallet.onlyRefuses_releasedRest orderly.covers.amounts i whole
  rw [RefusesFrom, runFrom_releaseRest]
  split
  · exact onlyFails_ok ()
  · rename_i failure failed
    exact onlyFails_error (releases failure failed)

/-- Locking for a new intent fails by a refusal or outside the domain. -/
private theorem isRefusal_of_lockFunds (orderly : w.Orderly) {user : String} {d : Decimal}
    {i : Intent} {failure : Failure}
    (failed : ((lockFunds user (.decimal d) (addIntent i)).runFrom w).1 = .error failure)
    (domain : failure.isDomain = true) : failure.IsRefusal := by
  rw [runFrom_lockFunds, runFrom_addIntent] at failed
  cases lockable : Wallet.lockable w.wallets user (.decimal d) with
  | error other =>
    rw [lockable] at failed
    cases failed
    exact Wallet.onlyRefuses_lockable orderly.covers.amounts user d failure lockable
  | ok found =>
    rw [lockable] at failed
    dsimp only at failed
    split at failed
    · rename_i added
      cases failed
      split at added
      · cases added
        cases domain
      · split at added
        · cases added
          cases domain
        · cases added
    · split at failed
      · cases failed
        cases domain
      · cases failed

/-- An intent whose window ends on the calendar is made or refused. -/
theorem refusesFrom_createIntent (orderly : w.Orderly) (user text : String) {policy : Policy}
    {expiresAt : Time} (dated : now.addDays policy.validityDays = .ok expiresAt) :
    RefusesFrom w (createIntent config now user text policy) := by
  rw [createIntent]
  refine RefusesFrom.bind ?_ fun i numbered began => RefusesFrom.bind (onlyFails_ok _) ?_
  · have opened : ((openIntent user text policy now).runFrom w).1 =
        Intent.opened (Ids.intent (w.ids.intents + 1)) user text policy now := rfl
    rw [RefusesFrom, opened, Intent.opened, dated]
    exact onlyFails_ok _
  · have orderly' : numbered.Orderly := by
      have same : numbered = { w with ids := { w.ids with intents := w.ids.intents + 1 } } :=
        (congrArg Prod.snd began).symm
      subst same
      exact orderly.of_same ⟨rfl, rfl, rfl, rfl, rfl⟩ rfl
    rintro (failure | done) after tried
    · have failed : ((lockFunds user (.decimal policy.limit) (addIntent i)).runFrom numbered).1 =
          .error failure := by
        simpa using congrArg Prod.fst tried
      refine onlyFails_error ?_
      split
      · rename_i domain
        exact isRefusal_of_lockFunds orderly' failed domain
      · exact ⟨409, rfl, by decide⟩
    · obtain ⟨last, -, closing⟩ := runFrom_created config now user text policy i after
      rw [RefusesFrom, closing]
      exact onlyFails_ok i

theorem refusesFrom_cancelIntent (orderly : w.Orderly) (id : String) :
    RefusesFrom w (cancelIntent id) := by
  rw [cancelIntent]
  refine RefusesFrom.bind (refusesFrom_updateIntent id fun i found => ?_) fun released after _ =>
    refusesFrom_of_sure (sure_bind (sure_of_aside (aside_note _)) fun _ => sure_pure _)
  have sound := orderly.ledgers.sound_of_findIn found
  refine refusesFrom_check_bind sound.onlyRefuses_cancel fun closing cancelled => ?_
  obtain ⟨rest, after⟩ := closing
  obtain ⟨closed, -⟩ := sound.closed_of_cancel cancelled
  exact RefusesFrom.bind (refusesFrom_releaseRest orderly i closed.amount) fun _ _ _ =>
    onlyFails_ok _

/-! ### Payments -/

theorem refusesFrom_beginPayment (regular : config.IsRegular) {r : PaymentRequest} {d : Decimal}
    (stated : r.amount = .decimal d) : RefusesFrom w (beginPayment config r) := by
  rw [beginPayment]
  refine RefusesFrom.bind (onlyFails_ok w) fun _ _ _ => RefusesFrom.bind (onlyFails_ok ())
    fun _ _ _ => refusesFrom_check_bind (stated ▸ onlyRefuses_toAmount d) fun amount _ =>
    refusesFrom_check_bind (fun failure failed => ?_) fun m _ => onlyFails_ok _
  rw [regular.unknown r.merchant failure failed]
  exact ⟨404, rfl, by decide⟩

theorem refusesFrom_settlePayment (regular : config.IsRegular) (orderly : w.Orderly) {p : Payment}
    (named : p.merchant.IsNamed) (amount : p.amount.IsAmount)
    (aware : p.context.requestedAt.offset.isSome) {i : Intent} (known : i.Orderly) :
    RefusesFrom w (settlePayment config p i) := by
  have judged : ∀ j ∈ some i, j.IsJudgeable := fun j mem => Option.some.inj mem ▸ known.isJudgeable
  refine refusesFrom_check_bind (onlyFails_of_exists
    (Verdict.exists_validate regular.highValue judged named amount aware)) fun v _ =>
    refusesFrom_ite (onlyFails_ok _) (refusesFrom_ite ?_ ?_)
  · exact refusesFrom_check_bind (known.sound.onlyRefuses_spend p.amount) fun _ _ =>
      onlyFails_ok _
  · have violated : i.recordViolation.Orderly :=
      known.later (Intent.precedes_recordViolation i) known.sound.recordViolation
    refine refusesFrom_check_bind (onlyFails_of_exists (violated.timed.exists_expire aware))
      fun (rest, after) expired => ?_
    have whole : rest.IsAmount := by
      rcases violated.sound.stays_or_closed_of_expire expired with ⟨rfl, -⟩ | ⟨closed, -⟩
      · exact Decimal.isAmount_zero
      · exact closed.amount
    exact RefusesFrom.bind (refusesFrom_releaseRest orderly i whole) fun _ _ _ => onlyFails_ok _

theorem refusesFrom_commitPayment (regular : config.IsRegular) (orderly : w.Orderly) {p : Payment}
    (named : p.merchant.IsNamed) (amount : p.amount.IsAmount)
    (aware : p.context.requestedAt.offset.isSome) (target : Option String) :
    RefusesFrom w (commitPayment config p target) := by
  cases target with
  | none =>
    have none_known : ∀ i ∈ (none : Option Intent), i.IsJudgeable := fun i mem => by cases mem
    exact refusesFrom_check_bind (onlyFails_of_exists
      (Verdict.exists_validate regular.highValue none_known named amount aware)) fun _ _ =>
      onlyFails_ok _
  | some id =>
    refine RefusesFrom.bind (refusesFrom_updateIntent id fun i found => ?_) fun _ _ _ =>
      onlyFails_ok _
    exact refusesFrom_settlePayment regular orderly named amount aware
      (orderly.intents i (Intent.mem_of_findIn found))

/-- A payment at a time with an offset is judged or refused. -/
theorem refusesFrom_pay (regular : config.IsRegular) (orderly : w.Orderly) {r : PaymentRequest}
    {d : Decimal} (stated : r.amount = .decimal d) (aware : r.requestedAt.offset.isSome) :
    RefusesFrom w (pay config now r) := by
  rw [pay]
  refine RefusesFrom.bind (refusesFrom_beginPayment regular stated) fun p begun began => ?_
  have vault : begun.vault = w.vault := by
    have kept := keepsVault_beginPayment config r w
    rwa [began] at kept
  obtain ⟨after, same, ⟨failure, failed⟩ | ⟨amount, m, brought, known, done⟩⟩ :=
    runFrom_beginPayment config r w
  · rw [failed] at began
    cases began
  rw [done] at began
  cases began
  have orderly' := orderly.of_same same vault
  have whole := isAmount_of_toAmount brought
  refine RefusesFrom.bind ?_ fun target resolved found => ?_
  · rw [RefusesFrom, runFrom_resolvePayment]
    exact Payment.onlyRefuses_target orderly'.intents whole aware
  · rw [runFrom_resolvePayment] at found
    obtain rfl : begun = resolved := congrArg Prod.snd found
    refine RefusesFrom.bind
      (refusesFrom_commitPayment regular orderly' (regular.named _ m known) whole aware target)
      fun judged committed _ => refusesFrom_of_sure ?_
    exact sure_bind (sure_logPayment _) fun _ =>
      sure_bind (sure_of_aside (aside_countPayment _ _ _)) fun _ =>
      sure_bind (sure_of_aside (aside_rewardPayment _ _ _ _)) fun _ => sure_pure _

/-! ### Escrows -/

theorem refusesFrom_updateEscrow (orderly : w.Orderly) (id : String)
    {change : Escrow → Except Failure (α × Escrow)}
    (refuses : ∀ e, e.Orderly → OnlyRefuses (change e)) :
    RefusesFrom w (updateEscrow id change) := by
  rw [RefusesFrom, runFrom_updateEscrow]
  cases found : Escrow.findIn w.escrows id with
  | none => exact onlyFails_error ⟨404, rfl, by decide⟩
  | some e =>
    have known := refuses e (orderly.vault e (List.mem_of_find?_eq_some found)).1
    dsimp only
    cases done : change e with
    | error failure => exact onlyFails_error (known failure done)
    | ok changed => exact onlyFails_ok _

theorem refusesFrom_getEscrow (id : String) : RefusesFrom w (getEscrow id) := by
  rw [RefusesFrom, runFrom_getEscrow]
  exact onlyFails_require ⟨404, rfl, by decide⟩ _

/-- An escrow whose term ends on the calendar is made or refused. -/
theorem refusesFrom_createEscrow (orderly : w.Orderly) (user : String)
    {specs : List MilestoneSpec} (decimals : ∀ spec ∈ specs, ∃ d, spec.amount = .decimal d)
    (dated : (now.addDays? config.expiryDays).isSome) (title : String) (intentId : Option String) :
    RefusesFrom w (createEscrow config now user specs title intentId) := by
  rcases runFrom_createEscrow orderly.vault config now user specs title intentId with
    ⟨failure, failed, ran⟩ | ⟨e, after, -, ran, -⟩
  · rw [RefusesFrom, ran]
    exact onlyFails_error (Escrow.onlyRefuses_build decimals dated failure failed)
  · rw [RefusesFrom, ran]
    exact onlyFails_ok e

theorem refusesFrom_releaseMilestone (orderly : w.Orderly) (escrowId milestoneId : String)
    (proof merchantId : Option String) :
    RefusesFrom w (releaseMilestone config now escrowId milestoneId proof merchantId) := by
  rw [releaseMilestone]
  refine RefusesFrom.bind (refusesFrom_updateEscrow orderly escrowId fun e known =>
    known.onlyRefuses_releaseIn milestoneId proof now merchantId) fun _ _ _ => ?_
  exact refusesFrom_of_sure (sure_bind (sure_of_aside (aside_tally _)) fun _ =>
    sure_bind (sure_of_aside (aside_note _)) fun _ =>
    sure_ite (sure_bind (sure_of_aside (aside_follow _ _ _ _ _)) fun _ => sure_pure _)
      (sure_pure _))

theorem refusesFrom_clawBack (regular : config.IsRegular) (orderly : w.Orderly) (escrowId : String)
    (reason : ClawbackReason) (part : Option Decimal) :
    RefusesFrom w (clawBack config now escrowId reason (part.map .decimal)) := by
  rw [clawBack]
  refine RefusesFrom.bind (refusesFrom_updateEscrow orderly escrowId fun e known =>
    onlyFails_bind (known.onlyRefuses_clawBack regular.penalty regular.savings) fun _ _ =>
      onlyFails_ok _) fun _ _ _ => ?_
  exact refusesFrom_of_sure (sure_bind (sure_of_aside (aside_tally _)) fun _ =>
    sure_bind (sure_of_aside (aside_note _)) fun _ =>
    sure_ite (sure_bind (sure_of_aside (aside_follow _ _ _ _ _)) fun _ => sure_pure _)
      (sure_pure _))

/-! ### Looking up -/

theorem exists_listIntents (timed : ∀ i ∈ w.intents, i.Timed) (user : String) :
    ∃ all, (listIntents user).runFrom w = (.ok all, w) ∧ ∀ i ∈ all, i ∈ w.intents := by
  obtain ⟨sorted, done⟩ := exists_sortByTime fun i mem =>
    (timed i (List.mem_of_mem_filter (p := (·.user == user)) mem)).createdAt
  exact ⟨sorted, by rw [runFrom_listIntents, done],
    fun i mem => List.mem_of_mem_filter (mem_of_sortByTime done mem)⟩

theorem runFrom_listEscrows (w : World .memory) (user : String) :
    (listEscrows user).runFrom w =
      (sortByTime Escrow.createdAt (w.escrows.filter (·.user == user)), w) := by
  have read : Backend.memory.escrows.ofUser user w.store.escrows =
      .ok (w.escrows.filter (·.user == user)) := mapM_ok _
  simp only [listEscrows, runFrom_get_bind, read, ok_bind, runFrom_check]

theorem exists_listEscrows (orderly : VaultOrderly w.vault) (user : String) :
    ∃ all, (listEscrows user).runFrom w = (.ok all, w) ∧ ∀ e ∈ all, e.Orderly := by
  have own : ∀ e ∈ w.escrows.filter (·.user == user), e.Orderly :=
    fun e mem => (orderly e (List.mem_of_mem_filter mem)).1
  obtain ⟨sorted, done⟩ := exists_sortByTime fun e mem => (own e mem).createdAt
  exact ⟨sorted, by rw [runFrom_listEscrows, done],
    fun e mem => own e (mem_of_sortByTime done mem)⟩

theorem mem_of_slice {γ : Type} {xs : List γ} {limit : Option Int} {x : γ}
    (mem : x ∈ Backend.slice xs limit) : x ∈ xs := by
  unfold Backend.slice at mem
  split at mem
  · exact mem
  · split at mem <;> exact List.mem_of_mem_take mem

theorem runFrom_history (w : World .memory) (user : String) (limit : Option Int) :
    (history user limit).runFrom w =
      (.ok (Backend.slice (w.records.filter (·.user == user)).reverse limit), w) := by
  have read : Backend.memory.records.ofUser user w.store.records =
      .ok (w.records.filter (·.user == user)) := mapM_ok _
  simp only [history, runFrom_get_bind, read, runFrom_check_ok]
  rfl

theorem exists_history (w : World .memory) (user : String) (limit : Option Int) :
    ∃ records, (history user limit).runFrom w = (.ok records, w) ∧
      ∀ r ∈ records, r ∈ w.records :=
  ⟨_, runFrom_history w user limit,
    fun _ mem => List.mem_of_mem_filter (List.mem_reverse.mp (mem_of_slice mem))⟩

theorem exists_reputation (w : World .memory) (user : String) :
    ∃ snapshot, (reputation config user).runFrom w = (.ok snapshot, w) := by
  have read : Backend.memory.events.ofUser user w.store.events =
      .ok (w.store.events.filter (·.user == user)) := mapM_ok _
  have looked : (eventsOf user).runFrom w = (.ok (w.store.events.filter (·.user == user)), w) := by
    simp only [eventsOf, runFrom_get_bind, read, runFrom_check]
  exact ⟨_, by rw [reputation, runFrom_bind_ok looked]; rfl⟩

/-- The summary of a user exists, and its records are the user's, the latest first. -/
theorem exists_summary (timed : ∀ i ∈ w.intents, i.Timed)
    (amounts : ∀ r ∈ w.records, r.amount.IsAmount) (vault : VaultOrderly w.vault) (user : String) :
    ∃ intents escrows figures, (summary user).runFrom w = (.ok figures, w) ∧
      SpendingSummary.of user (w.records.filter (·.user == user)).reverse intents escrows =
        .ok figures := by
  obtain ⟨intents, listed, known⟩ := exists_listIntents timed user
  obtain ⟨escrows, listed', orderly⟩ := exists_listEscrows vault user
  have amounts' : ∀ r ∈ (w.records.filter (·.user == user)).reverse, r.amount.IsAmount :=
    fun r mem => amounts r (List.mem_of_mem_filter (List.mem_reverse.mp mem))
  obtain ⟨figures, added⟩ := SpendingSummary.exists_of user amounts'
    (fun i mem => (timed i (known i mem)).sound) orderly
  refine ⟨intents, escrows, figures, ?_, added⟩
  rw [summary, runFrom_bind_ok (runFrom_history w user none), runFrom_bind_ok listed,
    runFrom_bind_ok listed', Backend.slice, added, runFrom_check]

/-- While the log of events can be written to, an event is written. -/
theorem exists_recordEvent (orderly : w.Orderly) (user : String) (kind : EventKind)
    (description : String) :
    ∃ event after, (recordEvent config now user kind description).runFrom w =
      (.ok event, after) := by
  simp only [recordEvent, runFrom_get_bind, runFrom_modify_bind, orderly.working w.eventWrites,
    Bool.false_eq_true, ↓reduceIte]
  exact ⟨_, _, rfl⟩

theorem refusesFrom_available (orderly : w.Orderly) (user : String) :
    RefusesFrom w (available user) := by
  rw [available]
  refine RefusesFrom.bind ?_ fun wallet after looked => ?_
  · rw [RefusesFrom, runFrom_findWallet]
    exact onlyFails_require ⟨404, rfl, by decide⟩ _
  · rw [runFrom_findWallet] at looked
    obtain rfl : w = after := congrArg Prod.snd looked
    have found := Failure.require_ok_iff.mp (congrArg Prod.fst looked)
    obtain ⟨balance, locked⟩ := orderly.covers.amounts wallet (List.mem_of_find?_eq_some found)
    obtain ⟨free, subtracted, -⟩ := balance.below.exists_sub locked.below (by decide)
    rw [RefusesFrom, runFrom_availableIn, subtracted]
    exact onlyFails_ok free

theorem refusesFrom_locked (user : String) : RefusesFrom w (locked user) := by
  rw [locked]
  refine RefusesFrom.bind ?_ fun wallet _ _ => onlyFails_ok wallet.locked
  rw [RefusesFrom, runFrom_findWallet]
  exact onlyFails_require ⟨404, rfl, by decide⟩ _

/-! ### What is answered -/

theorem orderly_of_getIntent (orderly : w.Orderly) {id : String} {i : Intent}
    {after : World .memory} (done : (getIntent id).runFrom w = (.ok i, after)) : i.Orderly := by
  obtain ⟨found, middle, looked, done⟩ := exists_of_bind done
  rw [runFrom_findIntent?] at looked
  cases looked
  have known := Failure.require_ok_iff.mp (congrArg Prod.fst done)
  exact orderly.intents i (Intent.mem_of_findIn known)

theorem orderly_of_getEscrow (orderly : w.Orderly) {id : String} {e : Escrow}
    {after : World .memory} (done : (getEscrow id).runFrom w = (.ok e, after)) : e.Orderly := by
  rw [runFrom_getEscrow] at done
  have known := Failure.require_ok_iff.mp (congrArg Prod.fst done)
  exact (orderly.vault e (List.mem_of_find?_eq_some known)).1

theorem orderly_of_createIntent {user text : String} {policy : Policy} {i : Intent}
    {after : World .memory} (built : policy.IsBuilt) (radius : policy.HasFloatRadius)
    (aware : now.offset.isSome)
    (done : (createIntent config now user text policy).runFrom w = (.ok i, after)) :
    i.Orderly := by
  obtain ⟨next, turn, -⟩ := step_turn config now w (.createIntent user text policy)
  have answered : (w.step config now (.createIntent user text policy)).1 = .ok (.intent i) := by
    have stepped : w.step config now (.createIntent user text policy) = _ := runFrom_map w _ _
    rw [stepped, done]
    rfl
  rw [answered] at turn
  cases turn with
  | aside touches => cases touches
  | createIntent opened => exact Intent.orderly_of_opened built radius aware opened

theorem orderly_of_pay (orderly : w.Orderly) {r : PaymentRequest} {result : PaymentResult}
    {after : World .memory} (done : (pay config now r).runFrom w = (.ok result, after)) :
    ∀ i ∈ result.intent, i.Orderly := by
  obtain ⟨next, turn, -⟩ := step_turn config now w (.pay r)
  have answered : (w.step config now (.pay r)).1 = .ok (.payment result) := by
    have stepped : w.step config now (.pay r) = _ := runFrom_map w _ _
    rw [stepped, done]
    rfl
  rw [answered] at turn
  cases turn with
  | aside touches => cases touches
  | payNowhere => exact fun i mem => by cases mem
  | pay brought known begun target found judged settled =>
    rintro i ⟨⟩
    subst begun
    have before := orderly.intents _ (Intent.mem_of_findIn found)
    have change := (before.sound.settled (isAmount_of_toAmount brought) settled).changes
    exact before.later change.precedes (change.sound before.sound)

theorem orderly_of_createEscrow (orderly : w.Orderly) (aware : now.offset.isSome) {user : String}
    {specs : List MilestoneSpec} {title : String} {intentId : Option String} {e : Escrow}
    {after : World .memory}
    (done : (createEscrow config now user specs title intentId).runFrom w = (.ok e, after)) :
    e.Orderly := by
  rcases runFrom_createEscrow orderly.vault config now user specs title intentId with
    ⟨failure, -, ran⟩ | ⟨e', after', built, ran, -⟩
  · rw [ran] at done
    cases done
  · rw [ran] at done
    cases done
    exact Escrow.orderly_of_build aware built

theorem showable_of_clawBack (orderly : w.Orderly) {escrowId : String} {reason : ClawbackReason}
    {part : Option Decimal} {receipt : ClawbackReceipt} {after : World .memory}
    (done : (clawBack config now escrowId reason (part.map .decimal)).runFrom w =
      (.ok receipt, after)) : receipt.IsShowable := by
  obtain ⟨⟨taken, user⟩, changed, ran, done⟩ := exists_of_bind done
  obtain ⟨-, counted, -, done⟩ := exists_of_bind done
  obtain ⟨-, noted, -, done⟩ := exists_of_bind done
  have same : receipt = taken := by
    by_cases followed : (decide (reason = .misuse) && config.rewards) = true
    · simp only [if_pos followed] at done
      obtain ⟨-, last, -, done⟩ := exists_of_bind done
      exact (Except.ok.inj (congrArg Prod.fst done)).symm
    · simp only [if_neg followed] at done
      exact (Except.ok.inj (congrArg Prod.fst done)).symm
  rw [runFrom_updateEscrow] at ran
  split at ran
  · cases ran
  · rename_i e found
    split at ran
    · rename_i clawed
      obtain ⟨⟨receipt', next⟩, clawedBack, made⟩ := bind_ok_iff.mp clawed
      cases ran
      cases made
      exact same ▸ ((orderly.vault e (List.mem_of_find?_eq_some found)).1.clawedBack clawedBack).2
    · cases ran

end

end Earmark.Service
