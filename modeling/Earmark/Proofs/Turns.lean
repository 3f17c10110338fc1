import Earmark.Proofs.Running

/-!
What a command does to the books. Every command, in whatever state it runs, either leaves the books
as they are or makes one of the turns of `Turn`, which say exactly what is written and under which
conditions (`step_turn`).
-/

namespace Earmark

/-! ### Payments as functions of the intents -/

/-- The payment that a request becomes. -/
def Payment.ofRequest (r : PaymentRequest) (number : Nat) (amount : Decimal) (merchant : Merchant) :
    Payment :=
  { id := Ids.transaction number, user := r.user, merchant, amount, named := r.intentId
    context :=
      { proof := r.proof, emergency := r.emergency, requestId := r.requestId
        requestedAt := r.requestedAt, transactionId := Ids.transaction number } }

/-- The intent that a payment goes to, if to any. -/
def Payment.target (config : Config) (intents : List Intent) (p : Payment) :
    Except Failure (Option String) :=
  match p.named with
  | some id =>
    match Intent.findIn intents id with
    | some i =>
      if i.user = p.user then .ok (some i.id) else .error (.intentNotFound id (.forUser p.user))
    | none => .error (.intentNotFound id (.forUser p.user))
  | none =>
    if p.context.emergency then .ok none
    else do
      let own ← sortByTime Intent.createdAt (intents.filter (·.user == p.user))
      let chosen ← config.strategy.choose own (.decimal p.amount) p.context.requestedAt
      .ok (chosen.map (·.id))

/-- How a judged payment changes the wallets and the intent it goes to. -/
inductive Settles (p : Payment) (wallets : List Wallet) (i : Intent) (v : Verdict) :
    List Wallet → Intent → Prop
  | bypass (bypass : v.bypass = true) : Settles p wallets i v wallets i
  | approved {j : Intent} (bypass : v.bypass = false) (approved : v.approved = true)
      (spent : i.spend (.decimal p.amount) = .ok j) : Settles p wallets i v wallets j
  | rejected {rest : Decimal} {j : Intent} {left : List Wallet} (bypass : v.bypass = false)
      (approved : v.approved = false)
      (expired : i.recordViolation.expire p.context.requestedAt = .ok (rest, j))
      (released : Wallet.releasedRest wallets i rest = .ok left) : Settles p wallets i v left j

/-- The world after a record is logged, if its write succeeds. -/
def World.logging (w : World .memory) (record : TransactionRecord) : World .memory :=
  let counted := { w with recordWrites := w.recordWrites + 1 }
  if w.outage.records w.recordWrites then counted
  else counted.withRecords (w.records ++ [record])

/-- The record of a payment that was judged. -/
def Payment.record (p : Payment) (now : Time) (target : Option String) (v : Verdict) :
    TransactionRecord :=
  .ofVerdict p.id p.user p.merchant target now p.amount v

section

variable (p : Payment) (now : Time) (target : Option String) (v : Verdict)

@[simp] theorem Payment.record_user : (p.record now target v).user = p.user := rfl
@[simp] theorem Payment.record_merchantId :
    (p.record now target v).merchantId = p.merchant.id := rfl
@[simp] theorem Payment.record_amount : (p.record now target v).amount = p.amount := rfl
@[simp] theorem Payment.record_intentId : (p.record now target v).intentId = target := rfl
@[simp] theorem Payment.record_approved : (p.record now target v).approved = v.approved := rfl
@[simp] theorem Payment.record_bypass : (p.record now target v).bypass = v.bypass := rfl

end

/-- Whether a command may change wallets, intents or the log of payments. -/
def Command.touchesFunds : Command → Bool
  | .createEscrow .. | .releaseMilestone .. | .clawBack .. | .recordEvent .. => false
  | _ => true

/-- What a command, run at a time, answers and makes of the books. -/
inductive Turn (config : Config) (now : Time) (w : World .memory) :
    Command → Except Failure Reply → World .memory → Prop
  | failed {c : Command} {failure : Failure} : Turn config now w c (.error failure) w
  | aside {c : Command} {reply : Except Failure Reply} (aside : c.touchesFunds = false) :
      Turn config now w c reply w
  | openWallet {user : String} {balance : Numeral} {d : Decimal}
      (fresh : Wallet.findIn w.wallets user = none) (brought : balance.toAmount = .ok d) :
      Turn config now w (.openWallet user balance) (.ok .done)
        (w.withWallets (w.wallets ++ [{ user, balance := d }]))
  | lockFunds {user : String} {amount : Numeral} {fails : Bool} {wallet : Wallet}
      {d locked : Decimal}
      (lockable : Wallet.lockable w.wallets user amount = .ok (wallet, d))
      (added : wallet.locked.add d = .ok locked) :
      Turn config now w (.lockFunds user amount fails) (.ok .done)
        (w.withWallets (Wallet.relock w.wallets user locked))
  | releaseFunds {user : String} {amount : Numeral} {left : List Wallet}
      (released : Wallet.released w.wallets user amount = .ok left) :
      Turn config now w (.releaseFunds user amount) (.ok .done) (w.withWallets left)
  | createIntent {user text : String} {policy : Policy} {i : Intent} {wallet : Wallet}
      {d locked : Decimal} {number : Nat}
      (opened : Intent.opened (Ids.intent number) user text policy now = .ok i)
      (fresh : Intent.findIn w.intents i.id = none)
      (lockable : Wallet.lockable w.wallets user (.decimal policy.limit) = .ok (wallet, d))
      (added : wallet.locked.add d = .ok locked) :
      Turn config now w (.createIntent user text policy) (.ok (.intent i))
        ((w.withIntents (w.intents ++ [i])).withWallets (Wallet.relock w.wallets user locked))
  /-- The intent is stored, but its lock does not add up; wallets that cover their intents never
  come to this. -/
  | createUnlocked {user text : String} {policy : Policy} {i : Intent} {wallet : Wallet}
      {d : Decimal} {number : Nat} {fault : Decimal.Fault} {failure : Failure}
      (opened : Intent.opened (Ids.intent number) user text policy now = .ok i)
      (fresh : Intent.findIn w.intents i.id = none)
      (lockable : Wallet.lockable w.wallets user (.decimal policy.limit) = .ok (wallet, d))
      (refused : wallet.locked.add d = .error fault) :
      Turn config now w (.createIntent user text policy) (.error failure)
        (w.withIntents (w.intents ++ [i]))
  | addIntent {i : Intent} (fresh : Intent.findIn w.intents i.id = none) :
      Turn config now w (.addIntent i) (.ok .done) (w.withIntents (w.intents ++ [i]))
  | useIntent {id : String} {amount : Numeral} {i j : Intent}
      (found : Intent.findIn w.intents id = some i) (spent : i.spend amount = .ok j) :
      Turn config now w (.useIntent id amount) (.ok (.intent j))
        (w.withIntents (Intent.replaceIn w.intents id j))
  | violateIntent {id : String} {i : Intent} (found : Intent.findIn w.intents id = some i) :
      Turn config now w (.violateIntent id) (.ok (.intent i.recordViolation))
        (w.withIntents (Intent.replaceIn w.intents id i.recordViolation))
  | cancelIntent {id : String} {i j : Intent} {rest : Decimal} {left : List Wallet}
      (found : Intent.findIn w.intents id = some i) (cancelled : i.cancel = .ok (rest, j))
      (released : Wallet.releasedRest w.wallets i rest = .ok left) :
      Turn config now w (.cancelIntent id) (.ok (.amount rest))
        ((w.withWallets left).withIntents (Intent.replaceIn w.intents id j))
  | payNowhere {request : PaymentRequest} {number : Nat} {d : Decimal} {m : Merchant}
      {p : Payment} {v : Verdict}
      (brought : request.amount.toAmount = .ok d)
      (known : config.directory request.merchant = .ok m)
      (begun : p = .ofRequest request number d m)
      (target : p.target config w.intents = .ok none)
      (judged : Verdict.validate config.thresholds none p.merchant (.decimal p.amount) p.context =
        .ok v) :
      Turn config now w (.pay request)
        (.ok (.payment { record := p.record now none v, verdict := v, intent := none }))
        (w.logging (p.record now none v))
  | pay {request : PaymentRequest} {number : Nat} {d : Decimal} {m : Merchant} {p : Payment}
      {v : Verdict} {id : String} {i j : Intent} {left : List Wallet}
      (brought : request.amount.toAmount = .ok d)
      (known : config.directory request.merchant = .ok m)
      (begun : p = .ofRequest request number d m)
      (target : p.target config w.intents = .ok (some id))
      (found : Intent.findIn w.intents id = some i)
      (judged : Verdict.validate config.thresholds (some i) p.merchant (.decimal p.amount)
        p.context = .ok v)
      (settled : Settles p w.wallets i v left j) :
      Turn config now w (.pay request)
        (.ok (.payment { record := p.record now (some id) v, verdict := v, intent := some j }))
        (((w.withWallets left).withIntents (Intent.replaceIn w.intents id j)).logging
          (p.record now (some id) v))

theorem World.SameBooks.logging {w after : World .memory} (same : w.SameBooks after)
    (record : TransactionRecord) : (w.logging record).SameBooks (after.logging record) := by
  unfold World.logging
  rw [same.outage, same.recordWrites]
  split
  · exact ⟨same.wallets, same.intents, same.records, rfl, rfl⟩
  · refine ⟨same.wallets, same.intents, ?_, rfl, rfl⟩
    simp only [World.records, World.withRecords]
    exact congrArg (· ++ [record]) same.records

namespace Service

variable {α : Type}

/-! ### Operations that touch no funds -/

theorem keepsBooks_createEscrow (config : Config) (now : Time) (user : String)
    (specs : List MilestoneSpec) (title : String) (intentId : Option String) :
    KeepsBooks (createEscrow config now user specs title intentId : Service .memory _) := by
  refine keepsBooks_bind keepsBooks_get fun w => keepsBooks_bind ?_ fun _ =>
    keepsBooks_bind (keepsBooks_check _) fun escrow => keepsBooks_bind ?_ fun _ =>
    keepsBooks_bind (keepsBooks_check _) fun total =>
    keepsBooks_bind (keepsBooks_note _) fun _ => keepsBooks_pure _
  · exact keepsBooks_modify fun w => ⟨rfl, rfl, rfl, rfl, rfl⟩
  · refine keepsBooks_atomically (keepsBooks_bind keepsBooks_get fun w => ?_)
    by_cases taken : (Backend.memory.escrows.find? escrow.id w.store.escrows).isSome = true
    · simp only [taken, ↓reduceIte]
      exact keepsBooks_throw _
    · simp only [taken]
      exact keepsBooks_bind (keepsBooks_check _) fun row =>
        keepsBooks_modify fun w => ⟨rfl, rfl, rfl, rfl, rfl⟩

theorem keepsBooks_updateEscrow (id : String)
    (change : Escrow → Except Failure (α × Escrow)) :
    KeepsBooks (updateEscrow id change : Service .memory α) := by
  refine keepsBooks_atomically (keepsBooks_bind keepsBooks_get fun w => ?_)
  cases Backend.memory.escrows.find? id w.store.escrows with
  | none => exact keepsBooks_throw _
  | some row =>
    exact keepsBooks_bind (keepsBooks_check _) fun _ => keepsBooks_bind (keepsBooks_check _)
      fun _ => keepsBooks_bind (keepsBooks_modify fun w => ⟨rfl, rfl, rfl, rfl, rfl⟩) fun _ =>
      keepsBooks_pure _

theorem keepsBooks_of_aside {op : Service .memory Unit} (aside : Aside op) : KeepsBooks op := by
  intro w
  obtain ⟨after, done, same⟩ := aside w
  rw [done]
  exact same

theorem aside_ite {condition : Prop} [Decidable condition] {op other : Service .memory Unit}
    (first : Aside op) (second : Aside other) : Aside (if condition then op else other) := by
  split
  · exact first
  · exact second

theorem keepsBooks_releaseMilestone (config : Config) (now : Time) (escrowId milestoneId : String)
    (proof merchantId : Option String) :
    KeepsBooks
      (releaseMilestone config now escrowId milestoneId proof merchantId : Service .memory _) := by
  refine keepsBooks_bind (keepsBooks_updateEscrow _ _) fun done =>
    keepsBooks_bind (keepsBooks_tally _) fun _ => keepsBooks_bind (keepsBooks_note _) fun _ => ?_
  by_cases rewards : config.rewards = true
  · simp only [rewards, ↓reduceIte]
    exact keepsBooks_bind (keepsBooks_of_aside (aside_follow _ _ _ _ _)) fun _ => keepsBooks_pure _
  · simp only [rewards]
    exact keepsBooks_pure _

theorem keepsBooks_clawBack (config : Config) (now : Time) (escrowId : String)
    (reason : ClawbackReason) (part : Option Numeral) :
    KeepsBooks (clawBack config now escrowId reason part : Service .memory _) := by
  refine keepsBooks_bind (keepsBooks_updateEscrow _ _) fun done =>
    keepsBooks_bind (keepsBooks_tally _) fun _ => keepsBooks_bind (keepsBooks_note _) fun _ => ?_
  by_cases rewards : (decide (reason = .misuse) && config.rewards) = true
  · simp only [rewards, ↓reduceIte]
    exact keepsBooks_bind (keepsBooks_of_aside (aside_follow _ _ _ _ _)) fun _ => keepsBooks_pure _
  · simp only [rewards]
    exact keepsBooks_pure _

/-! ### The steps of a payment -/

theorem runFrom_beginPayment (config : Config) (r : PaymentRequest) (w : World .memory) :
    ∃ after, w.SameBooks after ∧
      ((∃ failure, (beginPayment config r).runFrom w = (.error failure, after)) ∨
        ∃ d m, r.amount.toAmount = .ok d ∧ config.directory r.merchant = .ok m ∧
          (beginPayment config r).runFrom w =
            (.ok (.ofRequest r (w.ids.transactions + 1) d m), after)) := by
  refine ⟨{ w with ids := { w.ids with transactions := w.ids.transactions + 1 } },
    ⟨rfl, rfl, rfl, rfl, rfl⟩, ?_⟩
  simp only [beginPayment, runFrom_get_bind, runFrom_modify_bind]
  cases brought : r.amount.toAmount with
  | error failure => exact .inl ⟨failure, rfl⟩
  | ok d =>
    cases known : config.directory r.merchant with
    | error failure =>
      exact .inl ⟨failure, by simp only [runFrom_check_ok, runFrom_check_error]⟩
    | ok m => exact .inr ⟨d, m, rfl, rfl, rfl⟩

theorem mapM_ok {α : Type} (xs : List α) :
    xs.mapM (fun a => (.ok a : Except Failure α)) = .ok xs := by
  rw [← List.map_id xs, List.mapM_map]
  exact List.mapM_pure

theorem runFrom_findIntent? (w : World .memory) (id : String) :
    (findIntent? id).runFrom w = (.ok (Intent.findIn w.intents id), w) := by
  have read : (Backend.memory.intents.find? id w.store.intents).mapM Backend.memory.intents.read =
      .ok (Intent.findIn w.intents id) := by
    change (Intent.findIn w.intents id).mapM (fun i => (.ok i : Except Failure Intent)) = _
    cases Intent.findIn w.intents id <;> rfl
  simp only [findIntent?, runFrom_get_bind, read, runFrom_check]

theorem runFrom_listIntents (w : World .memory) (user : String) :
    (listIntents user).runFrom w =
      (sortByTime Intent.createdAt (w.intents.filter (·.user == user)), w) := by
  have read : Backend.memory.intents.ofUser user w.store.intents =
      .ok (w.intents.filter (·.user == user)) := mapM_ok _
  simp only [listIntents, runFrom_get_bind, read, ok_bind, runFrom_check]

theorem runFrom_resolvePayment (config : Config) (p : Payment) (w : World .memory) :
    (resolvePayment config p).runFrom w = (p.target config w.intents, w) := by
  unfold resolvePayment Payment.target
  cases p.named with
  | some id =>
    have looked := runFrom_findIntent? w id
    cases found : Intent.findIn w.intents id with
    | none =>
      rw [found] at looked
      rw [runFrom_bind_ok looked]
      simp only [found, runFrom_throw]
    | some i =>
      rw [found] at looked
      rw [runFrom_bind_ok looked]
      by_cases own : i.user = p.user
      · simp only [found, own, ↓reduceIte, runFrom_pure]
      · simp only [found, own, ↓reduceIte, runFrom_throw]
  | none =>
    cases p.context.emergency with
    | true => rfl
    | false =>
      have listed := runFrom_listIntents w p.user
      simp only [Bool.false_eq_true, ↓reduceIte]
      cases sorted : sortByTime Intent.createdAt (w.intents.filter (·.user == p.user)) with
      | error failure =>
        rw [sorted] at listed
        rw [runFrom_bind_error listed]
        rfl
      | ok own =>
        rw [sorted] at listed
        rw [runFrom_bind_ok listed]
        simp only [ok_bind]
        cases config.strategy.choose own (.decimal p.amount) p.context.requestedAt <;> rfl

theorem runFrom_settlePayment (config : Config) (p : Payment) (i : Intent) (w : World .memory) :
    (∃ failure, (settlePayment config p i).runFrom w = (.error failure, w)) ∨
      ∃ v j left,
        Verdict.validate config.thresholds (some i) p.merchant (.decimal p.amount) p.context =
          .ok v ∧
        Settles p w.wallets i v left j ∧
        (settlePayment config p i).runFrom w = (.ok ((v, j), j), w.withWallets left) := by
  simp only [settlePayment, judgePayment]
  cases judged : Verdict.validate config.thresholds (some i) p.merchant (.decimal p.amount)
      p.context with
  | error failure => exact .inl ⟨failure, by simp⟩
  | ok v =>
    simp only [runFrom_check_ok]
    cases bypass : v.bypass with
    | true => exact .inr ⟨v, i, w.wallets, rfl, .bypass bypass, rfl⟩
    | false =>
      cases approved : v.approved with
      | true =>
        cases spent : i.spend (.decimal p.amount) with
        | error failure =>
          refine .inl ⟨failure, ?_⟩
          simp only [Bool.false_eq_true, ↓reduceIte, runFrom_check_error]
        | ok j => exact .inr ⟨v, j, w.wallets, rfl, .approved bypass approved spent, rfl⟩
      | false =>
        cases expired : i.recordViolation.expire p.context.requestedAt with
        | error failure => exact .inl ⟨failure, by simp⟩
        | ok closed =>
          obtain ⟨rest, j⟩ := closed
          have unlocked := runFrom_releaseRest w i rest
          simp only [Bool.false_eq_true, ↓reduceIte, runFrom_check_ok]
          cases released : Wallet.releasedRest w.wallets i rest with
          | error failure =>
            rw [released] at unlocked
            exact .inl ⟨failure, runFrom_bind_error unlocked _⟩
          | ok left =>
            rw [released] at unlocked
            refine .inr ⟨v, j, left, rfl, .rejected bypass approved expired released, ?_⟩
            rw [runFrom_bind_ok unlocked]
            rfl

theorem runFrom_addRecord (record : TransactionRecord) (w : World .memory) :
    ∃ result, (addRecord record).runFrom w = (result, w.logging record) := by
  simp only [addRecord, runFrom_get_bind, runFrom_modify_bind, World.logging]
  cases w.outage.records w.recordWrites with
  | true => exact ⟨_, rfl⟩
  | false => exact ⟨_, rfl⟩

theorem runFrom_logPayment (record : TransactionRecord) (w : World .memory) :
    ∃ after, (logPayment record).runFrom w = (.ok (), after) ∧
      (w.logging record).SameBooks after := by
  obtain ⟨result, added⟩ := runFrom_addRecord record w
  have tried := runFrom_attempt w (addRecord record : Service .memory _)
  rw [added] at tried
  unfold logPayment
  rw [runFrom_bind_ok tried]
  cases result with
  | ok done => exact ⟨w.logging record, rfl, .refl _⟩
  | error failure =>
    obtain ⟨after, noted, same⟩ := aside_note (.recordLost record.id) (w.logging record)
    exact ⟨after, noted, same⟩

theorem aside_countPayment (p : Payment) (target : Option String) (v : Verdict) :
    Aside (countPayment p target v) := by
  have closing : Aside (do tally .latency; note (.validated p.id p.user target p.merchant.id
      v.approved v.failedAt)) := aside_bind (aside_tally _) (aside_note _)
  unfold countPayment
  dsimp only
  -- both arms go on with the same counting
  refine aside_ite (aside_bind (aside_tally _) ?counting) ?counting
  refine aside_bind (aside_tally _) ?_
  split
  · exact aside_bind (aside_tally _) closing
  · exact closing

theorem aside_rewardPayment (config : Config) (now : Time) (p : Payment) (v : Verdict) :
    Aside (rewardPayment config now p v) := by
  unfold rewardPayment
  refine aside_ite (aside_bind (aside_note _) (aside_follow _ _ _ _ _)) (aside_ite ?_ ?_)
  · exact aside_bind (aside_follow _ _ _ _ _) (aside_ite (aside_follow _ _ _ _ _) aside_pure)
  · exact aside_follow _ _ _ _ _

/-- What follows the commit of a payment succeeds and logs it. -/
theorem runFrom_concluded (config : Config) (now : Time) (p : Payment) (target : Option String)
    (v : Verdict) (intent : Option Intent) (w : World .memory) :
    ∃ after, (w.logging (p.record now target v)).SameBooks after ∧
      (do
        logPayment (p.record now target v)
        countPayment p target v
        rewardPayment config now p v
        return { record := p.record now target v, verdict := v, intent } :
          Service .memory PaymentResult).runFrom w =
        (.ok { record := p.record now target v, verdict := v, intent }, after) := by
  obtain ⟨logged, log, sameLog⟩ := runFrom_logPayment (p.record now target v) w
  obtain ⟨counted, count, sameCount⟩ := aside_countPayment p target v logged
  obtain ⟨rewarded, reward, sameReward⟩ := aside_rewardPayment config now p v counted
  refine ⟨rewarded, sameLog.trans (sameCount.trans sameReward), ?_⟩
  rw [runFrom_bind_ok log, runFrom_bind_ok count, runFrom_bind_ok reward, runFrom_pure]

theorem runFrom_commitPayment_none (config : Config) (p : Payment) (w : World .memory) :
    (commitPayment config p none).runFrom w =
      ((Verdict.validate config.thresholds none p.merchant (.decimal p.amount) p.context).map
        (·, none), w) := by
  simp only [commitPayment, judgePayment]
  cases Verdict.validate config.thresholds none p.merchant (.decimal p.amount) p.context <;> rfl

theorem runFrom_commitPayment_some (config : Config) (p : Payment) (id : String)
    (w : World .memory) :
    (∃ failure, (commitPayment config p (some id)).runFrom w = (.error failure, w)) ∨
      ∃ i v j left, Intent.findIn w.intents id = some i ∧
        Verdict.validate config.thresholds (some i) p.merchant (.decimal p.amount) p.context =
          .ok v ∧
        Settles p w.wallets i v left j ∧
        (commitPayment config p (some id)).runFrom w =
          (.ok (v, some j),
            (w.withWallets left).withIntents (Intent.replaceIn w.intents id j)) := by
  have updated := runFrom_updateIntent w id (settlePayment config p)
  cases found : Intent.findIn w.intents id with
  | none =>
    rw [found] at updated
    exact .inl ⟨_, runFrom_bind_error updated _⟩
  | some i =>
    rw [found] at updated
    rcases runFrom_settlePayment config p i w with
      ⟨failure, failed⟩ | ⟨v, j, left, judged, settled, done⟩
    · simp only [failed] at updated
      exact .inl ⟨failure, runFrom_bind_error updated _⟩
    · simp only [done] at updated
      exact .inr ⟨i, v, j, left, rfl, judged, settled, runFrom_bind_ok updated _⟩

/-! ### Each command takes its turn -/

/-- A command that keeps to its turns: what it answers and the books it leaves are those of one. -/
def Turns (config : Config) (now : Time) (w : World .memory) (c : Command)
    (ran : Except Failure Reply × World .memory) : Prop :=
  ∃ next, Turn config now w c ran.1 next ∧ next.SameBooks ran.2

private theorem turns_of_failed {config : Config} {now : Time} {w after : World .memory}
    {c : Command} {failure : Failure} (same : w.SameBooks after) :
    Turns config now w c (.error failure, after) := ⟨w, .failed, same⟩

theorem runFrom_map {b : Backend} {β : Type} (w : World b) (op : Service b α) (f : α → β) :
    (op >>= fun a => pure (f a)).runFrom w = ((op.runFrom w).1.map f, (op.runFrom w).2) := by
  rw [runFrom_bind]
  cases op.runFrom w with
  | mk result after => cases result <;> rfl

private theorem turns_of_keepsBooks {config : Config} {now : Time} {w : World .memory}
    {c : Command} (aside : c.touchesFunds = false) {op : Service .memory α} {f : α → Reply}
    (kept : KeepsBooks op) :
    Turns config now w c ((op >>= fun a => pure (f a)).runFrom w) := by
  rw [runFrom_map]
  exact ⟨w, .aside aside, kept w⟩

theorem turns_openWallet (config : Config) (now : Time) (w : World .memory) (user : String)
    (balance : Numeral) :
    Turns config now w (.openWallet user balance)
      (w.step config now (.openWallet user balance)) := by
  have stepped : w.step config now (.openWallet user balance) = _ := runFrom_map w _ _
  rw [stepped, runFrom_openWallet]
  cases fresh : Wallet.findIn w.wallets user with
  | some wallet => exact turns_of_failed (.refl w)
  | none =>
    cases brought : balance.toAmount with
    | error failure => exact turns_of_failed (.refl w)
    | ok d => exact ⟨_, .openWallet fresh brought, .refl _⟩

theorem turns_lockFunds (config : Config) (now : Time) (w : World .memory) (user : String)
    (amount : Numeral) (fails : Bool) :
    Turns config now w (.lockFunds user amount fails)
      (w.step config now (.lockFunds user amount fails)) := by
  have stepped : w.step config now (.lockFunds user amount fails) = _ := runFrom_map w _ _
  rw [stepped, runFrom_lockFunds]
  cases lockable : Wallet.lockable w.wallets user amount with
  | error failure => exact turns_of_failed (.refl w)
  | ok found =>
    obtain ⟨wallet, d⟩ := found
    cases fails with
    | true => exact turns_of_failed (.refl w)
    | false =>
      simp only [Bool.false_eq_true, ↓reduceIte, runFrom_pure]
      cases added : wallet.locked.add d with
      | error fault => exact turns_of_failed (.refl w)
      | ok locked => exact ⟨_, .lockFunds lockable added, .refl _⟩

theorem turns_releaseFunds (config : Config) (now : Time) (w : World .memory) (user : String)
    (amount : Numeral) :
    Turns config now w (.releaseFunds user amount)
      (w.step config now (.releaseFunds user amount)) := by
  have stepped : w.step config now (.releaseFunds user amount) = _ := runFrom_map w _ _
  rw [stepped, runFrom_releaseFunds]
  cases released : Wallet.released w.wallets user amount with
  | error failure => exact turns_of_failed (.refl w)
  | ok left => exact ⟨_, .releaseFunds released, .refl _⟩

theorem turns_addIntent (config : Config) (now : Time) (w : World .memory) (i : Intent) :
    Turns config now w (.addIntent i) (w.step config now (.addIntent i)) := by
  have stepped : w.step config now (.addIntent i) = _ := runFrom_map w _ _
  rw [stepped, runFrom_addIntent]
  cases w.outage.intents with
  | true => exact turns_of_failed (.refl w)
  | false =>
    cases fresh : Intent.findIn w.intents i.id with
    | some other => exact turns_of_failed (.refl w)
    | none => exact ⟨_, .addIntent fresh, .refl _⟩

theorem turns_useIntent (config : Config) (now : Time) (w : World .memory) (id : String)
    (amount : Numeral) :
    Turns config now w (.useIntent id amount) (w.step config now (.useIntent id amount)) := by
  have stepped : w.step config now (.useIntent id amount) = _ := runFrom_map w _ _
  rw [stepped, useIntent, runFrom_updateIntent]
  cases found : Intent.findIn w.intents id with
  | none => exact turns_of_failed (.refl w)
  | some i =>
    cases spent : i.spend amount with
    | error failure =>
      simp only [spent, runFrom_check_error]
      exact turns_of_failed (.refl w)
    | ok j =>
      simp only [spent, runFrom_check_ok, runFrom_pure]
      exact ⟨_, .useIntent found spent, .refl _⟩

theorem turns_violateIntent (config : Config) (now : Time) (w : World .memory) (id : String) :
    Turns config now w (.violateIntent id) (w.step config now (.violateIntent id)) := by
  have stepped : w.step config now (.violateIntent id) = _ := runFrom_map w _ _
  rw [stepped, violateIntent, runFrom_updateIntent]
  cases found : Intent.findIn w.intents id with
  | none => exact turns_of_failed (.refl w)
  | some i => exact ⟨_, .violateIntent found, .refl _⟩

theorem turns_cancelIntent (config : Config) (now : Time) (w : World .memory) (id : String) :
    Turns config now w (.cancelIntent id) (w.step config now (.cancelIntent id)) := by
  have stepped : w.step config now (.cancelIntent id) = _ := runFrom_map w _ _
  rw [stepped, cancelIntent, runFrom_bind, runFrom_updateIntent]
  cases found : Intent.findIn w.intents id with
  | none => exact turns_of_failed (.refl w)
  | some i =>
    cases cancelled : i.cancel with
    | error failure =>
      simp only [cancelled, runFrom_check_error]
      exact turns_of_failed (.refl w)
    | ok closed =>
      obtain ⟨rest, j⟩ := closed
      have unlocked := runFrom_releaseRest w i rest
      simp only [cancelled, runFrom_check_ok]
      cases released : Wallet.releasedRest w.wallets i rest with
      | error failure =>
        rw [released] at unlocked
        rw [runFrom_bind_error unlocked]
        exact turns_of_failed (.refl w)
      | ok left =>
        rw [released] at unlocked
        rw [runFrom_bind_ok unlocked]
        exact ⟨_, .cancelIntent found cancelled released, ⟨rfl, rfl, rfl, rfl, rfl⟩⟩

/-- What follows the lock of a new intent succeeds. -/
theorem runFrom_created (config : Config) (now : Time) (user text : String) (policy : Policy)
    (i : Intent) (w : World .memory) :
    ∃ after, w.SameBooks after ∧
      (do
        note (.intentCreated i.id user policy.limit)
        if config.rewards then
          follow config now user .intentCreated ("Created intent: \"" ++ shorten 50 text ++ "\"")
        return i : Service .memory Intent).runFrom w = (.ok i, after) := by
  obtain ⟨noted, note, sameNote⟩ := aside_note (.intentCreated i.id user policy.limit) w
  rw [runFrom_bind_ok note]
  by_cases rewards : config.rewards = true
  · obtain ⟨followed, follow, sameFollow⟩ := aside_follow config now user .intentCreated
      ("Created intent: \"" ++ shorten 50 text ++ "\"") noted
    simp only [rewards, ↓reduceIte]
    exact ⟨followed, sameNote.trans sameFollow, runFrom_bind_ok follow _⟩
  · simp only [rewards]
    exact ⟨noted, sameNote, rfl⟩

/-- What is attempted of a new intent: to add it and lock its limit, in one change. -/
theorem runFrom_lockAdded (w : World .memory) (user : String) (amount : Numeral) (i : Intent) :
    (∃ failure, (lockFunds user amount (addIntent i)).runFrom w = (.error failure, w)) ∨
      ∃ wallet d, Wallet.lockable w.wallets user amount = .ok (wallet, d) ∧
        Intent.findIn w.intents i.id = none ∧
        ((∃ fault, wallet.locked.add d = .error fault ∧
          (lockFunds user amount (addIntent i)).runFrom w =
            (.error (.arithmetic fault), w.withIntents (w.intents ++ [i]))) ∨
        ∃ locked, wallet.locked.add d = .ok locked ∧
          (lockFunds user amount (addIntent i)).runFrom w =
            (.ok (), (w.withIntents (w.intents ++ [i])).withWallets
              (Wallet.relock w.wallets user locked))) := by
  rw [runFrom_lockFunds, runFrom_addIntent]
  cases lockable : Wallet.lockable w.wallets user amount with
  | error failure => exact .inl ⟨failure, rfl⟩
  | ok found =>
    obtain ⟨wallet, d⟩ := found
    cases w.outage.intents with
    | true => exact .inl ⟨_, rfl⟩
    | false =>
      cases fresh : Intent.findIn w.intents i.id with
      | some other => exact .inl ⟨_, rfl⟩
      | none =>
        refine .inr ⟨wallet, d, rfl, rfl, ?_⟩
        cases added : wallet.locked.add d with
        | error fault => exact .inl ⟨fault, rfl, by simp [added]⟩
        | ok locked =>
          refine .inr ⟨locked, rfl, ?_⟩
          simp only [Bool.false_eq_true, ↓reduceIte, Option.isSome_none, added]
          rfl

theorem turns_createIntent (config : Config) (now : Time) (w : World .memory)
    (user text : String) (policy : Policy) :
    Turns config now w (.createIntent user text policy)
      (w.step config now (.createIntent user text policy)) := by
  have stepped : w.step config now (.createIntent user text policy) = _ := runFrom_map w _ _
  rw [stepped, createIntent]
  let numbered : World .memory := { w with ids := { w.ids with intents := w.ids.intents + 1 } }
  have same : w.SameBooks numbered := ⟨rfl, rfl, rfl, rfl, rfl⟩
  have began : (openIntent user text policy now).runFrom w =
      (Intent.opened (Ids.intent (w.ids.intents + 1)) user text policy now, numbered) := rfl
  cases opened : Intent.opened (Ids.intent (w.ids.intents + 1)) user text policy now with
  | error failure =>
    rw [opened] at began
    rw [runFrom_bind_error began]
    exact turns_of_failed same
  | ok i =>
    rw [opened] at began
    rw [runFrom_bind_ok began]
    have tried := runFrom_attempt numbered
      (lockFunds user (.decimal policy.limit) (addIntent i) : Service .memory Unit)
    rcases runFrom_lockAdded numbered user (.decimal policy.limit) i with ⟨failure, failed⟩ |
      ⟨wallet, d, lockable, fresh, ⟨fault, refused, failed⟩ | ⟨locked, added, done⟩⟩
    · rw [failed] at tried
      rw [runFrom_bind_ok tried]
      exact turns_of_failed same
    · rw [failed] at tried
      rw [runFrom_bind_ok tried]
      exact ⟨_, .createUnlocked opened fresh lockable refused, ⟨rfl, rfl, rfl, rfl, rfl⟩⟩
    · rw [done] at tried
      rw [runFrom_bind_ok tried]
      obtain ⟨after, sameAfter, closing⟩ := runFrom_created config now user text policy i
        ((numbered.withIntents (numbered.intents ++ [i])).withWallets
          (Wallet.relock numbered.wallets user locked))
      dsimp only
      rw [closing]
      have kept : ((w.withIntents (w.intents ++ [i])).withWallets
          (Wallet.relock w.wallets user locked)).SameBooks
          ((numbered.withIntents (numbered.intents ++ [i])).withWallets
            (Wallet.relock numbered.wallets user locked)) := ⟨rfl, rfl, rfl, rfl, rfl⟩
      exact ⟨_, .createIntent opened fresh lockable added, kept.trans sameAfter⟩

theorem turns_pay (config : Config) (now : Time) (w : World .memory) (request : PaymentRequest) :
    Turns config now w (.pay request) (w.step config now (.pay request)) := by
  have stepped : w.step config now (.pay request) = _ := runFrom_map w _ _
  rw [stepped, pay]
  obtain ⟨begun, same, ⟨failure, failed⟩ | ⟨d, m, brought, known, began⟩⟩ :=
    runFrom_beginPayment config request w
  · rw [runFrom_bind_error failed]
    exact turns_of_failed same
  rw [runFrom_bind_ok began]
  generalize start : Payment.ofRequest request (w.ids.transactions + 1) d m = p
  have resolved := runFrom_resolvePayment config p begun
  rw [same.intents] at resolved
  cases target : p.target config w.intents with
  | error failure =>
    rw [target] at resolved
    rw [runFrom_bind_error resolved]
    exact turns_of_failed same
  | ok goal =>
    rw [target] at resolved
    rw [runFrom_bind_ok resolved]
    cases goal with
    | none =>
      have committed := runFrom_commitPayment_none config p begun
      cases judged : Verdict.validate config.thresholds none p.merchant (.decimal p.amount)
          p.context with
      | error failure =>
        rw [judged] at committed
        rw [runFrom_bind_error committed]
        exact turns_of_failed same
      | ok v =>
        rw [judged] at committed
        rw [runFrom_bind_ok committed]
        obtain ⟨after, sameAfter, done⟩ := runFrom_concluded config now p none v none begun
        dsimp only
        rw [show TransactionRecord.ofVerdict p.id p.user p.merchant none now p.amount v =
          p.record now none v from rfl, done]
        exact ⟨_, .payNowhere brought known start.symm target judged,
          (same.logging _).trans sameAfter⟩
    | some id =>
      rcases runFrom_commitPayment_some config p id begun with
        ⟨failure, failed⟩ | ⟨i, v, j, left, found, judged, settled, committed⟩
      · rw [runFrom_bind_error failed]
        exact turns_of_failed same
      · rw [runFrom_bind_ok committed]
        rw [same.intents] at found committed
        rw [same.wallets] at settled
        obtain ⟨after, sameAfter, done⟩ := runFrom_concluded config now p (some id) v (some j)
          ((begun.withWallets left).withIntents (Intent.replaceIn w.intents id j))
        dsimp only
        rw [same.intents, show TransactionRecord.ofVerdict p.id p.user p.merchant (some id) now
          p.amount v = p.record now (some id) v from rfl, done]
        have kept : ((w.withWallets left).withIntents
            (Intent.replaceIn w.intents id j)).SameBooks ((begun.withWallets left).withIntents
            (Intent.replaceIn w.intents id j)) :=
          ⟨rfl, rfl, same.records, same.outage, same.recordWrites⟩
        exact ⟨_, .pay brought known start.symm target found judged settled,
          (kept.logging _).trans sameAfter⟩

/-- Whatever the command and the state, what it answers and the books it leaves are those of one of
its turns. -/
theorem step_turn (config : Config) (now : Time) (w : World .memory) (c : Command) :
    Turns config now w c (w.step config now c) := by
  cases c with
  | openWallet user balance => exact turns_openWallet config now w user balance
  | lockFunds user amount fails => exact turns_lockFunds config now w user amount fails
  | releaseFunds user amount => exact turns_releaseFunds config now w user amount
  | createIntent user text policy => exact turns_createIntent config now w user text policy
  | addIntent i => exact turns_addIntent config now w i
  | useIntent id amount => exact turns_useIntent config now w id amount
  | violateIntent id => exact turns_violateIntent config now w id
  | cancelIntent id => exact turns_cancelIntent config now w id
  | pay request => exact turns_pay config now w request
  | createEscrow user specs title intentId =>
    exact turns_of_keepsBooks rfl (keepsBooks_createEscrow config now user specs title intentId)
  | releaseMilestone escrowId milestoneId proof merchantId =>
    exact turns_of_keepsBooks rfl
      (keepsBooks_releaseMilestone config now escrowId milestoneId proof merchantId)
  | clawBack escrowId reason part =>
    exact turns_of_keepsBooks rfl (keepsBooks_clawBack config now escrowId reason part)
  | recordEvent user kind description =>
    exact turns_of_keepsBooks rfl (keepsBooks_recordEvent config now user kind description)

end Service

end Earmark
