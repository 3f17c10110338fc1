import Earmark.Proofs.Eligibility
import Earmark.Proofs.Reconciliation
import Earmark.Proofs.Sequels

/-!
The whole effect of a payment. A payment that returns adds one record to the log of payments and the
events of its verdict to the log of reputation. Of the wallets and intents it changes at most the
intent that it went to and what its owner has locked (`Intent.Charged`), and it leaves alone the
escrows and all that is kept of others (`World.payment_effect`).
-/

namespace Earmark

/-! ### The intent of a payment -/

namespace Intent

/-- What a payment of an amount, asked for at a time, makes of the intent that it goes to and of the
wallets. -/
inductive Charged (d : Decimal) (time : Time) (v : Verdict) (wallets : List Wallet) (i : Intent) :
    Intent → List Wallet → Prop
  /-- An emergency changes neither. -/
  | bypassed (bypass : v.bypass = true) : Charged d time v wallets i i wallets
  /-- What is approved is spent, and the intent is exhausted where nothing is left. -/
  | approved {used rest : Decimal} (bypass : v.bypass = false) (approved : v.approved = true)
      (active : i.status = .active) (spent : used.toRat = i.used.toRat + d.toRat)
      (left : i.limit.sub used = .ok rest) :
      Charged d time v wallets i
        { i with
          used
          approvals := i.approvals + 1
          status := if rest.toRat = 0 then .exhausted else .active } wallets
  /-- What is rejected is counted. -/
  | rejected (bypass : v.bypass = false) (approved : v.approved = false)
      (stays : ¬(i.status = .active ∧ i.expiresAt.instant < time.instant)) :
      Charged d time v wallets i { i with violations := i.violations + 1 } wallets
  /-- An active intent past its expiry is closed, and what is left of it is unlocked. -/
  | lapsed {rest locked : Decimal} {wallet : Wallet} (bypass : v.bypass = false)
      (approved : v.approved = false) (active : i.status = .active)
      (late : i.expiresAt.instant < time.instant) (left : i.remaining = .ok rest)
      (found : Wallet.findIn wallets i.user = some wallet)
      (unlocked : locked.toRat = wallet.locked.toRat - rest.toRat) :
      Charged d time v wallets i
        { i with violations := i.violations + 1, status := .expired }
        (Wallet.relock wallets i.user locked)

variable {intents : List Intent} {wallets left : List Wallet} {i j : Intent} {id : String}
  {p : Payment} {v : Verdict}

/-- An intent put in its own place changes nothing. -/
theorem replaceIn_of_findIn (unique : (intents.map Intent.id).Nodup)
    (found : findIn intents id = some i) : replaceIn intents id i = intents := by
  refine (List.map_congr_left fun old mem => ?_).trans (List.map_id intents)
  by_cases at_ : old.id = id
  · have same := findIn_of_mem unique mem
    rw [at_, found, Option.some.injEq] at same
    simp [at_, same]
  · simp [at_]

theorem Charged.of_spend (sound : i.Sound) (amount : p.amount.IsAmount) (bypass : v.bypass = false)
    (approved : v.approved = true) (spent : i.spend (.decimal p.amount) = .ok j) :
    Charged p.amount p.context.requestedAt v wallets i j wallets := by
  obtain ⟨d, brought, active, positive, within, used, added, rfl⟩ := sound.spend_ok_iff.mp spent
  obtain rfl : p.amount = d := by simpa [Numeral.toAmount_decimal amount] using brought
  have nonneg := sound.used_nonneg
  have small := sound.limit.natAbs_lt
  obtain ⟨sum, added', whole, value⟩ := sound.used.exists_add amount (by omega)
  obtain rfl : sum = used := by simpa [added] using added'.symm
  obtain ⟨rest, subtracted, wholeRest, valueRest⟩ := sound.limit.exists_sub whole (by omega)
  have total : sum.toRat = i.used.toRat + p.amount.toRat := by
    rw [whole.toRat_eq, sound.used.toRat_eq, amount.toRat_eq, value]
    push_cast
    ring
  have nothing : rest.toRat = 0 ↔ sum.cents = i.limit.cents := by
    rw [wholeRest.toRat_eq, valueRest, div_eq_zero_iff]
    norm_num
    rw [sub_eq_zero, eq_comm]
    exact_mod_cast Iff.rfl
  have same : i.spending sum = { i with
      used := sum
      approvals := i.approvals + 1
      status := if rest.toRat = 0 then .exhausted else .active } := by
    simp only [spending, nothing, active]
  rw [same]
  exact .approved bypass approved active total subtracted

theorem Charged.of_expire {rest : Decimal} (covers : Wallet.Covers wallets intents)
    (sound : ∀ i ∈ intents, i.Sound) (mem : i ∈ intents) (bypass : v.bypass = false)
    (approved : v.approved = false)
    (expired : i.recordViolation.expire p.context.requestedAt = .ok (rest, j))
    (released : Wallet.releasedRest wallets i rest = .ok left) :
    Charged p.amount p.context.requestedAt v wallets i j left := by
  rcases expire_ok_iff.mp expired with ⟨rfl, rfl, stays⟩ | ⟨active, due, remaining, rfl⟩
  · obtain rfl : wallets = left := by simpa [Wallet.releasedRest_zero] using released
    refine .rejected bypass approved ?_
    rintro ⟨active, late⟩
    exact absurd (Time.after_eq_false_iff.mp (stays active)).2 (not_le.mpr late)
  · have late := (Time.after_eq_true_iff.mp due).2
    obtain ⟨whole, value⟩ := (sound i mem).remaining_cents remaining
    have less := (sound i mem).used_lt_of_active active
    have nonneg := (sound i mem).used_nonneg
    have held : i.heldCents = i.limit.cents := if_pos active
    rw [Wallet.releasedRest_of_pos wallets i whole (by omega)] at released
    obtain ⟨wallet, locked, found, done, wholeLocked, valueLocked⟩ :=
      covers.exists_released sound mem whole (by omega) (by omega)
    obtain rfl : Wallet.relock wallets i.user locked = left :=
      Except.ok.inj (done.symm.trans released)
    have before := (covers.amounts wallet (Wallet.mem_of_findIn found)).2
    refine .lapsed bypass approved active late remaining found ?_
    rw [wholeLocked.toRat_eq, before.toRat_eq, whole.toRat_eq, valueLocked]
    push_cast
    ring

theorem Charged.of_settles (covers : Wallet.Covers wallets intents) (ledgers : Ledgers intents)
    (found : findIn intents id = some i) (amount : p.amount.IsAmount)
    (settles : Settles p wallets i v left j) :
    Charged p.amount p.context.requestedAt v wallets i j left := by
  cases settles with
  | bypass bypass => exact .bypassed bypass
  | approved bypass approved spent =>
    exact .of_spend (ledgers.sound_of_findIn found) amount bypass approved spent
  | rejected bypass approved expired released =>
    exact .of_expire covers ledgers.sound (mem_of_findIn found) bypass approved expired released

theorem Charged.eq_of_bypass {d : Decimal} {time : Time}
    (charged : Charged d time v wallets i j left) (bypass : v.bypass = true) :
    j = i ∧ left = wallets := by
  cases charged with
  | bypassed => exact ⟨rfl, rfl⟩
  | approved calm => cases calm.symm.trans bypass
  | rejected calm => cases calm.symm.trans bypass
  | lapsed calm => cases calm.symm.trans bypass

end Intent

/-! ### The log of reputation -/

section

variable {b : Backend}

/-- Events are only ever added behind those that are there. -/
theorem EventLog.exists_appended (config : Config) (log : EventLog b) (drafts : List EventDraft) :
    ∃ appended, (drafts.foldl (EventLog.append config) log).rows = log.rows ++ appended := by
  induction drafts generalizing log with
  | nil => exact ⟨[], (List.append_nil _).symm⟩
  | cons d rest ih =>
    obtain ⟨later, added⟩ := ih (log.append config d)
    have first : ∃ rows, (log.append config d).rows = log.rows ++ rows := by
      unfold EventLog.append
      dsimp only
      split
      · exact ⟨_, rfl⟩
      · exact ⟨[], (List.append_nil _).symm⟩
    obtain ⟨rows, first⟩ := first
    exact ⟨rows ++ later, by rw [List.foldl_cons, added, first, List.append_assoc]⟩

/-- A command adds to the log of reputation what it adds behind what is there. -/
theorem World.exists_events_appended (config : Config) (now : Time) (w : World b) {c : Command}
    (served : c.recordsDirectly = false) :
    ∃ appended, (w.step config now c).2.store.events = w.store.events ++ appended := by
  let t : Twins b :=
    { config, start := w, first := w.outage, second := w.outage, refusals := rfl }
  have start : t.Alike {} w w :=
    ⟨rfl, rfl, rfl, rfl, ⟨rfl, rfl, rfl, rfl, rfl⟩, ⟨rfl, rfl, rfl, rfl, rfl⟩⟩
  obtain ⟨-, tried, stepped⟩ := t.blind_run now served start
  obtain ⟨appended, rows⟩ := EventLog.exists_appended config w.eventLog
    (surviving w.outage.events w.eventWrites tried.events)
  refine ⟨appended, ?_⟩
  have after : (w.step config now c).2.eventLog = _ := stepped.first.events
  exact (congrArg EventLog.rows after).trans rows

end

/-! ### The effect -/

theorem World.Reachable.vaults {w : World .memory} (reachable : w.Reachable) :
    Escrow.Vaults w.escrows := by
  induction reachable with
  | @start w empty =>
    have none_made : w.escrows = [] := by
      rw [World.escrows, empty]
      rfl
    rw [none_made]
    exact ⟨by simp, by simp⟩
  | @call w _ config now c _ _ kept => exact kept.moves (World.moves_step config w now c)
  | @aside w after _ same kept => simpa only [World.escrows, same] using kept

theorem World.Reachable.distinct {w : World .memory} (reachable : w.Reachable) : w.Distinct :=
  ⟨reachable.invariant.1.unique, reachable.vaults.unique⟩

/-- What a payment that returned has done, where both logs take their writes. -/
structure World.Pays (w : World .memory) (config : Config) (now : Time) (r : PaymentRequest)
    (d : Decimal) (m : Merchant) (result : PaymentResult) (after : World .memory) : Prop where
  /-- One record is logged: of the payer, with the amount to the cent and the verdict. -/
  record : result.record = .ofVerdict (Ids.transaction (w.ids.transactions + 1)) r.user m
    result.record.intentId now d result.verdict
  logged : after.records = w.records ++ [result.record]
  escrows : after.escrows = w.escrows
  others : ∀ user, user ≠ r.user → after.store.only user = w.store.only user
  /-- It went to the intent that it names or that was chosen for it. -/
  target : (Payment.ofRequest r (w.ids.transactions + 1) d m).target config w.intents =
    .ok result.record.intentId
  spared : result.verdict.bypass = true ∨ result.record.intentId = none →
    after.intents = w.intents ∧ after.wallets = w.wallets
  charged : ∀ id, result.record.intentId = some id → ∃ i j,
    Intent.findIn w.intents id = some i ∧ i.user = r.user ∧ result.intent = some j ∧
      after.intents = Intent.replaceIn w.intents id j ∧
      i.Charged d r.requestedAt result.verdict w.wallets j after.wallets
  events : ∃ appended, after.store.events = w.store.events ++ appended ∧
    appended.map (fun e => (e.user, e.kind)) =
      (Payment.ofRequest r (w.ids.transactions + 1) d m).marks result.verdict

section

variable {config : Config} {now : Time} {w next after : World .memory} {r : PaymentRequest}
  {result : PaymentResult} {escrows : List Escrow} {marks : List Mark}

/-- What a payment that returned has left behind the books. -/
theorem Sequel.paid (sequel : Sequel config now w (.pay r) (.ok (.payment result)) escrows marks) :
    escrows = w.escrows ∧ ∃ d m, r.amount.toAmount = .ok d ∧ config.directory r.merchant = .ok m ∧
      result.record = (Payment.ofRequest r (w.ids.transactions + 1) d m).record now
        result.record.intentId result.verdict ∧
      marks = (Payment.ofRequest r (w.ids.transactions + 1) d m).marks result.verdict := by
  cases sequel with
  | books books => cases books
  | pay brought known begun =>
    subst begun
    exact ⟨rfl, _, _, brought, known, rfl, rfl⟩

/-- Where a payment goes depends neither on its number nor on its merchant. -/
theorem Payment.target_ofRequest (config : Config) (intents : List Intent) (r : PaymentRequest)
    (d : Decimal) (number number' : Nat) (m m' : Merchant) :
    (Payment.ofRequest r number d m).target config intents =
      (Payment.ofRequest r number' d m').target config intents := by
  unfold Payment.target Payment.ofRequest
  rfl

theorem World.records_logging_healthy (healthy : ∀ n, w.outage.records n = false)
    (record : TransactionRecord) : (w.logging record).records = w.records ++ [record] := by
  rw [World.records_logging, healthy]
  exact if_neg Bool.false_ne_true

/-- What a payment that returned has made of the books. -/
theorem Turn.paid (turn : Turn config now w (.pay r) (.ok (.payment result)) next)
    (healthy : ∀ n, w.outage.records n = false) (ledgers : Intent.Ledgers w.intents)
    (covers : Wallet.Covers w.wallets w.intents) :
    next.records = w.records ++ [result.record] ∧ ∃ d, r.amount.toAmount = .ok d ∧
      (∃ number m, (Payment.ofRequest r number d m).target config w.intents =
        .ok result.record.intentId) ∧
      (result.record.intentId = none → next.intents = w.intents ∧ next.wallets = w.wallets) ∧
      ∀ id, result.record.intentId = some id → ∃ i j, Intent.findIn w.intents id = some i ∧
        i.user = r.user ∧ result.intent = some j ∧
        next.intents = Intent.replaceIn w.intents id j ∧
        i.Charged d r.requestedAt result.verdict w.wallets j next.wallets := by
  cases turn with
  | aside aside => cases aside
  | @payNowhere _ number d m p v brought known begun target judged =>
    subst begun
    refine ⟨World.records_logging_healthy healthy _, d, brought, ⟨number, m, target⟩,
      fun _ => ?_, ?_⟩
    · exact ⟨World.intents_logging _ _, World.wallets_logging _ _⟩
    · rintro id ⟨⟩
  | @pay _ number d m p v id i j left brought known begun target found judged settled =>
    subst begun
    have charged := Intent.Charged.of_settles covers ledgers found (isAmount_of_toAmount brought)
      settled
    obtain ⟨k, mem, same, payer, -⟩ := Payment.exists_of_target target
    have found' := Intent.findIn_of_mem ledgers.unique mem
    rw [same, found, Option.some.injEq] at found'
    subst found'
    have healthy' : ∀ n, ((w.withWallets left).withIntents
        (Intent.replaceIn w.intents id j)).outage.records n = false := healthy
    refine ⟨World.records_logging_healthy healthy' _, d, brought, ⟨number, m, target⟩, nofun, ?_⟩
    rintro _ ⟨⟩
    refine ⟨i, j, found, payer, rfl, World.intents_logging _ _, ?_⟩
    rw [World.wallets_logging]
    exact charged

namespace World

/-- No command changes which writes fail. -/
theorem outage_step (w : World .memory) {config : Config} {now : Time} {c : Command} :
    (w.step config now c).2.outage = w.outage := by
  obtain ⟨escrows, marks, -, proceeds⟩ := Service.step_sequel config now w c
  exact proceeds.outage

/-- Whatever calls brought a world about, where both logs take their writes, a payment that returns
logs one record and the events of its verdict, changes no escrow and nothing of other users, and of
the payer's intents and wallet only what its verdict says of the intent that it went to. -/
theorem payment_effect (reachable : w.Reachable) (records : ∀ n, w.outage.records n = false)
    (events : ∀ n, w.outage.events n = false)
    (done : w.step config now (.pay r) = (.ok (.payment result), after)) :
    ∃ d m, r.amount.toAmount = .ok d ∧ config.directory r.merchant = .ok m ∧
      w.Pays config now r d m result after := by
  obtain ⟨ledgers, covers⟩ := reachable.invariant
  obtain ⟨next, turn, same⟩ := Service.step_turn config now w (.pay r)
  obtain ⟨escrows, marks, sequel, proceeds⟩ := Service.step_sequel config now w (.pay r)
  obtain ⟨appended, added⟩ : ∃ appended,
      (w.step config now (.pay r)).2.store.events = w.store.events ++ appended :=
    exists_events_appended config now w rfl
  have others : ∀ user, some r.user ≠ some user →
      (w.step config now (.pay r)).2.store.only user = w.store.only user :=
    (Service.private_run Backend.memory_keepsOwners config now (.pay r) reachable.distinct).others
  rw [done] at turn same sequel proceeds added others
  obtain ⟨rfl, d, m, brought, known, record, rfl⟩ := sequel.paid
  obtain ⟨logged, d', brought', ⟨_, _, target⟩, nowhere, charged⟩ :=
    turn.paid records ledgers covers
  obtain rfl : d = d' := Except.ok.inj (brought.symm.trans brought')
  refine ⟨d, m, brought, known, ?_⟩
  constructor
  case record => exact record
  case logged => exact same.records.trans logged
  case escrows => exact proceeds.escrows
  case others => exact fun user apart => others user fun same => apart (Option.some.inj same).symm
  case target => exact (Payment.target_ofRequest config w.intents r d _ _ _ _).trans target
  case spared =>
    intro spared
    rw [same.intents, same.wallets]
    cases went : result.record.intentId with
    | none => exact nowhere went
    | some id =>
      have bypass : result.verdict.bypass = true := by simpa [went] using spared
      obtain ⟨i, j, found, -, -, replaced, charge⟩ := charged id went
      obtain ⟨rfl, wallets⟩ := charge.eq_of_bypass bypass
      exact ⟨replaced.trans (Intent.replaceIn_of_findIn ledgers.unique found), wallets⟩
  case charged =>
    rw [same.intents, same.wallets]
    exact charged
  case events =>
    refine ⟨appended, added, ?_⟩
    have marked := proceeds.marks events
    rw [World.marks, World.marks, added, List.map_append] at marked
    exact List.append_cancel_left marked

/-- A book for 25.50 goes to the reader's intent, which is approved. -/
theorem payment_effect_purchase :
    let opened := (Sample.start.step Sample.config Sample.today
      (.openWallet "reader" (.whole 100))).2
    let before := (opened.step Sample.config Sample.today
      (.createIntent "reader" "books" Sample.policy)).2
    ∃ result after m,
      before.step Sample.config Sample.today (.pay Sample.purchase) =
        (.ok (.payment result), after) ∧
      before.Pays Sample.config Sample.today Sample.purchase (.ofCents 2550) m result after ∧
      (result.record.intentId, result.record.approved, result.record.bypass) =
        (some (Ids.intent 1), true, false) := by
  intro opened before
  have intended : (Command.createIntent "reader" "books" Sample.policy).Regular :=
    Sample.policy_isBuilt
  have reachable : opened.Reachable :=
    (Reachable.start rfl).call Sample.config Sample.today trivial rfl
  have reachable' : before.Reachable := reachable.call Sample.config Sample.today intended rfl
  have healthy : before.outage = {} := (outage_step opened).trans (outage_step Sample.start)
  have known : (Reply.record? (before.step Sample.config Sample.today (.pay Sample.purchase)).1).map
      (fun r => (r.intentId, r.approved, r.bypass)) = some (some (Ids.intent 1), true, false) := by
    decide +kernel
  obtain ⟨record, known, shown⟩ := Option.map_eq_some_iff.mp known
  obtain ⟨result, returned, rfl⟩ := Reply.exists_of_record? known
  obtain ⟨d, m, brought, -, pays⟩ := payment_effect reachable' (fun _ => by rw [healthy])
    (fun _ => by rw [healthy]) (Prod.ext returned rfl)
  have whole : (Decimal.ofCents 2550).IsAmount := ⟨rfl, by decide⟩
  obtain rfl : Decimal.ofCents 2550 = d := by
    simpa [Sample.purchase, Numeral.toAmount_decimal whole] using brought
  exact ⟨result, _, m, Prod.ext returned rfl, pays, shown⟩

end World

end

end Earmark
