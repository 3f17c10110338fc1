import Earmark.Proofs.Flights

/-!
Payments, creations and cancellations in any order of their steps. Between the choice of an intent
and the commit others may spend or close it; the commit judges it as it then is. What holds between
any two steps (`Traffic.Safe`) keeps the ledgers, the wallets and the log in order
(`Traffic.interleavings_safe`).
-/

namespace Earmark

open Service

/-! ### Intents that payments race for -/

namespace Intent

variable {i j : Intent} {p : Payment} {v : Verdict} {wallets left : List Wallet}

/-- Times compare, and the fence of an intent that was spent was drawn before. -/
structure Ready (i : Intent) : Prop where
  timed : i.Timed
  fence : 0 < i.used.cents → i.policy.HasFence

theorem Ready.of_opened {id user text : String} {policy : Policy} {now : Time}
    (built : policy.IsBuilt) (aware : now.offset.isSome)
    (opened : opened id user text policy now = .ok i) : i.Ready := by
  refine ⟨.of_opened built aware opened, fun used => ?_⟩
  obtain ⟨expiresAt, -, rfl⟩ := opened_iff.mp opened
  exact absurd used (lt_irrefl 0)

theorem Ready.later (ready : i.Ready) (later : i.Precedes j) (sound : j.Sound)
    (used : j.used = i.used) : j.Ready :=
  ⟨ready.timed.later later sound, fun positive => later.policy ▸ ready.fence (used ▸ positive)⟩

/-- An approval passed the fence, so the fence can be drawn. -/
theorem Ready.settled (ready : i.Ready) (amount : p.amount.IsAmount) {thresholds : RiskThresholds}
    (judged : Verdict.validate thresholds (some i) p.merchant (.decimal p.amount) p.context = .ok v)
    (settled : Settled p wallets i v left j) : j.Ready := by
  have sound := settled.changes.sound ready.timed.sound
  have later := settled.changes.precedes
  cases settled with
  | bypass => exact ready
  | approved bypass approved spent =>
    have allows := Intent.Allows.of_validate ready.timed.sound amount judged bypass approved
    refine ⟨ready.timed.later later sound, fun _ => later.policy ▸ fun geo restricted named => ?_⟩
    obtain ⟨place, fence, -, -, fenced, -⟩ := (allows.admits.place geo restricted).city named
    exact ⟨fence, fenced⟩
  | rejected => exact ready.later later sound rfl
  | lapsed bypass approved closed => exact ready.later later sound closed.used

/-- Others have spent the intent meanwhile, or closed it. -/
def Overtaken (i j : Intent) : Prop := j.used.toRat ≠ i.used.toRat ∨ j.status ≠ i.status

/-- What was spent has a fence, and what was closed needs none. -/
theorem Ready.isJudgeable (ready : j.Ready) (sound : i.Sound) (later : i.Precedes j)
    (overtaken : i.Overtaken j) : j.IsJudgeable := by
  refine ⟨ready.timed, fun active => ?_⟩
  rcases overtaken with spent | closed
  · have more : i.used.toRat < j.used.toRat := lt_of_le_of_ne later.used spent.symm
    have less : i.used.cents < j.used.cents :=
      not_le.mp (mt (ready.timed.sound.used.toRat_le_iff sound.used).mpr (not_le.mpr more))
    exact ready.fence (sound.used_nonneg.trans_lt less)
  · by_cases before : i.status = .active
    · exact absurd (active.trans before.symm) closed
    · exact absurd (later.closed before).1 closed

end Intent

/-! ### Worlds between steps -/

/-- Whether a command may run beside payments: it opens a wallet, makes an intent of a built policy,
or cancels one. -/
def Command.RunsBeside : Command → Prop
  | .openWallet .. | .cancelIntent _ => True
  | .createIntent _ _ policy => policy.IsBuilt
  | _ => False

namespace Command.RunsBeside

variable {c : Command}

theorem regular (beside : c.RunsBeside) : c.Regular := by
  cases c with
  | createIntent => exact beside
  | addIntent => exact beside.elim
  | _ => trivial

theorem locksDirectly (beside : c.RunsBeside) : c.locksDirectly = false := by
  cases c with
  | lockFunds => exact beside.elim
  | releaseFunds => exact beside.elim
  | _ => rfl

theorem usesDirectly (beside : c.RunsBeside) : c.usesDirectly = false := by
  cases c with
  | useIntent => exact beside.elim
  | violateIntent => exact beside.elim
  | _ => rfl

end Command.RunsBeside

/-- A payment of an amount, asked for at a time with an offset, to a merchant with a place. -/
structure Payment.IsProper (p : Payment) : Prop where
  amount : p.amount.IsAmount
  aware : p.context.requestedAt.offset.isSome
  named : p.merchant.IsNamed

/-- What a judged payment takes of an intent, in cents. -/
def Payment.spends (p : Payment) (target : Option String) (v : Verdict) (id : String) : ℤ :=
  if target = some id then if v.approved && !v.bypass then p.amount.cents else 0 else 0

theorem Payment.spends_record (p : Payment) (now : Time) (target : Option String) (v : Verdict)
    (id : String) :
    (if (p.record now target v).intentId = some id then (p.record now target v).spentCents else 0) =
      p.spends target v id := rfl

theorem Payment.spends_some (p : Payment) (now : Time) (goal : String) (v : Verdict) (id : String) :
    (if goal = id then (p.record now (some goal) v).spentCents else 0) =
      p.spends (some goal) v id := by
  rw [← p.spends_record now]
  simp only [Payment.record_intentId, Option.some.injEq]

namespace World

/-- What holds between any two steps of payments in flight. -/
structure Sturdy (w : World .memory) : Prop where
  ledgers : Intent.Ledgers w.intents
  covers : Wallet.Covers w.wallets w.intents
  writes : ∀ n, w.outage.records n = false
  records : ∀ r ∈ w.records, r.amount.IsAmount
  ready : ∀ i ∈ w.intents, i.Ready

/-- What was spent of an intent, in cents, beyond what the log says of it. -/
def unlogged (w : World .memory) (id : String) : ℤ :=
  Intent.sumBy Intent.id w.intents id (·.used.cents) - w.logged id TransactionRecord.spentCents

/-- A step keeps the world sturdy and every intent, and adds so much of what is not logged yet. -/
structure Passes (w next : World .memory) (adds : String → ℤ) : Prop where
  sturdy : next.Sturdy
  later : ∀ i ∈ w.intents, ∃ j ∈ next.intents, i.Precedes j
  adds : ∀ id, next.unlogged id = w.unlogged id + adds id

variable {w next after : World .memory} {config : Config} {now : Time} {p : Payment}

theorem Sturdy.passes_same (sturdy : w.Sturdy) (same : w.SameBooks after) :
    w.Passes after fun _ => 0 where
  sturdy := by
    obtain ⟨ledgers, covers, writes, records, ready⟩ := sturdy
    exact ⟨same.intents ▸ ledgers, same.wallets ▸ same.intents ▸ covers, same.outage ▸ writes,
      same.records ▸ records, same.intents ▸ ready⟩
  later i mem := ⟨i, same.intents ▸ mem, .refl i⟩
  adds id := by rw [unlogged, unlogged, logged, logged, same.intents, same.records, add_zero]

theorem Passes.trans {first second : String → ℤ} (passes : w.Passes next first)
    (passes' : next.Passes after second) : w.Passes after fun id => first id + second id where
  sturdy := passes'.sturdy
  later i mem := by
    obtain ⟨j, mem, later⟩ := passes.later i mem
    obtain ⟨k, mem, later'⟩ := passes'.later j mem
    exact ⟨k, mem, later.trans later'⟩
  adds id := by rw [passes'.adds, passes.adds, add_assoc]

theorem Sturdy.passes_command (sturdy : w.Sturdy) (aware : now.offset.isSome) {c : Command}
    (beside : c.RunsBeside) : w.Passes (w.step config now c).2 fun _ => 0 := by
  obtain ⟨ledgers, covers, writes, records, ready⟩ := sturdy
  obtain ⟨next, turn, same⟩ := step_turn config now w c
  have added {number : Nat} {user text : String} {policy : Policy} {i : Intent}
      (built : policy.IsBuilt)
      (opened : Intent.opened (Ids.intent number) user text policy now = .ok i) :
      ∀ j ∈ w.intents ++ [i], j.Ready := by
    intro j mem
    rcases List.mem_append.mp mem with known | new
    · exact ready j known
    · obtain rfl := List.mem_singleton.mp new
      exact .of_opened built aware opened
  generalize (w.step config now c).1 = reply at turn
  have readyNext : ∀ i ∈ next.intents, i.Ready := by
    cases turn with
    | failed => exact ready
    | aside => exact ready
    | openWallet => exact ready
    | createIntent opened => exact added beside opened
    | createUnlocked opened => exact added beside opened
    | cancelIntent found cancelled =>
      have mem := Intent.mem_of_findIn found
      obtain ⟨closed, -⟩ := (ledgers.sound_of_findIn found).closed_of_cancel cancelled
      intro k known
      rcases Intent.mem_replaceIn known with rfl | ⟨known, -⟩
      · exact (ready _ mem).later closed.later closed.sound closed.used
      · exact ready k known
    | _ => exact beside.elim
  have turned : w.Passes next fun _ => 0 :=
    { sturdy :=
        { ledgers := ledgers.turn beside.regular turn
          covers := covers.turn beside.regular beside.locksDirectly turn ledgers
          writes := turn.records_cases.1 ▸ writes
          records := turn.amounts_logged records
          ready := readyNext }
      later := fun i mem => (turn.moves beside.regular ledgers).exists_later ledgers.unique mem
      adds := fun id => by
        have step := turn.counted beside.regular beside.usesDirectly ledgers writes counts_used id
        rw [unlogged, unlogged]
        omega }
  simpa using turned.trans (turned.sturdy.passes_same same)

theorem Sturdy.passes_commit (sturdy : w.Sturdy) (proper : p.IsProper) {id : String}
    {i j : Intent} {v : Verdict} {left : List Wallet} (found : Intent.findIn w.intents id = some i)
    (judged : Verdict.validate config.thresholds (some i) p.merchant (.decimal p.amount) p.context =
      .ok v) (settles : Settles p w.wallets i v left j) :
    w.Passes ((w.withWallets left).withIntents (Intent.replaceIn w.intents id j))
      (p.spends (some id) v) := by
  obtain ⟨ledgers, covers, writes, records, ready⟩ := sturdy
  have mem := Intent.mem_of_findIn found
  have settled := (ledgers.sound i mem).settled proper.amount settles
  have moves : Intent.Moves p.context.requestedAt w.intents (Intent.replaceIn w.intents id j) :=
    .changed found settled.changes
  refine ⟨⟨ledgers.moves moves, covers.settled ledgers found settled, writes, records, ?_⟩,
    fun k known => moves.exists_later ledgers.unique known, fun at_ => ?_⟩
  · intro k known
    rcases Intent.mem_replaceIn known with rfl | ⟨known, -⟩
    · exact (ready i mem).settled proper.amount judged settled
    · exact ready k known
  · have step := counts_used.sumBy_settled ledgers.unique found settled
      (Verdict.approved_of_bypass proper.amount judged) p.context.requestedAt at_
    rw [p.spends_some] at step
    simp only [unlogged, logged, intents_withIntents, records_withIntents, records_withWallets, step]
    ring

theorem Sturdy.passes_logging (sturdy : w.Sturdy) (proper : p.IsProper) (target : Option String)
    (v : Verdict) : w.Passes (w.logging (p.record now target v)) fun id => -p.spends target v id := by
  obtain ⟨ledgers, covers, writes, records, ready⟩ := sturdy
  refine ⟨⟨?_, ?_, ?_, ?_, ?_⟩, fun i mem => ⟨i, by simpa using mem, .refl i⟩, fun id => ?_⟩
  · simpa using ledgers
  · simpa using covers
  · simpa using writes
  · intro r mem
    rw [records_logging, writes] at mem
    rcases List.mem_append.mp mem with known | new
    · exact records r known
    · exact List.mem_singleton.mp new ▸ proper.amount
  · simpa using ready
  · rw [unlogged, unlogged, logged_logging w writes, intents_logging, p.spends_record]
    ring

end World

/-! ### The steps of a payment -/

namespace Flight

variable {config : Config} {now : Time} {w : World .memory} {f : Flight}

/-- The payment in flight is proper, and the intent that was chosen for it is there. -/
def Sound (intents : List Intent) : Flight → Prop
  | .begun p => p.IsProper
  | .resolved p target => p.IsProper ∧ ∀ id ∈ target, ∃ i ∈ intents, i.id = id
  | .committed p _ _ _ => p.IsProper
  | .logged .. | .ended _ => True

/-- What the payment has taken of an intent, in cents, before its record is logged. -/
def due (id : String) : Flight → ℤ
  | .committed p target v _ => p.spends target v id
  | _ => 0

theorem Sound.later {intents after : List Intent} (sound : f.Sound intents)
    (later : ∀ i ∈ intents, ∃ j ∈ after, i.Precedes j) : f.Sound after := by
  cases f with
  | resolved p target =>
    refine ⟨sound.1, fun id mem => ?_⟩
    obtain ⟨i, known, same⟩ := sound.2 id mem
    obtain ⟨j, known, precedes⟩ := later i known
    exact ⟨j, known, precedes.id.trans same⟩
  | _ => exact sound

/-- What a step of a payment keeps: the world, with what the payment has taken, and its promise. -/
def Keeps (w : World .memory) (taken : String → ℤ) (at_ : Flight × World .memory) : Prop :=
  (w.Passes at_.2 fun id => at_.1.due id - taken id) ∧ at_.1.Sound at_.2.intents

private theorem keeps_failed {after : World .memory} (sturdy : w.Sturdy) (same : w.SameBooks after)
    (failure : Failure) : Keeps w (fun _ => 0) (.ended (.error failure), after) :=
  ⟨by simpa [due] using sturdy.passes_same same, trivial⟩

theorem keeps_begin (named : ∀ id m, config.directory id = .ok m → m.IsNamed) (sturdy : w.Sturdy)
    {r : PaymentRequest} (aware : r.requestedAt.offset.isSome) :
    Keeps w (fun _ => 0) (begin config w r) := by
  obtain ⟨after, same, ⟨failure, failed⟩ | ⟨d, m, brought, known, began⟩⟩ :=
    runFrom_beginPayment config r w
  · rw [begin, failed]
    exact keeps_failed sturdy same failure
  · rw [begin, began]
    refine ⟨by simpa [land, due] using sturdy.passes_same same, ?_⟩
    exact ⟨isAmount_of_toAmount brought, aware, named r.merchant m known⟩

theorem keeps_resolve (sturdy : w.Sturdy) {p : Payment} (proper : p.IsProper) :
    Keeps w (fun _ => 0) ((Flight.begun p).advance config now w) := by
  rw [advance, runFrom_resolvePayment]
  cases target : p.target config w.intents with
  | error failure => exact keeps_failed sturdy (.refl w) failure
  | ok goal =>
    refine ⟨by simpa [land, due] using sturdy.passes_same (.refl w), proper, ?_⟩
    rintro id rfl
    obtain ⟨i, mem, same, -⟩ := Payment.exists_of_target target
    exact ⟨i, mem, same⟩

theorem keeps_commit (sturdy : w.Sturdy) {p : Payment} (proper : p.IsProper)
    (target : Option String) :
    Keeps w (fun _ => 0) ((Flight.resolved p target).advance config now w) := by
  rw [advance]
  cases target with
  | none =>
    rw [runFrom_commitPayment_none]
    cases Verdict.validate config.thresholds none p.merchant (.decimal p.amount) p.context with
    | error failure => exact keeps_failed sturdy (.refl w) failure
    | ok v =>
      change Keeps w _ (.committed p none v none, w)
      exact ⟨by simpa [due, Payment.spends] using sturdy.passes_same (.refl w), proper⟩
  | some id =>
    rcases runFrom_commitPayment_some config p id w with
      ⟨failure, failed⟩ | ⟨i, v, j, left, found, judged, settles, done⟩
    · rw [failed]
      exact keeps_failed sturdy (.refl w) failure
    · rw [done]
      exact ⟨by simpa [land, due] using sturdy.passes_commit proper found judged settles, proper⟩

/-- A record is logged, or its loss noted, and the payment goes on. -/
theorem advance_committed (config : Config) (now : Time) (p : Payment) (target : Option String)
    (v : Verdict) (intent : Option Intent) (w : World .memory) :
    ∃ after, (w.logging (p.record now target v)).SameBooks after ∧
      (Flight.committed p target v intent).advance config now w =
        (.logged p target { record := p.record now target v, verdict := v, intent }, after) := by
  obtain ⟨after, logged, same⟩ := runFrom_logPayment (p.record now target v) w
  refine ⟨after, same, ?_⟩
  change land _ ((logPayment (p.record now target v)).runFrom w) = _
  rw [logged]
  rfl

/-- Counting and reputation end a payment. -/
theorem advance_logged (config : Config) (now : Time) (p : Payment) (target : Option String)
    (result : PaymentResult) (w : World .memory) :
    ∃ after, w.SameBooks after ∧
      (Flight.logged p target result).advance config now w = (.ended (.ok result), after) := by
  have closing : Aside (do
      countPayment p target result.verdict
      rewardPayment config now p result.verdict) :=
    aside_bind (aside_countPayment p target _) (aside_rewardPayment config now p _)
  obtain ⟨after, done, same⟩ := closing w
  exact ⟨after, same, by rw [advance, done, land]⟩

theorem keeps_log (sturdy : w.Sturdy) {p : Payment} (proper : p.IsProper) (target : Option String)
    (v : Verdict) (intent : Option Intent) :
    Keeps w (p.spends target v) ((Flight.committed p target v intent).advance config now w) := by
  obtain ⟨after, same, logged⟩ := advance_committed config now p target v intent w
  have passes : w.Passes (w.logging (p.record now target v)) fun id => -p.spends target v id :=
    sturdy.passes_logging proper target v
  rw [logged]
  exact ⟨by simpa [due] using passes.trans (passes.sturdy.passes_same same), trivial⟩

theorem keeps_advance (sturdy : w.Sturdy) (sound : f.Sound w.intents) :
    Keeps w (fun id => f.due id) (f.advance config now w) := by
  cases f with
  | begun p => exact keeps_resolve sturdy sound
  | resolved p target => exact keeps_commit sturdy sound.1 target
  | committed p target v intent => exact keeps_log sturdy sound target v intent
  | logged p target result =>
    obtain ⟨after, same, done⟩ := advance_logged config now p target result w
    rw [done]
    exact ⟨by simpa [due] using sturdy.passes_same same, trivial⟩
  | ended result => exact ⟨by simpa [advance, due] using sturdy.passes_same (.refl w), trivial⟩

/-- What an approval takes of an intent can be spent, and what a rejection leaves can be unlocked. -/
theorem exists_settlePayment (sturdy : w.Sturdy) {p : Payment} (proper : p.IsProper) {i : Intent}
    (mem : i ∈ w.intents) {v : Verdict}
    (judged : Verdict.validate config.thresholds (some i) p.merchant (.decimal p.amount) p.context =
      .ok v) : ∃ settled, ((settlePayment config p i).runFrom w).1 = .ok settled := by
  have timed := (sturdy.ready i mem).timed
  simp only [settlePayment, judgePayment, judged, runFrom_check_ok]
  cases bypass : v.bypass with
  | true => exact ⟨_, rfl⟩
  | false =>
    simp only [Bool.false_eq_true, ↓reduceIte]
    cases approved : v.approved with
    | true =>
      have allows := Intent.Allows.of_validate timed.sound proper.amount judged bypass approved
      obtain ⟨used, added, -, -⟩ :=
        timed.sound.used.below.exists_add proper.amount.below (by decide)
      have spent : i.spend (.decimal p.amount) = .ok (i.spending used) :=
        timed.sound.spend_ok_iff.mpr ⟨p.amount, Numeral.toAmount_decimal proper.amount,
          allows.active, allows.positive, allows.within, used, added, rfl⟩
      simp only [↓reduceIte, spent, runFrom_check_ok]
      exact ⟨_, rfl⟩
    | false =>
      have violated : i.recordViolation.Timed :=
        timed.later (Intent.precedes_recordViolation i) timed.sound.recordViolation
      obtain ⟨⟨rest, after⟩, expired⟩ := violated.exists_expire proper.aware
      have unlocked := sturdy.covers.unlocks sturdy.ledgers i mem rest after
        (.inr ⟨_, expired⟩) w (.refl w)
      simp only [Bool.false_eq_true, ↓reduceIte, expired, runFrom_check_ok]
      rw [runFrom_bind, show (releaseRest i rest).runFrom w =
        (.ok (), ((releaseRest i rest).runFrom w).2) from Prod.ext unlocked rfl]
      exact ⟨_, rfl⟩

/-- A payment that is judged is committed, with the verdict on the intent as it is. -/
theorem exists_committed (sturdy : w.Sturdy) {p : Payment} (proper : p.IsProper) {id : String}
    {i : Intent} (found : Intent.findIn w.intents id = some i) {v : Verdict}
    (judged : Verdict.validate config.thresholds (some i) p.merchant (.decimal p.amount) p.context =
      .ok v) :
    ∃ j, ((Flight.resolved p (some id)).advance config now w).1 =
      .committed p (some id) v (some j) := by
  obtain ⟨settled, done⟩ := exists_settlePayment sturdy proper (Intent.mem_of_findIn found) judged
  have updated := runFrom_updateIntent w id (settlePayment config p)
  simp only [found] at updated
  rcases runFrom_commitPayment_some config p id w with
    ⟨failure, failed⟩ | ⟨k, v', j, left, found', judged', -, committed⟩
  · have ran : (settlePayment config p i).runFrom w =
        (.ok settled, ((settlePayment config p i).runFrom w).2) := Prod.ext done rfl
    rw [ran] at updated
    rw [commitPayment, runFrom_bind_ok updated] at failed
    cases failed
  · obtain rfl : i = k := by simpa [found] using found'
    obtain rfl : v = v' := by simpa [judged] using judged'
    exact ⟨j, by rw [advance, committed, land]⟩

/-- A verdict was given, and the payment ends with it if it ends. -/
def Judged (v : Verdict) : Flight → Prop
  | .committed _ _ v' _ => v' = v
  | .logged _ _ result => result.verdict = v
  | .ended result => ∃ done, result = .ok done ∧ done.verdict = v
  | .begun _ | .resolved .. => False

/-- The intent that a payment waits to be committed with. -/
def chosen? : Flight → Option String
  | .resolved _ target => target
  | .begun _ | .committed .. | .logged .. | .ended _ => none

/-- The verdict on a payment that waits to be logged. -/
def verdict? : Flight → Option Verdict
  | .committed _ _ v _ => some v
  | .begun _ | .resolved .. | .logged .. | .ended _ => none

theorem exists_of_chosen? {id : String} (chosen : f.chosen? = some id) :
    ∃ p, f = .resolved p (some id) := by
  cases f <;> cases chosen
  exact ⟨_, rfl⟩

/-- After the commit no step of a payment fails. -/
theorem Judged.advance {v : Verdict} (judged : f.Judged v) :
    (f.advance config now w).1.Judged v := by
  cases f with
  | begun => exact judged.elim
  | resolved => exact judged.elim
  | committed p target v' intent =>
    obtain ⟨after, -, logged⟩ := advance_committed config now p target v' intent w
    rw [logged]
    exact judged
  | logged p target result =>
    obtain ⟨after, -, done⟩ := advance_logged config now p target result w
    rw [done]
    exact ⟨result, rfl, judged⟩
  | ended result => exact judged

end Flight

/-! ### Traffic -/

private theorem sum_map_set {α : Type} (g : α → ℤ) {xs : List α} {n : ℕ} {x : α} (y : α)
    (at_ : xs[n]? = some x) : ((xs.set n y).map g).sum = (xs.map g).sum - g x + g y := by
  induction xs generalizing n with
  | nil => simp at at_
  | cons first rest ih =>
    cases n with
    | zero =>
      obtain rfl : first = x := by simpa using at_
      simp only [List.set_cons_zero, List.map_cons, List.sum_cons]
      omega
    | succ n =>
      have step := ih (by simpa using at_)
      simp only [List.set_cons_succ, List.map_cons, List.sum_cons, step]
      omega

namespace Traffic

/-- Whether an action may happen: the clock and requests have offsets, and a command runs beside
payments. -/
def Action.Allowed : Action → Prop
  | .command now c => now.offset.isSome ∧ c.RunsBeside
  | .begin r => r.requestedAt.offset.isSome
  | .advance .. => True

/-- What holds after every step, of whatever payment: the world is sturdy, payments keep their
promises, and what they have taken and not logged is all that the log lacks. -/
structure Safe (t : Traffic) : Prop where
  sturdy : t.world.Sturdy
  sound : ∀ f ∈ t.flights, f.Sound t.world.intents
  balanced : ∀ id, t.world.unlogged id = (t.flights.map (·.due id)).sum

/-- Every intent is still there, in a later state. -/
def Follows (t next : Traffic) : Prop :=
  ∀ i ∈ t.world.intents, ∃ j ∈ next.world.intents, i.Precedes j

variable {config : Config} {t : Traffic} {action : Action} {actions : List Action}

theorem Safe.step (named : ∀ id m, config.directory id = .ok m → m.IsNamed) (safe : t.Safe)
    (allowed : action.Allowed) : (t.step config action).Safe ∧ t.Follows (t.step config action) := by
  obtain ⟨sturdy, sound, balanced⟩ := safe
  cases action with
  | command now c =>
    have passes : t.world.Passes (t.world.step config now c).2 fun _ => 0 :=
      sturdy.passes_command allowed.1 allowed.2
    exact ⟨⟨passes.sturdy, fun f mem => (sound f mem).later passes.later,
      fun id => by simpa [Traffic.step, balanced] using passes.adds id⟩, passes.later⟩
  | begin r =>
    obtain ⟨passes, promised⟩ := Flight.keeps_begin named sturdy allowed
    refine ⟨⟨passes.sturdy, fun f mem => ?_, fun id => ?_⟩, passes.later⟩
    · rcases List.mem_append.mp mem with known | new
      · exact (sound f known).later passes.later
      · exact List.mem_singleton.mp new ▸ promised
    · simpa [Traffic.step, balanced] using passes.adds id
  | advance n now =>
    cases at_ : t.flights[n]? with
    | none =>
      have same : t.step config (.advance n now) = t := by simp only [Traffic.step, at_]
      rw [same]
      exact ⟨⟨sturdy, sound, balanced⟩, fun i mem => ⟨i, mem, .refl i⟩⟩
    | some f =>
      have steps : t.step config (.advance n now) =
          { world := (f.advance config now t.world).2
            flights := t.flights.set n (f.advance config now t.world).1 } := by
        simp only [Traffic.step, at_]
      obtain ⟨passes, promised⟩ :
          Flight.Keeps t.world (fun id => f.due id) (f.advance config now t.world) :=
        Flight.keeps_advance sturdy (sound f (List.mem_of_getElem? at_))
      rw [steps]
      refine ⟨⟨passes.sturdy, fun g mem => ?_, fun id => ?_⟩, passes.later⟩
      · rcases List.mem_or_eq_of_mem_set mem with known | rfl
        · exact (sound g known).later passes.later
        · exact promised
      · have added := passes.adds id
        rw [sum_map_set (·.due id) _ at_, ← balanced]
        dsimp only at added ⊢
        omega

theorem Safe.after (named : ∀ id m, config.directory id = .ok m → m.IsNamed) (safe : t.Safe)
    (allowed : ∀ action ∈ actions, action.Allowed) :
    (t.after config actions).Safe ∧ t.Follows (t.after config actions) := by
  induction actions generalizing t with
  | nil => exact ⟨safe, fun i mem => ⟨i, mem, .refl i⟩⟩
  | cons action rest ih =>
    obtain ⟨safe', later⟩ := safe.step named (allowed action (by simp))
    obtain ⟨safe'', later'⟩ := ih safe' fun other mem => allowed other (by simp [mem])
    refine ⟨safe'', fun i mem => ?_⟩
    obtain ⟨j, mem, precedes⟩ := later i mem
    obtain ⟨k, mem, precedes'⟩ := later' j mem
    exact ⟨k, mem, precedes.trans precedes'⟩

/-- The payment of a number was given a verdict, and has not failed. -/
def Judged (t : Traffic) (n : ℕ) (v : Verdict) : Prop := ∃ f, t.flights[n]? = some f ∧ f.Judged v

theorem Judged.step {n : ℕ} {v : Verdict} (judged : t.Judged n v) :
    (t.step config action).Judged n v := by
  obtain ⟨f, at_, judged⟩ := judged
  have bound : n < t.flights.length := (List.getElem?_eq_some_iff.mp at_).1
  cases action with
  | command now c => exact ⟨f, at_, judged⟩
  | begin r => exact ⟨f, (List.getElem?_append_left bound).trans at_, judged⟩
  | advance m now =>
    cases other : t.flights[m]? with
    | none =>
      have same : t.step config (.advance m now) = t := by simp only [Traffic.step, other]
      rw [same]
      exact ⟨f, at_, judged⟩
    | some g =>
      have steps : (t.step config (.advance m now)).flights =
          t.flights.set m (g.advance config now t.world).1 := by simp only [Traffic.step, other]
      rw [Judged, steps]
      by_cases same : m = n
      · subst same
        obtain rfl : g = f := by simpa [other] using at_
        exact ⟨_, List.getElem?_set_self bound, judged.advance⟩
      · exact ⟨f, (List.getElem?_set_ne same).trans at_, judged⟩

theorem Judged.after {n : ℕ} {v : Verdict} (judged : t.Judged n v) :
    (t.after config actions).Judged n v := by
  induction actions generalizing t with
  | nil => exact judged
  | cons action rest ih => exact ih judged.step

theorem Safe.of_empty {start : World .memory} (empty : start.store = {})
    (writes : ∀ n, start.outage.records n = false) : Safe { world := start } where
  sturdy :=
    { ledgers := .of_empty empty
      covers := .of_empty empty
      writes := writes
      records := by simp [World.records_of_empty empty]
      ready := by simp [World.intents_of_empty empty] }
  sound := by simp
  balanced := by
    simp [World.unlogged, World.logged, World.records_of_empty empty,
      World.intents_of_empty empty, Intent.sumBy]

/-- No payment is in flight. -/
def Quiet (t : Traffic) : Prop := ∀ f ∈ t.flights, ∃ result, f = .ended result

theorem Safe.reconciled (safe : t.Safe) (quiet : t.Quiet) {i : Intent}
    (mem : i ∈ t.world.intents) :
    i.used.toRat = ((t.world.spending i.id).map (·.amount.toRat)).sum := by
  have nothing_due : (t.flights.map (·.due i.id)).sum = 0 := by
    refine List.sum_eq_zero fun x known => ?_
    obtain ⟨f, flying, rfl⟩ := List.mem_map.mp known
    obtain ⟨result, rfl⟩ := quiet f flying
    rfl
  have logged := (safe.balanced i.id).trans nothing_due
  rw [World.unlogged, Intent.sumBy_id_of_mem safe.sturdy.ledgers.unique mem, sub_eq_zero] at logged
  rw [(safe.sturdy.ledgers.sound i mem).used.toRat_eq, logged,
    World.sum_spending safe.sturdy.records]

/-- The commit of a payment whose intent others have spent or closed since it was chosen. -/
theorem Safe.committed (finite : config.thresholds.highValue.isFinite) (safe : t.Safe) {n : ℕ}
    {p : Payment} {id : String} (at_ : t.flights[n]? = some (.resolved p (some id))) {i j : Intent}
    (sound : i.Sound) (later : i.Precedes j) (mem : j ∈ t.world.intents) (same : j.id = id)
    (overtaken : i.Overtaken j) :
    ∃ v, Verdict.validate config.thresholds (some j) p.merchant (.decimal p.amount) p.context =
        .ok v ∧ ∀ now, ∃ k, (t.step config (.advance n now)).flights[n]? =
          some (.committed p (some id) v (some k)) := by
  have proper : p.IsProper := (safe.sound _ (List.mem_of_getElem? at_)).1
  have judgeable : ∀ k ∈ some j, k.IsJudgeable := fun k known =>
    Option.some.inj known ▸ (safe.sturdy.ready j mem).isJudgeable sound later overtaken
  obtain ⟨v, judged⟩ :=
    Verdict.exists_validate finite judgeable proper.named proper.amount proper.aware
  have found := Intent.findIn_of_mem safe.sturdy.ledgers.unique mem
  rw [same] at found
  refine ⟨v, judged, fun now => ?_⟩
  obtain ⟨k, committed⟩ : ∃ k, ((Flight.resolved p (some id)).advance config now t.world).1 =
      .committed p (some id) v (some k) :=
    Flight.exists_committed safe.sturdy proper found judged
  refine ⟨k, ?_⟩
  simp only [Traffic.step, at_, ← committed]
  exact List.getElem?_set_self (List.getElem?_eq_some_iff.mp at_).1

/-- However the steps of any number of payments, creations and cancellations follow one another, in
every state between two steps: what was used of an intent lies between zero and its limit; each
wallet has locked exactly what was used of its owner's intents and what remains of the active ones;
when no payment is in flight, what was used of an intent is what the log says; and a payment whose
intent others have spent or closed since it was chosen is committed, with the verdict on the intent
as it then is, and from there on does not fail. -/
theorem interleavings_safe {start : World .memory} (empty : start.store = {})
    (writes : ∀ n, start.outage.records n = false)
    (named : ∀ id m, config.directory id = .ok m → m.IsNamed)
    (finite : config.thresholds.highValue.isFinite)
    (allowed : ∀ action ∈ actions, action.Allowed)
    (reached : Traffic.after config { world := start } actions = t) :
    (∀ i ∈ t.world.intents, 0 ≤ i.used.toRat ∧ i.used.toRat ≤ i.limit.toRat) ∧
      (∀ wallet ∈ t.world.wallets, t.world.Conserves wallet) ∧
      (t.Quiet → ∀ i ∈ t.world.intents,
        i.used.toRat = ((t.world.spending i.id).map (·.amount.toRat)).sum) ∧
      ∀ n p id, t.flights[n]? = some (.resolved p (some id)) →
        ∃ i ∈ t.world.intents, i.id = id ∧ ∀ more, (∀ action ∈ more, action.Allowed) →
          ∀ next, t.after config more = next →
            next.flights[n]? = some (.resolved p (some id)) →
            ∃ j ∈ next.world.intents, i.Precedes j ∧ (i.Overtaken j →
              ∃ v, Verdict.validate config.thresholds (some j) p.merchant (.decimal p.amount)
                  p.context = .ok v ∧
                ∀ now, (∃ k, (next.step config (.advance n now)).flights[n]? =
                    some (.committed p (some id) v (some k))) ∧
                  ∀ last, ((next.step config (.advance n now)).after config last).Judged n v) := by
  obtain ⟨safe, -⟩ := (Safe.of_empty empty writes).after named allowed
  rw [reached] at safe
  have ledgers := safe.sturdy.ledgers
  refine ⟨fun i mem => ?_, fun wallet mem => safe.sturdy.covers.conserves ledgers mem,
    fun quiet i mem => safe.reconciled quiet mem, fun n p id at_ => ?_⟩
  · have sound := ledgers.sound i mem
    refine ⟨?_, (sound.used.toRat_le_iff sound.limit).mpr sound.used_le⟩
    rw [sound.used.toRat_eq]
    exact div_nonneg (by exact_mod_cast sound.used_nonneg) (by norm_num)
  · obtain ⟨i, mem, same⟩ := (safe.sound _ (List.mem_of_getElem? at_)).2 id rfl
    refine ⟨i, mem, same, fun more allowed' next passed at_' => ?_⟩
    obtain ⟨safe', later⟩ := safe.after named allowed'
    rw [passed] at safe' later
    obtain ⟨j, known, precedes⟩ := later i mem
    refine ⟨j, known, precedes, fun overtaken => ?_⟩
    obtain ⟨v, judged, commits⟩ := safe'.committed finite at_' (ledgers.sound i mem) precedes known
      (precedes.id.trans same) overtaken
    refine ⟨v, judged, fun now => ⟨commits now, fun last => Judged.after ?_⟩⟩
    obtain ⟨k, committed⟩ := commits now
    exact ⟨_, committed, rfl⟩

end Traffic

namespace Sample

/-- Forty for books. -/
def books : PaymentRequest :=
  { user := "reader", merchant := "MRC001", amount := .whole 40, requestedAt := today }

/-- Two payments of forty for which the same intent of sixty is chosen. -/
def race : List Traffic.Action :=
  [.command today (.openWallet "reader" (.whole 100)),
   .command today (.createIntent "reader" "books" policy), .begin books, .begin books,
   .advance 0 today, .advance 1 today]

end Sample

/-- The first of two payments that race for an intent takes what the second would need, which is then
rejected and not failed. -/
theorem Traffic.interleavings_safe_race :
    let chosen := Traffic.after Sample.config { world := Sample.start } Sample.race
    let overtaken := chosen.after Sample.config [.advance 0 Sample.today]
    let lost := overtaken.step Sample.config (.advance 1 Sample.today)
    (∀ wallet ∈ chosen.world.wallets, chosen.world.Conserves wallet) ∧
      ∃ v, v.approved = false ∧ ∀ last, (lost.after Sample.config last).Judged 1 v := by
  intro chosen overtaken lost
  have allowed : ∀ action ∈ Sample.race, action.Allowed := by
    simp [Sample.race, Action.Allowed, Command.RunsBeside, Sample.policy_isBuilt, Sample.today,
      Sample.books]
  have fit := Config.isRegular_catalog
  obtain ⟨-, conserves, -, raced⟩ := interleavings_safe (rfl : Sample.start.store = {})
    (fun _ => rfl) fit.named fit.highValue allowed (rfl : _ = chosen)
  refine ⟨conserves, ?_⟩
  have resolved : (chosen.flights[1]?.bind Flight.chosen?).isSome := by decide +kernel
  obtain ⟨id, resolved⟩ := Option.isSome_iff_exists.mp resolved
  obtain ⟨f, at_, chooses⟩ := Option.bind_eq_some_iff.mp resolved
  obtain ⟨p, rfl⟩ := Flight.exists_of_chosen? chooses
  have waits : overtaken.flights[1]? = some (.resolved p (some id)) := by
    have steps : overtaken = chosen.step Sample.config (.advance 0 Sample.today) := rfl
    rw [steps, Traffic.step]
    split
    · exact at_
    · exact (List.getElem?_set_ne (by decide)).trans at_
  have fresh : ∀ i ∈ chosen.world.intents, i.used = .zero := by decide +kernel
  have spent : ∀ j ∈ overtaken.world.intents, j.used = .ofCents 4000 := by decide +kernel
  have rejected : (lost.flights[1]?.bind Flight.verdict?).map (·.approved) = some false := by
    decide +kernel
  obtain ⟨i, mem, -, raced⟩ := raced 1 p id at_
  obtain ⟨j, known, -, commits⟩ :=
    raced [.advance 0 Sample.today] (by simp [Action.Allowed]) overtaken rfl waits
  have more : j.used.toRat ≠ i.used.toRat := by
    rw [fresh i mem, spent j known]
    norm_num [Decimal.toRat, Decimal.zero, Decimal.ofCents, Decimal.signed]
  obtain ⟨v, -, committed⟩ := commits (.inl more)
  obtain ⟨⟨k, at_'⟩, judged⟩ := committed Sample.today
  rw [show lost.flights[1]? = _ from at_'] at rejected
  exact ⟨v, Option.some.inj rejected, judged⟩

end Earmark
