import Earmark.Proofs.EscrowRuns
import Earmark.Proofs.Isolation
import Earmark.Proofs.StoredEscrows

/-!
What a command does behind the books. Every command, in whatever state it runs, has one of the
sequels of `Sequel`, which say what it makes of the escrows and which events it appends to the
reputation log (`step_sequel`); a payment takes one number, and nothing else takes one. So no two
escrows share an id, and each keeps its terms and its completed milestones (`Vaults.after`).
-/

namespace Earmark

/-- Whose reputation an event moves, and how. -/
abbrev Mark := String × EventKind

/-- The marks that a judged payment leaves. -/
def Payment.marks (p : Payment) (v : Verdict) : List Mark :=
  if v.bypass then [(p.user, .emergencyOverride)]
  else if v.approved then
    (p.user, .intentCompliance) ::
      if p.context.proof then [(p.user, .proofSubmitted)] else []
  else [(p.user, .intentViolationAttempt)]

/-- How many numbers of payments a command takes. -/
def Command.payments : Command → Nat
  | .pay _ => 1
  | _ => 0

namespace World

/-- The marks in the reputation log, in their order. -/
def marks (w : World .memory) : List Mark := w.store.events.map fun e => (e.user, e.kind)

/-- From a world on, so many numbers of payments are taken and such marks left, where the log of
events takes its writes, and the escrows become what is given. -/
structure Proceeds (w after : World .memory) (escrows : List Escrow) (payments : Nat)
    (marks : List Mark) : Prop where
  escrows : after.escrows = escrows
  transactions : after.ids.transactions = w.ids.transactions + payments
  outage : after.outage = w.outage
  marks : (∀ n, w.outage.events n = false) → after.marks = w.marks ++ marks

theorem Proceeds.trans {w middle after : World .memory} {escrows escrows' : List Escrow}
    {payments payments' : Nat} {marks marks' : List Mark}
    (first : w.Proceeds middle escrows payments marks)
    (second : middle.Proceeds after escrows' payments' marks') :
    w.Proceeds after escrows' (payments + payments') (marks ++ marks') where
  escrows := second.escrows
  transactions := by rw [second.transactions, first.transactions, Nat.add_assoc]
  outage := second.outage.trans first.outage
  marks := by
    intro healthy
    rw [second.marks fun n => first.outage ▸ healthy n, first.marks healthy, List.append_assoc]

theorem Proceeds.of_background {w after : World .memory} (same : after.background = w.background) :
    w.Proceeds after w.escrows 0 [] where
  escrows := congrArg (·.1) same
  transactions := congrArg (·.2.2.1.transactions) same
  outage := congrArg (·.2.2.2) same
  marks := by
    intro _
    have events : after.store.events = w.store.events := congrArg (·.2.1) same
    rw [World.marks, events, List.append_nil, World.marks]

end World

namespace Service

variable {α β : Type}

theorem Keeps.proceeds {op : Service .memory α} (kept : Keeps World.background op)
    (w : World .memory) : w.Proceeds (op.runFrom w).2 w.escrows 0 [] :=
  .of_background (kept w)

/-! ### What leaves marks -/

theorem proceeds_recorded (config : Config) (d : EventDraft) (w : World .memory)
    (journal : List LogEntry) (tallies : List Tally) :
    w.Proceeds { w.recorded config d with journal, tallies } w.escrows 0 [(d.user, d.kind)] := by
  unfold World.recorded
  split
  · rename_i down
    refine ⟨rfl, rfl, rfl, fun healthy => ?_⟩
    rw [healthy] at down
    cases down
  · exact ⟨rfl, rfl, rfl, fun _ => List.map_append⟩

/-- The operation gives a result, and does nothing behind the books but leave marks. -/
def Leaves (marks : List Mark) (a : α) (op : Service .memory α) : Prop :=
  ∀ w : World .memory, ∃ after, op.runFrom w = (.ok a, after) ∧
    w.Proceeds after w.escrows 0 marks

theorem leaves_bind {op : Service .memory α} {next : α → Service .memory β} {a : α} {b : β}
    {marks marks' : List Mark} (first : Leaves marks a op) (rest : Leaves marks' b (next a)) :
    Leaves (marks ++ marks') b (op >>= next) := by
  intro w
  obtain ⟨middle, done, proceeds⟩ := first w
  obtain ⟨after, done', proceeds'⟩ := rest middle
  refine ⟨after, by rw [runFrom_bind_ok done, done'], ?_⟩
  have passed := proceeds.trans proceeds'
  rwa [proceeds.escrows] at passed

theorem leaves_ite {condition : Prop} [Decidable condition] {op other : Service .memory α} {a : α}
    {marks marks' : List Mark} (first : Leaves marks a op) (second : Leaves marks' a other) :
    Leaves (if condition then marks else marks') a (if condition then op else other) := by
  split
  · exact first
  · exact second

theorem leaves_pure (a : α) : Leaves [] a (pure a) := fun w => ⟨w, rfl, .of_background rfl⟩

theorem leaves_bind_pure {op : Service .memory α} {a : α} {marks : List Mark}
    (first : Leaves marks a op) (b : β) : Leaves marks b (op >>= fun _ => pure b) := by
  have both : Leaves (marks ++ []) b (op >>= fun _ => pure b) := leaves_bind first (leaves_pure b)
  rwa [List.append_nil] at both

theorem leaves_of_sure {op : Service .memory Unit} (sure : Sure op)
    (kept : Keeps World.background op) : Leaves [] () op := by
  intro w
  obtain ⟨_, after, done⟩ := sure w
  have proceeds := kept.proceeds w
  rw [done] at proceeds
  exact ⟨after, done, proceeds⟩

theorem leaves_note (entry : LogEntry) : Leaves [] () (note entry) :=
  leaves_of_sure (sure_modify _) (keepsBackground_note entry)

theorem leaves_tally (t : Tally) : Leaves [] () (tally t) :=
  leaves_of_sure (sure_modify _) (keepsBackground_tally t)

theorem leaves_follow (config : Config) (now : Time) (user : String) (kind : EventKind)
    (description : String) :
    Leaves [(user, kind)] () (follow config now user kind description) := by
  intro w
  obtain ⟨journal, tallies, done⟩ := runFrom_follow config ⟨user, kind, description, now⟩ w
  exact ⟨_, done, proceeds_recorded config ⟨user, kind, description, now⟩ w journal tallies⟩

/-- What follows a change that counts for reputation if a condition holds. -/
theorem leaves_followed (config : Config) (now : Time) (entry : LogEntry) (rewards : Bool)
    (user : String) (kind : EventKind) (description : String) (a : α) :
    Leaves (if rewards then [(user, kind)] else []) a (do
      note entry
      if rewards then follow config now user kind description
      return a) :=
  leaves_bind (leaves_note _)
    (leaves_ite (leaves_bind_pure (leaves_follow _ _ _ _ _) a) (leaves_pure a))

theorem leaves_rewardPayment (config : Config) (now : Time) (p : Payment) (v : Verdict) :
    Leaves (p.marks v) () (rewardPayment config now p v) :=
  leaves_ite (leaves_bind (leaves_note _) (leaves_follow _ _ _ _ _))
    (leaves_ite (leaves_bind (leaves_follow _ _ _ _ _) (leaves_ite (leaves_follow _ _ _ _ _)
      (leaves_pure ()))) (leaves_follow _ _ _ _ _))

/-- What follows the commit of a payment leaves its marks. -/
theorem leaves_concluded (config : Config) (now : Time) (p : Payment) (target : Option String)
    (v : Verdict) (a : α) :
    Leaves (p.marks v) a (do
      logPayment (p.record now target v)
      countPayment p target v
      rewardPayment config now p v
      return a) :=
  leaves_bind (leaves_of_sure (sure_logPayment _) (keepsBackground_logPayment _))
    (leaves_bind (leaves_of_sure (sure_of_aside (aside_countPayment _ _ _))
      (keepsBackground_countPayment _ _ _))
    (leaves_bind_pure (leaves_rewardPayment config now p v) a))

/-- A payment takes its number before anything can fail. -/
theorem proceeds_beginPayment (config : Config) (r : PaymentRequest) (w : World .memory) :
    w.Proceeds ((beginPayment config r).runFrom w).2 w.escrows 1 [] := by
  simp only [beginPayment, runFrom_get_bind, runFrom_modify_bind]
  have numbered : w.Proceeds { w with ids := { w.ids with transactions := w.ids.transactions + 1 } }
      w.escrows 1 [] := ⟨rfl, rfl, rfl, fun _ => (List.append_nil _).symm⟩
  exact numbered.trans (Keeps.proceeds
    (keeps_bind (keeps_check _) fun _ => keeps_bind (keeps_check _) fun _ => keeps_pure _) _)

/-- Whatever a payment goes to, its verdict is one of the pipeline's. -/
theorem judged_of_commitPayment {config : Config} {p : Payment} {target : Option String}
    {w after : World .memory} {v : Verdict} {intent : Option Intent}
    (done : (commitPayment config p target).runFrom w = (.ok (v, intent), after)) :
    ∃ judged, Verdict.validate config.thresholds judged p.merchant (.decimal p.amount) p.context =
      .ok v := by
  cases target with
  | none =>
    rw [runFrom_commitPayment_none] at done
    cases judged : Verdict.validate config.thresholds none p.merchant (.decimal p.amount)
        p.context with
    | error failure =>
      rw [judged] at done
      cases done
    | ok v' =>
      rw [judged] at done
      cases done
      exact ⟨none, judged⟩
  | some id =>
    rcases runFrom_commitPayment_some config p id w with
      ⟨failure, failed⟩ | ⟨i, v', j, left, -, judged, -, ran⟩
    · rw [failed] at done
      cases done
    · rw [ran] at done
      cases done
      exact ⟨some i, judged⟩

end Service

/-! ### Sequels -/

/-- Whether a command does nothing behind the books. -/
def Command.keepsToBooks : Command → Bool
  | .openWallet .. | .lockFunds .. | .releaseFunds .. | .addIntent .. | .useIntent ..
  | .violateIntent .. | .cancelIntent .. => true
  | _ => false

/-- What a command answers and makes of the escrows, and the marks that it leaves. -/
inductive Sequel (config : Config) (now : Time) (w : World .memory) :
    Command → Except Failure Reply → List Escrow → List Mark → Prop
  | failed {c : Command} {failure : Failure} : Sequel config now w c (.error failure) w.escrows []
  | books {c : Command} {reply : Except Failure Reply} (books : c.keepsToBooks = true) :
      Sequel config now w c reply w.escrows []
  | createIntent {user text : String} {policy : Policy} {i : Intent} :
      Sequel config now w (.createIntent user text policy) (.ok (.intent i)) w.escrows
        (if config.rewards then [(user, .intentCreated)] else [])
  | pay {request : PaymentRequest} {d : Decimal} {m : Merchant} {p : Payment} {v : Verdict}
      {target : Option String} {judged after : Option Intent}
      (brought : request.amount.toAmount = .ok d)
      (known : config.directory request.merchant = .ok m)
      (begun : p = .ofRequest request (w.ids.transactions + 1) d m)
      (validated : Verdict.validate config.thresholds judged p.merchant (.decimal p.amount)
        p.context = .ok v) :
      Sequel config now w (.pay request)
        (.ok (.payment { record := p.record now target v, verdict := v, intent := after }))
        w.escrows (p.marks v)
  | createEscrow {user title : String} {specs : List MilestoneSpec} {intentId : Option String}
      {e : Escrow}
      (built : (Escrow.build w.ids user specs now intentId title config.expiryDays).2 = .ok e)
      (fresh : Escrow.findIn w.escrows e.id = none) :
      Sequel config now w (.createEscrow user specs title intentId) (.ok (.escrow e))
        (w.escrows ++ [e]) []
  | releaseMilestone {escrowId milestoneId : String} {proof merchantId : Option String}
      {e next : Escrow} {receipt : ReleaseReceipt} {owner : String}
      (found : Escrow.findIn w.escrows escrowId = some e)
      (released : Service.releaseIn milestoneId proof now merchantId e =
        .ok ((receipt, owner), next)) :
      Sequel config now w (.releaseMilestone escrowId milestoneId proof merchantId)
        (.ok (.release receipt)) (Escrow.replaceIn w.escrows escrowId next)
        (if config.rewards then [(e.user, .escrowReleased)] else [])
  | clawBack {escrowId : String} {reason : ClawbackReason} {part : Option Numeral}
      {e next : Escrow} {receipt : ClawbackReceipt}
      (found : Escrow.findIn w.escrows escrowId = some e)
      (recovered : e.clawBack reason now part config.rates = .ok (receipt, next)) :
      Sequel config now w (.clawBack escrowId reason part) (.ok (.clawback receipt))
        (Escrow.replaceIn w.escrows escrowId next)
        (if reason = .misuse && config.rewards then [(e.user, .escrowClawbackMisuse)] else [])
  | recordEvent {user description : String} {kind : EventKind} {reply : Except Failure Reply} :
      Sequel config now w (.recordEvent user kind description) reply w.escrows [(user, kind)]

/-- A command that has one of its sequels, behind which nothing else changes. -/
def Sequels (config : Config) (now : Time) (w : World .memory) (c : Command)
    (ran : Except Failure Reply × World .memory) : Prop :=
  ∃ escrows marks, Sequel config now w c ran.1 escrows marks ∧
    w.Proceeds ran.2 escrows c.payments marks

namespace Service

variable {α : Type} {config : Config} {now : Time} {w after : World .memory} {c : Command}

private theorem sequels_of_failed {failure : Failure}
    (proceeds : w.Proceeds after w.escrows c.payments []) :
    Sequels config now w c (.error failure, after) := ⟨_, _, .failed, proceeds⟩

private theorem sequels_of_books {op : Service .memory α} {f : α → Reply}
    (books : c.keepsToBooks = true) (none_taken : c.payments = 0)
    (kept : Keeps World.background op) :
    Sequels config now w c ((op >>= fun a => pure (f a)).runFrom w) := by
  rw [runFrom_map]
  exact ⟨_, _, .books books, none_taken ▸ kept.proceeds w⟩

/-- What was proceeded to before an operation that leaves marks. -/
private theorem sequels_of_leaves {middle : World .memory} {op : Service .memory α} {a : α}
    {f : α → Reply} {escrows : List Escrow} {marks : List Mark}
    (first : w.Proceeds middle escrows c.payments []) (left : Leaves marks a op)
    (sequel : Sequel config now w c (.ok (f a)) escrows marks) :
    Sequels config now w c ((op.runFrom middle).1.map f, (op.runFrom middle).2) := by
  obtain ⟨after, done, proceeds⟩ := left middle
  rw [first.escrows] at proceeds
  rw [done]
  exact ⟨_, _, sequel, first.trans proceeds⟩

theorem sequels_createIntent (config : Config) (now : Time) (w : World .memory)
    (user text : String) (policy : Policy) :
    Sequels config now w (.createIntent user text policy)
      (w.step config now (.createIntent user text policy)) := by
  have stepped : w.step config now (.createIntent user text policy) = _ := runFrom_map w _ _
  rw [stepped, createIntent]
  have opens := (keepsBackground_openIntent user text policy now).proceeds w
  cases opened : (openIntent user text policy now : Service .memory Intent).runFrom w with
  | mk result numbered =>
    rw [opened] at opens
    cases result with
    | error failure =>
      rw [runFrom_bind_error opened]
      exact sequels_of_failed opens
    | ok i =>
      rw [runFrom_bind_ok opened]
      have tried := runFrom_attempt numbered
        (lockFunds user (.decimal policy.limit) (addIntent i) : Service .memory Unit)
      have tries := (keepsBackground_lockFunds user (.decimal policy.limit)
        (keepsBackground_addIntent i)).proceeds numbered
      rw [opens.escrows] at tries
      rw [runFrom_bind_ok tried]
      cases ((lockFunds user (.decimal policy.limit) (addIntent i) :
          Service .memory Unit).runFrom numbered).1 with
      | error failure => exact sequels_of_failed (opens.trans tries)
      | ok done =>
        exact sequels_of_leaves (opens.trans tries)
          (leaves_followed config now _ config.rewards user .intentCreated _ i) .createIntent

theorem sequels_pay (config : Config) (now : Time) (w : World .memory) (request : PaymentRequest) :
    Sequels config now w (.pay request) (w.step config now (.pay request)) := by
  have stepped : w.step config now (.pay request) = _ := runFrom_map w _ _
  rw [stepped, pay]
  have begins := proceeds_beginPayment config request w
  obtain ⟨begun, -, ⟨failure, failed⟩ | ⟨d, m, brought, known, began⟩⟩ :=
    runFrom_beginPayment config request w
  · rw [failed] at begins
    rw [runFrom_bind_error failed]
    exact sequels_of_failed begins
  rw [began] at begins
  rw [runFrom_bind_ok began]
  generalize start : Payment.ofRequest request (w.ids.transactions + 1) d m = p
  have resolved := runFrom_resolvePayment config p begun
  cases target : p.target config begun.intents with
  | error failure =>
    rw [target] at resolved
    rw [runFrom_bind_error resolved]
    exact sequels_of_failed begins
  | ok goal =>
    rw [target] at resolved
    rw [runFrom_bind_ok resolved]
    have commits := (keepsBackground_commitPayment config p goal).proceeds begun
    rw [begins.escrows] at commits
    rcases committed : (commitPayment config p goal).runFrom begun with
      ⟨failure | ⟨v, intent⟩, settled⟩
    · rw [committed] at commits
      rw [runFrom_bind_error committed]
      exact sequels_of_failed (begins.trans commits)
    · rw [committed] at commits
      rw [runFrom_bind_ok committed]
      obtain ⟨judged, validated⟩ := judged_of_commitPayment committed
      dsimp only
      rw [show TransactionRecord.ofVerdict p.id p.user p.merchant goal now p.amount v =
        p.record now goal v from rfl]
      exact sequels_of_leaves (begins.trans commits) (leaves_concluded config now p goal v _)
        (.pay brought known start.symm validated)

theorem sequels_createEscrow (config : Config) (now : Time) (w : World .memory) (user : String)
    (specs : List MilestoneSpec) (title : String) (intentId : Option String) :
    Sequels config now w (.createEscrow user specs title intentId)
      (w.step config now (.createEscrow user specs title intentId)) := by
  have stepped : w.step config now (.createEscrow user specs title intentId) = _ :=
    runFrom_map w _ _
  rw [stepped]
  have numbers := Escrow.ids_build w.ids user specs now intentId title config.expiryDays
  rcases made : Escrow.build w.ids user specs now intentId title config.expiryDays with
    ⟨ids, failure | e⟩
  · rw [made] at numbers
    have taken := congrArg Ids.transactions numbers
    rw [runFrom_createEscrow_error made]
    exact sequels_of_failed ⟨rfl, taken, rfl, fun _ => (List.append_nil _).symm⟩
  · rw [made] at numbers
    have taken := congrArg Ids.transactions numbers
    obtain ⟨journal, ran⟩ := runFrom_createEscrow_ok made
    rw [ran]
    cases fresh : Escrow.findIn w.escrows e.id with
    | some other => exact sequels_of_failed ⟨rfl, taken, rfl, fun _ => (List.append_nil _).symm⟩
    | none =>
      exact ⟨_, _, .createEscrow (congrArg Prod.snd made) fresh, rfl, taken, rfl,
        fun _ => (List.append_nil _).symm⟩

theorem proceeds_withEscrows (w : World .memory) (escrows : List Escrow) :
    w.Proceeds (w.withEscrows escrows) escrows 0 [] :=
  ⟨rfl, rfl, rfl, fun _ => (List.append_nil _).symm⟩

theorem sequels_releaseMilestone (config : Config) (now : Time) (w : World .memory)
    (escrowId milestoneId : String) (proof merchantId : Option String) :
    Sequels config now w (.releaseMilestone escrowId milestoneId proof merchantId)
      (w.step config now (.releaseMilestone escrowId milestoneId proof merchantId)) := by
  have stepped : w.step config now (.releaseMilestone escrowId milestoneId proof merchantId) = _ :=
    runFrom_map w _ _
  rw [stepped, releaseMilestone]
  have updated := runFrom_updateEscrow w escrowId (releaseIn milestoneId proof now merchantId)
  cases found : Escrow.findIn w.escrows escrowId with
  | none =>
    rw [found] at updated
    rw [runFrom_bind_error updated]
    exact sequels_of_failed (.of_background rfl)
  | some e =>
    rcases released : releaseIn milestoneId proof now merchantId e with
      failure | ⟨⟨receipt, owner⟩, next⟩
    · simp only [found, released] at updated
      rw [runFrom_bind_error updated]
      exact sequels_of_failed (.of_background rfl)
    · simp only [found, released] at updated
      rw [runFrom_bind_ok updated]
      obtain ⟨-, -, owned⟩ := Escrow.owner_of_releaseIn released
      obtain rfl : owner = e.user := owned
      exact sequels_of_leaves (proceeds_withEscrows w _) (leaves_bind (leaves_tally _)
        (leaves_followed config now _ config.rewards e.user .escrowReleased _ receipt))
        (.releaseMilestone found released)

/-- Claws an escrow back and gives the receipt, and the owner. -/
def clawBackIn (reason : ClawbackReason) (part : Option Numeral) (now : Time)
    (rates : Escrow.Rates) (e : Escrow) :
    Except Failure ((ClawbackReceipt × String) × Escrow) := do
  let (receipt, after) ← e.clawBack reason now part rates
  .ok ((receipt, e.user), after)

theorem sequels_clawBack (config : Config) (now : Time) (w : World .memory) (escrowId : String)
    (reason : ClawbackReason) (part : Option Numeral) :
    Sequels config now w (.clawBack escrowId reason part)
      (w.step config now (.clawBack escrowId reason part)) := by
  have stepped : w.step config now (.clawBack escrowId reason part) = _ := runFrom_map w _ _
  rw [stepped, clawBack]
  have updated := runFrom_updateEscrow w escrowId (clawBackIn reason part now config.rates)
  unfold clawBackIn at updated
  cases found : Escrow.findIn w.escrows escrowId with
  | none =>
    rw [found] at updated
    rw [runFrom_bind_error updated]
    exact sequels_of_failed (.of_background rfl)
  | some e =>
    rcases recovered : e.clawBack reason now part config.rates with failure | ⟨receipt, next⟩
    · simp only [found, recovered, error_bind] at updated
      rw [runFrom_bind_error updated]
      exact sequels_of_failed (.of_background rfl)
    · simp only [found, recovered, ok_bind] at updated
      rw [runFrom_bind_ok updated]
      exact sequels_of_leaves (proceeds_withEscrows w _) (leaves_bind (leaves_tally _)
        (leaves_followed config now _ _ e.user .escrowClawbackMisuse _ receipt))
        (.clawBack found recovered)

theorem sequels_recordEvent (config : Config) (now : Time) (w : World .memory) (user : String)
    (kind : EventKind) (description : String) :
    Sequels config now w (.recordEvent user kind description)
      (w.step config now (.recordEvent user kind description)) := by
  have stepped : w.step config now (.recordEvent user kind description) = _ := runFrom_map w _ _
  obtain ⟨result, tallies, ran⟩ := runFrom_recordEvent config ⟨user, kind, description, now⟩ w
  rw [stepped, ran]
  exact ⟨_, _, .recordEvent, proceeds_recorded config ⟨user, kind, description, now⟩ w _ tallies⟩

/-- Whatever the command and the state, it has one of its sequels. -/
theorem step_sequel (config : Config) (now : Time) (w : World .memory) (c : Command) :
    Sequels config now w c (w.step config now c) := by
  cases c with
  | openWallet user balance =>
    exact sequels_of_books rfl rfl (keepsBackground_openWallet user balance)
  | lockFunds user amount fails =>
    exact sequels_of_books rfl rfl (keepsBackground_lockFunds user amount
      (keeps_ite (keeps_throw _) (keeps_pure _)))
  | releaseFunds user amount =>
    exact sequels_of_books rfl rfl (keepsBackground_releaseFunds user amount)
  | createIntent user text policy => exact sequels_createIntent config now w user text policy
  | addIntent i => exact sequels_of_books rfl rfl (keepsBackground_addIntent i)
  | useIntent id amount => exact sequels_of_books rfl rfl (keepsBackground_useIntent id amount)
  | violateIntent id => exact sequels_of_books rfl rfl (keepsBackground_violateIntent id)
  | cancelIntent id => exact sequels_of_books rfl rfl (keepsBackground_cancelIntent id)
  | pay request => exact sequels_pay config now w request
  | createEscrow user specs title intentId =>
    exact sequels_createEscrow config now w user specs title intentId
  | releaseMilestone escrowId milestoneId proof merchantId =>
    exact sequels_releaseMilestone config now w escrowId milestoneId proof merchantId
  | clawBack escrowId reason part => exact sequels_clawBack config now w escrowId reason part
  | recordEvent user kind description =>
    exact sequels_recordEvent config now w user kind description

end Service

/-! ### Escrows through runs -/

namespace Escrow

/-- The second is the first at a later time: what was agreed stays, and what was done stays done. -/
structure Precedes (e next : Escrow) : Prop where
  id : next.id = e.id
  user : next.user = e.user
  createdAt : next.createdAt = e.createdAt
  terms : next.milestones.map Milestone.terms = e.milestones.map Milestone.terms
  completed : ∀ m ∈ e.milestones, m.isCompleted → m ∈ next.milestones
  claimed : e.clawback.isSome → next.clawback = e.clawback

/-- An escrow whose milestones can be told apart by the numbers that were given to them, and have
positive amounts. -/
structure Shaped (e : Escrow) : Prop where
  some_milestone : e.milestones ≠ []
  unique : (e.milestones.map (·.id)).Nodup
  amounts : ∀ m ∈ e.milestones, m.amount.IsAmount ∧ 0 < m.amount.cents
  named : ∃ n, e.id = Ids.escrow n
  milestones_named : ∀ id ∈ e.milestones.map (·.id), ∃ n, id = Ids.milestone n

variable {e next : Escrow} {escrows after : List Escrow} {now : Time}

theorem Precedes.refl (e : Escrow) : e.Precedes e :=
  ⟨rfl, rfl, rfl, rfl, fun _ mem _ => mem, fun _ => rfl⟩

theorem precedes_of_releaseIn {milestoneId : String}
    {proof merchantId : Option String} {answer : ReleaseReceipt × String}
    (done : Service.releaseIn milestoneId proof now merchantId e = .ok (answer, next)) :
    e.Precedes next := by
  have move := releaseIn_ok done
  have terms := move.terms_eq
  have completed {m : Milestone} := move.mem_of_completed (m := m)
  cases move with
  | release unclaimed =>
    refine ⟨rfl, rfl, rfl, terms, fun m => completed, fun claimed => ?_⟩
    simp [unclaimed] at claimed

theorem precedes_of_clawBack {reason : ClawbackReason} {part : Option Numeral}
    {rates : Rates} {receipt : ClawbackReceipt}
    (done : e.clawBack reason now part rates = .ok (receipt, next)) : e.Precedes next := by
  obtain ⟨unclaimed, -, rfl⟩ := claimed_of_clawBack done
  refine ⟨rfl, rfl, rfl, rfl, fun _ mem _ => mem, fun claimed => ?_⟩
  simp [unclaimed] at claimed

theorem Shaped.of_build {ids : Ids} {user title : String} {specs : List MilestoneSpec}
    {intentId : Option String} {days : Int}
    (built : (build ids user specs now intentId title days).2 = .ok e) : e.Shaped := by
  obtain ⟨-, some_milestone, unique, fresh⟩ := milestones_of_build built
  obtain ⟨-, named, -⟩ := (build_number ids user specs now intentId title days).2 e built
  exact ⟨some_milestone, unique, fun m mem => (fresh m mem).2, ⟨_, named⟩,
    milestones_named_of_build built⟩

theorem Shaped.later (shaped : e.Shaped) (later : e.Precedes next) : next.Shaped := by
  have ids := congrArg (List.map Prod.fst) later.terms
  simp only [List.map_map] at ids
  change next.milestones.map (·.id) = e.milestones.map (·.id) at ids
  constructor
  case some_milestone =>
    intro none
    rw [none, List.map_nil, eq_comm, List.map_eq_nil_iff] at ids
    exact shaped.some_milestone ids
  case unique => exact ids ▸ shaped.unique
  case amounts =>
    intro m mem
    obtain ⟨old, known, terms⟩ := List.mem_map.mp (later.terms ▸ List.mem_map_of_mem mem)
    have amount : old.amount = m.amount := congrArg (·.2.2.1) terms
    exact amount ▸ shaped.amounts old known
  case named => exact later.id ▸ shaped.named
  case milestones_named => exact ids ▸ shaped.milestones_named

/-- What a sequel makes of the escrows. -/
inductive Moves (now : Time) (escrows : List Escrow) : List Escrow → Prop
  | same : Moves now escrows escrows
  | built {e : Escrow} (shaped : e.Shaped) (made : e.createdAt = now)
      (fresh : findIn escrows e.id = none) : Moves now escrows (escrows ++ [e])
  | changed {id : String} {e next : Escrow} (found : findIn escrows id = some e)
      (later : e.Precedes next) : Moves now escrows (replaceIn escrows id next)

/-- No two escrows share an id, and the milestones of each can be told apart. -/
structure Vaults (escrows : List Escrow) : Prop where
  unique : (escrows.map Escrow.id).Nodup
  shaped : ∀ e ∈ escrows, e.Shaped

theorem id_of_findIn {id : String} (found : findIn escrows id = some e) : e.id = id := by
  simpa using List.find?_some found

theorem Vaults.moves (vaults : Vaults escrows) (moves : Moves now escrows after) : Vaults after := by
  cases moves with
  | same => exact vaults
  | @built e shaped made fresh =>
    constructor
    case unique =>
      have apart : e.id ∉ escrows.map Escrow.id := by simpa [findIn] using fresh
      rw [List.map_append, List.map_singleton, ← List.concat_eq_append]
      exact vaults.unique.concat apart
    case shaped =>
      exact List.forall_mem_append.mpr ⟨vaults.shaped, List.forall_mem_singleton.mpr shaped⟩
  | @changed id e next found later =>
    have at_ := id_of_findIn found
    constructor
    case unique =>
      have ids : (replaceIn escrows id next).map Escrow.id = escrows.map Escrow.id := by
        rw [replaceIn, List.map_map]
        refine List.map_congr_left fun old _ => ?_
        by_cases same : old.id = id
        · simp [same, later.id, at_]
        · simp [same]
      exact ids ▸ vaults.unique
    case shaped =>
      intro other mem
      rcases mem_replaceIn mem with rfl | known
      · exact (vaults.shaped e (mem_of_findIn found)).later later
      · exact vaults.shaped other known

theorem findIn_of_mem (unique : (escrows.map Escrow.id).Nodup) (mem : e ∈ escrows) :
    findIn escrows e.id = some e := find?_key_of_mem unique mem

/-- Every escrow is still there after a sequel, in a later state. -/
theorem Moves.exists_later (moves : Moves now escrows after) (unique : (escrows.map Escrow.id).Nodup)
    (mem : e ∈ escrows) : ∃ later ∈ after, e.Precedes later := by
  cases moves with
  | same => exact ⟨e, mem, .refl e⟩
  | built => exact ⟨e, List.mem_append_left _ mem, .refl e⟩
  | @changed id old next found later =>
    by_cases at_ : e.id = id
    · have same := findIn_of_mem unique mem
      rw [at_, found] at same
      obtain rfl : old = e := by simpa using same
      exact ⟨next, List.mem_map.mpr ⟨old, mem, by simp [at_]⟩, later⟩
    · exact ⟨e, List.mem_map.mpr ⟨e, mem, by simp [at_]⟩, .refl e⟩

end Escrow

section

variable {config : Config} {now : Time} {w : World .memory} {c : Command}
  {reply : Except Failure Reply} {escrows : List Escrow} {marks : List Mark}

theorem Sequel.moves (sequel : Sequel config now w c reply escrows marks) :
    Escrow.Moves now w.escrows escrows := by
  cases sequel with
  | failed => exact .same
  | books => exact .same
  | createIntent => exact .same
  | pay => exact .same
  | @createEscrow user title specs intentId e built fresh =>
    obtain ⟨-, -, -, made⟩ :=
      (Escrow.build_number w.ids user specs now intentId title config.expiryDays).2 e built
    exact .built (.of_build built) made fresh
  | releaseMilestone found released => exact .changed found (Escrow.precedes_of_releaseIn released)
  | clawBack found recovered => exact .changed found (Escrow.precedes_of_clawBack recovered)
  | recordEvent => exact .same

theorem World.moves_step (config : Config) (w : World .memory) (now : Time) (c : Command) :
    Escrow.Moves now w.escrows (w.step config now c).2.escrows := by
  obtain ⟨escrows, marks, sequel, proceeds⟩ := Service.step_sequel config now w c
  exact proceeds.escrows ▸ sequel.moves

/-- What every step of an allowed command keeps holds after every run of them. -/
theorem World.after_steps (Allowed : Time → Command → Prop) (Kept : World .memory → Prop)
    (step : ∀ {now : Time} {w : World .memory} {c : Command}, Allowed now c → Kept w →
      Kept (w.step config now c).2)
    (kept : Kept w) {run : List (Time × Command)}
    (allowed : ∀ entry ∈ run, Allowed entry.1 entry.2) : Kept (w.after config run) := by
  induction run generalizing w with
  | nil => exact kept
  | cons entry rest ih =>
    exact ih (step (allowed entry (by simp)) kept) fun other mem => allowed other (by simp [mem])

theorem World.escrows_of_empty (empty : w.store = {}) : w.escrows = [] := by
  rw [escrows, empty]
  rfl

theorem Escrow.Vaults.of_empty (empty : w.store = {}) : Vaults w.escrows := by
  rw [World.escrows_of_empty empty]
  exact ⟨by simp, by simp⟩

/-- Whatever is run from an empty store, no two escrows share an id, and their milestones can be told
apart. -/
theorem Escrow.Vaults.after (config : Config) (empty : w.store = {}) (run : List (Time × Command)) :
    Vaults (w.after config run).escrows := by
  refine World.after_steps (fun _ _ => True) (fun w => Vaults w.escrows)
    (fun _ vaults => vaults.moves (World.moves_step config _ _ _)) (.of_empty empty)
    fun _ _ => trivial

end

/-! ### A run -/

namespace Sample

/-- After the payments, an emergency of five, and an escrow of which one milestone is released, a
second time in vain, and the rest clawed back for misuse. -/
def schooling : List (Time × Command) :=
  payments ++
    [(today, .pay
       { user := "reader", merchant := "MRC001", amount := .whole 5, emergency := true
         requestedAt := today }),
     (today, .createEscrow "reader" Escrow.Sample.specs "School" none),
     (today, .releaseMilestone (Ids.escrow 1) (Ids.milestone 1) (some "BILL-7") none),
     (today, .releaseMilestone (Ids.escrow 1) (Ids.milestone 1) (some "BILL-7") none),
     (today, .clawBack (Ids.escrow 1) .misuse none)]

end Sample

end Earmark
