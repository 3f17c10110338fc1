import Earmark.Proofs.Figures
import Earmark.Proofs.ReputationTotals

/-!
A summary against the wallet and the log. A turn uses of a user's intents what it logs as approved
for that user, overrides apart (`Turn.committed_eq`). What a wallet has locked is therefore what the
owner's summary shows as locked in intents and as spent, less what emergencies spent, which lock
nothing (`World.summary_accounts`).
-/

namespace Earmark

open TransactionRecord (exactTotal)

section

variable {config : Config} {now : Time} {w next : World .memory} {c : Command}
  {reply : Except Failure Reply}

/-- What is committed of a user's intents is what is logged as approved for the user, overrides
apart: a payment goes to an intent of the payer's, and only an override is approved without one. -/
theorem Turn.committed_eq (turn : Turn config now w c reply next) (paid : c.usesDirectly = false)
    (ledgers : Intent.Ledgers w.intents) (user : String) :
    c.committed user reply = ((c.logs reply).filter fun r =>
      r.user == user && (r.approved && !r.bypass)).map (·.amount) := by
  cases turn with
  | failed => rw [Command.committed_error, Command.logs_error, List.filter_nil, List.map_nil]
  | aside aside => cases c <;> first | rfl | cases aside
  | openWallet => rfl
  | lockFunds => rfl
  | releaseFunds => rfl
  | createIntent => rfl
  | createUnlocked => rfl
  | addIntent => rfl
  | useIntent => cases paid
  | violateIntent => rfl
  | cancelIntent => rfl
  | @payNowhere request number d m p v brought known begun target judged =>
    subst begun
    have overrides := Verdict.bypass_of_approved_without (isAmount_of_toAmount brought) judged
    by_cases approved : v.approved = true
    · simp [Command.committed, Command.logs, overrides approved]
    · simp [Command.committed, Command.logs, approved]
  | @pay request number d m p v id i j left brought known begun target found judged settled =>
    have amount : p.amount.IsAmount := by
      subst begun
      exact isAmount_of_toAmount brought
    have owned : j.user = p.user := by
      obtain ⟨i', mem, named, owned, -⟩ := Payment.exists_of_target target
      obtain rfl : i' = i := Intent.eq_of_id ledgers.unique (Intent.mem_of_findIn found) mem
        (named.trans (Intent.id_of_findIn found).symm)
      have settled := (ledgers.sound_of_findIn found).settled amount settled
      exact settled.changes.precedes.user.trans owned
    by_cases own : p.user = user
    · by_cases counted : v.approved && !v.bypass
      · simp [Command.committed, Command.logs, owned, own, counted]
      · simp [Command.committed, Command.logs, counted]
    · simp [Command.committed, Command.logs, owned, own]

namespace World

/-- What is kept on the way: what was used of a user's intents is what the log has as approved for
the user, overrides apart. -/
structure Accounted (w : World .memory) : Prop extends w.Tidy where
  timed : ∀ i ∈ w.intents, i.Timed
  made : ∀ e ∈ w.escrows, e.createdAt.offset.isSome
  amounts : ∀ r ∈ w.records, r.amount.IsAmount
  overrides : ∀ r ∈ w.records, r.bypass = true → r.approved = true
  used : ∀ user, Intent.sumBy Intent.user w.intents user (·.used.cents) =
    ((w.records.filter fun r => r.user == user && (r.approved && !r.bypass)).map
      (·.amount.cents)).sum

theorem Accounted.of_empty (empty : w.store = {}) (writes : ∀ n, w.outage.records n = false) :
    w.Accounted where
  toTidy := .of_empty empty writes
  timed := by simp [intents_of_empty empty]
  made := by simp [escrows_of_empty empty]
  amounts := by simp [records_of_empty empty]
  overrides := by simp [records_of_empty empty]
  used user := by simp [intents_of_empty empty, records_of_empty empty, Intent.sumBy]

end World

theorem Escrow.Moves.made {escrows after : List Escrow} (moves : Moves now escrows after)
    (aware : now.offset.isSome) (made : ∀ e ∈ escrows, e.createdAt.offset.isSome) :
    ∀ e ∈ after, e.createdAt.offset.isSome := by
  intro e mem
  cases moves with
  | same => exact made e mem
  | built shaped madeNow fresh =>
    rcases List.mem_append.mp mem with known | new
    · exact made e known
    · exact List.mem_singleton.mp new ▸ madeNow ▸ aware
  | changed found later =>
    rcases mem_replaceIn mem with rfl | known
    · exact later.createdAt ▸ made _ (mem_of_findIn found)
    · exact made e known

/-- A payment that overrides is logged as approved. -/
theorem Turn.overrides_logs (turn : Turn config now w c reply next)
    (ledgers : Intent.Ledgers w.intents) :
    ∀ r ∈ c.logs reply, r.bypass = true → r.approved = true := by
  obtain ⟨-, ⟨-, failing⟩ | ⟨request, result, rfl, rfl, -⟩⟩ := turn.records_cases
  · cases c with
    | pay request =>
      obtain ⟨failure, rfl⟩ := failing request rfl
      simp
    | _ => simp [Command.logs]
  · have logged := turn.loggedAs ledgers
    intro r mem bypass
    obtain rfl := List.mem_singleton.mp mem
    exact logged.overridden (logged.bypass.symm.trans bypass)

theorem World.Accounted.step (accounted : w.Accounted) (aware : now.offset.isSome)
    (regular : c.Regular) (served : c.locksDirectly = false) (paid : c.usesDirectly = false) :
    (w.step config now c).2.Accounted := by
  obtain ⟨next, turn, same⟩ := Service.step_turn config now w c
  have ledgers := accounted.ledgers
  have logged := turn.logs accounted.records
  constructor
  case toTidy => exact accounted.toTidy.step config now regular served
  case timed => exact same.intents ▸ (turn.moves regular ledgers).timed aware accounted.timed
  case made => exact (World.moves_step config w now c).made aware accounted.made
  case amounts => exact same.records ▸ turn.amounts_logged accounted.amounts
  case overrides =>
    rw [same.records, logged]
    exact List.forall_mem_append.mpr ⟨accounted.overrides, turn.overrides_logs ledgers⟩
  case used =>
    intro user
    have spends := (turn.spends regular ledgers user).used
    rw [turn.committed_eq paid ledgers user, accounted.used, List.map_map] at spends
    rw [same.intents, same.records, spends, logged, List.filter_append, List.map_append,
      List.sum_append]
    rfl

end

/-! ### Figures -/

namespace World

variable {config : Config} {w : World .memory} {user : String} {wallet : Wallet}
  {s : SpendingSummary}

/-- What there is of a user's to be added up stays below ten to the 26. -/
structure SumsFit (w : World .memory) (user : String) : Prop where
  spent : ∀ part : List TransactionRecord,
    part.Sublist (w.records.filter fun r => r.user == user && r.approved) →
      |exactTotal part| < 10 ^ 26
  blocked : ∀ part : List TransactionRecord,
    part.Sublist (w.records.filter fun r => r.user == user && !r.approved) →
      |exactTotal part| < 10 ^ 26
  escrows : ∀ e ∈ w.escrows, e.user = user → Milestone.exactTotal e.milestones < 10 ^ 26
  pending : ((w.escrows.filter fun e => e.user == user && e.isUnderWay).map Escrow.openTotal).sum <
    10 ^ 26

/-- Where no amount is negative, no part of the payments comes to more than all of them. -/
theorem SumsFit.of_nonneg (nonneg : ∀ r ∈ w.records, 0 ≤ r.amount.toRat)
    (total : exactTotal (w.records.filter (·.user == user)) < 10 ^ 26)
    (escrows : ∀ e ∈ w.escrows, e.user = user → Milestone.exactTotal e.milestones < 10 ^ 26)
    (pending : ((w.escrows.filter fun e => e.user == user && e.isUnderWay).map
      Escrow.openTotal).sum < 10 ^ 26) : w.SumsFit user := by
  have parts (p : TransactionRecord → Bool) (part : List TransactionRecord)
      (sublist : part.Sublist (w.records.filter fun r => r.user == user && p r)) :
      |exactTotal part| < 10 ^ 26 := by
    have among : part.Sublist (w.records.filter (·.user == user)) :=
      sublist.trans (List.monotone_filter_right _ fun r both => (Bool.and_eq_true_iff.mp both).1)
    have counted (r : TransactionRecord) (mem : r ∈ w.records.filter (·.user == user)) :
        0 ≤ r.amount.toRat := nonneg r (List.mem_of_mem_filter mem)
    have least : 0 ≤ exactTotal part := List.sum_nonneg fun x mem => by
      obtain ⟨r, known, rfl⟩ := List.mem_map.mp mem
      exact counted r (among.subset known)
    have most : exactTotal part ≤ exactTotal (w.records.filter (·.user == user)) :=
      (among.map _).sum_le_sum fun x mem => by
        obtain ⟨r, known, rfl⟩ := List.mem_map.mp mem
        exact counted r known
    rw [abs_of_nonneg least]
    exact most.trans_lt total
  exact ⟨parts (·.approved), parts (!·.approved), escrows, pending⟩

/-- The figures of a user's summary agree with what is locked of the wallet and with the log, and
they are the same numbers in whatever order they are added up. -/
structure Accounts (w : World .memory) (user : String) (locked : Decimal) (s : SpendingSummary) :
    Prop where
  locked : locked.toRat = s.lockedInIntents.toRat + s.spent.toRat -
    exactTotal (w.records.filter fun r => r.user == user && r.bypass)
  spent : s.spent.toRat = (s.categorySpend.map (·.2.toRat)).sum
  counted : s.total = s.approved + s.rejected
  logged : s.total = w.records.countP (·.user == user)
  pending : s.pendingInEscrows.toRat =
    ((w.escrows.filter fun e => e.user == user && e.isUnderWay).map Escrow.openTotal).sum
  reordered : ∀ records intents escrows, records.Perm (w.records.filter (·.user == user)) →
    intents.Perm (w.intents.filter (·.user == user)) →
    escrows.Perm (w.escrows.filter (·.user == user)) →
    ∃ t, SpendingSummary.of user records intents escrows = .ok t ∧ t.SameNumbers s

/-- What a wallet has locked is what its owner's active intents have left, with what was spent of
the owner's intents. -/
theorem Accounted.locked_eq (accounted : w.Accounted) (mem : wallet ∈ w.wallets) :
    wallet.locked.toRat =
      (((w.intents.filter (·.user == wallet.user)).filter (·.isActive)).map fun i =>
        i.limit.toRat - i.used.toRat).sum +
      exactTotal (w.records.filter fun r => r.user == wallet.user && (r.approved && !r.bypass)) := by
  have held := accounted.covers.held wallet mem
  rw [Intent.sumBy_heldCents, accounted.used] at held
  have left : (((w.intents.filter (·.user == wallet.user)).filter (·.isActive)).map fun i =>
      i.limit.toRat - i.used.toRat).sum =
      (((w.intents.filter (·.user == wallet.user)).filter (·.isActive)).map fun i =>
        i.limit.cents - i.used.cents).sum / 100 :=
    sum_of_cents fun i known => by
      have sound := accounted.ledgers.sound i
        (List.mem_of_mem_filter (List.mem_of_mem_filter known))
      rw [sound.limit.toRat_eq, sound.used.toRat_eq, Int.cast_sub, sub_div]
  have spent : exactTotal (w.records.filter fun r =>
      r.user == wallet.user && (r.approved && !r.bypass)) = _ :=
    TransactionRecord.exactTotal_eq fun r known =>
      accounted.amounts r (List.mem_of_mem_filter known)
  rw [(accounted.covers.amounts wallet mem).2.toRat_eq, held, left, spent, List.filter_filter]
  simp only [Bool.and_comm]
  push_cast
  ring

/-- What was spent is what was spent of intents and what emergencies spent. -/
theorem Accounted.spent_eq (accounted : w.Accounted) (user : String) :
    exactTotal ((w.records.filter (·.user == user)).filter (·.approved)) =
      exactTotal (w.records.filter fun r => r.user == user && (r.approved && !r.bypass)) +
        exactTotal (w.records.filter fun r => r.user == user && r.bypass) := by
  have emergencies : (w.records.filter fun r => r.user == user && r.bypass) =
      ((w.records.filter (·.user == user)).filter (·.approved)).filter (·.bypass) := by
    rw [List.filter_filter, List.filter_filter]
    refine List.filter_congr fun r mem => ?_
    cases bypass : r.bypass with
    | true => simp [accounted.overrides r mem bypass]
    | false => simp
  have others : (w.records.filter fun r => r.user == user && (r.approved && !r.bypass)) =
      ((w.records.filter (·.user == user)).filter (·.approved)).filter (!·.bypass) := by
    rw [List.filter_filter, List.filter_filter]
    refine List.filter_congr fun r _ => ?_
    rw [Bool.and_comm, Bool.and_comm r.approved]
  rw [emergencies, others, add_comm]
  exact TransactionRecord.exactTotal_split (·.bypass) _

/-- What fits of a user's makes that user's figures exact. -/
theorem Accounted.fits (accounted : w.Accounted) (fits : w.SumsFit wallet.user)
    (mem : wallet ∈ w.wallets) :
    SpendingSummary.Fits (w.records.filter (·.user == wallet.user))
      (w.intents.filter (·.user == wallet.user)) (w.escrows.filter (·.user == wallet.user)) where
  amounts r known := accounted.amounts r (List.mem_of_mem_filter known)
  spent part sublist := by
    rw [List.filter_filter] at sublist
    exact fits.spent part (by simpa only [Bool.and_comm] using sublist)
  blocked part sublist := by
    rw [List.filter_filter] at sublist
    exact fits.blocked part (by simpa only [Bool.and_comm] using sublist)
  ledgers i known := accounted.ledgers.sound i (List.mem_of_mem_filter known)
  held := by
    have locked := accounted.locked_eq mem
    have small := (accounted.covers.amounts wallet mem).2.toRat_lt
    have spent : 0 ≤ exactTotal (w.records.filter fun r =>
        r.user == wallet.user && (r.approved && !r.bypass)) := by
      rw [TransactionRecord.exactTotal_eq fun r known =>
        accounted.amounts r (List.mem_of_mem_filter known), ← accounted.used]
      have used := Intent.sumBy_user_nonneg (f := (·.used.cents))
        (fun i known => (accounted.ledgers.sound i known).used_nonneg) wallet.user
      positivity
    linarith
  vaults e known := by
    obtain ⟨known, own⟩ := List.mem_filter.mp known
    have shaped := accounted.vaults.shaped e known
    exact ⟨shaped.some_milestone, shaped.unique, shaped.amounts,
      fits.escrows e known (by simpa using own)⟩
  pending := by
    rw [List.filter_filter]
    simpa only [Bool.and_comm] using fits.pending

/-- In every state of every run from an empty store in which payments alone spend intents, the log
takes its writes, and what there is of the user's fits: the owner of a wallet is told what is locked
and has a summary, and the summary agrees with what is locked and with the log. -/
theorem summary_accounts {start : World .memory} (empty : start.store = {})
    (writes : ∀ n, start.outage.records n = false) {run : List (Time × Command)}
    (allowed : ∀ entry ∈ run, entry.1.offset.isSome ∧ entry.2.Regular ∧
      entry.2.locksDirectly = false ∧ entry.2.usesDirectly = false)
    (reached : start.after config run = w) (opened : user ∈ w.wallets.map Wallet.user)
    (fits : w.SumsFit user) :
    ∃ locked s, (Service.locked user).runFrom w = (.ok locked, w) ∧
      (Service.summary user).runFrom w = (.ok s, w) ∧ w.Accounts user locked s := by
  have accounted : w.Accounted := reached ▸ after_steps (fun now c => now.offset.isSome ∧
    c.Regular ∧ c.locksDirectly = false ∧ c.usesDirectly = false) Accounted
    (fun ⟨aware, regular, served, paid⟩ accounted => accounted.step aware regular served paid)
    (.of_empty empty writes) allowed
  obtain ⟨wallet, found⟩ := Wallet.exists_findIn opened
  obtain rfl := Wallet.user_of_findIn found
  have mem := Wallet.mem_of_findIn found
  -- the three lists come in the store's own orders
  obtain ⟨intents, sortedIntents⟩ := exists_sortByTime fun i known =>
    (accounted.timed i (List.mem_of_mem_filter (p := (·.user == wallet.user)) known)).createdAt
  obtain ⟨escrows, sortedEscrows⟩ := exists_sortByTime fun e known =>
    accounted.made e (List.mem_of_mem_filter (p := (·.user == wallet.user)) known)
  have permRecords := (w.records.filter (·.user == wallet.user)).reverse_perm
  have permIntents := perm_of_sortByTime sortedIntents
  have permEscrows := perm_of_sortByTime sortedEscrows
  have all := accounted.fits fits mem
  obtain ⟨s, made, tells⟩ := SpendingSummary.exists_tells wallet.user
    (all.perm permRecords.symm permIntents.symm permEscrows.symm)
  have tells := tells.perm permRecords permIntents permEscrows
  refine ⟨wallet.locked, s, ?_, ?_, ?_⟩
  · rw [Service.locked, Service.runFrom_bind_ok (by rw [Service.runFrom_findWallet, found]; rfl)]
    rfl
  · rw [Service.summary, Service.runFrom_bind_ok (Service.runFrom_history w wallet.user none),
      Service.runFrom_bind_ok (by rw [Service.runFrom_listIntents, sortedIntents]),
      Service.runFrom_bind_ok (by rw [Service.runFrom_listEscrows, sortedEscrows]),
      Service.runFrom_check]
    exact congrArg (·, w) made
  · constructor
    case locked =>
      rw [tells.lockedInIntents, tells.spent, accounted.spent_eq, accounted.locked_eq mem]
      ring
    case spent => exact tells.spent_eq_categories
    case counted => exact tells.total_eq
    case logged => rw [tells.total, List.countP_eq_length_filter]
    case pending =>
      rw [tells.pendingInEscrows, List.filter_filter]
      simp only [Bool.and_comm]
    case reordered =>
      intro records' intents' escrows' same same' same''
      exact SpendingSummary.exists_sameNumbers wallet.user all tells same.symm same'.symm
        same''.symm

/-- Before the escrow is clawed back: sixty are locked, and with the five of an emergency sixty-five
are spent or left to be spent. -/
theorem summary_accounts_schooling :
    ∃ locked s,
      (Sample.start.after Sample.config Sample.schooling.dropLast).Accounts "reader" locked s ∧
      locked = .ofCents 6000 ∧ s.lockedInIntents.toRat + s.spent.toRat = 65 ∧
      s.pendingInEscrows.toRat = 700 := by
  let w := Sample.start.after Sample.config Sample.schooling.dropLast
  have allowed : ∀ entry ∈ Sample.schooling, entry.1.offset.isSome ∧ entry.2.Regular ∧
      entry.2.locksDirectly = false ∧ entry.2.usesDirectly = false := by
    simp [Sample.schooling, Sample.payments, Sample.today, Command.Regular, Command.locksDirectly,
      Command.usesDirectly, Sample.policy_isBuilt]
  have fits : w.SumsFit "reader" :=
    .of_nonneg (by decide +kernel) (by decide +kernel) (by decide +kernel) (by decide +kernel)
  obtain ⟨locked, s, told, -, accounts⟩ := summary_accounts rfl (fun _ => rfl)
    (fun entry mem => allowed entry (List.mem_of_mem_dropLast mem)) (w := w) rfl
    (by decide +kernel) fits
  have locks : ((Service.locked "reader").runFrom w).1.toOption = some (.ofCents 6000) := by
    decide +kernel
  rw [told] at locks
  obtain rfl : locked = .ofCents 6000 := Option.some.inj locks
  have sixty : (Decimal.ofCents 6000).toRat = 60 := by decide +kernel
  have emergencies : exactTotal (w.records.filter fun r => r.user == "reader" && r.bypass) = 5 := by
    decide +kernel
  have balanced := accounts.locked
  rw [sixty, emergencies] at balanced
  exact ⟨_, s, accounts, rfl, by linarith, accounts.pending.trans (by decide +kernel)⟩

end World

end Earmark
