import Earmark.Proofs.PolicyDecisions
import Earmark.Proofs.UserIsolation

/-!
Judging and committing agree. An amount is spent of an intent exactly where the intent is active and
the balance stage lets the amount pass, and what is then left is the figure that the stage tells. So
a payment that was approved is committed, and whatever ends a payment after its verdict, it is never
that the intent was inactive, that the amount was out of bounds or that it was no amount
(`Intent.Metered.settles_as_judged`).
-/

namespace Earmark

/-! ### The balance stage and the ledger -/

/-- What the balance stage says of an amount that leaves `rest`. -/
def Finding.leaving (rest : Decimal) : Finding :=
  .pass (some s!"Remaining after payment: {rest}")

namespace Intent

variable {i j : Intent} {d : Decimal} {amount : Numeral} {remark : Option String}

/-- The balance stage lets an amount pass that is positive and within what remains, and tells what
it leaves. -/
theorem Counted.amountCap_pass_iff (counted : i.Counted) (whole : d.IsAmount) :
    Finding.amountCap i d = .ok (.pass remark) ↔
      0 < d.cents ∧ i.used.cents + d.cents ≤ i.limit.cents ∧
        .pass remark = Finding.leaving (.ofCents (i.limit.cents - i.used.cents - d.cents)) := by
  obtain ⟨rest, remaining, wholeRest, value⟩ := counted.exists_remaining
  have fits := counted.fits
  by_cases positive : 0 < d.cents
  · by_cases within : i.used.cents + d.cents ≤ i.limit.cents
    · have covered : ¬rest.cents < d.cents := by omega
      have left := wholeRest.sub_eq_ofCents whole (by omega) (by omega)
      rw [value] at left
      simp only [Finding.amountCap, whole.le?_zero, not_le.mpr positive, decide_false, remaining,
        whole.gt?_eq wholeRest, covered, left, Failure.ofDecimal_ok, ok_bind, Bool.false_eq_true,
        ↓reduceIte, positive, within, true_and, Except.ok.injEq]
      exact eq_comm
    · have short : rest.cents < d.cents := by omega
      simp [Finding.amountCap, whole.le?_zero, not_le.mpr positive, remaining,
        whole.gt?_eq wholeRest, short, within]
  · simp [Finding.amountCap, whole.le?_zero, not_lt.mp positive, positive]

/-- Spending an amount leaves the limit less what was used and the amount. -/
theorem Metered.remaining_of_spend (metered : i.Metered) (spent : i.spend amount = .ok j)
    (brought : amount.toAmount = .ok d) :
    j.remaining = .ok (.ofCents (i.limit.cents - i.used.cents - d.cents)) := by
  obtain ⟨d', brought', -, positive, within, used, added, rfl⟩ := metered.spend_ok_iff.mp spent
  obtain rfl : d = d' := Except.ok.inj (brought.symm.trans brought')
  have nonneg := metered.used_nonneg
  have limitSmall := metered.limit.natAbs_lt
  obtain ⟨sum, added', whole, value⟩ :=
    metered.used.exists_add (isAmount_of_toAmount brought) (by omega)
  obtain rfl : used = sum := Except.ok.inj (added.symm.trans added')
  have left := metered.limit.sub_eq_ofCents whole (by omega) (by omega)
  rw [value, ← sub_sub] at left
  exact Failure.ofDecimal_ok_iff.mpr left

/-- An amount is spent exactly where the intent is active and the balance stage lets it pass. -/
theorem Metered.exists_spend_iff (metered : i.Metered) :
    (∃ j, i.spend amount = .ok j) ↔ ∃ d, amount.toAmount = .ok d ∧ i.status = .active ∧
      ∃ remark, Finding.amountCap i d = .ok (.pass remark) := by
  constructor
  · rintro ⟨j, spent⟩
    obtain ⟨d, brought, active, positive, within, -⟩ := metered.spend_ok_iff.mp spent
    have whole := isAmount_of_toAmount brought
    exact ⟨d, brought, active, _,
      (metered.counted.amountCap_pass_iff whole).mpr ⟨positive, within, rfl⟩⟩
  · rintro ⟨d, brought, active, remark, passed⟩
    have whole := isAmount_of_toAmount brought
    obtain ⟨positive, within, -⟩ := (metered.counted.amountCap_pass_iff whole).mp passed
    have nonneg := metered.used_nonneg
    have limitSmall := metered.limit.natAbs_lt
    obtain ⟨used, added, -⟩ := metered.used.exists_add whole (by omega)
    exact ⟨_, metered.spend_ok_iff.mpr
      ⟨d, brought, active, positive, within, used, added, rfl⟩⟩

/-- An approval without an override can be committed. -/
theorem Metered.exists_spend_of_approved (metered : i.Metered) {thresholds : RiskThresholds}
    {m : Merchant} {context : Context} {v : Verdict}
    (judged : Verdict.validate thresholds (some i) m amount context = .ok v)
    (approved : v.approved = true) (calm : context.emergency = false) :
    ∃ j, i.spend amount = .ok j := by
  obtain ⟨d, brought, -⟩ := bind_ok_iff.mp judged
  obtain ⟨passed, -⟩ := (Verdict.exists_approved_iff brought calm).mp ⟨v, judged, approved⟩
  obtain ⟨_, status⟩ := passed .intentStatus (by decide)
  obtain ⟨remark, cap⟩ := passed .amountCap (by decide)
  exact metered.exists_spend_iff.mpr
    ⟨d, brought, (Finding.intentStatus_pass status).1, remark, cap⟩

end Intent

/-! ### Failures behind a verdict -/

/-- The failure says that an intent was not active, that an amount could not be used of it, or that
a number was no amount. -/
def Failure.RefusesUse : Failure → Prop
  | .usageOfInactive .. | .cancelOfInactive .. | .usageNotPositive .. | .usageBeyondRemaining ..
  | .amount .. => True
  | _ => False

/-- If there is no result, it is not for a refused use. -/
abbrev SparesUse {α : Type} (result : Except Failure α) : Prop :=
  OnlyFails (fun failure => ¬failure.RefusesUse) result

theorem sparesUse_ofDecimal {α : Type} (result : Except Decimal.Fault α) :
    SparesUse (Failure.ofDecimal result) := by
  cases result with
  | error fault => exact onlyFails_error not_false
  | ok a => exact onlyFails_ok a

theorem Intent.sparesUse_expire (i : Intent) (now : Time) : SparesUse (i.expire now) := by
  have expired : SparesUse (i.isExpired now) := onlyFails_require not_false _
  refine onlyFails_ite (onlyFails_ok _) (onlyFails_bind expired fun due _ => ?_)
  exact onlyFails_ite (onlyFails_bind (sparesUse_ofDecimal _) fun rest _ => onlyFails_ok _)
    (onlyFails_ok _)

/-- A backend whose rows take the ledger of an intent, but for counts that have no room in them. -/
def Backend.TakesLedgers (b : Backend) : Prop :=
  ∀ row i failure, b.intents.update row i = .error failure → failure = .outOfRange

theorem Backend.takesLedgers_memory : Backend.memory.TakesLedgers := by
  intro row i failure failed
  cases failed

theorem Backend.takesLedgers_relational : Backend.relational.TakesLedgers := by
  intro row i failure failed
  have room (n : Int) : OnlyFails (· = .outOfRange) (Column.ofWhole n) :=
    onlyFails_ite (onlyFails_ok _) (onlyFails_error rfl)
  have updated : OnlyFails (· = .outOfRange) (IntentRow.update row i) :=
    onlyFails_bind (room _) fun _ _ => onlyFails_bind (room _) fun _ _ => onlyFails_ok _
  exact updated failure failed

namespace Service

variable {b : Backend} {α β : Type} {w : World b}

/-- From a world, the operation is carried out or fails for another reason than a refused use. -/
def SparesUseFrom (w : World b) (op : Service b α) : Prop := SparesUse (op.runFrom w).1

theorem SparesUseFrom.bind {op : Service b α} {next : α → Service b β}
    (first : SparesUseFrom w op)
    (rest : ∀ a after, op.runFrom w = (.ok a, after) → SparesUseFrom after (next a)) :
    SparesUseFrom w (op >>= next) := by
  cases done : op.runFrom w with
  | mk result after =>
    cases result with
    | error failure =>
      rw [SparesUseFrom, runFrom_bind_error done]
      exact onlyFails_error (first failure (by rw [done]))
    | ok a =>
      rw [SparesUseFrom, runFrom_bind_ok done]
      exact rest a after done

theorem sparesUseFrom_check_bind {result : Except Failure α} {next : α → Service b β}
    (first : SparesUse result) (rest : ∀ a, result = .ok a → SparesUseFrom w (next a)) :
    SparesUseFrom w (check result >>= next) := by
  refine SparesUseFrom.bind first fun a after done => ?_
  cases done
  exact rest a rfl

theorem SparesUseFrom.atomically {op : Service b α} (spares : SparesUseFrom w op) :
    SparesUseFrom w (atomically op) := by
  rw [SparesUseFrom, runFrom_atomic]
  rw [SparesUseFrom] at spares
  rcases ran : op.runFrom w with ⟨failure | a, after⟩
  · rw [ran] at spares
    exact spares
  · exact onlyFails_ok a

/-- Unlocking an amount fails for a wallet that is not there, or whose lock holds less. -/
theorem sparesUseFrom_releaseFunds {user : String} {d : Decimal} (whole : d.IsAmount)
    (locked : ∀ wallet ∈ w.store.wallets, ∃ told, b.money wallet.locked = .ok told) :
    SparesUseFrom w (releaseFunds user (.decimal d)) := by
  rw [releaseFunds, Numeral.toAmount_decimal whole]
  refine sparesUseFrom_check_bind (onlyFails_ok d) fun d' same => .atomically ?_
  have found : SparesUseFrom w (findWallet user) := onlyFails_require not_false _
  refine found.bind fun wallet after looked => ?_
  have known : w.store.wallets.find? (·.user == user) = some wallet :=
    Failure.require_ok_iff.mp (congrArg Prod.fst looked)
  obtain rfl : w = after := congrArg Prod.snd looked
  obtain ⟨told, read⟩ := locked wallet (List.mem_of_find?_eq_some known)
  rw [read]
  refine sparesUseFrom_check_bind (onlyFails_ok told) fun _ _ =>
    sparesUseFrom_check_bind (sparesUse_ofDecimal _) fun beyond _ => ?_
  cases beyond with
  | true => exact onlyFails_error not_false
  | false => exact sparesUseFrom_check_bind (sparesUse_ofDecimal _) fun _ _ => onlyFails_ok _

/-! ### Payments behind their verdict -/

section

variable {config : Config} {p : Payment} {i : Intent} {v : Verdict}

/-- A payment that was judged against an intent is settled, or what a rejection owes the wallet
cannot be unlocked. -/
theorem sparesUseFrom_settlePayment (whole : p.amount.IsAmount) (metered : i.Metered)
    (locked : ∀ wallet ∈ w.store.wallets, ∃ told, b.money wallet.locked = .ok told)
    (judged : Verdict.validate config.thresholds (some i) p.merchant (.decimal p.amount)
      p.context = .ok v) : SparesUseFrom w (settlePayment config p i) := by
  rw [settlePayment, judgePayment, judged]
  refine sparesUseFrom_check_bind (onlyFails_ok v) fun v' same => ?_
  cases same
  have override := Verdict.bypass_eq whole judged
  cases bypass : v.bypass with
  | true => exact onlyFails_ok _
  | false =>
    cases approved : v.approved with
    | true =>
      obtain ⟨j, spent⟩ :=
        metered.exists_spend_of_approved judged approved (override.symm.trans bypass)
      rw [spent]
      exact onlyFails_ok _
    | false =>
      refine sparesUseFrom_check_bind (Intent.sparesUse_expire _ _) fun closing expired => ?_
      obtain ⟨rest, closed⟩ := closing
      have wholeRest : rest.IsAmount := by
        rcases Intent.expire_ok_iff.mp expired with ⟨rfl, -⟩ | ⟨-, -, remaining, -⟩
        · exact Decimal.isAmount_zero
        · have remaining' : i.remaining = .ok rest := remaining
          exact (metered.remaining_cents remaining').1
      refine SparesUseFrom.bind ?_ fun _ _ _ => onlyFails_ok _
      refine sparesUseFrom_check_bind (sparesUse_ofDecimal _) fun owed _ => ?_
      cases owed with
      | true => exact sparesUseFrom_releaseFunds wholeRest locked
      | false => exact onlyFails_ok _

end

theorem sparesUseFrom_logPayment (record : TransactionRecord) :
    SparesUseFrom w (logPayment record) := by
  refine SparesUseFrom.bind (onlyFails_ok _) fun tried after _ => ?_
  cases tried with
  | error failure => exact onlyFails_ok _
  | ok _ => exact onlyFails_ok _

theorem sparesUseFrom_follow (config : Config) (now : Time) (user : String) (kind : EventKind)
    (description : String) : SparesUseFrom w (follow config now user kind description) := by
  refine SparesUseFrom.bind (onlyFails_ok _) fun tried after _ => ?_
  cases tried with
  | error failure => exact onlyFails_ok _
  | ok event => exact onlyFails_ok _

theorem sparesUseFrom_countPayment (p : Payment) (target : Option String) (v : Verdict) :
    SparesUseFrom w (countPayment p target v) := by
  unfold countPayment
  cases v.bypass <;> cases v.failedAt <;> exact onlyFails_ok _

theorem sparesUseFrom_rewardPayment (config : Config) (now : Time) (p : Payment) (v : Verdict) :
    SparesUseFrom w (rewardPayment config now p v) := by
  have followed {w : World b} (kind : EventKind) (description : String) :
      SparesUseFrom w (follow config now p.user kind description) :=
    sparesUseFrom_follow config now p.user kind description
  simp only [rewardPayment]
  split
  · exact SparesUseFrom.bind (onlyFails_ok _) fun _ _ _ => followed _ _
  · split
    · refine SparesUseFrom.bind (followed _ _) fun _ _ _ => ?_
      split
      · exact followed _ _
      · exact onlyFails_ok _
    · exact followed _ _

/-- Whatever becomes of a payment once it is committed is no refused use. -/
theorem SparesUseFrom.payTo {config : Config} {p : Payment} {target : Option String}
    (committed : SparesUseFrom w (commitPayment config p target)) (now : Time) :
    SparesUseFrom w (payTo config now p target) :=
  committed.bind fun (v, _) _ _ =>
    (sparesUseFrom_logPayment _).bind fun _ _ _ =>
      (sparesUseFrom_countPayment p target v).bind fun _ _ _ =>
        (sparesUseFrom_rewardPayment config now p v).bind fun _ _ _ => onlyFails_ok _

end Service

/-- A payment gets as far as its verdict: it is begun, it goes to an intent or to none, and it is
judged against that intent as it is stored. -/
inductive World.Judges {b : Backend} (w : World b) (config : Config) (r : PaymentRequest) :
    Option Intent → Verdict → Prop
  | nowhere {p : Payment} {begun : World b} {v : Verdict}
      (begins : (Service.beginPayment config r).runFrom w = (.ok p, begun))
      (target : ((Service.resolvePayment config p).runFrom begun).1 = .ok none)
      (judged : Verdict.validate config.thresholds none p.merchant (.decimal p.amount) p.context =
        .ok v) : Judges w config r none v
  | against {p : Payment} {begun : World b} {id : String} {row : b.intents.Row} {i : Intent}
      {v : Verdict} (begins : (Service.beginPayment config r).runFrom w = (.ok p, begun))
      (target : ((Service.resolvePayment config p).runFrom begun).1 = .ok (some id))
      (found : b.intents.find? id begun.store.intents = some row)
      (read : b.intents.read row = .ok i)
      (judged : Verdict.validate config.thresholds (some i) p.merchant (.decimal p.amount)
        p.context = .ok v) : Judges w config r (some i) v

/-- What is begun is begun with an amount, and nothing is stored yet. -/
theorem Service.of_beginPayment {b : Backend} {config : Config} {r : PaymentRequest}
    {w begun : World b} {p : Payment}
    (begins : (beginPayment config r).runFrom w = (.ok p, begun)) :
    p.amount.IsAmount ∧ begun.store = w.store := by
  rw [runFrom_begun] at begins
  obtain ⟨made, rfl⟩ := Prod.mk.inj begins
  simp only [Service.begun, bind_ok_iff] at made
  obtain ⟨d, brought, m, -, made⟩ := made
  cases made
  exact ⟨isAmount_of_toAmount brought, rfl⟩

/-- A payment that was judged fails for no refused use. -/
theorem World.Judges.spares {b : Backend} {config : Config} {r : PaymentRequest} {w : World b}
    {intent : Option Intent} {v : Verdict} (judges : w.Judges config r intent v)
    (ledgers : b.TakesLedgers) (metered : ∀ i ∈ intent, i.Metered)
    (locked : ∀ wallet ∈ w.store.wallets, ∃ told, b.money wallet.locked = .ok told) (now : Time) :
    Service.SparesUseFrom w (Service.pay config now r) := by
  rw [Service.pay_eq]
  cases judges with
  | @nowhere p begun _ begins target judged =>
    rw [Service.SparesUseFrom, Service.runFrom_bind_ok begins, Service.runFrom_payBegun, target]
    refine Service.sparesUseFrom_check_bind (onlyFails_ok none) fun _ same => ?_
    cases same
    refine Service.SparesUseFrom.payTo ?_ now
    rw [Service.commitPayment, Service.judgePayment, judged]
    exact onlyFails_ok _
  | @against p begun id row i _ begins target found read judged =>
    obtain ⟨whole, same⟩ := Service.of_beginPayment begins
    rw [← same] at locked
    rw [Service.SparesUseFrom, Service.runFrom_bind_ok begins, Service.runFrom_payBegun, target]
    refine Service.sparesUseFrom_check_bind (onlyFails_ok (some id)) fun _ same => ?_
    cases same
    refine Service.SparesUseFrom.payTo ?_ now
    refine Service.SparesUseFrom.bind (.atomically ?_) fun committed _ _ => ?_
    case refine_2 =>
      obtain ⟨v, intent⟩ := committed
      exact onlyFails_ok _
    rw [Service.SparesUseFrom, Service.runFrom_get_bind, found]
    dsimp only
    rw [read]
    refine Service.sparesUseFrom_check_bind (onlyFails_ok i) fun _ same => ?_
    cases same
    refine Service.SparesUseFrom.bind
      (Service.sparesUseFrom_settlePayment whole (metered i rfl) locked judged) fun settled _ _ => ?_
    refine Service.sparesUseFrom_check_bind ?_ fun _ _ => onlyFails_ok _
    intro failure failed
    rw [ledgers _ _ failure failed]
    exact not_false

/-- Judging and committing agree on what is left of an intent. -/
structure Intent.SettlesAsJudged (i : Intent) : Prop where
  /-- What can be spent is what an active intent's balance stage lets pass. -/
  spends_iff : ∀ amount : Numeral, (∃ j, i.spend amount = .ok j) ↔
    ∃ d, amount.toAmount = .ok d ∧ i.status = .active ∧
      ∃ remark, Finding.amountCap i d = .ok (.pass remark)
  /-- What is left once an amount is spent is the figure that the stage tells. -/
  leaves : ∀ (amount : Numeral) (j : Intent), i.spend amount = .ok j →
    ∃ d rest, amount.toAmount = .ok d ∧ Finding.amountCap i d = .ok (.leaving rest) ∧
      j.remaining = .ok rest
  commits : ∀ (thresholds : RiskThresholds) (m : Merchant) (amount : Numeral) (context : Context)
    (v : Verdict), Verdict.validate thresholds (some i) m amount context = .ok v →
      v.approved = true → context.emergency = false → ∃ j, i.spend amount = .ok j
  /-- A payment that was judged, against the intent or against none, fails for no refused use. -/
  pays : ∀ {b : Backend} (config : Config) (now : Time) (w after : World b) (r : PaymentRequest)
    (intent : Option Intent) (v : Verdict) (failure : Failure), b.TakesLedgers →
      (∀ wallet ∈ w.store.wallets, ∃ told, b.money wallet.locked = .ok told) →
      (∀ other ∈ intent, other = i) → w.Judges config r intent v →
      (Service.pay config now r).runFrom w = (.error failure, after) → ¬failure.RefusesUse

/-- Of an intent whose limit and use are whole cents, the use within the limit, an amount is
committed exactly where it would be judged to be within what is left, and no payment that was judged
fails for a refused use. -/
theorem Intent.Metered.settles_as_judged {i : Intent} (metered : i.Metered) :
    i.SettlesAsJudged := by
  constructor
  case spends_iff => exact fun amount => metered.exists_spend_iff
  case leaves =>
    intro amount j spent
    obtain ⟨d, brought, -, positive, within, -⟩ := metered.spend_ok_iff.mp spent
    have whole := isAmount_of_toAmount brought
    exact ⟨d, _, brought,
      (metered.counted.amountCap_pass_iff whole).mpr ⟨positive, within, rfl⟩,
      metered.remaining_of_spend spent brought⟩
  case commits =>
    exact fun thresholds m amount context v => metered.exists_spend_of_approved
  case pays =>
    intro b config now w after r intent v failure ledgers locked known judges failed
    have metered' : ∀ other ∈ intent, other.Metered := fun other mem => known other mem ▸ metered
    exact judges.spares ledgers metered' locked now failure (congrArg Prod.fst failed)

namespace Sample

theorem localIntent_metered : localIntent.Metered := by
  refine ⟨⟨rfl, by decide⟩, ⟨rfl, by decide⟩, by decide, by decide⟩

/-- The reader's intent, kept without a wallet that its funds could go back to. -/
def walletless : World .memory := { store := { intents := [localIntent] } }

/-- Ten of the intent when its window is over. -/
def late : PaymentRequest :=
  { user := "reader", merchant := "MRC001", amount := .whole 10, intentId := some (Ids.intent 1)
    requestedAt := { micros := 63879012000000001, offset := some 0 } }

/-- The late payment is judged, and then what the intent leaves cannot be unlocked. -/
theorem late_judged : (∃ v, walletless.Judges config late (some localIntent) v) ∧
    ∃ failure after, (Service.pay config today late).runFrom walletless = (.error failure, after) := by
  constructor
  · have merchant : config.directory "MRC001" = .ok Directory.catalog[0] := rfl
    have made : Service.begun config late 1 =
        .ok (.ofRequest late 1 (.ofCents 1000) Directory.catalog[0]) := by
      simp only [Service.begun, late, ten_toAmount, merchant, ok_bind]
    have begins := Service.runFrom_begun config late walletless
    have target : ((Service.resolvePayment config
        (.ofRequest late 1 (.ofCents 1000) Directory.catalog[0])).runFrom walletless).1 =
          .ok (some (Ids.intent 1)) := eq_ok_of_toOption (by decide +kernel)
    have judged : (Verdict.validate config.thresholds (some localIntent) Directory.catalog[0]
        (.decimal (.ofCents 1000)) { requestedAt := late.requestedAt
                                     transactionId := Ids.transaction 1 }).toOption.isSome := by
      decide +kernel
    obtain ⟨v, judged⟩ := Option.isSome_iff_exists.mp judged
    exact ⟨v, .against (begins.trans (Prod.ext made rfl)) target rfl rfl (eq_ok_of_toOption judged)⟩
  · have fails : ((Service.pay config today late).runFrom walletless).1.toOption.isNone = true := by
      decide +kernel
    rcases paid : (Service.pay config today late).runFrom walletless with ⟨failure | result, after⟩
    · exact ⟨failure, after, rfl⟩
    · rw [paid] at fails
      cases fails

end Sample

/-- Ten can be spent of the intent for Chennai and a thousand cannot, and a late payment whose wallet
is missing fails after its verdict. -/
theorem Intent.settles_as_judged_local :
    (∃ j, Sample.localIntent.spend (.whole 10) = .ok j) ∧
    (¬∃ j, Sample.localIntent.spend (.whole 1000) = .ok j) ∧
    ∃ v failure after, Sample.walletless.Judges Sample.config Sample.late
        (some Sample.localIntent) v ∧
      (Service.pay Sample.config Sample.today Sample.late).runFrom Sample.walletless =
        (.error failure, after) ∧ ¬failure.RefusesUse := by
  have settles := Sample.localIntent_metered.settles_as_judged
  obtain ⟨⟨v, judged⟩, failure, after, failed⟩ := Sample.late_judged
  refine ⟨?_, ?_, v, failure, after, judged, failed, ?_⟩
  · have cap : (Finding.amountCap Sample.localIntent (.ofCents 1000)).toOption =
        some (.pass (some "Remaining after payment: 50.00")) := by decide +kernel
    exact (settles.spends_iff _).mpr
      ⟨_, Sample.ten_toAmount, rfl, _, eq_ok_of_toOption cap⟩
  · rintro spent
    obtain ⟨d, brought, -, remark, passed⟩ := (settles.spends_iff _).mp spent
    obtain rfl := Except.ok.inj (Sample.thousand_toAmount.symm.trans brought)
    have whole : (Decimal.ofCents 100000).IsAmount := Decimal.isAmount_ofCents (by decide)
    obtain ⟨-, within, -⟩ :=
      (Sample.localIntent_metered.counted.amountCap_pass_iff whole).mp passed
    exact absurd within (by decide)
  · exact settles.pays Sample.config Sample.today Sample.walletless after Sample.late _ v failure
      Backend.takesLedgers_memory (fun wallet _ => ⟨wallet.locked, rfl⟩)
      (fun other same => (Option.some.inj same).symm) judged failed

end Earmark
