import Earmark.Proofs.Figures
import Earmark.Proofs.PolicyDecisions
import Earmark.Proofs.UserIsolation

/-!
Choosing and judging agree. A strategy and the first stages of the pipeline each ask whether an
intent is active, unexpired and has enough left. An intent that was chosen passes what both ask, and
where none was chosen each intent is refused at one of these stages; so a payment is refused for
lack of an intent only when every intent of the payer would have refused it.
-/

namespace Earmark

/-! ### What a strategy passes over -/

private theorem answered_of_filterAuxM {α : Type} {f : α → Except Failure Bool}
    {xs acc ys : List α} (done : xs.filterAuxM f acc = .ok ys) :
    ∀ x ∈ xs, ∃ chosen, f x = .ok chosen := by
  induction xs generalizing acc with
  | nil => simp
  | cons x rest ih =>
    obtain ⟨chosen, answered, done⟩ := bind_ok_iff.mp done
    exact List.forall_mem_cons.mpr ⟨⟨chosen, answered⟩, ih done⟩

/-- What is filtered was asked of each item, and those are kept for which it holds. -/
theorem filterM_ok_iff {α : Type} {f : α → Except Failure Bool} {xs ys : List α} :
    xs.filterM f = .ok ys ↔ (∀ x ∈ xs, ∃ chosen, f x = .ok chosen) ∧
      ys = xs.filter fun x => (f x).toOption == some true := by
  have told (answered : ∀ x ∈ xs, ∃ chosen, f x = .ok chosen) :
      xs.filterM f = .ok (xs.filter fun x => (f x).toOption == some true) := by
    refine filterM_ok fun x mem => ?_
    obtain ⟨chosen, answer⟩ := answered x mem
    cases chosen <;> rw [answer] <;> rfl
  constructor
  · intro done
    have answered : ∀ x ∈ xs, ∃ chosen, f x = .ok chosen := by
      obtain ⟨reversed, filtered, -⟩ := bind_ok_iff.mp done
      exact answered_of_filterAuxM filtered
    exact ⟨answered, Except.ok.inj (done.symm.trans (told answered))⟩
  · rintro ⟨answered, rfl⟩
    exact told answered

theorem toOption_eq_some_iff {α : Type} {result : Except Failure α} {x : α} :
    result.toOption = some x ↔ result = .ok x := by
  cases result <;> simp [Except.toOption]

theorem Time.after_eq_true_iff {a b : Time} :
    a.after b = .ok true ↔ a.offset.isSome = b.offset.isSome ∧ b.instant < a.instant := by
  by_cases alike : a.offset.isSome = b.offset.isSome
  · simp [after, compare?, alike, Failure.require, compare_gt_iff_gt]
  · simp [after, compare?, alike, Failure.require]

namespace Decimal

variable {d r : Decimal}

/-- Two decimals have an order exactly where both are numbers. -/
theorem exists_compare?_iff : (∃ order, d.compare? r = .ok order) ↔
    d.isNaN = false ∧ r.isNaN = false := by
  cases first : d.isNaN <;> cases second : r.isNaN <;> simp [compare?, first, second]

/-- To be greater is not to be at most as great. -/
theorem gt?_eq_true_of_le? (finite : d.isFinite) (beyond : d.le? r = .ok false) :
    d.gt? r = .ok true := by
  obtain ⟨order, compared, -⟩ := map_ok_iff.mp beyond
  obtain ⟨number, number'⟩ := exists_compare?_iff.mp ⟨order, compared⟩
  obtain ⟨converse, compared'⟩ := exists_compare?_iff.mpr ⟨number', number⟩
  have answered : d.gt? r = .ok (converse == .lt) := map_ok_iff.mpr ⟨converse, compared', rfl⟩
  cases greater : converse == .lt with
  | true => rw [answered, greater]
  | false =>
    rw [greater] at answered
    cases beyond.symm.trans ((gt?_eq_false_iff finite).mp answered)

end Decimal

namespace Intent

variable {i : Intent} {d : Decimal} {now : Time}

/-- A payment of an amount can be made from the intent: it is active, has not expired and has
enough left. -/
structure Eligible (d : Decimal) (now : Time) (i : Intent) : Prop where
  active : i.status = .active
  unexpired : now.instant ≤ i.expiresAt.instant
  covered : ∃ remaining, i.remaining = .ok remaining ∧ d.le? remaining = .ok true

theorem canPay_of_active (active : i.status = .active) :
    i.canPay d now = i.isExpired now >>= fun expired =>
      if expired then .ok false
      else i.remaining >>= fun remaining => Failure.ofDecimal (d.le? remaining) := by
  rw [canPay, isActive_iff.mpr active]
  rfl

/-- What is found able to pay is eligible, and its expiry compares with the time. -/
theorem canPay_eq_true_iff : i.canPay d now = .ok true ↔
    i.Eligible d now ∧ now.after i.expiresAt = .ok false := by
  by_cases active : i.status = .active
  · rw [canPay_of_active active, bind_ok_iff]
    constructor
    · rintro ⟨expired, compared, able⟩
      cases expired with
      | true => cases able
      | false =>
        obtain ⟨remaining, left, able⟩ := bind_ok_iff.mp able
        exact ⟨⟨active, (Time.after_eq_false_iff.mp compared).2, remaining, left,
          Failure.ofDecimal_ok_iff.mp able⟩, compared⟩
    · rintro ⟨⟨-, -, remaining, left, able⟩, compared⟩
      exact ⟨false, compared, bind_ok_iff.mpr ⟨remaining, left, Failure.ofDecimal_ok_iff.mpr able⟩⟩
  · refine iff_of_false ?_ fun eligible => active eligible.1.active
    simp [canPay, isActive, active]

/-- What is found unable to pay is inactive, expired or has too little left. -/
theorem canPay_eq_false (unable : i.canPay d now = .ok false) :
    i.status ≠ .active ∨ i.status = .active ∧ (now.after i.expiresAt = .ok true ∨
      now.after i.expiresAt = .ok false ∧
        ∃ remaining, i.remaining = .ok remaining ∧ d.le? remaining = .ok false) := by
  by_cases active : i.status = .active
  · rw [canPay_of_active active] at unable
    obtain ⟨expired, compared, unable⟩ := bind_ok_iff.mp unable
    refine .inr ⟨active, ?_⟩
    cases expired with
    | true => exact .inl compared
    | false =>
      obtain ⟨remaining, left, unable⟩ := bind_ok_iff.mp unable
      exact .inr ⟨compared, remaining, left, Failure.ofDecimal_ok_iff.mp unable⟩
  · exact .inl active

end Intent

namespace Strategy

variable {strategy : Strategy} {intents : List Intent} {amount : Numeral} {d : Decimal}
  {now : Time} {i : Intent}

/-- The least of no intents is none, and of some it is one. -/
theorem eq_nil_of_least_none (least : strategy.least intents = .ok none) : intents = [] := by
  cases intents with
  | nil => rfl
  | cons first rest =>
    obtain ⟨last, -, chosen⟩ := map_ok_iff.mp least
    cases chosen

/-- What is chosen was found able to pay. -/
theorem canPay_of_choose (brought : amount.toAmount = .ok d)
    (chose : strategy.choose intents amount now = .ok (some i)) : i.canPay d now = .ok true := by
  simp only [choose, brought, ok_bind] at chose
  obtain ⟨able, filtered, least⟩ := bind_ok_iff.mp chose
  obtain ⟨-, rfl⟩ := filterM_ok_iff.mp filtered
  have kept := (List.mem_filter.mp (mem_of_least least)).2
  exact toOption_eq_some_iff.mp (by simpa using kept)

/-- Where none is chosen, each was found unable to pay. -/
theorem canPay_of_choose_none (brought : amount.toAmount = .ok d)
    (chose : strategy.choose intents amount now = .ok none) :
    ∀ i ∈ intents, i.canPay d now = .ok false := by
  simp only [choose, brought, ok_bind] at chose
  obtain ⟨able, filtered, least⟩ := bind_ok_iff.mp chose
  obtain ⟨answered, kept⟩ := filterM_ok_iff.mp filtered
  rw [eq_nil_of_least_none least] at kept
  intro i mem
  obtain ⟨chosen, answer⟩ := answered i mem
  cases chosen with
  | false => exact answer
  | true =>
    have lost := List.filter_eq_nil_iff.mp kept.symm i mem
    simp [answer, Except.toOption] at lost

end Strategy

/-! ### The stages that ask the same -/

/-- The stages run up to the first that fails. -/
theorem Check.run_stops {finding : Stage → Except Failure Finding} {before : List Stage}
    {stage : Stage} {reason : String} (after : List Stage)
    (passes : ∀ earlier ∈ before, ∃ remark, finding earlier = .ok (.pass remark))
    (fails : finding stage = .ok (.fail reason)) :
    ∃ checks, run finding (before ++ stage :: after) = .ok checks ∧
      firstFailed? checks = some (failed stage reason) := by
  induction before with
  | nil => exact ⟨_, by rw [List.nil_append, run, fails]; rfl, rfl⟩
  | cons first rest ih =>
    obtain ⟨remark, finds⟩ := passes first List.mem_cons_self
    obtain ⟨later, ran, stopped⟩ :=
      ih fun earlier mem => passes earlier (List.mem_cons_of_mem first mem)
    refine ⟨passed first remark :: later, ?_, ?_⟩
    · rw [List.cons_append, run, finds, ok_bind]
      exact map_ok_iff.mpr ⟨later, ran, rfl⟩
    · rw [← stopped]
      rfl

namespace Finding

variable {i : Intent} {d : Decimal} {context : Context} {reason : String}

theorem intentStatus_eq_pass (active : i.status = .active)
    (unexpired : context.requestedAt.after i.expiresAt = .ok false) :
    intentStatus i context = .ok (.pass none) := by
  simp [intentStatus, Intent.isActive_iff.mpr active, Intent.isExpired, unexpired]

theorem exists_intentStatus_fail (unfit : i.status ≠ .active ∨
    i.status = .active ∧ context.requestedAt.after i.expiresAt = .ok true) :
    ∃ reason, intentStatus i context = .ok (.fail reason) := by
  rcases unfit with inactive | ⟨active, expired⟩
  · have isActive : i.isActive = false := by simpa [Intent.isActive] using inactive
    simp only [intentStatus, isActive, Bool.not_false, ↓reduceIte]
    exact ⟨_, rfl⟩
  · simp only [intentStatus, Intent.isActive_iff.mpr active, Intent.isExpired, expired, ok_bind,
      Bool.not_true, Bool.false_eq_true, ↓reduceIte]
    exact ⟨_, rfl⟩

/-- An amount that is covered is refused only where it is not positive. -/
theorem cents_of_amountCap_fail {remaining : Decimal} (whole : d.IsAmount)
    (left : i.remaining = .ok remaining) (covered : d.le? remaining = .ok true)
    (fails : amountCap i d = .ok (.fail reason)) : d.cents ≤ 0 := by
  by_contra positive
  have within := (Decimal.gt?_eq_false_iff whole.isFinite_eq).mpr covered
  simp only [amountCap, whole.le?_zero, positive, decide_false, left, within, Failure.ofDecimal_ok,
    ok_bind, Bool.false_eq_true, ↓reduceIte] at fails
  obtain ⟨rest, -, fails⟩ := bind_ok_iff.mp fails
  cases fails

theorem exists_amountCap_fail {remaining : Decimal} (whole : d.IsAmount)
    (left : i.remaining = .ok remaining) (short : d.le? remaining = .ok false) :
    ∃ reason, amountCap i d = .ok (.fail reason) := by
  have beyond := Decimal.gt?_eq_true_of_le? whole.isFinite_eq short
  simp only [amountCap, whole.le?_zero, left, beyond, Failure.ofDecimal_ok, ok_bind, ↓reduceIte]
  split
  · exact ⟨_, rfl⟩
  · exact ⟨_, rfl⟩

/-- Before its expiry an intent is outside its window only where it is not yet created. -/
theorem early_of_timeWindow_fail (unexpired : context.requestedAt.after i.expiresAt = .ok false)
    (fails : timeWindow i context = .ok (.fail reason)) :
    context.requestedAt.instant < i.createdAt.instant := by
  obtain ⟨early, compared, fails⟩ := bind_ok_iff.mp fails
  cases early with
  | true => exact (Time.after_eq_true_iff.mp compared).2
  | false =>
    simp only [Bool.false_eq_true, ↓reduceIte, unexpired, ok_bind] at fails
    cases fails

end Finding

namespace Verdict

variable {thresholds : RiskThresholds} {intent : Option Intent} {m : Merchant} {amount : Numeral}
  {d : Decimal} {context : Context} {v : Verdict} {stage : Stage}

/-- The stage that a verdict names found a failure. -/
theorem exists_fail_of_failedAt (brought : amount.toAmount = .ok d)
    (calm : context.emergency = false)
    (judged : validate thresholds intent m amount context = .ok v)
    (failed : v.failedAt = some stage) :
    ∃ reason, findings intent m d context stage = .ok (.fail reason) := by
  rw [validate_of_calm brought calm] at judged
  obtain ⟨checks, ran, judged⟩ := bind_ok_iff.mp judged
  rw [(failedAt_of_ofChecks judged).1] at failed
  obtain ⟨check, first, rfl⟩ := Option.map_eq_some_iff.mp failed
  exact (Check.run_failed ran first).2.1

/-- A payment is refused at the first stage that fails. -/
theorem exists_refused_of_fail (thresholds : RiskThresholds) (brought : amount.toAmount = .ok d)
    (calm : context.emergency = false) {before after : List Stage} {reason : String}
    (split : Stage.order = before ++ stage :: after)
    (passes : ∀ earlier ∈ before, ∃ remark,
      findings intent m d context earlier = .ok (.pass remark))
    (fails : findings intent m d context stage = .ok (.fail reason)) :
    ∃ v, validate thresholds intent m amount context = .ok v ∧ v.failedAt = some stage ∧
      v.reason = some reason := by
  obtain ⟨checks, ran, stopped⟩ := Check.run_stops after passes fails
  rw [validate_of_calm brought calm, split, ran, ok_bind, ofChecks, stopped]
  exact ⟨_, rfl, rfl, rfl⟩

/-- What was found able to pay is refused neither for its status nor for its expiry, and for its
balance only where the amount is not positive. -/
theorem failedAt_of_able {i : Intent} (brought : amount.toAmount = .ok d)
    (calm : context.emergency = false) (able : i.canPay d context.requestedAt = .ok true)
    (judged : validate thresholds (some i) m amount context = .ok v) :
    v.failedAt ≠ some .intentStatus ∧ (v.failedAt = some .amountCap → d.cents ≤ 0) ∧
      (v.failedAt = some .timeWindow → context.requestedAt.instant < i.createdAt.instant) := by
  obtain ⟨⟨active, -, remaining, left, covered⟩, unexpired⟩ := Intent.canPay_eq_true_iff.mp able
  refine ⟨fun failed => ?_, fun failed => ?_, fun failed => ?_⟩
  · obtain ⟨reason, fails⟩ := exists_fail_of_failedAt brought calm judged failed
    cases (Finding.intentStatus_eq_pass active unexpired).symm.trans fails
  · obtain ⟨reason, fails⟩ := exists_fail_of_failedAt brought calm judged failed
    exact Finding.cents_of_amountCap_fail (isAmount_of_toAmount brought) left covered fails
  · obtain ⟨reason, fails⟩ := exists_fail_of_failedAt brought calm judged failed
    exact Finding.early_of_timeWindow_fail unexpired fails

/-- The override leaves a payment that is no emergency to the stages behind it. -/
theorem exists_override_pass : ∃ remark,
    findings intent m d context .emergencyOverride = .ok (.pass remark) := by
  cases intent with
  | none => exact ⟨_, rfl⟩
  | some i => exact ⟨_, rfl⟩

/-- What fails at the status of the intent is refused for it. -/
theorem exists_refused_of_status (thresholds : RiskThresholds) (brought : amount.toAmount = .ok d)
    (calm : context.emergency = false) {reason : String}
    (fails : findings intent m d context .intentStatus = .ok (.fail reason)) :
    ∃ v, validate thresholds intent m amount context = .ok v ∧ v.failedAt = some .intentStatus ∧
      v.reason = some reason := by
  have split : Stage.order = [.emergencyOverride] ++ .intentStatus :: Stage.order.drop 2 := rfl
  refine exists_refused_of_fail thresholds brought calm split (fun earlier mem => ?_) fails
  obtain rfl := List.mem_singleton.mp mem
  exact exists_override_pass

/-- What was found unable to pay refuses the payment for its status, its expiry or its balance. -/
theorem exists_refused_of_unable {i : Intent} (brought : amount.toAmount = .ok d)
    (calm : context.emergency = false) (unable : i.canPay d context.requestedAt = .ok false) :
    ∃ v, validate thresholds (some i) m amount context = .ok v ∧
      (v.failedAt = some .intentStatus ∨ v.failedAt = some .amountCap) := by
  have unfit (why : i.status ≠ .active ∨
      i.status = .active ∧ context.requestedAt.after i.expiresAt = .ok true) :
      ∃ v, validate thresholds (some i) m amount context = .ok v ∧
        (v.failedAt = some .intentStatus ∨ v.failedAt = some .amountCap) := by
    obtain ⟨reason, fails⟩ : ∃ reason,
        findings (some i) m d context .intentStatus = .ok (.fail reason) :=
      Finding.exists_intentStatus_fail why
    obtain ⟨v, judged, failed, -⟩ := exists_refused_of_status thresholds brought calm fails
    exact ⟨v, judged, .inl failed⟩
  rcases Intent.canPay_eq_false unable with
    inactive | ⟨active, expired | ⟨unexpired, remaining, left, short⟩⟩
  · exact unfit (.inl inactive)
  · exact unfit (.inr ⟨active, expired⟩)
  · have split : Stage.order =
        [.emergencyOverride, .intentStatus] ++ .amountCap :: Stage.order.drop 3 := rfl
    have passes : ∀ earlier ∈ [Stage.emergencyOverride, .intentStatus], ∃ remark,
        findings (some i) m d context earlier = .ok (.pass remark) := by
      simpa using ⟨exists_override_pass, none, Finding.intentStatus_eq_pass active unexpired⟩
    obtain ⟨reason, fails⟩ : ∃ reason,
        findings (some i) m d context .amountCap = .ok (.fail reason) :=
      Finding.exists_amountCap_fail (isAmount_of_toAmount brought) left short
    obtain ⟨v, judged, failed, -⟩ :=
      exists_refused_of_fail thresholds brought calm split passes fails
    exact ⟨v, judged, .inr failed⟩

theorem reason_without (calm : context.emergency = false) (brought : amount.toAmount = .ok d)
    (judged : validate thresholds none m amount context = .ok v) :
    v.reason = some Finding.noIntent := by
  have fails : findings none m d context .intentStatus = .ok (.fail Finding.noIntent) := rfl
  obtain ⟨v', judged', -, reason⟩ := exists_refused_of_status thresholds brought calm fails
  obtain rfl := Except.ok.inj (judged.symm.trans judged')
  exact reason

end Verdict

/-! ### Payments that find no intent -/

namespace Service

variable {b : Backend} {config : Config} {now : Time} {p : Payment} {target : Option String}
  {w after : World b} {result : PaymentResult}

/-- A payment is recorded under the intent that it went to; if it went to none, so it was judged. -/
theorem of_payTo (done : (payTo config now p target).runFrom w = (.ok result, after)) :
    result.record.intentId = target ∧ (target = none →
      Verdict.validate config.thresholds none p.merchant (.decimal p.amount) p.context =
        .ok result.verdict) := by
  obtain ⟨⟨verdict, intent⟩, committed, commits, done⟩ := exists_of_bind done
  obtain ⟨-, logged, -, done⟩ := exists_of_bind done
  obtain ⟨-, counted, -, done⟩ := exists_of_bind done
  obtain ⟨-, rewarded, -, done⟩ := exists_of_bind done
  cases done
  refine ⟨rfl, ?_⟩
  rintro rfl
  obtain ⟨judged, middle, judges, told⟩ := exists_of_bind commits
  cases told
  exact congrArg Prod.fst judges

/-- A payment that is no emergency goes to no intent only where the strategy chooses none of the
payer's. -/
theorem choose_of_resolvePayment_none (calm : p.context.emergency = false)
    (resolved : (resolvePayment config p).runFrom w = (.ok none, after)) :
    ∃ own, b.intents.ofUser p.user w.store.intents = .ok own ∧ ∃ sorted : List Intent,
      sorted.Perm own ∧
        config.strategy.choose sorted (.decimal p.amount) p.context.requestedAt = .ok none := by
  unfold resolvePayment at resolved
  cases named : p.named with
  | some id =>
    simp only [named] at resolved
    obtain ⟨found, looked, -, resolved⟩ := exists_of_bind resolved
    cases found with
    | none => cases resolved
    | some i =>
      by_cases mine : i.user = p.user
      · simp only [mine, ↓reduceIte, runFrom_pure] at resolved
        cases resolved
      · simp [mine] at resolved
  | none =>
    simp only [named, calm, Bool.false_eq_true, ↓reduceIte] at resolved
    obtain ⟨sorted, looked, listed, resolved⟩ := exists_of_bind resolved
    obtain ⟨chosen, checked, chose, resolved⟩ := exists_of_bind resolved
    obtain ⟨own, read, ordered⟩ := bind_ok_iff.mp (congrArg Prod.fst listed)
    have chose := congrArg Prod.fst chose
    cases chosen with
    | none => exact ⟨own, read, sorted, perm_of_sortByTime ordered, chose⟩
    | some i => cases resolved

/-- A payment that is no emergency and is recorded under no intent is refused for that, and each
intent of the payer was found unable to pay it. -/
theorem unable_of_pay {r : PaymentRequest} (calm : r.emergency = false)
    (done : (pay config now r).runFrom w = (.ok result, after))
    (nowhere : result.record.intentId = none) :
    result.verdict.reason = some Finding.noIntent ∧ ∃ d own, r.amount.toAmount = .ok d ∧
      b.intents.ofUser r.user w.store.intents = .ok own ∧
        ∀ i ∈ own, i.canPay d r.requestedAt = .ok false := by
  rw [pay_eq] at done
  obtain ⟨p, numbered, begins, done⟩ := exists_of_bind done
  obtain ⟨target, resolvedIn, resolves, done⟩ := exists_of_bind done
  obtain ⟨recorded, judged⟩ := of_payTo done
  obtain rfl : target = none := recorded.symm.trans nowhere
  rw [runFrom_begun] at begins
  obtain ⟨d, brought, made⟩ := bind_ok_iff.mp (congrArg Prod.fst begins)
  obtain ⟨m, -, made⟩ := bind_ok_iff.mp made
  cases made
  obtain rfl := (congrArg Prod.snd begins).symm
  have whole := Numeral.toAmount_decimal (isAmount_of_toAmount brought)
  obtain ⟨own, read, sorted, perm, chose⟩ := choose_of_resolvePayment_none calm resolves
  refine ⟨Verdict.reason_without calm whole (judged rfl), d, own, brought, read, ?_⟩
  intro i mem
  exact Strategy.canPay_of_choose_none whole chose i (perm.mem_iff.mpr mem)

end Service

/-! ### The agreement -/

namespace Intent

/-- Payments of an amount at a time that are judged against the intent are refused neither for its
status nor for its expiry, and for its balance only where the amount is not positive. -/
def Serves (amount : Numeral) (d : Decimal) (time : Time) (i : Intent) : Prop :=
  ∀ thresholds m (context : Context) v, context.emergency = false → context.requestedAt = time →
    Verdict.validate thresholds (some i) m amount context = .ok v →
      v.failedAt ≠ some .intentStatus ∧ (v.failedAt = some .amountCap → d.cents ≤ 0) ∧
        (v.failedAt = some .timeWindow → time.instant < i.createdAt.instant)

/-- Payments of an amount at a time are refused by the intent for its status, its expiry or its
balance. -/
def Refuses (amount : Numeral) (time : Time) (i : Intent) : Prop :=
  ∀ thresholds m (context : Context), context.emergency = false → context.requestedAt = time →
    ∃ v, Verdict.validate thresholds (some i) m amount context = .ok v ∧
      (v.failedAt = some .intentStatus ∨ v.failedAt = some .amountCap)

variable {i : Intent} {amount : Numeral} {d : Decimal} {time : Time}

theorem serves_of_able (brought : amount.toAmount = .ok d) (able : i.canPay d time = .ok true) :
    i.Serves amount d time := by
  rintro thresholds m context v calm rfl judged
  exact Verdict.failedAt_of_able brought calm able judged

theorem refuses_of_unable (brought : amount.toAmount = .ok d)
    (unable : i.canPay d time = .ok false) : i.Refuses amount time := by
  rintro thresholds m context calm rfl
  exact Verdict.exists_refused_of_unable brought calm unable

end Intent

/-- What a strategy chooses for an amount serves it, and where it chooses none, each of the intents
refuses it. So a payment that is no emergency and goes to no intent is refused for that, and each
intent of the payer refuses it as well. -/
theorem Strategy.choose_agrees (strategy : Strategy) (intents : List Intent) {amount : Numeral}
    {d : Decimal} (brought : amount.toAmount = .ok d) (time : Time) :
    (∀ i, strategy.choose intents amount time = .ok (some i) → i.Serves amount d time) ∧
    (strategy.choose intents amount time = .ok none → ∀ i ∈ intents, i.Refuses amount time) ∧
    ∀ {b : Backend} (config : Config) (now : Time) (r : PaymentRequest) (w after : World b)
        (result : PaymentResult), r.emergency = false →
      (Service.pay config now r).runFrom w = (.ok result, after) →
      result.record.intentId = none →
        result.verdict.reason = some Finding.noIntent ∧
          ∃ own, b.intents.ofUser r.user w.store.intents = .ok own ∧
            ∀ i ∈ own, i.Refuses r.amount r.requestedAt := by
  refine ⟨fun i chose => ?_, fun chose i mem => ?_, ?_⟩
  · exact Intent.serves_of_able brought (canPay_of_choose brought chose)
  · exact Intent.refuses_of_unable brought (canPay_of_choose_none brought chose i mem)
  · intro b config now r w after result calm done nowhere
    obtain ⟨reason, d, own, brought, read, unable⟩ := Service.unable_of_pay calm done nowhere
    exact ⟨reason, own, read, fun i mem => Intent.refuses_of_unable brought (unable i mem)⟩

namespace Sample

/-- Seventy are more than the reader's intent holds, and no intent is named. -/
def unaffordable : PaymentRequest :=
  { user := "reader", merchant := "MRC001", amount := .whole 70, requestedAt := today }

theorem seventy_toAmount : (Numeral.whole 70).toAmount = .ok (.ofCents 7000) :=
  eq_ok_of_toOption (by decide +kernel)

end Sample

/-- The intent for Chennai is chosen for ten, and the reader's only intent refuses seventy. -/
theorem Strategy.choose_agrees_local :
    Sample.localIntent.Serves (.whole 10) (.ofCents 1000) Sample.today ∧
    ∃ result after, ∃ own : List Intent,
      (Service.pay Sample.config Sample.today Sample.unaffordable).runFrom
        (Sample.start.after Sample.config Sample.funded) = (.ok result, after) ∧
      result.verdict.reason = some Finding.noIntent ∧ own.length = 1 ∧
        ∀ i ∈ own, i.Refuses (.whole 70) Sample.today := by
  have chosen : (soonestExpiring.choose [Sample.localIntent] (.whole 10)
      Sample.today).toOption = some (some Sample.localIntent) := by decide +kernel
  obtain ⟨result, after, paid, nowhere⟩ : ∃ result after,
      (Service.pay Sample.config Sample.today Sample.unaffordable).runFrom
        (Sample.start.after Sample.config Sample.funded) = (.ok result, after) ∧
      result.record.intentId = none := by
    have told : ((Service.pay Sample.config Sample.today Sample.unaffordable).runFrom
        (Sample.start.after Sample.config Sample.funded)).1.toOption.map (·.record.intentId) =
          some none := by decide +kernel
    obtain ⟨result, paid, nowhere⟩ := Option.map_eq_some_iff.mp told
    exact ⟨result, _, Prod.ext (eq_ok_of_toOption paid) rfl, nowhere⟩
  obtain ⟨serves, -, -⟩ :=
    choose_agrees soonestExpiring [Sample.localIntent] Sample.ten_toAmount Sample.today
  obtain ⟨-, -, payments⟩ := choose_agrees soonestExpiring [] Sample.seventy_toAmount Sample.today
  obtain ⟨reason, own, read, refuses⟩ := payments _ _ _ _ _ _ rfl paid nowhere
  have one : (Backend.memory.intents.ofUser "reader"
      (Sample.start.after Sample.config Sample.funded).store.intents).toOption.map List.length =
        some 1 := by decide +kernel
  refine ⟨serves _ (eq_ok_of_toOption chosen), result, after, own, paid, reason, ?_, refuses⟩
  have read : Backend.memory.intents.ofUser "reader"
      (Sample.start.after Sample.config Sample.funded).store.intents = .ok own := read
  rw [read] at one
  exact Option.some.inj one

end Earmark
