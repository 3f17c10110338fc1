import Earmark.Proofs.Differences
import Earmark.Proofs.Judgements

/-!
The pipeline decides what an intent requires, stage by stage. A payment that is no emergency is
approved exactly where every stage's requirement is met and the approval can be put down, and a
payment that is refused is refused at the first stage, in their order, whose requirement it does not
meet (`Verdict.validate_decides`).
-/

namespace Earmark

/-! ### Requirements -/

/-- The merchant sells under a label: it is one that the merchant's code stands for, or the
merchant's category, or part of a tag, or a tag is part of it. -/
def Merchant.SellsUnder (m : Merchant) (label : String) : Prop :=
  label ∈ (codeLabels.lookup m.code).getD [] ∨ label = m.category.word ∨
    ∃ tag ∈ m.tags, tag.toList <:+: label.toList ∨ label.toList <:+: tag.toList

/-- What an intent requires at a stage of a payment. -/
def Intent.Requires (i : Intent) (m : Merchant) (d : Decimal) (context : Context) : Stage → Prop
  | .emergencyOverride => True
  | .intentStatus =>
    i.status = .active ∧ context.requestedAt.instant ≤ i.expiresAt.instant
  | .amountCap =>
    0 < d.toRat ∧ ∃ remaining, i.remaining = .ok remaining ∧ d.le? remaining = .ok true
  | .timeWindow =>
    i.createdAt.instant ≤ context.requestedAt.instant ∧
      context.requestedAt.instant ≤ i.expiresAt.instant
  | .geoFence => ∀ geo ∈ i.policy.geo, geo.Admits m
  | .merchantCategory =>
    m.isMixed = false ∧
      (m.code ∈ i.policy.codes ∨ ∃ label ∈ i.policy.categories, m.SellsUnder label)
  | .merchantTier => i.policy.tier ≤ m.tier
  | .proofRequirement => i.policy.proofRequired = true → context.proof = true

/-- A payment meets what a stage requires. Every stage but the first requires an intent. -/
def Verdict.Meets (intent : Option Intent) (m : Merchant) (d : Decimal) (context : Context)
    (stage : Stage) : Prop :=
  stage = .emergencyOverride ∨ ∃ i, intent = some i ∧ i.Requires m d context stage

/-- The time of a request compares with both ends of an intent's window. -/
structure Intent.Compares (i : Intent) (context : Context) : Prop where
  created : i.createdAt.offset.isSome = context.requestedAt.offset.isSome
  expires : i.expiresAt.offset.isSome = context.requestedAt.offset.isSome

/-! ### What the findings find -/

theorem isPartOf_iff {part whole : List Char} : isPartOf part whole = true ↔ part <:+: whole := by
  induction whole with
  | nil => simp [isPartOf]
  | cons c rest ih =>
    rw [isPartOf, Bool.or_eq_true, List.isPrefixOf_iff_prefix, ih, List.infix_cons_iff]

theorem Merchant.sells_iff {m : Merchant} {label : String} :
    m.sells label = true ↔ m.SellsUnder label := by
  simp only [sells, labels, SellsUnder, Bool.or_eq_true, List.contains_iff_mem, List.mem_append,
    List.mem_singleton, List.any_eq_true, isPartOf_iff, or_assoc]

namespace Finding

variable {i : Intent} {m : Merchant} {d : Decimal} {context : Context}

theorem intentStatus_pass_iff (compares : i.Compares context) :
    (∃ remark, intentStatus i context = .ok (.pass remark)) ↔
      i.Requires m d context .intentStatus := by
  have unexpired : context.requestedAt.after i.expiresAt = .ok false ↔
      context.requestedAt.instant ≤ i.expiresAt.instant :=
    Time.after_eq_false_iff.trans (and_iff_right compares.expires.symm)
  rw [Intent.Requires, ← unexpired]
  constructor
  · rintro ⟨remark, passed⟩
    exact intentStatus_pass passed
  · rintro ⟨active, compared⟩
    have told : i.isExpired context.requestedAt = .ok false := compared
    exact ⟨none, by simp [intentStatus, Intent.isActive_iff.mpr active, told]⟩

theorem amountCap_pass_iff (amount : d.IsAmount) :
    (∃ remark, amountCap i d = .ok (.pass remark)) ↔ i.Requires m d context .amountCap := by
  have finite := amount.isFinite_eq
  simp only [Intent.Requires, amountCap, Decimal.le?_finite (b := .ofNat 0) finite rfl,
    Decimal.toRat_ofNat_zero, Failure.ofDecimal_ok, ok_bind, decide_eq_true_eq]
  by_cases positive : 0 < d.toRat
  · simp only [not_le.mpr positive, ↓reduceIte, positive, true_and, bind_ok_iff]
    constructor
    · rintro ⟨remark, remaining, rest, beyond, compared, passed⟩
      cases beyond with
      | true => cases passed
      | false =>
        exact ⟨remaining, rest, (Decimal.gt?_eq_false_iff finite).mp
          (Failure.ofDecimal_ok_iff.mp compared)⟩
    · rintro ⟨remaining, rest, within⟩
      have compared := (Decimal.gt?_eq_false_iff finite).mpr within
      obtain ⟨left, told⟩ :=
        Decimal.exists_sub_of_le (Failure.ofDecimal_ok_iff.mp rest) positive within
      exact ⟨_, remaining, rest, false, by rw [compared]; rfl, by simp only [told]; rfl⟩
  · simp [positive, not_lt.mp positive]

theorem timeWindow_pass_iff (compares : i.Compares context) :
    (∃ remark, timeWindow i context = .ok (.pass remark)) ↔
      i.Requires m d context .timeWindow := by
  have begun : i.createdAt.after context.requestedAt = .ok false ↔
      i.createdAt.instant ≤ context.requestedAt.instant :=
    Time.after_eq_false_iff.trans (and_iff_right compares.created)
  have unexpired : context.requestedAt.after i.expiresAt = .ok false ↔
      context.requestedAt.instant ≤ i.expiresAt.instant :=
    Time.after_eq_false_iff.trans (and_iff_right compares.expires.symm)
  rw [Intent.Requires, ← begun, ← unexpired]
  constructor
  · rintro ⟨remark, passed⟩
    exact timeWindow_pass passed
  · rintro ⟨before, after⟩
    exact ⟨none, by simp [timeWindow, before, after]⟩

theorem cityFence_pass_iff {city : String} {radius : Option Measure} :
    (∃ remark, cityFence city radius m = .ok (.pass remark)) ↔
      ∃ place fence, m.city = .text place ∧ City.canonical place = City.canonical city ∧
        City.fence (City.canonical city) radius = .ok fence ∧
        ∀ bounds ∈ fence, bounds.contains m.latitude m.longitude = true := by
  constructor
  · rintro ⟨remark, passed⟩
    exact cityFence_pass passed
  · rintro ⟨place, fence, at_, same, fenced, inside⟩
    have within : (fence.any fun bounds => !bounds.contains m.latitude m.longitude) = false := by
      cases fence with
      | none => rfl
      | some bounds => simpa using inside
    simp only [cityFence, fenced, ok_bind, within, Bool.false_eq_true, ↓reduceIte, at_, placeName,
      Option.map_some, same, bne_self_eq_false]
    split <;> exact ⟨_, rfl⟩

theorem regionFence_pass_iff {region : String} :
    (∃ remark, regionFence region m = .ok (.pass remark)) ↔
      ∃ place, m.region = .text place ∧ normalize place = normalize region := by
  constructor
  · rintro ⟨remark, passed⟩
    exact regionFence_pass passed
  · rintro ⟨place, at_, same⟩
    exact ⟨none, by simp [regionFence, at_, placeName, same]⟩

theorem geoFence_pass_iff :
    (∃ remark, geoFence i m = .ok (.pass remark)) ↔ i.Requires m d context .geoFence := by
  constructor
  · rintro ⟨remark, passed⟩
    exact geoFence_pass passed
  · intro admits
    cases restricted : i.policy.geo with
    | none => exact ⟨some "No geo restriction on this intent", by simp only [geoFence, restricted]⟩
    | some geo =>
      have admits := admits geo restricted
      have byCity (named : isNamed geo.city = true) :=
        cityFence_pass_iff.mpr (admits.city named)
      have byRegion (named : isNamed geo.region = true) :=
        regionFence_pass_iff.mpr (admits.region named)
      by_cases city : isNamed geo.city = true
      · obtain ⟨note, byCity⟩ := byCity city
        by_cases region : isNamed geo.region = true
        · obtain ⟨other, byRegion⟩ := byRegion region
          exact ⟨note, by simp [geoFence, restricted, city, byCity, region, byRegion]⟩
        · exact ⟨note, by simp [geoFence, restricted, city, byCity, region]⟩
      · by_cases region : isNamed geo.region = true
        · obtain ⟨other, byRegion⟩ := byRegion region
          exact ⟨none, by simp [geoFence, restricted, city, region, byRegion]⟩
        · exact ⟨none, by simp [geoFence, restricted, city, region]⟩

theorem merchantTier_pass_iff :
    (∃ remark, merchantTier i m = .pass remark) ↔ i.policy.tier ≤ m.tier := by
  constructor
  · rintro ⟨remark, passed⟩
    exact merchantTier_pass passed
  · intro enough
    exact ⟨none, by simp [merchantTier, not_lt.mpr enough]⟩

theorem proofRequirement_pass_iff :
    (∃ remark, proofRequirement i context = .pass remark) ↔
      (i.policy.proofRequired = true → context.proof = true) := by
  constructor
  · rintro ⟨remark, passed⟩
    exact proofRequirement_pass passed
  · intro supplied
    cases required : i.policy.proofRequired with
    | false => exact ⟨_, if_pos (by rw [required]; rfl)⟩
    | true => exact ⟨none, by simp [proofRequirement, required, supplied required]⟩

theorem exists_overlap_iff {allowed : List String} :
    m.overlap allowed ≠ [] ↔ ∃ label ∈ allowed, m.SellsUnder label := by
  simp only [ne_eq, List.eq_nil_iff_forall_not_mem, Merchant.mem_overlap, Merchant.sells_iff,
    not_forall, not_not]

/-- A stage passes exactly where what the intent requires at it is met. -/
theorem passes_iff (compares : i.Compares context) (amount : d.IsAmount) {stage : Stage} :
    Passes i m d context stage ↔ i.Requires m d context stage := by
  have told {finding : Finding} : (∃ remark, (.ok finding : Except Failure Finding) =
      .ok (.pass remark)) ↔ ∃ remark, finding = .pass remark := by simp
  cases stage with
  | emergencyOverride => exact iff_of_true ⟨_, rfl⟩ trivial
  | intentStatus => exact intentStatus_pass_iff compares
  | amountCap => exact amountCap_pass_iff amount
  | timeWindow => exact timeWindow_pass_iff compares
  | geoFence => exact geoFence_pass_iff
  | merchantCategory =>
    rw [Intent.Requires, ← exists_overlap_iff]
    exact told.trans merchantCategory_pass_iff
  | merchantTier => exact told.trans merchantTier_pass_iff
  | proofRequirement => exact told.trans proofRequirement_pass_iff

end Finding

/-! ### Running the stages -/

/-- The check that failed is of the first stage that does not pass. -/
theorem Check.run_failed {finding : Stage → Except Failure Finding} {stages : List Stage}
    {checks : List Check} {check : Check} (ran : run finding stages = .ok checks)
    (failed : firstFailed? checks = some check) :
    check.stage ∈ stages ∧ (∃ reason, finding check.stage = .ok (.fail reason)) ∧
      ∀ earlier ∈ stages.takeWhile (· != check.stage), ∃ remark,
        finding earlier = .ok (.pass remark) := by
  induction stages generalizing checks with
  | nil =>
    cases ran
    cases failed
  | cons first rest ih =>
    simp only [run, bind_ok_iff] at ran
    obtain ⟨found, finds, ran⟩ := ran
    cases found with
    | fail reason =>
      cases ran
      obtain rfl : Check.failed first reason = check := by
        simpa [firstFailed?, Check.failed] using failed
      exact ⟨by simp [Check.failed], ⟨reason, finds⟩, by simp [Check.failed]⟩
    | pass remark =>
      obtain ⟨later, ranLater, rfl⟩ := map_ok_iff.mp ran
      obtain ⟨mem, ⟨reason, fails⟩, passed⟩ :=
        ih ranLater (by simpa [firstFailed?, Check.passed] using failed)
      have other : first ≠ check.stage := by
        rintro rfl
        cases finds.symm.trans fails
      refine ⟨List.mem_cons_of_mem first mem, ⟨reason, fails⟩, ?_⟩
      simp only [bne_iff_ne, ne_eq, other, not_false_eq_true, List.takeWhile_cons_of_pos,
        List.forall_mem_cons]
      exact ⟨⟨remark, finds⟩, passed⟩

namespace Verdict

variable {thresholds : RiskThresholds} {intent : Option Intent} {m : Merchant} {amount : Numeral}
  {d : Decimal} {context : Context} {v : Verdict}

/-- What the stages of a payment find that asks for no override. -/
def findings (intent : Option Intent) (m : Merchant) (d : Decimal) (context : Context) :
    Stage → Except Failure Finding :=
  match intent with
  | none => Check.withoutIntent
  | some i => Finding.ofStage i m d context

/-- A stage passes exactly where the payment meets what it requires. -/
theorem passes_iff_meets (compares : ∀ i ∈ intent, i.Compares context) (whole : d.IsAmount)
    {stage : Stage} :
    (∃ remark, findings intent m d context stage = .ok (.pass remark)) ↔
      Meets intent m d context stage := by
  cases intent with
  | none => cases stage <;> simp [findings, Check.withoutIntent, Meets]
  | some i =>
    have passes : Finding.Passes i m d context stage ↔ i.Requires m d context stage :=
      Finding.passes_iff (compares i rfl) whole
    refine passes.trans ⟨fun met => .inr ⟨i, rfl, met⟩, ?_⟩
    rintro (rfl | ⟨j, same, met⟩)
    · trivial
    · obtain rfl := Option.some.inj same
      exact met

theorem validate_of_calm (brought : amount.toAmount = .ok d) (calm : context.emergency = false) :
    validate thresholds intent m amount context =
      Check.run (findings intent m d context) Stage.order >>=
        ofChecks thresholds intent m d context := by
  simp only [validate, brought, ok_bind, judge, calm, Bool.false_eq_true, ↓reduceIte]
  rfl

/-- Checks amount to an approval where none failed, and else to a refusal at the stage of the one
that did. -/
theorem failedAt_of_ofChecks {checks : List Check}
    (judged : ofChecks thresholds intent m d context checks = .ok v) :
    v.failedAt = (Check.firstFailed? checks).map (·.stage) ∧
      v.approved = (Check.firstFailed? checks).isNone := by
  unfold ofChecks at judged
  split at judged
  · rename_i failed
    cases judged
    simp [failed]
  · rename_i unfailed
    simp only [bind_ok_iff] at judged
    obtain ⟨merchant, -, risk, -, judged⟩ := judged
    cases judged
    simp [unfailed]

/-- An approval can be put down where the merchant's id has an encoding and amounts compare with
what counts as a high one. -/
theorem canConclude_iff (whole : d.IsAmount) :
    CanConclude thresholds m d ↔
      (∀ points, m.id ≠ .unpaired points) ∧ thresholds.highValue.isNaN = false := by
  refine and_congr ⟨?_, fun encodable => ⟨_, Merchant.encodedId_eq encodable⟩⟩ ?_
  · rintro ⟨merchant, encoded⟩ points unencodable
    have failed := Merchant.encodedId_error_iff.mpr ⟨⟨points, unencodable⟩, rfl⟩
    cases encoded.symm.trans failed
  · cases unordered : thresholds.highValue.isNaN with
    | true =>
      simp [RiskAssessment.assess, Decimal.gt?, Decimal.lt?, Decimal.compare?, unordered,
        Functor.map, Except.map, Failure.ofDecimal, Except.mapError]
    | false =>
      simp [RiskAssessment.assess, Decimal.gt?, Decimal.lt?, Decimal.compare?, unordered,
        whole.isNaN_eq, Functor.map, Except.map]

theorem exists_approved_iff (brought : amount.toAmount = .ok d)
    (calm : context.emergency = false) :
    (∃ v, validate thresholds intent m amount context = .ok v ∧ v.approved = true) ↔
      (∀ stage ∈ Stage.order, ∃ remark, findings intent m d context stage = .ok (.pass remark)) ∧
        CanConclude thresholds m d := by
  rw [validate_of_calm brought calm]
  constructor
  · rintro ⟨v, judged, approved⟩
    obtain ⟨checks, ran, judged⟩ := bind_ok_iff.mp judged
    have unfailed := (bypass_of_ofChecks judged).2 approved
    simp only [ofChecks, unfailed, bind_ok_iff] at judged
    obtain ⟨merchant, encoded, risk, assessed, -⟩ := judged
    exact ⟨Check.run_passed ran unfailed, ⟨merchant, encoded⟩, risk, assessed⟩
  · rintro ⟨passed, ⟨merchant, encoded⟩, risk, assessed⟩
    obtain ⟨checks, ran, unfailed⟩ := Check.run_passed_iff.mpr passed
    refine ⟨_, by simp only [ran, ok_bind, ofChecks, unfailed, encoded, assessed]; rfl, rfl⟩

/-- A payment that is no emergency, at a time that compares with the intent's, is approved exactly
where it meets what every stage requires, the merchant's id has an encoding and the threshold of
high amounts is a number; and one that is refused is refused at the first stage, in their order,
whose requirement it does not meet. -/
theorem validate_decides (brought : amount.toAmount = .ok d) (calm : context.emergency = false)
    (compares : ∀ i ∈ intent, i.Compares context) :
    ((∃ v, validate thresholds intent m amount context = .ok v ∧ v.approved = true) ↔
      (∀ stage ∈ Stage.order, Meets intent m d context stage) ∧
        (∀ points, m.id ≠ .unpaired points) ∧ thresholds.highValue.isNaN = false) ∧
    ∀ v, validate thresholds intent m amount context = .ok v → v.approved = false →
      ∃ stage ∈ Stage.order, v.failedAt = some stage ∧ ¬Meets intent m d context stage ∧
        ∀ earlier ∈ Stage.order.takeWhile (· != stage), Meets intent m d context earlier := by
  have whole := isAmount_of_toAmount brought
  have meets {stage : Stage} : (∃ remark, findings intent m d context stage = .ok (.pass remark)) ↔
      Meets intent m d context stage := passes_iff_meets compares whole
  constructor
  · rw [exists_approved_iff brought calm, canConclude_iff whole]
    simp only [meets]
  · intro v judged refused
    rw [validate_of_calm brought calm] at judged
    obtain ⟨checks, ran, judged⟩ := bind_ok_iff.mp judged
    obtain ⟨stage, approved⟩ := failedAt_of_ofChecks judged
    cases failed : Check.firstFailed? checks with
    | none =>
      rw [approved, failed] at refused
      cases refused
    | some check =>
      obtain ⟨mem, ⟨reason, fails⟩, passed⟩ := Check.run_failed ran failed
      refine ⟨check.stage, mem, by rw [stage, failed]; rfl, ?_, fun earlier before =>
        meets.mp (passed earlier before)⟩
      rw [← meets]
      rintro ⟨remark, passes⟩
      cases fails.symm.trans passes

/-! ### A shop in Chennai -/

end Verdict

namespace Sample

theorem localIntent_compares : ∀ i ∈ some localIntent, i.Compares asked := by
  rintro i ⟨⟩
  exact ⟨rfl, rfl⟩

/-- The first merchant of the catalog, under an id that has no encoding. -/
def unencodable : Merchant := { Directory.catalog[0] with id := .unpaired [0xd800] }

theorem thousand_toAmount : (Numeral.whole 1000).toAmount = .ok (.ofCents 100000) :=
  eq_ok_of_toOption (by decide +kernel)

end Sample

namespace Verdict

/-- Ten at the shop meet what the intent for Chennai requires, and a thousand are more than is
left. -/
theorem validate_decides_local :
    (∀ stage ∈ Stage.order, Meets (some Sample.localIntent) Directory.catalog[0] (.ofCents 1000)
      Sample.asked stage) ∧
    ¬Meets (some Sample.localIntent) Directory.catalog[0] (.ofCents 100000) Sample.asked
      .amountCap := by
  have ten : (validate {} (some Sample.localIntent) Directory.catalog[0] (.whole 10)
      Sample.asked).toOption.map Verdict.approved = some true := by decide +kernel
  have thousand : (validate {} (some Sample.localIntent) Directory.catalog[0] (.whole 1000)
      Sample.asked).toOption.map (fun v => (v.approved, v.failedAt)) =
        some (false, some .amountCap) := by decide +kernel
  obtain ⟨v, judged, approved⟩ := Option.map_eq_some_iff.mp ten
  obtain ⟨w, judged', flags⟩ := Option.map_eq_some_iff.mp thousand
  obtain ⟨refused, failedAt⟩ := Prod.mk.inj flags
  constructor
  · exact ((validate_decides Sample.ten_toAmount rfl Sample.localIntent_compares).1.mp
      ⟨v, eq_ok_of_toOption judged, approved⟩).1
  · obtain ⟨stage, -, failed, unmet, -⟩ :=
      (validate_decides Sample.thousand_toAmount rfl Sample.localIntent_compares).2 w
        (eq_ok_of_toOption judged') refused
    obtain rfl := Option.some.inj (failedAt.symm.trans failed)
    exact unmet

/-- What meets every requirement need not be approved: a merchant's id may have no encoding. -/
theorem validate_not_decisive :
    ¬∀ (intent : Option Intent) (m : Merchant) (amount : Numeral) (d : Decimal)
        (context : Context), amount.toAmount = .ok d → context.emergency = false →
      (∀ i ∈ intent, i.Compares context) →
        ((∃ v, validate {} intent m amount context = .ok v ∧ v.approved = true) ↔
          ∀ stage ∈ Stage.order, Meets intent m d context stage) := by
  intro decides
  -- no requirement asks for the id of the merchant
  have met : ∀ stage ∈ Stage.order, Meets (some Sample.localIntent) Sample.unencodable
      (.ofCents 1000) Sample.asked stage := by
    have ten : (validate {} (some Sample.localIntent) Directory.catalog[0] (.whole 10)
        Sample.asked).toOption.map Verdict.approved = some true := by decide +kernel
    obtain ⟨v, judged, approved⟩ := Option.map_eq_some_iff.mp ten
    have meets := (decides (some Sample.localIntent) Directory.catalog[0] _ _ _ Sample.ten_toAmount
      rfl Sample.localIntent_compares).mp ⟨v, eq_ok_of_toOption judged, approved⟩
    intro stage mem
    rcases meets stage mem with first | ⟨i, given, required⟩
    · exact .inl first
    · refine .inr ⟨i, given, ?_⟩
      cases stage with
      | geoFence =>
        exact fun geo restricted =>
          ⟨(required geo restricted).city, (required geo restricted).region⟩
      | _ => exact required
  obtain ⟨v, judged, -⟩ := (decides _ _ _ _ _ Sample.ten_toAmount rfl
    Sample.localIntent_compares).mpr met
  have fails : (validate {} (some Sample.localIntent) Sample.unencodable (.whole 10)
      Sample.asked).toOption.isSome = false := by decide +kernel
  rw [judged] at fails
  cases fails

end Verdict

end Earmark
