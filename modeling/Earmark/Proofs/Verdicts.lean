import Earmark.Verdict.Pipeline
import Earmark.Proofs.Ledger

/-!
What an approval means. A payment that is approved without an override passed every stage of the
pipeline, so its intent is active, its amount is within what remains, its request falls in the
window, and its merchant is one that the policy admits (`Allows.of_validate`).
-/

namespace Earmark

/-- One time is not after another when they compare and its instant is no later. -/
theorem Time.after_eq_false_iff {a b : Time} :
    a.after b = .ok false ↔ a.offset.isSome = b.offset.isSome ∧ a.instant ≤ b.instant := by
  by_cases alike : a.offset.isSome = b.offset.isSome
  · simp only [after, compare?, alike, ↓reduceIte, Option.map_some, Failure.require,
      Except.ok.injEq, true_and]
    rcases lt_trichotomy a.instant b.instant with less | same | greater
    · simp [compare_lt_iff_lt.mpr less, less.le]
    · simp [compare_eq_iff_eq.mpr same, same.le]
    · simp [compare_gt_iff_gt.mpr greater, greater]
  · simp [after, compare?, alike, Failure.require]

/-- A merchant lies where a restriction says. -/
structure GeoRestriction.Admits (geo : GeoRestriction) (m : Merchant) : Prop where
  city : isNamed geo.city = true → ∃ place fence, m.city = .text place ∧
    City.canonical place = City.canonical (geo.city.getD "") ∧
    City.fence (City.canonical (geo.city.getD "")) geo.radius = .ok fence ∧
    ∀ bounds ∈ fence, bounds.contains m.latitude m.longitude = true
  region : isNamed geo.region = true → ∃ place, m.region = .text place ∧
    normalize place = normalize (geo.region.getD "")

/-- A merchant is one that a policy lets payments go to. -/
structure Policy.Admits (policy : Policy) (m : Merchant) : Prop where
  unmixed : m.isMixed = false
  tier : policy.tier ≤ m.tier
  category : m.code ∈ policy.codes ∨ m.overlap policy.categories ≠ []
  place : ∀ geo ∈ policy.geo, geo.Admits m

/-- An intent allows a payment of an amount. -/
structure Intent.Allows (i : Intent) (m : Merchant) (amount : Decimal) (context : Context) :
    Prop where
  active : i.status = .active
  positive : 0 < amount.cents
  within : i.used.cents + amount.cents ≤ i.limit.cents
  begun : i.createdAt.after context.requestedAt = .ok false
  unexpired : context.requestedAt.after i.expiresAt = .ok false
  admits : i.policy.Admits m
  proof : i.policy.proofRequired = true → context.proof = true

namespace Check

/-- Where no check failed every stage found a pass. -/
theorem run_passed {finding : Stage → Except Failure Finding} {stages : List Stage}
    {checks : List Check} (ran : run finding stages = .ok checks)
    (unfailed : firstFailed? checks = none) :
    ∀ stage ∈ stages, ∃ remark, finding stage = .ok (.pass remark) := by
  induction stages generalizing checks with
  | nil => simp
  | cons first rest ih =>
    simp only [run, bind_ok_iff] at ran
    obtain ⟨found, finds, ran⟩ := ran
    cases found with
    | fail reason =>
      cases ran
      simp [firstFailed?, failed] at unfailed
    | pass remark =>
      cases tail : run finding rest with
      | error failure =>
        rw [tail] at ran
        cases ran
      | ok checks' =>
        rw [tail] at ran
        cases ran
        have unfailed' : firstFailed? checks' = none := by
          simpa [firstFailed?, passed] using unfailed
        intro stage mem
        rcases List.mem_cons.mp mem with rfl | mem
        · exact ⟨remark, finds⟩
        · exact ih tail unfailed' stage mem

end Check

theorem Merchant.shown_of_encodedId {m : Merchant} {id : String} (encoded : m.encodedId = .ok id) :
    m.id.shown = id := by
  unfold encodedId at encoded
  split at encoded
  · cases encoded
  · exact Except.ok.inj encoded

namespace Verdict

variable {thresholds : RiskThresholds} {intent : Option Intent} {m : Merchant} {amount : Decimal}
  {context : Context} {v : Verdict}

theorem judge_of_validate (whole : amount.IsAmount)
    (judged : validate thresholds intent m (.decimal amount) context = .ok v) :
    judge thresholds intent m amount context = .ok v := by
  simpa only [validate, Numeral.toAmount_decimal whole, ok_bind] using judged

theorem bypass_of_override (judged : override thresholds intent m amount context = .ok v) :
    v.bypass = true ∧ v.approved = true := by
  simp only [override, bind_ok_iff] at judged
  obtain ⟨risk, -, merchant, -, judged⟩ := judged
  cases judged
  exact ⟨rfl, rfl⟩

theorem bypass_of_ofChecks {checks : List Check}
    (judged : ofChecks thresholds intent m amount context checks = .ok v) :
    v.bypass = false ∧ (v.approved = true → Check.firstFailed? checks = none) := by
  cases unfailed : Check.firstFailed? checks with
  | some failed =>
    simp only [ofChecks, unfailed] at judged
    cases judged
    exact ⟨rfl, fun approved => by cases approved⟩
  | none =>
    simp only [ofChecks, unfailed, bind_ok_iff] at judged
    obtain ⟨merchant, -, risk, -, judged⟩ := judged
    cases judged
    exact ⟨rfl, fun _ => rfl⟩

/-- Only an emergency is approved by the override. -/
theorem bypass_eq (whole : amount.IsAmount)
    (judged : validate thresholds intent m (.decimal amount) context = .ok v) :
    v.bypass = context.emergency := by
  have judged := judge_of_validate whole judged
  unfold judge at judged
  cases emergency : context.emergency with
  | true =>
    simp only [emergency, ↓reduceIte] at judged
    exact (bypass_of_override judged).1
  | false =>
    simp only [emergency, Bool.false_eq_true, ↓reduceIte, bind_ok_iff] at judged
    obtain ⟨checks, -, judged⟩ := judged
    exact (bypass_of_ofChecks judged).1

/-- An override approves. -/
theorem approved_of_bypass (whole : amount.IsAmount)
    (judged : validate thresholds intent m (.decimal amount) context = .ok v)
    (bypass : v.bypass = true) : v.approved = true := by
  have emergency := (bypass_eq whole judged).symm.trans bypass
  have judged := judge_of_validate whole judged
  simp only [judge, emergency, ↓reduceIte] at judged
  exact (bypass_of_override judged).2

/-- An approval without an override passed every stage. -/
theorem passed_of_approved (whole : amount.IsAmount)
    (judged : validate thresholds intent m (.decimal amount) context = .ok v)
    (bypass : v.bypass = false) (approved : v.approved = true) :
    ∀ stage ∈ Stage.order, ∃ remark,
      (match intent with
        | none => Check.withoutIntent
        | some i => Finding.ofStage i m amount context) stage = .ok (.pass remark) := by
  have emergency := (bypass_eq whole judged).symm.trans bypass
  have judged := judge_of_validate whole judged
  simp only [judge, emergency, Bool.false_eq_true, ↓reduceIte, bind_ok_iff] at judged
  obtain ⟨checks, ran, judged⟩ := judged
  exact Check.run_passed ran ((bypass_of_ofChecks judged).2 approved)

/-- Without an intent nothing but an override is approved. -/
theorem bypass_of_approved_without (whole : amount.IsAmount)
    (judged : validate thresholds none m (.decimal amount) context = .ok v)
    (approved : v.approved = true) : v.bypass = true := by
  cases bypass : v.bypass with
  | true => rfl
  | false =>
    obtain ⟨remark, finds⟩ :=
      passed_of_approved whole judged bypass approved .intentStatus (by decide)
    cases finds

/-- What is approved has the reference of its transaction, to its merchant, of its amount; nothing
else has one. -/
theorem reference_eq (whole : amount.IsAmount)
    (judged : validate thresholds intent m (.decimal amount) context = .ok v) :
    v.reference = if v.approved then
      some ((if v.bypass then Reference.emergency else Reference.payment)
        context.transactionId m.id.shown amount.toText) else none := by
  have judged := judge_of_validate whole judged
  unfold judge at judged
  split at judged
  · simp only [override, bind_ok_iff] at judged
    obtain ⟨risk, -, merchant, encoded, judged⟩ := judged
    cases judged
    rw [Merchant.shown_of_encodedId encoded]
    rfl
  · obtain ⟨checks, -, judged⟩ := bind_ok_iff.mp judged
    unfold ofChecks at judged
    split at judged
    · cases judged
      rfl
    · simp only [bind_ok_iff] at judged
      obtain ⟨merchant, encoded, risk, -, judged⟩ := judged
      cases judged
      rw [Merchant.shown_of_encodedId encoded]
      rfl

end Verdict

namespace Finding

variable {i : Intent} {m : Merchant} {amount : Decimal} {context : Context}
  {remark : Option String}

theorem intentStatus_pass (passed : intentStatus i context = .ok (.pass remark)) :
    i.status = .active ∧ context.requestedAt.after i.expiresAt = .ok false := by
  by_cases active : i.status = .active
  · simp only [intentStatus, Intent.isActive_iff.mpr active, Bool.not_true, Bool.false_eq_true,
      ↓reduceIte, bind_ok_iff] at passed
    obtain ⟨expired, compared, passed⟩ := passed
    cases expired with
    | true => simp at passed
    | false => exact ⟨active, compared⟩
  · simp [intentStatus, Intent.isActive, active] at passed

theorem amountCap_pass (sound : i.Sound) (whole : amount.IsAmount)
    (passed : amountCap i amount = .ok (.pass remark)) :
    0 < amount.cents ∧ i.used.cents + amount.cents ≤ i.limit.cents := by
  obtain ⟨rest, remaining, amountRest, value⟩ := sound.exists_remaining
  simp only [amountCap, whole.le?_zero, Failure.ofDecimal_ok, ok_bind, decide_eq_true_eq, remaining,
    whole.gt?_eq amountRest] at passed
  by_cases positive : 0 < amount.cents
  · by_cases beyond : rest.cents < amount.cents
    · simp [not_le.mpr positive, beyond] at passed
    · exact ⟨positive, by omega⟩
  · simp [not_lt.mp positive] at passed

theorem timeWindow_pass (passed : timeWindow i context = .ok (.pass remark)) :
    i.createdAt.after context.requestedAt = .ok false ∧
      context.requestedAt.after i.expiresAt = .ok false := by
  simp only [timeWindow, bind_ok_iff] at passed
  obtain ⟨early, begun, passed⟩ := passed
  cases early with
  | true => simp at passed
  | false =>
    simp only [Bool.false_eq_true, ↓reduceIte, bind_ok_iff] at passed
    obtain ⟨outside, unexpired, passed⟩ := passed
    cases outside with
    | true => simp at passed
    | false => exact ⟨begun, unexpired⟩

theorem placeName_some {value : Json} {name : String} (named : placeName value = .ok (some name)) :
    value = .text name := by
  cases value <;> cases named
  rfl

/-- A place whose name is matched, in whatever form names are compared, is known by a text. -/
theorem exists_text_of_placeName {value : Json} {place : Option String} {form : String → String}
    {name : String} (named : placeName value = .ok place)
    (matched : ¬(place.map form != some name) = true) :
    ∃ text, value = .text text ∧ form text = name := by
  obtain ⟨text, rfl, same⟩ : ∃ text, place = some text ∧ form text = name := by
    simpa using matched
  exact ⟨text, placeName_some named, same⟩

theorem cityFence_pass {city : String} {radius : Option Measure}
    (passed : cityFence city radius m = .ok (.pass remark)) :
    ∃ place fence, m.city = .text place ∧ City.canonical place = City.canonical city ∧
      City.fence (City.canonical city) radius = .ok fence ∧
      ∀ bounds ∈ fence, bounds.contains m.latitude m.longitude = true := by
  simp only [cityFence, bind_ok_iff] at passed
  obtain ⟨fence, fenced, passed⟩ := passed
  by_cases outside : (fence.any fun bounds => !bounds.contains m.latitude m.longitude) = true
  · simp [outside] at passed
  · simp only [outside, Bool.false_eq_true, ↓reduceIte, bind_ok_iff] at passed
    obtain ⟨place, named, passed⟩ := passed
    by_cases other : (place.map City.canonical != some (City.canonical city)) = true
    · simp [other] at passed
    · obtain ⟨text, at_, same⟩ := exists_text_of_placeName named other
      refine ⟨text, fence, at_, same, fenced, ?_⟩
      rintro bounds rfl
      simpa using outside

theorem regionFence_pass {region : String} (passed : regionFence region m = .ok (.pass remark)) :
    ∃ place, m.region = .text place ∧ normalize place = normalize region := by
  simp only [regionFence, bind_ok_iff] at passed
  obtain ⟨place, named, passed⟩ := passed
  by_cases other : (place.map normalize != some (normalize region)) = true
  · simp [other] at passed
  · exact exists_text_of_placeName named other

/-- Where a failed finding cannot be turned into a pass, a pass rests on a finding that passed. -/
theorem pass_of_bind_pass {first : Except Failure Finding} {rest : Finding → Except Failure Finding}
    (refused : ∀ reason, rest (.fail reason) ≠ .ok (.pass remark))
    (passed : first >>= rest = .ok (.pass remark)) :
    ∃ note, first = .ok (.pass note) ∧ rest (.pass note) = .ok (.pass remark) := by
  obtain ⟨finding, finds, passed⟩ := bind_ok_iff.mp passed
  cases finding with
  | fail reason => exact absurd passed (refused reason)
  | pass note => exact ⟨note, finds, passed⟩

theorem geoFence_pass (passed : geoFence i m = .ok (.pass remark)) :
    ∀ geo ∈ i.policy.geo, geo.Admits m := by
  rintro geo restricted
  simp only [geoFence, Option.mem_def.mp restricted] at passed
  refine ⟨fun named => ?_, fun named => ?_⟩
  · simp only [named, ↓reduceIte] at passed
    obtain ⟨note, finds, -⟩ := pass_of_bind_pass (by simp) passed
    exact cityFence_pass finds
  · simp only [named, ↓reduceIte] at passed
    -- with or without a city to check, the region comes after that finding
    split at passed
    all_goals
      obtain ⟨note, -, passed⟩ := pass_of_bind_pass (by simp) passed
      obtain ⟨other, finds, -⟩ := pass_of_bind_pass (by simp) passed
      exact regionFence_pass finds

theorem merchantCategory_pass (passed : merchantCategory i m = .pass remark) :
    m.isMixed = false ∧ (m.code ∈ i.policy.codes ∨ m.overlap i.policy.categories ≠ []) := by
  cases mixed : m.isMixed with
  | true => simp [merchantCategory, mixed] at passed
  | false =>
    refine ⟨rfl, ?_⟩
    by_contra mismatch
    obtain ⟨uncoded, unlabelled⟩ := not_or.mp mismatch
    simp [merchantCategory, mixed, uncoded, not_not.mp unlabelled] at passed

theorem merchantTier_pass (passed : merchantTier i m = .pass remark) : i.policy.tier ≤ m.tier := by
  by_contra below
  simp [merchantTier, not_le.mp below] at passed

theorem proofRequirement_pass (passed : proofRequirement i context = .pass remark) :
    i.policy.proofRequired = true → context.proof = true := by
  intro required
  by_contra missing
  have absent : context.proof = false := by simpa using missing
  simp only [proofRequirement, required, absent, Bool.not_true, Bool.not_false,
    Bool.false_eq_true, ↓reduceIte, reduceCtorEq] at passed

end Finding

/-- What is approved without an override is allowed by the intent. -/
theorem Intent.Allows.of_validate {thresholds : RiskThresholds} {i : Intent} {m : Merchant}
    {amount : Decimal} {context : Context} {v : Verdict} (sound : i.Sound)
    (whole : amount.IsAmount)
    (judged : Verdict.validate thresholds (some i) m (.decimal amount) context = .ok v)
    (bypass : v.bypass = false) (approved : v.approved = true) :
    i.Allows m amount context := by
  have passed := Verdict.passed_of_approved whole judged bypass approved
  simp only [Stage.order, List.forall_mem_cons, Finding.ofStage, Except.ok.injEq] at passed
  obtain ⟨-, ⟨_, status⟩, ⟨_, cap⟩, ⟨_, window⟩, ⟨_, geo⟩, ⟨_, category⟩, ⟨_, tier⟩, ⟨_, proof⟩,
    -⟩ := passed
  obtain ⟨active, unexpired⟩ := Finding.intentStatus_pass status
  obtain ⟨positive, within⟩ := Finding.amountCap_pass sound whole cap
  obtain ⟨begun, -⟩ := Finding.timeWindow_pass window
  obtain ⟨unmixed, sells⟩ := Finding.merchantCategory_pass category
  exact ⟨active, positive, within, begun, unexpired,
    ⟨unmixed, Finding.merchantTier_pass tier, sells, Finding.geoFence_pass geo⟩,
    Finding.proofRequirement_pass proof⟩

end Earmark
