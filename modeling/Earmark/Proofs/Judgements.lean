import Earmark.Proofs.Labels
import Earmark.Proofs.OrderlyWorlds
import Earmark.Proofs.RegistryFailures

/-!
Which payments are judged. Every merchant that the registry's form admits can be judged, for any
intent or none, with the exceptions of `Verdict.Stopped`: where the fence of an intent is reached, a
place that is no text is asked for its name; a whole radius lies beyond the floating-point numbers;
an id without an encoding is to be referred to; or the times of the intent have no offset.
-/

namespace Earmark

theorem bind_error_iff {α β : Type} {result : Except Failure α} {next : α → Except Failure β}
    {failure : Failure} :
    result >>= next = .error failure ↔
      result = .error failure ∨ ∃ a, result = .ok a ∧ next a = .error failure := by
  cases result <;> simp

namespace Check

/-- The checks fail to run exactly where a stage fails to find anything and the stages before it
pass. -/
theorem run_error_iff {finding : Stage → Except Failure Finding} {stages : List Stage}
    {failure : Failure} :
    run finding stages = .error failure ↔
      ∃ stage ∈ stages, finding stage = .error failure ∧
        ∀ earlier ∈ stages.takeWhile (· != stage), ∃ remark,
          finding earlier = .ok (.pass remark) := by
  induction stages with
  | nil => simp [run]
  | cons first rest ih =>
    -- a first stage that does not pass stands before every other one
    have only (refused : ∀ remark, finding first ≠ .ok (.pass remark)) :
        (∃ stage ∈ first :: rest, finding stage = .error failure ∧
          ∀ earlier ∈ (first :: rest).takeWhile (· != stage), ∃ remark,
            finding earlier = .ok (.pass remark)) ↔ finding first = .error failure := by
      constructor
      · rintro ⟨stage, -, failed, passed⟩
        by_cases same : first = stage
        · rwa [same]
        · obtain ⟨remark, pass⟩ := passed first (by simp [same])
          exact absurd pass (refused remark)
      · intro failed
        exact ⟨first, by simp, failed, by simp⟩
    cases found : finding first with
    | error other =>
      rw [only (by simp [found]), found]
      simp [run, found]
    | ok result =>
      cases result with
      | fail reason =>
        rw [only (by simp [found]), found]
        simp [run, found]
      | pass remark =>
        have later : run finding (first :: rest) = .error failure ↔
            run finding rest = .error failure := by
          cases ran : run finding rest <;> simp [run, found, ran]
        rw [later, ih]
        have other {stage : Stage} (failed : finding stage = .error failure) : first ≠ stage := by
          rintro rfl
          cases found.symm.trans failed
        constructor
        · rintro ⟨stage, mem, failed, passed⟩
          refine ⟨stage, List.mem_cons_of_mem first mem, failed, ?_⟩
          simp only [bne_iff_ne, ne_eq, other failed, not_false_eq_true, List.takeWhile_cons_of_pos,
            List.forall_mem_cons]
          exact ⟨⟨remark, found⟩, passed⟩
        · rintro ⟨stage, mem, failed, passed⟩
          have mem : stage ∈ rest := by simpa [(other failed).symm] using mem
          simp only [bne_iff_ne, ne_eq, other failed, not_false_eq_true, List.takeWhile_cons_of_pos,
            List.forall_mem_cons] at passed
          exact ⟨stage, mem, failed, passed.2⟩

end Check

/-! ### Where the fence cannot be judged -/

/-- The value is no text. -/
def Json.IsNoText (value : Json) : Prop :=
  (∀ name, value ≠ .text name) ∧ ∀ points, value ≠ .unpaired points

/-- What stands in the way of telling whether a merchant lies where a restriction says. -/
inductive GeoRestriction.Stops (geo : GeoRestriction) (m : Merchant) : Failure → Prop
  /-- The city is on the map, and the radius a whole number beyond the floating-point numbers. -/
  | radius {n : Int} {negative : Bool} (named : isNamed geo.city = true)
      (mapped : (City.find? (City.canonical (geo.city.getD ""))).isSome)
      (given : geo.radius = some (.whole n)) (beyond : Binary64.ofInt n = .infinity negative) :
      Stops geo m .outOfRange
  /-- The merchant lies within the fence, if there is one, and its city has no name. -/
  | city {fence : Option GeoBounds} (named : isNamed geo.city = true)
      (fenced : City.fence (City.canonical (geo.city.getD "")) geo.radius = .ok fence)
      (inside : ∀ bounds ∈ fence, bounds.contains m.latitude m.longitude = true)
      (nameless : m.city.IsNoText) : Stops geo m .notText
  /-- The city, if one is asked for, is the merchant's, and its region has no name. -/
  | region (named : isNamed geo.region = true)
      (admitted : isNamed geo.city = true → ∃ remark,
        Finding.cityFence (geo.city.getD "") geo.radius m = .ok (.pass remark))
      (nameless : m.region.IsNoText) : Stops geo m .notText

/-- No floating-point number is near a whole number beyond them all. -/
theorem Measure.toFloat_error_iff {radius : Measure} {failure : Failure} :
    radius.toFloat = .error failure ↔
      ∃ n negative, radius = .whole n ∧ Binary64.ofInt n = .infinity negative ∧
        failure = .outOfRange := by
  cases radius with
  | real x => simp [toFloat]
  | whole n => cases beyond : Binary64.ofInt n <;> simp [toFloat, beyond, eq_comm]

theorem City.fence_error_iff {name : String} {radius : Option Measure} {failure : Failure} :
    fence name radius = .error failure ↔
      (find? name).isSome ∧ ∃ n negative, radius = some (.whole n) ∧
        Binary64.ofInt n = .infinity negative ∧ failure = .outOfRange := by
  unfold fence
  generalize find? name = known
  cases known with
  | none => simp
  | some city =>
    cases radius with
    | none => simp
    | some r =>
      simp only [Option.isSome_some, true_and, Option.some.injEq, ← Measure.toFloat_error_iff]
      cases r.toFloat <;> simp

namespace Finding

variable {i : Intent} {m : Merchant} {d : Decimal} {context : Context} {failure : Failure}

theorem placeName_error_iff {value : Json} :
    placeName value = .error failure ↔ value.IsNoText ∧ failure = .notText := by
  cases value <;> simp [placeName, Json.IsNoText, eq_comm]

theorem cityFence_error_iff {city : String} {radius : Option Measure} :
    cityFence city radius m = .error failure ↔
      City.fence (City.canonical city) radius = .error failure ∨
        ∃ fence, City.fence (City.canonical city) radius = .ok fence ∧
          (∀ bounds ∈ fence, bounds.contains m.latitude m.longitude = true) ∧
          m.city.IsNoText ∧ failure = .notText := by
  cases fenced : City.fence (City.canonical city) radius with
  | error other => simp [cityFence, fenced]
  | ok fence =>
    simp only [cityFence, fenced, ok_bind, reduceCtorEq, Except.ok.injEq, exists_eq_left', false_or]
    by_cases inside : ∀ bounds ∈ fence, bounds.contains m.latitude m.longitude = true
    · have within : ¬(fence.any fun bounds => !bounds.contains m.latitude m.longitude) = true := by
        cases fence with
        | none => simp
        | some bounds => simpa using inside
      rw [if_neg within, ← placeName_error_iff, and_iff_right inside]
      cases named : placeName m.city with
      | error other => simp
      | ok place =>
        simp only [ok_bind, reduceCtorEq, iff_false]
        split
        · simp
        · split <;> simp
    · have outside : (fence.any fun bounds => !bounds.contains m.latitude m.longitude) = true := by
        cases fence with
        | none => exact absurd (by simp) inside
        | some bounds => simpa using inside
      rw [if_pos outside]
      exact ⟨fun failed => (by cases failed), fun stopped => absurd stopped.1 inside⟩

theorem regionFence_error_iff {region : String} :
    regionFence region m = .error failure ↔ m.region.IsNoText ∧ failure = .notText := by
  rw [← placeName_error_iff]
  cases named : placeName m.region with
  | error other => simp [regionFence, named]
  | ok place =>
    simp only [regionFence, named, ok_bind, reduceCtorEq, iff_false]
    split <;> simp

/-- A restriction stands in the way where its city cannot be told, or its region behind a city that
passed. -/
theorem stops_iff {geo : GeoRestriction} :
    geo.Stops m failure ↔
      (isNamed geo.city = true ∧
        cityFence (geo.city.getD "") geo.radius m = .error failure) ∨
      (isNamed geo.region = true ∧
        (isNamed geo.city = true → ∃ remark,
          cityFence (geo.city.getD "") geo.radius m = .ok (.pass remark)) ∧
        regionFence (geo.region.getD "") m = .error failure) := by
  rw [cityFence_error_iff, City.fence_error_iff, regionFence_error_iff]
  constructor
  · intro stops
    cases stops with
    | radius named mapped given beyond =>
      exact .inl ⟨named, .inl ⟨mapped, _, _, given, beyond, rfl⟩⟩
    | city named fenced inside nameless =>
      exact .inl ⟨named, .inr ⟨_, fenced, inside, nameless, rfl⟩⟩
    | region named admitted nameless => exact .inr ⟨named, admitted, nameless, rfl⟩
  · rintro (⟨named, ⟨mapped, n, negative, given, beyond, rfl⟩ |
      ⟨fence, fenced, inside, nameless, rfl⟩⟩ | ⟨named, admitted, nameless, rfl⟩)
    · exact .radius named mapped given beyond
    · exact .city named fenced inside nameless
    · exact .region named admitted nameless

/-- The fence of an intent cannot be judged exactly where its restriction stands in the way. -/
theorem geoFence_error_iff :
    geoFence i m = .error failure ↔ ∃ geo ∈ i.policy.geo, geo.Stops m failure := by
  cases restricted : i.policy.geo with
  | none => simp [geoFence, restricted]
  | some geo =>
    simp only [Option.mem_def, Option.some.injEq, exists_eq_left', stops_iff, geoFence, restricted]
    -- the region is asked for behind a city that passed, or where no city is asked for
    have behind {next : Finding → Except Failure Finding} (goes : ∀ f, ∃ found, next f = .ok found)
        (note : Option String) :
        (if isNamed geo.region = true then regionFence (geo.region.getD "") m >>= next
          else .ok (.pass note)) = .error failure ↔
        isNamed geo.region = true ∧ regionFence (geo.region.getD "") m = .error failure := by
      by_cases named : isNamed geo.region = true
      · cases told : regionFence (geo.region.getD "") m with
        | error other => simp [named]
        | ok finding =>
          obtain ⟨found, done⟩ := goes finding
          simp [named, done]
      · simp [named]
    by_cases named : isNamed geo.city = true
    · cases told : cityFence (geo.city.getD "") geo.radius m with
      | error other => simp [named]
      | ok finding =>
        cases finding with
        | fail reason => simp [named]
        | pass note =>
          simp only [named, ↓reduceIte, ok_bind, reduceCtorEq, and_false, Except.ok.injEq,
            Finding.pass.injEq, exists_eq', implies_true, true_and, false_or]
          exact behind (fun f => by cases f <;> exact ⟨_, rfl⟩) note
    · simp only [named, Bool.false_eq_true, ↓reduceIte, ok_bind, false_and, false_implies, true_and,
        false_or]
      exact behind (fun f => by cases f <;> exact ⟨_, rfl⟩) none

end Finding

/-! ### What cannot be judged -/

/-- The intent was opened under a policy that the checks let through, and has changed since only as
payments, cancelling and expiring change intents. -/
inductive Intent.Made : Intent → Prop
  | opened {id user text : String} {policy : Policy} {now : Time} {i : Intent}
      (built : policy.IsBuilt) (opened : Intent.opened id user text policy now = .ok i) : Made i
  | changed {i j : Intent} (made : Made i) (change : i.Changes j) : Made j

namespace Intent.Made

variable {i : Intent}

theorem sound (made : i.Made) : i.Sound := by
  induction made with
  | opened built opened => exact .of_opened built opened
  | changed made change sound => exact change.sound sound

/-- Both ends of the window have an offset, or neither has one. -/
theorem alike (made : i.Made) : i.expiresAt.offset = i.createdAt.offset := by
  induction made with
  | opened built opened =>
    obtain ⟨expiresAt, added, rfl⟩ := Intent.opened_iff.mp opened
    exact Time.offset_addDays added
  | changed made change alike =>
    rwa [change.precedes.expiresAt, change.precedes.createdAt]

theorem timed (made : i.Made) (aware : i.createdAt.offset.isSome) : i.Timed :=
  ⟨made.sound, aware, by rwa [made.alike]⟩

end Intent.Made

/-- A stage passes. -/
def Finding.Passes (i : Intent) (m : Merchant) (d : Decimal) (context : Context) (stage : Stage) :
    Prop :=
  ∃ remark, Finding.ofStage i m d context stage = .ok (.pass remark)

/-- What stands in the way of a verdict on a payment. -/
inductive Verdict.Stopped (intent : Option Intent) (m : Merchant) (d : Decimal)
    (context : Context) : Failure → Prop
  /-- The reference of what an override approves is made of the merchant's id. -/
  | overridden {points : List Nat} (urgent : context.emergency = true)
      (unencodable : m.id = .unpaired points) : Stopped intent m d context .unencodable
  /-- A time with an offset does not compare with one without. -/
  | clock {i : Intent} (calm : context.emergency = false) (target : intent = some i)
      (active : i.status = .active) (naive : i.createdAt.offset = none) :
      Stopped intent m d context .wrongKind
  /-- The stages before the fence pass, and the restriction stands in the way. -/
  | place {i : Intent} {geo : GeoRestriction} {failure : Failure}
      (calm : context.emergency = false) (target : intent = some i)
      (reached : ∀ stage ∈ Stage.order.takeWhile (· != .geoFence),
        Finding.Passes i m d context stage)
      (restricted : i.policy.geo = some geo) (stops : geo.Stops m failure) :
      Stopped intent m d context failure
  /-- So is the reference of what passes every stage. -/
  | approved {i : Intent} {points : List Nat} (calm : context.emergency = false)
      (target : intent = some i)
      (passed : ∀ stage ∈ Stage.order, Finding.Passes i m d context stage)
      (unencodable : m.id = .unpaired points) : Stopped intent m d context .unencodable

theorem Merchant.encodedId_error_iff {m : Merchant} {failure : Failure} :
    m.encodedId = .error failure ↔
      (∃ points, m.id = .unpaired points) ∧ failure = .unencodable := by
  unfold encodedId
  cases m.id <;> simp [eq_comm]

namespace Finding

variable {i : Intent} {m : Merchant} {d : Decimal} {context : Context} {failure : Failure}

theorem intentStatus_error_iff (aware : context.requestedAt.offset.isSome) :
    intentStatus i context = .error failure ↔
      i.status = .active ∧ i.expiresAt.offset = none ∧ failure = .wrongKind := by
  by_cases active : i.status = .active
  · simp only [intentStatus, Intent.isActive_iff.mpr active, Bool.not_true, Bool.false_eq_true,
      ↓reduceIte, active, true_and]
    cases expires : i.expiresAt.offset with
    | none =>
      have apart : i.isExpired context.requestedAt = .error .wrongKind := by
        simp [Intent.isExpired, Time.after, Time.compare?, aware, expires, Failure.require]
      simp [apart, eq_comm]
    | some offset =>
      have compared : i.isExpired context.requestedAt = .ok _ :=
        Time.after_eq aware (by rw [expires]; rfl)
      simp only [compared, ok_bind, reduceCtorEq, false_and, iff_false]
      split <;> simp
  · simp [intentStatus, Intent.isActive, active]

/-- Which stage of a payment for an intent fails to find anything, behind stages that pass. -/
theorem ofStage_error_iff (made : i.Made) (amount : d.IsAmount)
    (aware : context.requestedAt.offset.isSome) :
    (∃ stage ∈ Stage.order, ofStage i m d context stage = .error failure ∧
      ∀ earlier ∈ Stage.order.takeWhile (· != stage), Passes i m d context earlier) ↔
      (i.status = .active ∧ i.createdAt.offset = none ∧ failure = .wrongKind) ∨
        ∃ geo, i.policy.geo = some geo ∧ geo.Stops m failure ∧
          ∀ earlier ∈ Stage.order.takeWhile (· != .geoFence), Passes i m d context earlier := by
  constructor
  · rintro ⟨stage, -, failed, passed⟩
    have timed (mem : .intentStatus ∈ Stage.order.takeWhile (· != stage)) : i.Timed := by
      obtain ⟨remark, finds⟩ := passed .intentStatus mem
      have compared := (Time.after_eq_false_iff.mp (intentStatus_pass finds).2).1
      exact made.timed (by rw [← made.alike, ← compared, aware])
    cases stage with
    | intentStatus =>
      obtain ⟨active, naive, rfl⟩ := (intentStatus_error_iff aware).mp failed
      exact .inl ⟨active, made.alike.symm.trans naive, rfl⟩
    | amountCap =>
      obtain ⟨finding, found⟩ := exists_amountCap made.sound amount
      cases found.symm.trans failed
    | timeWindow =>
      obtain ⟨finding, found⟩ := exists_timeWindow (timed (by decide)) aware
      cases found.symm.trans failed
    | geoFence =>
      obtain ⟨geo, restricted, stops⟩ := geoFence_error_iff.mp failed
      exact .inr ⟨geo, restricted, stops, passed⟩
    | _ => cases failed
  · rintro (⟨active, naive, rfl⟩ | ⟨geo, restricted, stops, passed⟩)
    · refine ⟨.intentStatus, by decide,
        (intentStatus_error_iff aware).mpr ⟨active, made.alike.trans naive, rfl⟩, ?_⟩
      simp only [Stage.order, bne_iff_ne, ne_eq, reduceCtorEq, not_false_eq_true,
        List.takeWhile_cons_of_pos, bne_self_eq_false, Bool.false_eq_true,
        List.takeWhile_cons_of_neg, List.mem_singleton, forall_eq]
      exact ⟨_, rfl⟩
    · exact ⟨.geoFence, by decide, geoFence_error_iff.mpr ⟨geo, restricted, stops⟩, passed⟩

end Finding

namespace Verdict

variable {thresholds : RiskThresholds} {intent : Option Intent} {m : Merchant} {amount : Numeral}
  {d : Decimal} {context : Context} {failure : Failure}

theorem override_error_iff (assessed : ∃ risk, RiskAssessment.assess thresholds m d = .ok risk) :
    override thresholds intent m d context = .error failure ↔
      (∃ points, m.id = .unpaired points) ∧ failure = .unencodable := by
  obtain ⟨risk, assessed⟩ := assessed
  rw [← Merchant.encodedId_error_iff, override, assessed, ok_bind]
  cases m.encodedId <;> simp

/-- Checks amount to no verdict only where none failed and the reference cannot be made. -/
theorem ofChecks_error_iff (assessed : ∃ risk, RiskAssessment.assess thresholds m d = .ok risk)
    {checks : List Check} :
    ofChecks thresholds intent m d context checks = .error failure ↔
      Check.firstFailed? checks = none ∧ (∃ points, m.id = .unpaired points) ∧
        failure = .unencodable := by
  obtain ⟨risk, assessed⟩ := assessed
  rw [← Merchant.encodedId_error_iff, ofChecks, assessed]
  cases Check.firstFailed? checks with
  | some failed => simp
  | none => cases m.encodedId <;> simp

/-- A payment of an amount gets a verdict exactly where nothing of `Stopped` stands in the way. -/
theorem validate_error_iff (finite : thresholds.highValue.isFinite)
    (made : ∀ i ∈ intent, i.Made) (brought : amount.toAmount = .ok d)
    (aware : context.requestedAt.offset.isSome) :
    validate thresholds intent m amount context = .error failure ↔
      Stopped intent m d context failure := by
  have whole := isAmount_of_toAmount brought
  obtain ⟨high, compared⟩ := Decimal.exists_gt? whole.isFinite_eq finite
  have assessed : ∃ risk, RiskAssessment.assess thresholds m d = .ok risk :=
    ⟨_, by simp only [RiskAssessment.assess, compared, Failure.ofDecimal_ok, ok_bind]; rfl⟩
  simp only [validate, brought, ok_bind, judge]
  cases urgent : context.emergency with
  | true =>
    rw [if_pos rfl, override_error_iff assessed]
    constructor
    · rintro ⟨⟨points, unencodable⟩, rfl⟩
      exact .overridden urgent unencodable
    · intro stopped
      cases stopped with
      | overridden _ unencodable => exact ⟨⟨_, unencodable⟩, rfl⟩
      | clock calm => cases urgent.symm.trans calm
      | place calm => cases urgent.symm.trans calm
      | approved calm => cases urgent.symm.trans calm
  | false =>
    rw [if_neg Bool.false_ne_true, bind_error_iff, Check.run_error_iff]
    simp only [ofChecks_error_iff assessed]
    cases intent with
    | none =>
      constructor
      · rintro (⟨stage, -, failed, -⟩ | ⟨checks, ran, unfailed, -⟩)
        · cases stage <;> cases failed
        · obtain ⟨remark, finds⟩ := Check.run_passed ran unfailed .intentStatus (by decide)
          cases finds
      · intro stopped
        cases stopped with
        | overridden urgent' => cases urgent.symm.trans urgent'
        | clock calm target => cases target
        | place calm target => cases target
        | approved calm target => cases target
    | some i =>
      constructor
      · rintro (failed | ⟨checks, ran, unfailed, ⟨points, unencodable⟩, rfl⟩)
        · rcases (Finding.ofStage_error_iff (made i rfl) whole aware).mp failed with
            ⟨active, naive, rfl⟩ | ⟨geo, restricted, stops, reached⟩
          · exact .clock urgent rfl active naive
          · exact .place urgent rfl reached restricted stops
        · exact .approved urgent rfl (Check.run_passed ran unfailed) unencodable
      · intro stopped
        cases stopped with
        | overridden urgent' => cases urgent.symm.trans urgent'
        | clock calm target active naive =>
          obtain rfl := Option.some.inj target
          exact .inl ((Finding.ofStage_error_iff (made _ rfl) whole aware).mpr
            (.inl ⟨active, naive, rfl⟩))
        | place calm target reached restricted stops =>
          obtain rfl := Option.some.inj target
          exact .inl ((Finding.ofStage_error_iff (made _ rfl) whole aware).mpr
            (.inr ⟨_, restricted, stops, reached⟩))
        | approved calm target passed unencodable =>
          obtain rfl := Option.some.inj target
          obtain ⟨checks, ran, unfailed⟩ := Check.run_passed_iff.mpr passed
          exact .inr ⟨checks, ran, unfailed, ⟨_, unencodable⟩, rfl⟩

end Verdict

/-! ### Merchants from documents -/

/-- What an object holds under some keys is text. -/
def Json.HoldsTexts (document : Json) (keys : List String) : Prop :=
  ∀ fields, document = .object fields →
    ∀ key ∈ keys, ∀ value ∈ Json.find? key fields, ∃ name, value = .text name

/-- The id and the city of a merchant are what its document says, and the region is empty where it
says none. -/
theorem Merchant.ofDocument_ok {document : Json} {m : Merchant}
    (read : ofDocument document = .ok m) :
    ∃ fields, document = .object fields ∧ Json.find? "merchant_id" fields = some m.id ∧
      Json.find? "city" fields = some m.city ∧
      (Json.find? "region" fields).getD (.text "") = m.region := by
  cases document with
  | object fields =>
    simp only [ofDocument, bind_ok_iff, Failure.require_ok_iff] at read
    obtain ⟨id, given, name, -, code, -, word, -, category, -, city, placed, lat, -, lng, -, tier,
      -, risk, -, tags, -, read⟩ := read
    cases read
    exact ⟨fields, rfl, given, placed, rfl⟩
  | _ => cases read

/-- The id, the city and the region of a merchant are texts if its document holds texts there. -/
theorem Merchant.IsNamed.of_document {document : Json} {m : Merchant}
    (read : ofDocument document = .ok m)
    (texts : document.HoldsTexts ["merchant_id", "city", "region"]) : m.IsNamed := by
  obtain ⟨fields, rfl, id, city, region⟩ := ofDocument_ok read
  have texts := texts fields rfl
  obtain ⟨name, told⟩ := texts "merchant_id" (by simp) _ id
  refine ⟨texts "city" (by simp) _ city, ?_, by simp [told]⟩
  rw [← region]
  cases given : Json.find? "region" fields with
  | none => exact ⟨"", rfl⟩
  | some value => exact texts "region" (by simp) value given

/-- A named merchant stands in the way of nothing, for an intent at times with offsets whose radius
is a floating-point number. -/
theorem Verdict.Stopped.not_of_isNamed {intent : Option Intent} {m : Merchant} {d : Decimal}
    {context : Context} {failure : Failure} (named : m.IsNamed)
    (regular : ∀ i ∈ intent, i.createdAt.offset.isSome ∧ i.policy.HasFloatRadius) :
    ¬Stopped intent m d context failure := by
  intro stopped
  have noText {value : Json} (told : ∃ name, value = .text name) : ¬value.IsNoText := by
    rintro ⟨untold, -⟩
    obtain ⟨name, rfl⟩ := told
    exact untold name rfl
  cases stopped with
  | overridden _ unencodable => exact named.id _ unencodable
  | clock _ target _ naive =>
    have aware := (regular _ target).1
    rw [naive] at aware
    cases aware
  | place _ target _ restricted stops =>
    cases stops with
    | radius _ _ given beyond =>
      obtain ⟨x, exact⟩ := (regular _ target).2 _ restricted _ given
      simp [Measure.toFloat, beyond] at exact
    | city _ _ _ nameless => exact noText named.city nameless
    | region _ _ nameless => exact noText named.region nameless
  | approved _ _ _ unencodable => exact named.id _ unencodable

/-- A payment of an amount to a merchant that came as a document, at a time with an offset, gets a
verdict for any intent that was opened under an accepted policy, or for none, exactly where nothing
of `Verdict.Stopped` stands in the way. Nothing does where the document's id, city and region are
texts and the intent has times with offsets and no radius beyond the floating-point numbers. -/
theorem Merchant.documents_judged {document : Json} {m : Merchant}
    (read : ofDocument document = .ok m) {intent : Option Intent} (made : ∀ i ∈ intent, i.Made)
    {amount : Numeral} {d : Decimal} (brought : amount.toAmount = .ok d) {context : Context}
    (aware : context.requestedAt.offset.isSome) {thresholds : RiskThresholds}
    (finite : thresholds.highValue.isFinite) :
    (∀ failure, Verdict.validate thresholds intent m amount context = .error failure ↔
      Verdict.Stopped intent m d context failure) ∧
    (document.HoldsTexts ["merchant_id", "city", "region"] →
      (∀ i ∈ intent, i.createdAt.offset.isSome ∧ i.policy.HasFloatRadius) →
      ∃ v, Verdict.validate thresholds intent m amount context = .ok v) := by
  have stopped_iff (failure : Failure) :
      Verdict.validate thresholds intent m amount context = .error failure ↔
        Verdict.Stopped intent m d context failure :=
    Verdict.validate_error_iff finite made brought aware
  refine ⟨stopped_iff, fun texts regular => ?_⟩
  cases judged : Verdict.validate thresholds intent m amount context with
  | ok v => exact ⟨v, rfl⟩
  | error failure =>
    have stopped := (stopped_iff failure).mp judged
    exact absurd stopped (Verdict.Stopped.not_of_isNamed (.of_document read texts) regular)

/-! ### A city that is a number -/

namespace Sample

/-- The bookshop's document, with the place of the shop to the hundredth of a degree. -/
def located : List (String × Json) :=
  Json.insert "lat" (.float (.ofScientific false 1305 (-2)))
    (Json.insert "lng" (.float (.ofScientific false 802 (-1))) Registry.Sample.bookshop)

/-- The same shop in a city that is a number. -/
def numbered : Json := .object (Json.insert "city" (.int 5) located)

/-- Sixty for books in Chennai. -/
def localPolicy : Policy :=
  { policy with geo := some { city := some "Chennai", region := none, radius := none } }

def localIntent : Intent :=
  { id := Ids.intent 1, user := "reader", text := "", policy := localPolicy, createdAt := today
    expiresAt := { micros := 63879012000000000, offset := some 0 } }

theorem localIntent_made : localIntent.Made := by
  have built : localPolicy.IsBuilt :=
    ⟨{ terms with geo := localPolicy.geo }, eq_ok_of_toOption (by decide +kernel)⟩
  have opened : Intent.opened (Ids.intent 1) "reader" "" localPolicy today = .ok localIntent :=
    eq_ok_of_toOption (by decide +kernel)
  exact .opened built opened

def asked : Context := { requestedAt := today, transactionId := Ids.transaction 1 }

theorem ten_toAmount : (Numeral.whole 10).toAmount = .ok (.ofCents 1000) :=
  eq_ok_of_toOption (by decide +kernel)

/-- Whether what should be a text was none. -/
def foundNoText : Except Failure Verdict → Bool
  | .error .notText => true
  | _ => false

theorem eq_of_foundNoText {found : Except Failure Verdict} (noText : foundNoText found = true) :
    found = .error .notText := by
  unfold foundNoText at noText
  split at noText
  · rfl
  · cases noText

/-- Ten at the shop in the numbered city cannot be judged. -/
theorem exists_numbered : ∃ m, Merchant.ofDocument numbered = .ok m ∧
    Verdict.validate {} (some localIntent) m (.whole 10) asked = .error .notText := by
  have read : (Merchant.ofDocument numbered).toOption.isSome = true := by decide +kernel
  obtain ⟨m, read⟩ := Option.isSome_iff_exists.mp read
  have fails : (Merchant.ofDocument numbered).toOption.any (fun m =>
      foundNoText (Verdict.validate {} (some localIntent) m (.whole 10) asked)) = true := by
    decide +kernel
  rw [read, Option.any_some] at fails
  exact ⟨m, eq_ok_of_toOption read, eq_of_foundNoText fails⟩

end Sample

/-- The shop in Chennai gets a verdict; nothing but its city stands in the way of the shop whose
city is a number. -/
theorem Merchant.documents_judged_local :
    (∃ m v, Merchant.ofDocument (.object Sample.located) = .ok m ∧
      Verdict.validate {} (some Sample.localIntent) m (.whole 10) Sample.asked = .ok v) ∧
    ∃ m, Merchant.ofDocument Sample.numbered = .ok m ∧
      Verdict.Stopped (some Sample.localIntent) m (.ofCents 1000) Sample.asked .notText := by
  have made : ∀ i ∈ some Sample.localIntent, i.Made := by
    rintro i ⟨⟩
    exact Sample.localIntent_made
  have whole : (Merchant.ofDocument (.object Sample.located)).toOption.isSome = true := by
    decide +kernel
  obtain ⟨m, read⟩ := Option.isSome_iff_exists.mp whole
  have read := eq_ok_of_toOption read
  obtain ⟨n, read', fails⟩ := Sample.exists_numbered
  have texts : (Json.object Sample.located).HoldsTexts ["merchant_id", "city", "region"] := by
    rintro fields ⟨⟩
    simp [Sample.located, Registry.Sample.bookshop, Json.insert, Json.find?]
  have regular : ∀ i ∈ some Sample.localIntent,
      i.createdAt.offset.isSome ∧ i.policy.HasFloatRadius := by
    rintro i ⟨⟩
    refine ⟨rfl, ?_⟩
    rintro geo ⟨⟩ radius ⟨⟩
  obtain ⟨v, judged⟩ : ∃ v, Verdict.validate {} (some Sample.localIntent) m (.whole 10)
      Sample.asked = .ok v :=
    (Merchant.documents_judged read made Sample.ten_toAmount rfl rfl).2 texts regular
  exact ⟨⟨m, v, read, judged⟩, n, read',
    ((Merchant.documents_judged read' made Sample.ten_toAmount rfl rfl).1 _).mp fails⟩

/-- A merchant whose document is accepted need not be judged. -/
theorem Merchant.documents_not_all_judged :
    ¬∀ (document : Json) (m : Merchant) (i : Intent) (amount : Numeral) (context : Context),
      ofDocument document = .ok m → i.Made → (∃ d, amount.toAmount = .ok d) →
        context.requestedAt.offset.isSome →
          ∃ v, Verdict.validate {} (some i) m amount context = .ok v := by
  intro judged
  obtain ⟨m, read, fails⟩ := Sample.exists_numbered
  obtain ⟨v, done⟩ := judged Sample.numbered m Sample.localIntent (.whole 10) Sample.asked read
    Sample.localIntent_made ⟨_, Sample.ten_toAmount⟩ rfl
  cases fails.symm.trans done

end Earmark
