import Earmark.Proofs.Judgements
import Earmark.Proofs.MerchantDocuments

/-!
Spellings of names. Every spelling of a city, whatever its case and padding and by whichever of its
names, has one canonical name, which is canonical itself. So nothing is judged by how a place is
spelt: with another spelling of a merchant's city or region, or of the policy's, a payment has the
same check at every stage but for the texts (`names_canonical`).
-/

namespace Earmark

/-- A name in any case, with any white space around it. -/
def IsSpelling (name spelling : String) : Prop :=
  ∃ before word after, IsBlankName before ∧ IsBlankName after ∧ Text.lower word = name ∧
    spelling = before ++ word ++ after

/-- The common form of a name is that of its spellings. -/
theorem normalize_spelling {name spelling : String} (bare : Text.strip name = name)
    (spells : IsSpelling name spelling) : normalize spelling = name := by
  obtain ⟨before, word, after, blank, blank', rfl, rfl⟩ := spells
  rw [normalize, Text.strip_padded (Text.strip_eq_self_of_lower bare) blank blank']

theorem not_isBlankName_of_mem_normalizeTags {tags : List String} {tag : String}
    (mem : tag ∈ normalizeTags tags) : ¬IsBlankName tag := by
  obtain ⟨source, filled, rfl⟩ := List.mem_map.mp mem
  intro blank
  have empty := normalize_blank blank
  rw [normalize_normalize] at empty
  have stripped : Text.strip source = "" := Text.lower_eq_empty_iff.mp empty
  simp [stripped] at filled

/-! ### Cities -/

namespace City

/-- The names of cities are in their common form, and the canonical ones are no aliases. -/
theorem aliases_orderly : ∀ entry ∈ aliases,
    Text.strip entry.1 = entry.1 ∧ Text.strip entry.2 = entry.2 ∧ canonical entry.1 = entry.2 ∧
      canonical entry.2 = entry.2 ∧ normalize entry.1 = entry.1 ∧ normalize entry.2 = entry.2 := by
  decide +kernel

theorem canonical_eq_of_normalize {name other : String} (same : normalize name = normalize other) :
    canonical name = canonical other := by
  rw [canonical, same, canonical]

theorem canonical_canonical (name : String) : canonical (canonical name) = canonical name := by
  cases found : aliases.lookup (normalize name) with
  | none =>
    have own : canonical name = normalize name := by rw [canonical, found, Option.getD_none]
    rw [own, canonical_eq_of_normalize (normalize_normalize name), own]
  | some city =>
    have own : canonical name = city := by rw [canonical, found, Option.getD_some]
    obtain ⟨before, rest, table, -⟩ := List.lookup_eq_some_iff.mp found
    obtain ⟨-, -, -, whole, -⟩ := aliases_orderly (normalize name, city) (by simp [table])
    rw [own, whole]

/-- A city and its alias have one canonical name, however they are spelt. -/
theorem canonical_spelling {name city s t : String} (mem : (name, city) ∈ aliases)
    (spells : IsSpelling name s) (spells' : IsSpelling city t) :
    canonical s = city ∧ canonical t = city := by
  obtain ⟨bare, bare', other, whole, common, common'⟩ := aliases_orderly (name, city) mem
  have same := normalize_spelling bare spells
  have same' := normalize_spelling bare' spells'
  exact ⟨(canonical_eq_of_normalize (same.trans common.symm)).trans other,
    (canonical_eq_of_normalize (same'.trans common'.symm)).trans whole⟩

end City

/-! ### Checks without their texts -/

/-- What the finding makes of its stage. -/
def Finding.status : Finding → CheckStatus
  | .pass _ => .passed
  | .fail _ => .failed

/-- A check without its text. -/
def Check.silent (check : Check) : Check := { check with detail := none }

/-- A verdict without its texts. -/
def Verdict.silent (v : Verdict) : Verdict :=
  { v with checks := v.checks.map Check.silent, reason := none }

namespace Finding

variable {i j : Intent} {m n : Merchant} {city city' region region' : String}
  {radius : Option Measure} {geo geo' : GeoRestriction}

/-- The fence of a city looks at the canonical names and at the coordinates alone. -/
theorem cityFence_status : (cityFence city radius m).map status =
    (City.fence (City.canonical city) radius).bind fun fence =>
      if fence.any fun bounds => !bounds.contains m.latitude m.longitude then .ok .failed
      else ((placeName m.city).map (Option.map City.canonical)).map fun place =>
        if place != some (City.canonical city) then .failed else .passed := by
  simp only [cityFence]
  cases City.fence (City.canonical city) radius with
  | error failure => rfl
  | ok fence =>
    simp only [ok_bind, Except.bind]
    split_ifs
    · rfl
    all_goals
      cases placeName m.city with
      | error failure => rfl
      | ok place =>
        simp only [ok_bind, Except.map]
        split_ifs <;> rfl

/-- The fence of a region looks at the common forms alone. -/
theorem regionFence_status : (regionFence region m).map status =
    ((placeName m.region).map (Option.map normalize)).map fun place =>
      if place != some (normalize region) then .failed else .passed := by
  simp only [regionFence]
  cases placeName m.region with
  | error failure => rfl
  | ok place =>
    simp only [ok_bind, Except.map]
    split_ifs <;> rfl

/-- A restriction has the statuses of its fences, the city's before the region's. -/
theorem geoFence_status (restricted : i.policy.geo = some geo) : (geoFence i m).map status =
    (if isNamed geo.city then (cityFence (geo.city.getD "") geo.radius m).map status
      else .ok .passed).bind fun byCity =>
        if byCity = .failed then .ok .failed
        else if isNamed geo.region then (regionFence (geo.region.getD "") m).map status
        else .ok .passed := by
  simp only [geoFence, restricted]
  -- The continuation is in each branch, so the branches are told apart before what they find.
  cases isNamed geo.city <;> cases isNamed geo.region <;>
    simp only [Bool.false_eq_true, ↓reduceIte, ok_bind]
  · rfl
  · rcases regionFence (geo.region.getD "") m with failure | (remark | reason) <;> rfl
  · rcases cityFence (geo.city.getD "") geo.radius m with failure | (note | reason) <;> rfl
  · rcases cityFence (geo.city.getD "") geo.radius m with failure | (note | reason)
    · rfl
    · rcases regionFence (geo.region.getD "") m with failure | (remark | reason) <;> rfl
    · rfl

theorem placeName_text {α : Type} (name : String) (f : Option String → α) :
    (placeName (.text name)).map f = .ok (f (some name)) := rfl

end Finding

namespace Check

variable {finding finding' : Stage → Except Failure Finding}

@[simp] theorem silent_silent (check : Check) : check.silent.silent = check.silent := rfl

private theorem run_cons_silent (stage : Stage) (rest : List Stage) :
    (run finding (stage :: rest)).map (List.map silent) =
      ((finding stage).map Finding.status).bind fun status =>
        if status = .failed then .ok (⟨stage, .failed, none⟩ :: rest.map notEvaluated)
        else ((run finding rest).map (List.map silent)).map (⟨stage, .passed, none⟩ :: ·) := by
  have skipped : (rest.map notEvaluated).map silent = rest.map notEvaluated := by
    rw [List.map_map]
    rfl
  simp only [run]
  rcases finding stage with failure | (remark | reason)
  · rfl
  · rcases run finding rest with failure | checks <;> rfl
  · exact congrArg (fun checks => Except.ok (⟨stage, .failed, none⟩ :: checks)) skipped

/-- The checks tell no more than the statuses of what is found, but for their texts. -/
theorem run_silent (same : ∀ stage, (finding stage).map Finding.status =
    (finding' stage).map Finding.status) (stages : List Stage) :
    (run finding stages).map (List.map silent) = (run finding' stages).map (List.map silent) := by
  induction stages with
  | nil => rfl
  | cons stage rest ih => rw [run_cons_silent, run_cons_silent, same, ih]

theorem firstFailed?_silent (checks : List Check) :
    firstFailed? (checks.map silent) = (firstFailed? checks).map silent := by
  rw [firstFailed?, List.find?_map]
  rfl

end Check

/-- What the checks amount to does not hang on their texts. -/
theorem Verdict.ofChecks_silent (thresholds : RiskThresholds) (intent : Option Intent)
    (m : Merchant) (d : Decimal) (context : Context) (checks : List Check) :
    (ofChecks thresholds intent m d context (checks.map Check.silent)).map silent =
      (ofChecks thresholds intent m d context checks).map silent := by
  simp only [ofChecks, Check.firstFailed?_silent]
  cases Check.firstFailed? checks with
  | some failed => simp [Except.map, silent, Check.silent]
  | none =>
    simp only [Option.map_none]
    cases m.encodedId with
    | error failure => rfl
    | ok merchant =>
      cases RiskAssessment.assess thresholds m d with
      | error failure => rfl
      | ok risk => simp [Except.map, silent]

/-- A judgement without its texts is told from the checks without theirs. -/
theorem Verdict.judge_silent (thresholds : RiskThresholds) (i : Intent) (m : Merchant)
    (d : Decimal) (context : Context) : (judge thresholds (some i) m d context).map silent =
      if context.emergency then (override thresholds (some i) m d context).map silent
      else ((Check.run (Finding.ofStage i m d context) Stage.order).map
        (List.map Check.silent)).bind fun checks =>
          (ofChecks thresholds (some i) m d context checks).map silent := by
  simp only [judge]
  split_ifs
  · rfl
  · cases Check.run (Finding.ofStage i m d context) Stage.order with
    | error failure => rfl
    | ok checks => exact (ofChecks_silent thresholds (some i) m d context checks).symm

/-! ### Other spellings -/

/-- Another spelling of one place: of a merchant's city or region, or of the city or region that a
policy restricts payments to. -/
inductive Respelt (i : Intent) (m : Merchant) : Intent → Merchant → Prop
  | merchantCity {name other : String} (told : m.city = .text name)
      (same : City.canonical other = City.canonical name) :
      Respelt i m i { m with city := .text other }
  | merchantRegion {name other : String} (told : m.region = .text name)
      (same : normalize other = normalize name) :
      Respelt i m i { m with region := .text other }
  | city {geo : GeoRestriction} {name other : String} (restricted : i.policy.geo = some geo)
      (told : geo.city = some name) (named : name ≠ "") (named' : other ≠ "")
      (same : City.canonical other = City.canonical name) :
      Respelt i m
        { i with policy := { i.policy with geo := some { geo with city := some other } } } m
  | region {geo : GeoRestriction} {name other : String} (restricted : i.policy.geo = some geo)
      (told : geo.region = some name) (named : name ≠ "") (named' : other ≠ "")
      (same : normalize other = normalize name) :
      Respelt i m
        { i with policy := { i.policy with geo := some { geo with region := some other } } } m

namespace Respelt

variable {i j : Intent} {m n : Merchant} {d : Decimal} {context : Context} {stage : Stage}

theorem geoFence_status (respelt : Respelt i m j n) :
    (Finding.geoFence i m).map Finding.status = (Finding.geoFence j n).map Finding.status := by
  cases respelt with
  | merchantCity told same | merchantRegion told same =>
    cases restricted : i.policy.geo with
    | none => simp only [Finding.geoFence, restricted]
    | some geo =>
      rw [Finding.geoFence_status restricted, Finding.geoFence_status restricted]
      simp only [Finding.cityFence_status, Finding.regionFence_status, told,
        Finding.placeName_text, Option.map_some, same]
  | city restricted told named named' same | region restricted told named named' same =>
    rw [Finding.geoFence_status restricted, Finding.geoFence_status rfl]
    simp [Finding.cityFence_status, Finding.regionFence_status, told, isNamed, same, named, named']

theorem ofStage_status (respelt : Respelt i m j n) :
    (Finding.ofStage i m d context stage).map Finding.status =
      (Finding.ofStage j n d context stage).map Finding.status := by
  cases stage with
  | geoFence => exact respelt.geoFence_status
  | _ => cases respelt <;> rfl

theorem run_silent (respelt : Respelt i m j n) :
    (Check.run (Finding.ofStage i m d context) Stage.order).map (List.map Check.silent) =
      (Check.run (Finding.ofStage j n d context) Stage.order).map (List.map Check.silent) :=
  Check.run_silent (fun _ => respelt.ofStage_status) _

theorem ofChecks_eq (respelt : Respelt i m j n) (thresholds : RiskThresholds)
    (checks : List Check) : Verdict.ofChecks thresholds (some i) m d context checks =
      Verdict.ofChecks thresholds (some j) n d context checks := by
  cases respelt <;> rfl

theorem override_eq (respelt : Respelt i m j n) (thresholds : RiskThresholds) :
    Verdict.override thresholds (some i) m d context =
      Verdict.override thresholds (some j) n d context := by
  cases respelt <;> rfl

theorem judge_silent (respelt : Respelt i m j n) (thresholds : RiskThresholds) :
    (Verdict.judge thresholds (some i) m d context).map Verdict.silent =
      (Verdict.judge thresholds (some j) n d context).map Verdict.silent := by
  rw [Verdict.judge_silent, Verdict.judge_silent, respelt.run_silent]
  simp only [respelt.override_eq, respelt.ofChecks_eq]

/-- A verdict does not hang on how places are spelt, but for its texts. -/
theorem validate_silent (respelt : Respelt i m j n) (thresholds : RiskThresholds) (x : Numeral) :
    (Verdict.validate thresholds (some i) m x context).map Verdict.silent =
      (Verdict.validate thresholds (some j) n x context).map Verdict.silent := by
  simp only [Verdict.validate]
  cases x.toAmount with
  | error failure => rfl
  | ok d => exact respelt.judge_silent thresholds

end Respelt

/-- Names are brought to a form that stays as it is: the common form, the canonical name of a city,
which a registered city and its alias share however they are spelt, and normalised tags, of which
none is blank. So a policy is made again of its own terms, and with another spelling of a merchant's
city or region, or of the one that a policy names, the fence has the same status, and every verdict
is the same but for its texts. -/
theorem names_canonical :
    (∀ name, normalize (normalize name) = normalize name) ∧
    (∀ name, City.canonical (City.canonical name) = City.canonical name) ∧
    (∀ name city s t, (name, city) ∈ City.aliases → IsSpelling name s → IsSpelling city t →
      City.canonical s = city ∧ City.canonical t = city) ∧
    (∀ tags, normalizeTags (normalizeTags tags) = normalizeTags tags ∧
      ∀ tag ∈ normalizeTags tags, ¬IsBlankName tag) ∧
    (∀ policy : Policy, policy.IsBuilt → Policy.build policy.terms = .ok policy) ∧
    ∀ i m j n, Respelt i m j n →
      (Finding.geoFence i m).map Finding.status = (Finding.geoFence j n).map Finding.status ∧
      ∀ thresholds x context,
        (Verdict.validate thresholds (some i) m x context).map Verdict.silent =
          (Verdict.validate thresholds (some j) n x context).map Verdict.silent :=
  ⟨normalize_normalize, City.canonical_canonical, fun _ _ _ _ => City.canonical_spelling,
    fun tags => ⟨normalizeTags_normalizeTags tags, fun _ => not_isBlankName_of_mem_normalizeTags⟩,
    fun _ => Policy.IsBuilt.build_terms,
    fun _ _ _ _ respelt => ⟨respelt.geoFence_status, fun thresholds x _ =>
      respelt.validate_silent thresholds x⟩⟩

namespace Sample

/-- Sixty for books in Chennai, by another name of it. -/
def madrasIntent : Intent :=
  { localIntent with
    policy := { localPolicy with
      geo := some { city := some " MADRAS ", region := none, radius := none } } }

theorem madrasIntent_respelt (m : Merchant) : Respelt localIntent m madrasIntent m := by
  have restricted : localIntent.policy.geo = some ⟨some "Chennai", none, none⟩ := rfl
  have same : City.canonical " MADRAS " = City.canonical "Chennai" := by decide +kernel
  exact .city restricted rfl (by decide) (by decide) same

end Sample

/-- Bombay is Mumbai in any case and padding, a policy is made again of its terms, and the shop in
Chennai is within the fence of Madras and gets the same verdict behind it. -/
theorem names_canonical_madras :
    (City.canonical "  BomBAY\t" = "mumbai" ∧ City.canonical "MUMBAI " = "mumbai") ∧
    Policy.build Sample.policy.terms = .ok Sample.policy ∧
    ∃ m, Merchant.ofDocument (.object Sample.located) = .ok m ∧
      (Finding.geoFence Sample.madrasIntent m).map Finding.status = .ok .passed ∧
      (Verdict.validate {} (some Sample.localIntent) m (.whole 10) Sample.asked).map
          Verdict.silent =
        (Verdict.validate {} (some Sample.madrasIntent) m (.whole 10) Sample.asked).map
          Verdict.silent := by
  obtain ⟨-, -, cities, -, rebuilt, respelt⟩ := names_canonical
  have bombay : IsSpelling "bombay" "  BomBAY\t" :=
    ⟨"  ", "BomBAY", "\t", by simp [IsBlankName, Text.isBlank], by simp [IsBlankName, Text.isBlank],
      by decide +kernel, rfl⟩
  have mumbai : IsSpelling "mumbai" "MUMBAI " :=
    ⟨"", "MUMBAI", " ", by simp [IsBlankName], by simp [IsBlankName, Text.isBlank],
      by decide +kernel, rfl⟩
  have within : (Merchant.ofDocument (.object Sample.located)).toOption.any (fun m =>
      ((Finding.geoFence Sample.localIntent m).map Finding.status).toOption == some .passed) := by
    decide +kernel
  obtain ⟨m, read, passes⟩ := (Option.any_eq_true _ _).mp within
  obtain ⟨fence, verdict⟩ := respelt _ m _ m (Sample.madrasIntent_respelt m)
  exact ⟨cities "bombay" "mumbai" _ _ (by decide) bombay mumbai,
    rebuilt _ Sample.policy_isBuilt, m, eq_ok_of_toOption read,
    fence.symm.trans (eq_ok_of_toOption (by simpa using passes)),
    verdict {} (.whole 10) Sample.asked⟩

end Earmark
