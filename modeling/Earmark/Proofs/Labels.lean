import Earmark.Merchant.Directory
import Earmark.Proofs.Runs
import Earmark.Proofs.Verdicts

/-!
Blank labels. Tags are rid of blank ones, the labels of a policy are not, and the empty label is
part of every tag: a blank category lets a policy pay whatever merchant has a tag and is not mixed
(`Policy.build_append_blanks`).
-/

namespace Earmark

/-! ### Blank names -/

/-- A name that is empty or has only white space. -/
def IsBlankName (name : String) : Prop := ∀ c ∈ name.toList, Text.isBlank c = true

theorem normalize_blank {name : String} (blank : IsBlankName name) : normalize name = "" := by
  have dropped : name.toList.dropWhile Text.isBlank = [] := List.dropWhile_eq_nil_iff.mpr blank
  have stripped : Text.strip name = "" := by simp [Text.strip, Text.stripChars, dropped]
  rw [normalize, stripped]
  rfl

theorem mem_sortedSet {names : List String} {name : String} :
    name ∈ sortedSet names ↔ name ∈ names := by
  simp [sortedSet, List.mem_eraseDups]

namespace Merchant

private theorem empty_notMem_labels (m : Merchant) : "" ∉ m.labels := by
  have category : m.category.word ≠ "" := by cases m.category <;> decide
  have codes : ∀ entry ∈ codeLabels, "" ∉ entry.2 := by decide
  intro mem
  rcases List.mem_append.mp mem with mem | mem
  · cases found : codeLabels.lookup m.code with
    | none => simp [found] at mem
    | some names =>
      rw [found, Option.getD_some] at mem
      obtain ⟨before, rest, table, -⟩ := List.lookup_eq_some_iff.mp found
      exact codes (m.code, names) (by simp [table]) mem
  · exact category (List.mem_singleton.mp mem).symm

/-- The empty label says what a merchant sells exactly if the merchant has a tag. -/
theorem sells_empty (m : Merchant) : m.sells "" = true ↔ m.tags ≠ [] := by
  have part (whole : List Char) : isPartOf [] whole = true := by cases whole <;> rfl
  have unlisted := m.empty_notMem_labels
  cases tags : m.tags with
  | nil => simp [sells, unlisted, tags]
  | cons tag rest => simp [sells, tags, part]

theorem mem_overlap {m : Merchant} {allowed : List String} {label : String} :
    label ∈ m.overlap allowed ↔ label ∈ allowed ∧ m.sells label = true := by
  simp [overlap]

end Merchant

/-! ### What an approval rests on -/

namespace Check

/-- Every stage found a pass exactly where the checks run and none of them failed. -/
theorem run_passed_iff {finding : Stage → Except Failure Finding} {stages : List Stage} :
    (∃ checks, run finding stages = .ok checks ∧ firstFailed? checks = none) ↔
      ∀ stage ∈ stages, ∃ remark, finding stage = .ok (.pass remark) := by
  constructor
  · rintro ⟨checks, ran, unfailed⟩
    exact run_passed ran unfailed
  · intro passed
    induction stages with
    | nil => exact ⟨[], rfl, rfl⟩
    | cons first rest ih =>
      obtain ⟨remark, finds⟩ := passed first (by simp)
      obtain ⟨checks, ran, unfailed⟩ := ih fun stage mem => passed stage (by simp [mem])
      refine ⟨Check.passed first remark :: checks, ?_, ?_⟩
      · simp only [run, finds, ok_bind, ran]
        rfl
      · simpa [firstFailed?, Check.passed] using unfailed

end Check

/-- A payment is approved, and not by an override. -/
def Verdict.Approves (thresholds : RiskThresholds) (i : Intent) (m : Merchant) (amount : Numeral)
    (context : Context) : Prop :=
  ∃ v, validate thresholds (some i) m amount context = .ok v ∧ v.approved = true ∧ v.bypass = false

namespace Verdict

variable {thresholds : RiskThresholds} {i : Intent} {m : Merchant} {amount : Numeral}
  {context : Context}

/-- The merchant can be referred to, and the risk of the payment told. -/
def CanConclude (thresholds : RiskThresholds) (m : Merchant) (d : Decimal) : Prop :=
  (∃ merchant, m.encodedId = .ok merchant) ∧ ∃ risk, RiskAssessment.assess thresholds m d = .ok risk

/-- A payment is approved without an override exactly if it asks for none, every stage passes and
the approval can be concluded. -/
theorem approves_iff : Approves thresholds i m amount context ↔
    context.emergency = false ∧ ∃ d, amount.toAmount = .ok d ∧
      (∀ stage ∈ Stage.order, ∃ remark, Finding.ofStage i m d context stage = .ok (.pass remark)) ∧
      CanConclude thresholds m d := by
  constructor
  · rintro ⟨v, validated, approved, bypass⟩
    obtain ⟨d, brought, judged⟩ := bind_ok_iff.mp validated
    cases emergency : context.emergency with
    | true =>
      simp only [judge, emergency, ↓reduceIte] at judged
      rw [(bypass_of_override judged).1] at bypass
      cases bypass
    | false =>
      simp only [judge, emergency, Bool.false_eq_true, ↓reduceIte, bind_ok_iff] at judged
      obtain ⟨checks, ran, judged⟩ := judged
      have unfailed := (bypass_of_ofChecks judged).2 approved
      simp only [ofChecks, unfailed, bind_ok_iff] at judged
      obtain ⟨merchant, encoded, risk, assessed, -⟩ := judged
      exact ⟨rfl, d, brought, Check.run_passed ran unfailed, ⟨merchant, encoded⟩, risk, assessed⟩
  · rintro ⟨emergency, d, brought, passed, ⟨merchant, encoded⟩, risk, assessed⟩
    obtain ⟨checks, ran, unfailed⟩ := Check.run_passed_iff.mpr passed
    simp only [Approves, validate, brought, ok_bind, judge, emergency, Bool.false_eq_true,
      ↓reduceIte, ran, ofChecks, unfailed, encoded, assessed, Except.ok.injEq]
    exact ⟨_, rfl, rfl, rfl⟩

end Verdict

theorem Finding.merchantCategory_pass_iff {i : Intent} {m : Merchant} :
    (∃ remark, merchantCategory i m = .pass remark) ↔
      m.isMixed = false ∧ (m.code ∈ i.policy.codes ∨ m.overlap i.policy.categories ≠ []) := by
  constructor
  · rintro ⟨remark, passed⟩
    exact merchantCategory_pass passed
  · rintro ⟨unmixed, code | label⟩
    · simp [merchantCategory, unmixed, code]
    · simp [merchantCategory, unmixed, label]

/-- The intent with other labels and codes to allow. -/
def Intent.relabelled (i : Intent) (categories codes : List String) : Intent :=
  { i with policy := { i.policy with categories, codes } }

namespace Verdict

variable {thresholds : RiskThresholds} {i : Intent} {m : Merchant} {amount : Numeral}
  {context : Context}

/-- A payment is approved but for what its merchant sells: every other stage passes. -/
def ApprovesElsewhere (thresholds : RiskThresholds) (i : Intent) (m : Merchant) (amount : Numeral)
    (context : Context) : Prop :=
  context.emergency = false ∧ ∃ d, amount.toAmount = .ok d ∧
    (∀ stage ∈ Stage.order, stage ≠ .merchantCategory →
      ∃ remark, Finding.ofStage i m d context stage = .ok (.pass remark)) ∧
    CanConclude thresholds m d

/-- Labels and codes decide one stage and no other. -/
theorem approves_relabelled_iff {categories codes : List String} :
    Approves thresholds (i.relabelled categories codes) m amount context ↔
      ApprovesElsewhere thresholds i m amount context ∧ m.isMixed = false ∧
        (m.code ∈ codes ∨ m.overlap categories ≠ []) := by
  have elsewhere (d : Decimal) (stage : Stage) (other : stage ≠ .merchantCategory) :
      Finding.ofStage (i.relabelled categories codes) m d context stage =
        Finding.ofStage i m d context stage := by
    cases stage <;> first | rfl | exact absurd rfl other
  have category := Finding.merchantCategory_pass_iff (i := i.relabelled categories codes) (m := m)
  rw [approves_iff, ApprovesElsewhere]
  constructor
  · rintro ⟨calm, d, brought, passed, assessed⟩
    refine ⟨⟨calm, d, brought, fun stage mem other => ?_, assessed⟩, category.mp ?_⟩
    · rw [← elsewhere d stage other]
      exact passed stage mem
    · obtain ⟨remark, finds⟩ := passed .merchantCategory (by decide)
      exact ⟨remark, by simpa [Finding.ofStage] using finds⟩
  · rintro ⟨⟨calm, d, brought, passed, assessed⟩, admits⟩
    refine ⟨calm, d, brought, fun stage mem => ?_, assessed⟩
    by_cases at_ : stage = .merchantCategory
    · obtain ⟨remark, finds⟩ := category.mpr admits
      exact ⟨remark, by rw [at_, Finding.ofStage, finds]⟩
    · rw [elsewhere d stage at_]
      exact passed stage mem at_

end Verdict

/-! ### Blank categories -/

namespace Policy

/-- The labels that building keeps decide nothing else of a policy. -/
private theorem build_categories {terms : PolicyTerms} {policy : Policy}
    (built : build terms = .ok policy) (categories : List String) :
    build { terms with categories } =
        .ok { policy with categories := sortedSet (categories.map normalize) } ∧
      policy.categories = sortedSet (terms.categories.map normalize) := by
  obtain ⟨limit, brought, positive, tier, days, rfl⟩ := build_ok_iff.mp built
  exact ⟨build_ok_iff.mpr ⟨limit, brought, positive, tier, days, rfl⟩, rfl⟩

/-- A policy is open, beyond what another one allows, to whatever merchant has a tag and is not
mixed, as if the merchant's code were allowed; and it differs in nothing else. -/
structure OpensToTags (policy wider : Policy) : Prop where
  same : wider = { policy with categories := wider.categories }
  overlap : ∀ (m : Merchant) (label : String), label ∈ m.overlap wider.categories ↔
    label ∈ m.overlap policy.categories ∨ label = "" ∧ m.tags ≠ []
  stage : ∀ (i : Intent) (m : Merchant),
    (∃ remark, Finding.merchantCategory { i with policy := wider } m = .pass remark) ↔
      (∃ remark, Finding.merchantCategory { i with policy } m = .pass remark) ∨
        m.isMixed = false ∧ m.tags ≠ []
  approval : ∀ (thresholds : RiskThresholds) (i : Intent) (m : Merchant) (amount : Numeral)
      (context : Context),
    Verdict.Approves thresholds { i with policy := wider } m amount context ↔
      Verdict.Approves thresholds { i with policy } m amount context ∨
        m.isMixed = false ∧ m.tags ≠ [] ∧
          Verdict.Approves thresholds
            { i with policy := { policy with codes := m.code :: policy.codes } } m amount context

private theorem overlap_blank {allowed wider : List String}
    (mem : ∀ label, label ∈ wider ↔ label ∈ allowed ∨ label = "") (m : Merchant) (label : String) :
    label ∈ m.overlap wider ↔ label ∈ m.overlap allowed ∨ label = "" ∧ m.tags ≠ [] := by
  rw [Merchant.mem_overlap, Merchant.mem_overlap, mem, or_and_right]
  refine or_congr_right ⟨?_, ?_⟩
  · rintro ⟨rfl, sells⟩
    exact ⟨rfl, m.sells_empty.mp sells⟩
  · rintro ⟨rfl, tags⟩
    exact ⟨rfl, m.sells_empty.mpr tags⟩

private theorem exists_overlap_blank {allowed wider : List String}
    (mem : ∀ label, label ∈ wider ↔ label ∈ allowed ∨ label = "") (m : Merchant) :
    m.overlap wider ≠ [] ↔ m.overlap allowed ≠ [] ∨ m.tags ≠ [] := by
  have some_member (labels : List String) : labels ≠ [] ↔ ∃ label, label ∈ labels := by
    cases labels <;> simp
  rw [some_member, some_member]
  simp only [overlap_blank mem m]
  constructor
  · rintro ⟨label, known | ⟨-, tags⟩⟩
    · exact .inl ⟨label, known⟩
    · exact .inr tags
  · rintro (⟨label, known⟩ | tags)
    · exact ⟨label, .inl known⟩
    · exact ⟨"", .inr ⟨rfl, tags⟩⟩

/-- Blank strings among the allowed categories open a policy to every merchant that has a tag and is
not mixed. -/
theorem build_append_blanks {terms : PolicyTerms} {blanks : List String} {policy : Policy}
    (some_blank : blanks ≠ []) (blank : ∀ name ∈ blanks, IsBlankName name)
    (built : build terms = .ok policy) :
    ∃ wider, build { terms with categories := terms.categories ++ blanks } = .ok wider ∧
      policy.OpensToTags wider := by
  obtain ⟨widened, labels⟩ := build_categories built (terms.categories ++ blanks)
  refine ⟨_, widened, ?_⟩
  generalize categories : sortedSet ((terms.categories ++ blanks).map normalize) = wider
  have mem (label : String) : label ∈ wider ↔ label ∈ policy.categories ∨ label = "" := by
    have emptied : label ∈ blanks.map normalize ↔ label = "" := by
      constructor
      · intro known
        obtain ⟨name, among, rfl⟩ := List.mem_map.mp known
        exact normalize_blank (blank name among)
      · rintro rfl
        obtain ⟨name, among⟩ := List.exists_mem_of_ne_nil blanks some_blank
        exact List.mem_map.mpr ⟨name, among, normalize_blank (blank name among)⟩
    rw [← categories, labels, mem_sortedSet, mem_sortedSet, List.map_append, List.mem_append,
      emptied]
  constructor
  case same => rfl
  case overlap => exact overlap_blank mem
  case stage =>
    intro i m
    rw [Finding.merchantCategory_pass_iff, Finding.merchantCategory_pass_iff]
    simp only [exists_overlap_blank mem m]
    tauto
  case approval =>
    intro thresholds i m amount context
    have relabelled (categories codes : List String) :=
      @Verdict.approves_relabelled_iff thresholds { i with policy } m amount context categories
        codes
    have narrow : Verdict.Approves thresholds { i with policy } m amount context ↔ _ :=
      relabelled policy.categories policy.codes
    have coded : Verdict.Approves thresholds
        { i with policy := { policy with codes := m.code :: policy.codes } } m amount context ↔ _ :=
      relabelled policy.categories (m.code :: policy.codes)
    have wide := relabelled wider policy.codes
    simp only [exists_overlap_blank mem m] at wide
    simp only [List.mem_cons, true_or, and_true] at coded
    refine wide.trans ?_
    rw [narrow, coded]
    constructor
    · rintro ⟨passed, unmixed, code | label | tags⟩
      · exact .inl ⟨passed, unmixed, .inl code⟩
      · exact .inl ⟨passed, unmixed, .inr label⟩
      · exact .inr ⟨unmixed, tags, passed, unmixed⟩
    · rintro (⟨passed, unmixed, code | label⟩ | ⟨unmixed, tags, passed, -⟩)
      · exact ⟨passed, unmixed, .inl code⟩
      · exact ⟨passed, unmixed, .inr (.inl label)⟩
      · exact ⟨passed, unmixed, .inr (.inr tags)⟩

/-- White space among the categories is open to every merchant with a tag that is not mixed. -/
theorem build_append_blanks_books :
    ∃ wider, build { Sample.terms with categories := Sample.terms.categories ++ [" \t"] } =
        .ok wider ∧ Sample.policy.OpensToTags wider := by
  refine build_append_blanks (by decide) ?_ Sample.build_terms
  simp only [List.mem_singleton, forall_eq, IsBlankName]
  intro c mem
  obtain rfl | rfl : c = ' ' ∨ c = '\t' := by simpa using mem
  · decide
  · decide

/-- An intent that allows the empty label alone, and no code, pays every merchant that has a tag and
is not mixed, and no other. -/
theorem approves_iff_of_empty_label {thresholds : RiskThresholds} {i : Intent} {m : Merchant}
    {amount : Numeral} {context : Context} (labels : i.policy.categories = [""])
    (uncoded : i.policy.codes = []) :
    Verdict.Approves thresholds i m amount context ↔
      Verdict.ApprovesElsewhere thresholds i m amount context ∧ m.isMixed = false ∧
        m.tags ≠ [] := by
  have own : Verdict.Approves thresholds i m amount context ↔ _ :=
    @Verdict.approves_relabelled_iff thresholds i m amount context i.policy.categories
      i.policy.codes
  have matched : m.overlap [""] ≠ [] ↔ m.tags ≠ [] := by
    rw [← m.sells_empty]
    simp [Merchant.overlap, List.filter_cons]
  rw [own, labels, uncoded, matched]
  simp

end Policy

namespace Sample

/-- Sixty for a category of two spaces. -/
def blankPolicy : Policy := { policy with categories := [""] }

def blankIntent : Intent :=
  { id := Ids.intent 1, user := "reader", text := "", policy := blankPolicy, createdAt := today
    expiresAt := { micros := 63879012000000000, offset := some 0 } }

end Sample

/-- Two spaces as the only category let an intent pay a restaurant. -/
theorem Policy.blank_category_pays_restaurant :
    Policy.build { Sample.terms with categories := ["  "] } = .ok Sample.blankPolicy ∧
      ∃ m ∈ Directory.catalog, m.category = .food ∧ m.overlap Sample.blankPolicy.categories = [""] ∧
        Verdict.Approves {} Sample.blankIntent m (.whole 10)
          { requestedAt := Sample.today, transactionId := Ids.transaction 1 } := by
  refine ⟨eq_ok_of_toOption (by decide +kernel), Directory.catalog[1], List.getElem_mem _, rfl,
    by decide +kernel, ?_⟩
  have judged : (Verdict.validate {} (some Sample.blankIntent) Directory.catalog[1] (.whole 10)
      { requestedAt := Sample.today, transactionId := Ids.transaction 1 }).toOption.map
        (fun v => (v.approved, v.bypass)) = some (true, false) := by
    decide +kernel
  obtain ⟨v, done, flags⟩ := Option.map_eq_some_iff.mp judged
  simp only [Prod.mk.injEq] at flags
  exact ⟨v, eq_ok_of_toOption done, flags⟩

end Earmark
