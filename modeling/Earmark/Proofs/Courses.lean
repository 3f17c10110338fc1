import Earmark.Proofs.PolicyDecisions

/-!
The course that a judgement takes. The checks of every verdict are one for each stage, in their
order: either all pass, or the override passes and nothing else is evaluated, or one fails and only
what stands before it was evaluated. What the verdict says besides is told by the check that failed
(`Verdict.Formed`).
-/

namespace Earmark

namespace Check

/-- The checks stop at a failure: what is before it passed, and what is behind it was not
evaluated. -/
def StoppedAt (checks : List Check) (failed : Check) : Prop :=
  ∃ before after, checks = before ++ failed :: after ∧
    (∀ check ∈ before, check.status = .passed) ∧
    failed.status = .failed ∧
    ∀ check ∈ after, check.status = .notEvaluated

/-- The override passed, and nothing behind it was evaluated. -/
def Overridden (checks : List Check) : Prop :=
  ∃ first rest, checks = first :: rest ∧ first.stage = .emergencyOverride ∧
    first.status = .passed ∧ ∀ check ∈ rest, check.status = .notEvaluated

variable {finding : Stage → Except Failure Finding} {stages : List Stage} {checks : List Check}
  {check failed : Check}

theorem StoppedAt.passed_cons (stopped : StoppedAt checks failed)
    (passes : check.status = .passed) : StoppedAt (check :: checks) failed := by
  obtain ⟨before, after, rfl, passed, fails, skipped⟩ := stopped
  exact ⟨check :: before, after, rfl, List.forall_mem_cons.mpr ⟨passes, passed⟩, fails, skipped⟩

/-- The failure that the checks stop at is the only one. -/
theorem StoppedAt.eq_of_failed (stopped : StoppedAt checks failed) (mem : check ∈ checks)
    (fails : check.status = .failed) : check = failed := by
  obtain ⟨before, after, rfl, passed, -, skipped⟩ := stopped
  rcases List.mem_append.mp mem with mem | mem
  · cases (passed check mem).symm.trans fails
  · rcases List.mem_cons.mp mem with same | mem
    · exact same
    · cases (skipped check mem).symm.trans fails

theorem StoppedAt.mem (stopped : StoppedAt checks failed) : failed ∈ checks := by
  obtain ⟨before, after, rfl, -⟩ := stopped
  simp

theorem StoppedAt.status (stopped : StoppedAt checks failed) : failed.status = .failed := by
  obtain ⟨_, _, _, _, fails, _⟩ := stopped
  exact fails

theorem StoppedAt.firstFailed? (stopped : StoppedAt checks failed) :
    firstFailed? checks = some failed := by
  cases found : Check.firstFailed? checks with
  | none =>
    have none_failed := List.find?_eq_none.mp found failed stopped.mem
    simp [stopped.status] at none_failed
  | some check =>
    have fails : check.status = .failed := by simpa using List.find?_some found
    rw [stopped.eq_of_failed (List.mem_of_find?_eq_some found) fails]

theorem firstFailed?_of_passed (passed : ∀ check ∈ checks, check.status = .passed) :
    firstFailed? checks = none := by
  apply List.find?_eq_none.mpr
  intro check mem
  simp [passed check mem]

theorem overridden_of_skipped (remark : Option String) (stages : List Stage) :
    Overridden (passed .emergencyOverride remark :: stages.map notEvaluated) := by
  refine ⟨_, _, rfl, rfl, rfl, ?_⟩
  intro check mem
  obtain ⟨stage, -, rfl⟩ := List.mem_map.mp mem
  rfl

theorem Overridden.unfailed (overridden : Overridden checks) :
    ∀ check ∈ checks, check.status ≠ .failed := by
  obtain ⟨first, rest, rfl, -, passes, skipped⟩ := overridden
  intro check mem fails
  rcases List.mem_cons.mp mem with rfl | mem
  · cases passes.symm.trans fails
  · cases (skipped check mem).symm.trans fails

/-- Running the stages puts down one check for each, in their order. -/
theorem run_stages (ran : run finding stages = .ok checks) : checks.map (·.stage) = stages := by
  induction stages generalizing checks with
  | nil =>
    cases ran
    rfl
  | cons first rest ih =>
    obtain ⟨found, -, ran⟩ := bind_ok_iff.mp ran
    cases found with
    | fail reason =>
      cases ran
      simp [Check.failed, notEvaluated, Function.comp_def]
    | pass remark =>
      obtain ⟨later, ranLater, rfl⟩ := map_ok_iff.mp ran
      rw [List.map_cons, ih ranLater]
      rfl

/-- The stages all pass, or stop at a failure that has a reason. -/
theorem run_course (ran : run finding stages = .ok checks) :
    (∀ check ∈ checks, check.status = .passed) ∨
      ∃ failed, StoppedAt checks failed ∧ failed.detail.isSome := by
  induction stages generalizing checks with
  | nil =>
    cases ran
    simp
  | cons first rest ih =>
    obtain ⟨found, -, ran⟩ := bind_ok_iff.mp ran
    cases found with
    | fail reason =>
      cases ran
      refine .inr ⟨Check.failed first reason, ⟨[], _, rfl, by simp, rfl, ?_⟩, rfl⟩
      simp [notEvaluated]
    | pass remark =>
      obtain ⟨later, ranLater, rfl⟩ := map_ok_iff.mp ran
      rcases ih ranLater with passed | ⟨failed, stopped, told⟩
      · exact .inl (List.forall_mem_cons.mpr ⟨rfl, passed⟩)
      · exact .inr ⟨failed, stopped.passed_cons rfl, told⟩

/-- What runs beyond its first stage leaves no trace of an override. -/
theorem not_overridden_of_run {second : Stage} (ran : run finding (.emergencyOverride :: second ::
    stages) = .ok checks) : ¬Overridden checks := by
  rintro ⟨first, rest, rfl, -, passes, skipped⟩
  obtain ⟨found, -, ran⟩ := bind_ok_iff.mp ran
  cases found with
  | fail reason =>
    cases ran
    cases passes
  | pass remark =>
    obtain ⟨later, ranLater, same⟩ := map_ok_iff.mp ran
    obtain ⟨-, rfl⟩ := List.cons.inj same
    -- the second stage was evaluated, whatever it found
    obtain ⟨found, -, ran⟩ := bind_ok_iff.mp ranLater
    cases found with
    | fail reason =>
      cases ran
      cases skipped _ List.mem_cons_self
    | pass remark =>
      obtain ⟨further, -, rfl⟩ := map_ok_iff.mp ran
      cases skipped _ List.mem_cons_self

end Check

namespace Verdict

variable {thresholds : RiskThresholds} {intent : Option Intent} {m : Merchant} {amount : Numeral}
  {d : Decimal} {context : Context} {v : Verdict} {checks : List Check} {failed : Check}

/-- A verdict as it is put down: one check for each stage, which all pass, are overridden or stop at
a failure, and what follows from these for the rest of it. -/
structure Formed (m : Merchant) (context : Context) (v : Verdict) : Prop where
  stages : v.checks.map (·.stage) = Stage.order
  course : (∀ check ∈ v.checks, check.status = .passed) ∨ Check.Overridden v.checks ∨
    ∃ failed, Check.StoppedAt v.checks failed
  overridden_iff : Check.Overridden v.checks ↔ context.emergency = true
  approved_iff : v.approved = true ↔ ∀ check ∈ v.checks, check.status ≠ .failed
  refusal : ∀ check ∈ v.checks, check.status = .failed →
    v.failedAt = some check.stage ∧ v.reason = check.detail ∧ check.detail.isSome
  failedAt_eq_none_iff : v.failedAt = none ↔ v.approved = true
  reason_eq_none_iff : v.reason = none ↔ v.approved = true
  reference_isSome : v.reference.isSome = v.approved
  risk_isSome : v.risk.isSome = v.approved
  forwarded : v.forwarded = v.approved
  bypass : v.bypass = context.emergency
  escalate_iff : v.escalate = true ↔ v.failedAt = some .merchantCategory ∧ m.isMixed = true

/-- An override approves, with nothing but itself evaluated. -/
theorem formed_of_override (emergency : context.emergency = true)
    (judged : override thresholds intent m d context = .ok v) : v.Formed m context := by
  simp only [override, bind_ok_iff] at judged
  obtain ⟨risk, -, merchant, -, judged⟩ := judged
  cases judged
  have overridden := Check.overridden_of_skipped
    (some "Bypassed all rules due to emergency override") Stage.order.tail
  exact
    { stages := rfl
      course := .inr (.inl overridden)
      overridden_iff := iff_of_true overridden emergency
      approved_iff := iff_of_true rfl overridden.unfailed
      refusal := fun check mem fails => absurd fails (overridden.unfailed check mem)
      failedAt_eq_none_iff := iff_of_true rfl rfl
      reason_eq_none_iff := iff_of_true rfl rfl
      reference_isSome := rfl
      risk_isSome := rfl
      forwarded := rfl
      bypass := emergency.symm
      escalate_iff := iff_of_false Bool.false_ne_true (by rintro ⟨⟨⟩, -⟩) }

/-- Checks that all passed amount to an approval. -/
theorem formed_of_passed (calm : context.emergency = false)
    (stages : checks.map (·.stage) = Stage.order) (ordinary : ¬Check.Overridden checks)
    (passed : ∀ check ∈ checks, check.status = .passed)
    (judged : ofChecks thresholds intent m d context checks = .ok v) : v.Formed m context := by
  simp only [ofChecks, Check.firstFailed?_of_passed passed, bind_ok_iff] at judged
  obtain ⟨merchant, -, risk, -, judged⟩ := judged
  cases judged
  have unfailed : ∀ check ∈ checks, check.status ≠ .failed := by
    intro check mem
    rw [passed check mem]
    decide
  exact
    { stages := stages
      course := .inl passed
      overridden_iff := iff_of_false ordinary (by simp [calm])
      approved_iff := iff_of_true rfl unfailed
      refusal := fun check mem fails => absurd fails (unfailed check mem)
      failedAt_eq_none_iff := iff_of_true rfl rfl
      reason_eq_none_iff := iff_of_true rfl rfl
      reference_isSome := rfl
      risk_isSome := rfl
      forwarded := rfl
      bypass := calm.symm
      escalate_iff := iff_of_false Bool.false_ne_true (by rintro ⟨⟨⟩, -⟩) }

/-- Checks that stop at a failure amount to a refusal there, for its reason. -/
theorem formed_of_stopped (calm : context.emergency = false)
    (stages : checks.map (·.stage) = Stage.order) (ordinary : ¬Check.Overridden checks)
    (stopped : Check.StoppedAt checks failed) (told : failed.detail.isSome)
    (judged : ofChecks thresholds intent m d context checks = .ok v) : v.Formed m context := by
  simp only [ofChecks, stopped.firstFailed?] at judged
  cases judged
  have reason : failed.detail ≠ none := Option.isSome_iff_ne_none.mp told
  exact
    { stages := stages
      course := .inr (.inr ⟨failed, stopped⟩)
      overridden_iff := iff_of_false ordinary (by simp [calm])
      approved_iff := iff_of_false Bool.false_ne_true
        fun unfailed => unfailed failed stopped.mem stopped.status
      refusal := fun check mem fails => by
        rw [stopped.eq_of_failed mem fails]
        exact ⟨rfl, rfl, told⟩
      failedAt_eq_none_iff := iff_of_false (Option.some_ne_none _) Bool.false_ne_true
      reason_eq_none_iff := iff_of_false reason Bool.false_ne_true
      reference_isSome := rfl
      risk_isSome := rfl
      forwarded := rfl
      bypass := calm.symm
      escalate_iff := by simp }

/-- Every verdict, on any payment against any intent or none, has one check for each stage in their
order, which all pass, or are overridden just where the payment is an emergency, or stop at one
failure; it approves where none failed, names the one that did with its reason, and has a reference
and a risk where it approves. -/
theorem formed_of_validate (judged : validate thresholds intent m amount context = .ok v) :
    v.Formed m context := by
  obtain ⟨d, -, judged⟩ := bind_ok_iff.mp judged
  unfold judge at judged
  cases emergency : context.emergency with
  | true =>
    simp only [emergency, ↓reduceIte] at judged
    exact formed_of_override emergency judged
  | false =>
    simp only [emergency, Bool.false_eq_true, ↓reduceIte] at judged
    obtain ⟨checks, ran, judged⟩ := bind_ok_iff.mp judged
    have stages := Check.run_stages ran
    have ordinary := Check.not_overridden_of_run ran
    rcases Check.run_course ran with passed | ⟨failed, stopped, told⟩
    · exact formed_of_passed emergency stages ordinary passed judged
    · exact formed_of_stopped emergency stages ordinary stopped told judged

/-- A thousand at the shop in Chennai stop at the cap, with three checks evaluated. -/
theorem formed_of_validate_local : ∃ v, validate {} (some Sample.localIntent) Directory.catalog[0]
    (.whole 1000) Sample.asked = .ok v ∧ v.Formed Directory.catalog[0] Sample.asked ∧
      v.checks.map (·.status) = [.passed, .passed, .failed, .notEvaluated, .notEvaluated,
        .notEvaluated, .notEvaluated, .notEvaluated] := by
  have thousand : (validate {} (some Sample.localIntent) Directory.catalog[0] (.whole 1000)
      Sample.asked).toOption.map (fun v => v.checks.map (·.status)) =
        some [.passed, .passed, .failed, .notEvaluated, .notEvaluated, .notEvaluated,
          .notEvaluated, .notEvaluated] := by decide +kernel
  obtain ⟨v, judged, statuses⟩ := Option.map_eq_some_iff.mp thousand
  exact ⟨v, eq_ok_of_toOption judged, formed_of_validate (eq_ok_of_toOption judged), statuses⟩

end Verdict

end Earmark
