import Earmark.Proofs.EscrowRuns
import Earmark.Proofs.MonotoneSums

/-!
The totals that escrows are built with. Building asks each milestone for a positive amount and does
not ask what they come to (`exists_build_iff`). The total is told to the cent exactly where the
exact one is an amount (`isAmount_total_iff`), and then the escrow reports exact totals whatever is
called (`build_carries`). Beyond that it may count as released with a milestone pending
(`released_with_pending`).
-/

namespace Earmark

/-! ### Milestones -/

theorem MilestoneSpec.checkedAmount_ok_iff {spec : MilestoneSpec} {amount : Decimal} :
    spec.checkedAmount = .ok amount ↔ spec.amount.toAmount = .ok amount ∧ 0 < amount.toRat := by
  constructor
  · intro checked
    obtain ⟨whole, positive⟩ := Milestone.checkedAmount_pos checked
    exact ⟨Milestone.toAmount_of_checked checked, whole.toRat_pos positive⟩
  · rintro ⟨brought, positive⟩
    have whole := isAmount_of_toAmount brought
    have some_ : ¬amount.cents ≤ 0 := not_le.mpr (whole.cents_pos_iff.mpr positive)
    simp only [checkedAmount, brought, ok_bind, whole.le?_zero, Failure.ofDecimal_ok, some_,
      decide_false, Bool.false_eq_true, ↓reduceIte]

namespace Milestone

variable {last after : Nat} {specs : List MilestoneSpec} {built : List Milestone}

/-- Milestones are built exactly where each is asked for with a positive amount. -/
theorem exists_build_iff (last : Nat) :
    (∃ built, (build last specs).2 = .ok built) ↔
      ∀ spec ∈ specs, ∃ amount, spec.amount.toAmount = .ok amount ∧ 0 < amount.toRat := by
  induction specs generalizing last with
  | nil => exact iff_of_true ⟨[], rfl⟩ (by simp)
  | cons spec rest ih =>
    rw [List.forall_mem_cons, ← ih (last + 1)]
    cases checked : spec.checkedAmount with
    | error failure =>
      refine iff_of_false ?_ ?_
      · rintro ⟨built, done⟩
        simp [build, checked] at done
      · rintro ⟨⟨amount, asked⟩, -⟩
        rw [MilestoneSpec.checkedAmount_ok_iff.mpr asked] at checked
        cases checked
    | ok amount =>
      have asked := MilestoneSpec.checkedAmount_ok_iff.mp checked
      simp only [build, checked]
      cases (build (last + 1) rest).2 with
      | error failure => simp
      | ok milestones => simpa using ⟨amount, asked⟩

/-- Built milestones have the amounts that are asked for. -/
theorem amounts_of_build (done : build last specs = (after, .ok built)) :
    List.Forall₂ (fun spec m => spec.amount.toAmount = .ok m.amount) specs built := by
  induction specs generalizing last after built with
  | nil =>
    cases done
    exact .nil
  | cons spec rest ih =>
    obtain ⟨amount, milestones, checked, later, rfl⟩ := build_cons_ok done
    exact .cons (toAmount_of_checked checked) (ih later)

end Milestone

namespace Escrow

variable {e : Escrow} {ids : Ids} {user title : String} {specs : List MilestoneSpec} {now : Time}
  {intentId : Option String} {days : Int}

/-! ### Reports -/

/-- What an escrow reports is exact: its total, what is pending of it, and that it is released, which
it is when all its milestones are completed and nothing was clawed back. -/
structure ReportsExactly (e : Escrow) : Prop where
  total : ∃ total, e.total = .ok total ∧ total.toRat = Milestone.exactTotal e.milestones
  pending : ∃ pending, e.pending = .ok pending ∧ pending.toRat = e.openTotal
  released_iff : e.status = .ok .released ↔
    e.clawback = none ∧ ∀ m ∈ e.milestones, m.isCompleted

theorem stage_eq_released_iff (e : Escrow) :
    e.stage = .released ↔ e.clawback = none ∧ ∀ m ∈ e.milestones, m.isCompleted := by
  rw [stage]
  cases claimed : e.clawback with
  | some receipt => simp
  | none =>
    by_cases all : e.milestones.all (·.isCompleted)
    · exact iff_of_true (by simp [all]) ⟨rfl, List.all_eq_true.mp all⟩
    · have rest : ¬∀ m ∈ e.milestones, m.isCompleted := by simpa using all
      simp only [Option.isSome_none, Bool.false_eq_true, ↓reduceIte, all, true_and, rest, iff_false]
      split <;> decide

theorem Sound.reportsExactly (sound : e.Sound) : e.ReportsExactly := by
  obtain ⟨total, summed, -, valueTotal⟩ := sound.total_eq
  obtain ⟨pending, left, -, valuePending⟩ := sound.pending_eq
  refine ⟨⟨total, summed, valueTotal⟩, ⟨pending, left, valuePending⟩, ?_⟩
  rw [sound.status_eq, Except.ok.injEq, stage_eq_released_iff]

/-- The total of an escrow is told to the cent exactly where the exact one is an amount. -/
theorem isAmount_total_iff {total : Decimal}
    (amounts : ∀ m ∈ e.milestones, m.amount.IsAmount ∧ 0 < m.amount.cents)
    (summed : e.total = .ok total) :
    total.IsAmount ↔ Milestone.exactTotal e.milestones < 10 ^ 26 := by
  have parts : ∀ d ∈ e.milestones.map (·.amount), d.IsAmount ∧ 0 ≤ d.toRat := by
    intro d mem
    obtain ⟨m, known, rfl⟩ := List.mem_map.mp mem
    obtain ⟨whole, positive⟩ := amounts m known
    exact ⟨whole, (whole.toRat_pos positive).le⟩
  have exact := Decimal.isAmount_sum_iff parts (Failure.ofDecimal_ok_iff.mp summed)
  rwa [List.map_map] at exact

/-! ### Building -/

/-- An escrow is built exactly where it has a milestone, each is asked for with a positive amount,
and the calendar has its last day. -/
theorem exists_build_iff :
    (∃ e, (build ids user specs now intentId title days).2 = .ok e) ↔
      specs ≠ [] ∧
        (∀ spec ∈ specs, ∃ amount, spec.amount.toAmount = .ok amount ∧ 0 < amount.toRat) ∧
        ∃ expiresAt, now.addDays? days = some expiresAt := by
  rw [← Milestone.exists_build_iff ids.milestones]
  constructor
  · rintro ⟨e, built⟩
    obtain ⟨asked, last, milestones, expiresAt, made, dated, -⟩ := build_ok built
    exact ⟨asked, ⟨milestones, by rw [made]⟩, expiresAt, dated⟩
  · rintro ⟨asked, ⟨milestones, made⟩, expiresAt, dated⟩
    rcases numbered : Milestone.build ids.milestones specs with ⟨last, result⟩
    rw [numbered] at made
    obtain rfl : result = .ok milestones := made
    have some_ : specs.isEmpty = false := by simpa using asked
    simp only [build, some_, Bool.false_eq_true, ↓reduceIte, numbered, dated, Failure.require,
      ok_bind, Except.ok.injEq, exists_eq']

/-- What building an escrow asks for and what the escrow then carries. -/
structure Builds (ids : Ids) (user : String) (specs : List MilestoneSpec) (now : Time)
    (intentId : Option String) (title : String) (days : Int) : Prop where
  succeeds_iff : (∃ e, (build ids user specs now intentId title days).2 = .ok e) ↔
    specs ≠ [] ∧
      (∀ spec ∈ specs, ∃ amount, spec.amount.toAmount = .ok amount ∧ 0 < amount.toRat) ∧
      ∃ expiresAt, now.addDays? days = some expiresAt
  amounts : ∀ e, (build ids user specs now intentId title days).2 = .ok e →
    List.Forall₂ (fun spec m => spec.amount.toAmount = .ok m.amount) specs e.milestones
  total_iff : ∀ e, (build ids user specs now intentId title days).2 = .ok e →
    ∃ total, e.total = .ok total ∧
      (total.IsAmount ↔ Milestone.exactTotal e.milestones < 10 ^ 26)
  carries : ∀ e, (build ids user specs now intentId title days).2 = .ok e →
    Milestone.exactTotal e.milestones < 10 ^ 26 → ∀ run : List (Time × Call),
      (∀ entry ∈ run, entry.2.HasRates) →
        Milestone.exactTotal (e.after run).milestones = Milestone.exactTotal e.milestones ∧
          (e.after run).ReportsExactly

/-- An escrow is built whatever its milestones come to, and it reports exact totals after every run
of calls as long as they come to an amount. -/
theorem build_carries (ids : Ids) (user : String) (specs : List MilestoneSpec) (now : Time)
    (intentId : Option String) (title : String) (days : Int) :
    Builds ids user specs now intentId title days := by
  constructor
  case succeeds_iff => exact exists_build_iff
  case amounts =>
    intro e built
    obtain ⟨-, last, milestones, expiresAt, made, -, rfl⟩ := build_ok built
    exact Milestone.amounts_of_build made
  case total_iff =>
    intro e built
    obtain ⟨-, -, -, fresh⟩ := milestones_of_build built
    obtain ⟨total, summed⟩ := exists_total_of_build built
    exact ⟨total, summed, isAmount_total_iff (fun m mem => (fresh m mem).2) summed⟩
  case carries =>
    intro e built fits run rates
    have sound := sound_of_build built fits
    have terms := terms_after sound rates
    exact ⟨exactTotal_of_terms terms, (sound.of_terms terms).reportsExactly⟩

/-- The school's escrow is built of its milestones, and reports exact totals after a partial
clawback. -/
theorem build_carries_school :
    Builds {} "reader" Sample.specs Sample.today none "School" 30 ∧
      (Sample.escrow.after Sample.calls).ReportsExactly := by
  have builds := build_carries {} "reader" Sample.specs Sample.today none "School" 30
  have fits : Milestone.exactTotal Sample.escrow.milestones < 10 ^ 26 := by
    norm_num [Sample.escrow, Decimal.ofCents, Decimal.toRat, Decimal.signed]
  have rates : ∀ entry ∈ Sample.calls, entry.2.HasRates := by
    simpa [Sample.calls, Call.HasRates] using Rates.isRate_default
  exact ⟨builds, (builds.carries _ Sample.build_specs fits _ rates).2⟩

namespace Sample

/-- Two parts of ninety-nine septillion each, and a cent. -/
def brimmingSpecs : List MilestoneSpec :=
  [{ description := "A", amount := .text "99000000000000000000000000", proofKind := none },
   { description := "B", amount := .text "99000000000000000000000000", proofKind := none },
   { description := "C", amount := .text "0.01", proofKind := none }]

def brimming : Escrow :=
  { escrow with
    milestones :=
      [{ id := Ids.milestone 1, description := "A", amount := .ofCents 9900000000000000000000000000
         proofKind := none },
       { id := Ids.milestone 2, description := "B", amount := .ofCents 9900000000000000000000000000
         proofKind := none },
       { id := Ids.milestone 3, description := "C", amount := .ofCents 1, proofKind := none }] }

theorem build_brimmingSpecs :
    (build {} "reader" brimmingSpecs today none "School" 30).2 = .ok brimming :=
  eq_ok_of_toOption (by decide +kernel)

def bothParts : List (Time × Call) :=
  [(today, .release (Ids.milestone 1) none none), (today, .release (Ids.milestone 2) none none)]

end Sample

/-- An escrow is built whose total is not the exact one, and that counts as released when a milestone
is pending. -/
theorem released_with_pending :
    (build {} "reader" Sample.brimmingSpecs Sample.today none "School" 30).2 = .ok Sample.brimming ∧
      (∃ total, Sample.brimming.total = .ok total ∧
        total.toRat ≠ Milestone.exactTotal Sample.brimming.milestones) ∧
      (Sample.brimming.after Sample.bothParts).status = .ok .released ∧
      ∃ m ∈ (Sample.brimming.after Sample.bothParts).milestones, m.isCompleted = false := by
  have total : Sample.brimming.total = .ok (.finite false 1980000000000000000000000000 (-1)) :=
    eq_ok_of_toOption (by decide +kernel)
  refine ⟨Sample.build_brimmingSpecs, ⟨_, total, ?_⟩, eq_ok_of_toOption (by decide +kernel),
    by decide +kernel⟩
  norm_num [Sample.brimming, Decimal.toRat, Decimal.signed, Decimal.ofCents]

end Escrow

end Earmark
