import Earmark.Proofs.Escrows

/-!
Runs of calls on an escrow. Whatever is called and in whatever order, the total stays, what was
released is what is completed, nothing is paid twice, and after a clawback, which there is at most
one of, nothing changes and the whole total is accounted for (`conserved_after_build`).
-/

namespace Earmark

namespace Escrow

variable {e : Escrow}

section Runs

variable {run rest : List (Time × Call)}

theorem after_append (e : Escrow) (run rest : List (Time × Call)) :
    e.after (run ++ rest) = (e.after run).after rest := by
  induction run generalizing e with
  | nil => rfl
  | cons entry run ih => exact ih _

/-- What every move keeps holds after every run. -/
theorem after_keeps (Kept : Escrow → Prop) (sound : ∀ {e : Escrow}, Kept e → e.Sound)
    (move : ∀ {e next : Escrow} {answer : Answer}, e.Move answer next → Kept e → Kept next)
    (kept : Kept e) (rates : ∀ entry ∈ run, entry.2.HasRates) : Kept (e.after run) := by
  induction run generalizing e with
  | nil => exact kept
  | cons entry rest ih =>
    have rates' : ∀ entry ∈ rest, entry.2.HasRates := fun entry mem => rates entry (by simp [mem])
    rcases step_cases (sound kept) entry.1 (rates entry (by simp)) with
      ⟨failure, failed⟩ | ⟨answer, next, done, moved⟩
    · simpa [after, failed] using ih kept rates'
    · simpa [after, done] using ih (move moved kept) rates'

theorem terms_after (sound : e.Sound) (rates : ∀ entry ∈ run, entry.2.HasRates) :
    (e.after run).milestones.map Milestone.terms = e.milestones.map Milestone.terms :=
  (after_keeps (fun now => now.Sound ∧
      now.milestones.map Milestone.terms = e.milestones.map Milestone.terms)
    (fun kept => kept.1) (fun move kept => ⟨move.sound kept.1, move.terms_eq.trans kept.2⟩)
    ⟨sound, rfl⟩ rates).2

/-- A completed milestone is never touched again. -/
theorem mem_after_of_completed (sound : e.Sound) (rates : ∀ entry ∈ run, entry.2.HasRates)
    {m : Milestone} (mem : m ∈ e.milestones) (completed : m.isCompleted) :
    m ∈ (e.after run).milestones :=
  (after_keeps (fun now => now.Sound ∧ m ∈ now.milestones) (fun kept => kept.1)
    (fun move kept => ⟨move.sound kept.1, move.mem_of_completed kept.2 completed⟩)
    ⟨sound, mem⟩ rates).2

/-- What releases paid out over a run is what is completed after it and was not before. -/
theorem completedTotal_after (sound : e.Sound) (rates : ∀ entry ∈ run, entry.2.HasRates) :
    (e.after run).completedTotal =
      e.completedTotal + ((releases (e.answers run)).map (·.amount.toRat)).sum := by
  induction run generalizing e with
  | nil => simp [after, answers, releases]
  | cons entry rest ih =>
    have rates' : ∀ entry ∈ rest, entry.2.HasRates := fun entry mem => rates entry (by simp [mem])
    rcases step_cases sound entry.1 (rates entry (by simp)) with
      ⟨failure, failed⟩ | ⟨answer, next, done, moved⟩
    · simpa [after, answers, failed, releases] using ih sound rates'
    · have later := ih (moved.sound sound) rates'
      rw [moved.completedTotal_eq, add_assoc, ← List.sum_append, ← List.map_append] at later
      simpa [after, answers, done, releases, ← List.filterMap_append] using later

/-- The clawbacks of a run are the one whose receipt is recorded, if there is one. -/
theorem clawbacks_answers (sound : e.Sound) (rates : ∀ entry ∈ run, entry.2.HasRates) :
    (e.after run).clawback.toList = e.clawback.toList ++ clawbacks (e.answers run) := by
  induction run generalizing e with
  | nil => simp [after, answers, clawbacks]
  | cons entry rest ih =>
    have rates' : ∀ entry ∈ rest, entry.2.HasRates := fun entry mem => rates entry (by simp [mem])
    rcases step_cases sound entry.1 (rates entry (by simp)) with
      ⟨failure, failed⟩ | ⟨answer, next, done, moved⟩
    · simpa [after, answers, failed, clawbacks] using ih sound rates'
    · have later := ih (moved.sound sound) rates'
      rw [moved.clawback_eq, List.append_assoc] at later
      simpa [after, answers, done, clawbacks, ← List.filterMap_append] using later

/-- No milestone is released twice, and none that was completed before. -/
theorem releases_nodup (sound : e.Sound) (rates : ∀ entry ∈ run, entry.2.HasRates) :
    ((releases (e.answers run)).map (·.milestoneId)).Nodup ∧
      ∀ m ∈ e.milestones, m.isCompleted →
        m.id ∉ (releases (e.answers run)).map (·.milestoneId) := by
  induction run generalizing e with
  | nil => simp [answers, releases]
  | cons entry rest ih =>
    have rates' : ∀ entry ∈ rest, entry.2.HasRates := fun entry mem => rates entry (by simp [mem])
    rcases step_cases sound entry.1 (rates entry (by simp)) with
      ⟨failure, failed⟩ | ⟨answer, next, done, moved⟩
    · simpa [answers, failed, releases] using ih sound rates'
    · obtain ⟨unique, fresh⟩ := ih (moved.sound sound) rates'
      have kept : ∀ m ∈ e.milestones, m.isCompleted →
          m.id ∉ (releases (next.answers rest)).map (·.milestoneId) :=
        fun m mem completed => fresh m (moved.mem_of_completed mem completed) completed
      cases answer with
      | clawedBack receipt =>
        have all : releases (e.answers (entry :: rest)) = releases (next.answers rest) := by
          simp [answers, done, releases]
        rw [all]
        exact ⟨unique, kept⟩
      | released receipt =>
        obtain ⟨⟨m, mem, wasPending, names⟩, m', mem', isDone, names'⟩ := moved.exists_pending rfl
        have all : releases (e.answers (entry :: rest)) =
            receipt :: releases (next.answers rest) := by
          simp [answers, done, releases]
        rw [all, List.map_cons, List.nodup_cons]
        refine ⟨⟨names' ▸ fresh m' mem' isDone, unique⟩, ?_⟩
        intro other known completed
        rw [List.mem_cons, not_or]
        refine ⟨fun same => ?_, kept other known completed⟩
        obtain rfl : other = m :=
          List.inj_on_of_nodup_map sound.ids known mem (same.trans names.symm)
        rw [completed] at wasPending
        cases wasPending

/-- Nothing follows a clawback. -/
theorem after_of_clawback (claimed : e.clawback.isSome) (run : List (Time × Call)) :
    e.after run = e ∧ ∀ answer ∈ e.answers run, ∃ failure, answer = .error failure := by
  induction run with
  | nil => simp [after, answers]
  | cons entry rest ih =>
    obtain ⟨failure, failed⟩ := run_of_clawback claimed entry.1 entry.2
    simpa [after, answers, step_of_error failed] using ih

end Runs

/-- What a run of calls, in any order and each succeeding or failing, leaves of an escrow. -/
structure Conserved (e : Escrow) (run : List (Time × Call)) : Prop where
  total : ∃ total, e.total = .ok total ∧ (e.after run).total = .ok total ∧
    total.toRat = Milestone.exactTotal e.milestones
  terms : (e.after run).milestones.map Milestone.terms = e.milestones.map Milestone.terms
  released : ∃ released, (e.after run).released = .ok released ∧
    released.toRat = (e.after run).completedTotal
  pending : ∃ pending, (e.after run).pending = .ok pending ∧
    pending.toRat = (e.after run).openTotal
  released_add_pending : (e.after run).completedTotal + (e.after run).openTotal =
    Milestone.exactTotal e.milestones
  status : (e.after run).status = .ok (e.after run).stage
  completed_once : ((releases (e.answers run)).map (·.milestoneId)).Nodup
  completed_stays : ∀ rest, (∀ entry ∈ rest, entry.2.HasRates) →
    ∀ m ∈ (e.after run).milestones, m.isCompleted → m ∈ (e.after (run ++ rest)).milestones
  proved : ∀ m ∈ (e.after run).milestones, m.isCompleted →
    m.proofKind.getD "" ≠ "" → m.proof.getD "" ≠ ""
  paid : ((releases (e.answers run)).map (·.amount.toRat)).sum = (e.after run).completedTotal
  one_clawback : clawbacks (e.answers run) = (e.after run).clawback.toList
  no_clawback_of_released : (e.after run).status = .ok .released →
    ∀ now reason part rates, ∃ failure,
      (e.after run).step now (.clawBack reason part rates) = (.error failure, e.after run)
  closed : (e.after run).clawback.isSome → ∀ rest, e.after (run ++ rest) = e.after run ∧
    ∀ answer ∈ (e.after run).answers rest, ∃ failure, answer = .error failure
  divided : ∀ receipt, (e.after run).clawback = some receipt →
    receipt.Divides (e.after run).openTotal ∧
      (e.after run).completedTotal + receipt.amount.toRat + receipt.unrecovered.toRat =
        Milestone.exactTotal e.milestones

/-- Every run of releases and clawbacks, in any order and each succeeding or failing, conserves an
escrow whose exact total is below ten to the 26. -/
theorem conserved_after_build {ids : Ids} {user title : String} {specs : List MilestoneSpec}
    {now : Time} {intentId : Option String} {days : Int} {run : List (Time × Call)}
    (built : (build ids user specs now intentId title days).2 = .ok e)
    (fits : Milestone.exactTotal e.milestones < 10 ^ 26)
    (rates : ∀ entry ∈ run, entry.2.HasRates) : e.Conserved run := by
  have sound := sound_of_build built fits
  obtain ⟨unclaimed, -, -, fresh⟩ := milestones_of_build built
  have settled : e.Settled := by
    refine ⟨sound, fun m mem completed => ?_, fun receipt claimed => ?_⟩
    · rw [(fresh m mem).1] at completed
      cases completed
    · rw [unclaimed] at claimed
      cases claimed
  have settled' : (e.after run).Settled :=
    after_keeps Settled (fun settled => settled.toSound) Move.settled settled rates
  have sound' := settled'.toSound
  have terms := terms_after sound rates
  have parts : (e.after run).completedTotal + (e.after run).openTotal =
      Milestone.exactTotal e.milestones := by
    rw [completedTotal_add_openTotal, exactTotal_of_terms terms]
  have nothing : e.completedTotal = 0 := by
    have none : e.milestones.filter (·.isCompleted) = [] := by
      simpa using fun m mem => (fresh m mem).1
    simp [completedTotal, none]
  constructor
  case total =>
    obtain ⟨total, summed, -, value⟩ := sound.total_eq
    exact ⟨total, summed, (total_of_terms terms).trans summed, value⟩
  case terms => exact terms
  case released =>
    obtain ⟨released, summed, -, value⟩ := sound'.released_eq
    exact ⟨released, summed, value⟩
  case pending =>
    obtain ⟨pending, left, -, value⟩ := sound'.pending_eq
    exact ⟨pending, left, value⟩
  case released_add_pending => exact parts
  case status => exact sound'.status_eq
  case completed_once => exact (releases_nodup sound rates).1
  case completed_stays =>
    intro rest rates' m mem completed
    rw [after_append]
    exact mem_after_of_completed sound' rates' mem completed
  case proved => exact settled'.proved
  case paid => rw [completedTotal_after sound rates, nothing, zero_add]
  case one_clawback => rw [clawbacks_answers sound rates, unclaimed, Option.toList_none,
      List.nil_append]
  case no_clawback_of_released =>
    intro released now reason part rates
    exact ⟨_, step_of_error (clawBack_of_released released now reason part rates)⟩
  case closed =>
    intro claimed rest
    rw [after_append]
    exact after_of_clawback claimed rest
  case divided =>
    intro receipt claimed
    have divides := settled'.divided receipt claimed
    have whole := divides.amount_add_unrecovered
    exact ⟨divides, by linarith⟩

namespace Sample

def today : Time := { micros := 63876420000000000, offset := some 0 }

/-- Three hundred against a bill, and seven hundred. -/
def specs : List MilestoneSpec :=
  [{ description := "Term 1", amount := .whole 300, proofKind := some "bill" },
   { description := "Term 2", amount := .whole 700, proofKind := none }]

def escrow : Escrow :=
  { id := Ids.escrow 1, user := "reader"
    milestones :=
      [{ id := Ids.milestone 1, description := "Term 1", amount := .ofCents 30000
         proofKind := some "bill" },
       { id := Ids.milestone 2, description := "Term 2", amount := .ofCents 70000
         proofKind := none }]
    createdAt := today
    expiresAt := { micros := 63879012000000000, offset := some 0 }
    intentId := none, title := "School" }

/-- A release without its proof, with it and once more, a partial clawback, and a release after
it. -/
def calls : List (Time × Call) :=
  [(today, .release (Ids.milestone 1) none none),
   (today, .release (Ids.milestone 1) (some "BILL-7") none),
   (today, .release (Ids.milestone 1) (some "BILL-7") none),
   (today, .clawBack .misuse (some (.whole 500)) {}),
   (today, .release (Ids.milestone 2) none none)]

theorem build_specs : (build {} "reader" specs today none "School" 30).2 = .ok escrow :=
  eq_ok_of_toOption (by decide +kernel)

end Sample

theorem conserved_after_partial_clawback :
    Sample.escrow.Conserved Sample.calls ∧
      (Sample.escrow.answers Sample.calls).map (·.isOk) = [false, true, false, true, false] ∧
      (Sample.escrow.after Sample.calls).milestones.map (·.status) = [.completed, .pending] ∧
      (Sample.escrow.after Sample.calls).clawback.map
          (fun r => (r.amount, r.penalty, r.netReturned, r.savings, r.unrecovered)) =
        some (.ofCents 50000, .ofCents 1000, .ofCents 49000, .ofCents 14700, .ofCents 20000) := by
  have rates : ∀ entry ∈ Sample.calls, entry.2.HasRates := by
    simp only [Sample.calls, List.forall_mem_cons, Call.HasRates, true_and]
    norm_num [Decimal.IsRate, Decimal.toRat, Decimal.signed, Decimal.isFinite]
  have fits : Milestone.exactTotal Sample.escrow.milestones < 10 ^ 26 := by
    norm_num [Sample.escrow, Decimal.ofCents, Decimal.toRat, Decimal.signed]
  exact ⟨conserved_after_build Sample.build_specs fits rates, by decide +kernel, by decide +kernel,
    by decide +kernel⟩

end Escrow

end Earmark
