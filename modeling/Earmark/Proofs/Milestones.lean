import Earmark.Escrow.Basic
import Earmark.Proofs.Bounds

/-!
What the milestones of an escrow come to. Building gives every milestone a number of its own and a
positive amount (`sound_of_build`). While the exact total is below ten to the 26, the totals that an
escrow reports are the exact ones (`Sound.total_eq`, `Sound.released_eq`, `Sound.pending_eq`), and
its status says which milestones are completed (`Sound.status_eq`).
-/

namespace Earmark

/-! ### Ids -/

/-- A padded number is read back from its digits. -/
theorem Time.ofDigitChars_padded (width n : Nat) :
    Nat.ofDigitChars 10 (padded width n).toList 0 = n := by
  simp [padded, Nat.ofDigitChars_append, Nat.ofDigitChars_replicate_zero, Nat.repr,
    Nat.ofDigitChars_toDigits]

theorem Ids.text_injective (mark : String) : Function.Injective (text mark) := by
  intro m n same
  have digits : Time.padded 12 m = Time.padded 12 n := by
    simpa only [text, String.append_right_inj] using same
  rw [← Time.ofDigitChars_padded 12 m, digits, Time.ofDigitChars_padded]

/-- Where ids were given up to a number, the next one is new. -/
theorem Ids.next_ne {mark id : String} {last : Nat} (given : ∃ n ≤ last, id = text mark n) :
    id ≠ text mark (last + 1) := by
  rintro same
  obtain ⟨n, le, named⟩ := given
  have equal := text_injective mark (named.symm.trans same)
  omega

namespace Milestone

variable {last after : Nat} {specs : List MilestoneSpec} {built : List Milestone}

/-- What is agreed of a milestone when its escrow is made. -/
def terms (m : Milestone) : String × String × Decimal × Option String :=
  (m.id, m.description, m.amount, m.proofKind)

/-- The exact total of some milestones. -/
def exactTotal (milestones : List Milestone) : ℚ := (milestones.map (·.amount.toRat)).sum

@[simp] theorem exactTotal_nil : exactTotal [] = 0 := rfl

@[simp] theorem exactTotal_cons (m : Milestone) (rest : List Milestone) :
    exactTotal (m :: rest) = m.amount.toRat + exactTotal rest := by
  simp [exactTotal]

@[simp] theorem exactTotal_append (first rest : List Milestone) :
    exactTotal (first ++ rest) = exactTotal first + exactTotal rest := by
  simp [exactTotal]

theorem toAmount_of_checked {spec : MilestoneSpec} {amount : Decimal}
    (checked : spec.checkedAmount = .ok amount) : spec.amount.toAmount = .ok amount := by
  simp only [MilestoneSpec.checkedAmount, bind_ok_iff] at checked
  obtain ⟨d, brought, empty, -, accepted⟩ := checked
  cases empty with
  | true => cases accepted
  | false => exact brought.trans accepted

theorem checkedAmount_pos {spec : MilestoneSpec} {amount : Decimal}
    (checked : spec.checkedAmount = .ok amount) : amount.IsAmount ∧ 0 < amount.cents := by
  simp only [MilestoneSpec.checkedAmount, bind_ok_iff] at checked
  obtain ⟨d, brought, empty, compared, checked⟩ := checked
  have whole := isAmount_of_toAmount brought
  rw [whole.le?_zero, Failure.ofDecimal_ok, Except.ok.injEq] at compared
  cases empty with
  | true => cases checked
  | false =>
    cases checked
    exact ⟨whole, by simpa using compared⟩

/-- What is built of a specification and those behind it. -/
theorem build_cons_ok {spec : MilestoneSpec}
    (done : build last (spec :: specs) = (after, .ok built)) :
    ∃ amount rest, spec.checkedAmount = .ok amount ∧ build (last + 1) specs = (after, .ok rest) ∧
      built = { id := Ids.milestone (last + 1), description := spec.description, amount
                proofKind := spec.proofKind } :: rest := by
  simp only [build] at done
  split at done
  · cases done
  · rename_i amount checked
    rcases later : build (last + 1) specs with ⟨next, _ | rest⟩
    · simp [later] at done
    · obtain ⟨rfl, rfl⟩ : next = after ∧ _ = built := by simpa [later] using done
      exact ⟨amount, rest, checked, rfl, rfl⟩

/-- Built milestones are numbered one after the other, are pending and have positive amounts. -/
theorem build_ok (done : build last specs = (after, .ok built)) :
    built.length = specs.length ∧
      built.map (·.id) = (List.range' (last + 1) built.length).map Ids.milestone ∧
      ∀ m ∈ built, m.isCompleted = false ∧ m.amount.IsAmount ∧ 0 < m.amount.cents := by
  induction specs generalizing last after built with
  | nil =>
    obtain ⟨-, rfl⟩ : last = after ∧ [] = built := by simpa [build] using done
    simp
  | cons spec rest ih =>
    obtain ⟨amount, milestones, checked, later, rfl⟩ := build_cons_ok done
    obtain ⟨count, ids, fresh⟩ := ih later
    refine ⟨by simp [count], by simp [ids, List.range'_succ], ?_⟩
    intro m mem
    rcases List.mem_cons.mp mem with rfl | mem
    · exact ⟨rfl, checkedAmount_pos checked⟩
    · exact fresh m mem

/-- Each built milestone is the one that a specification asks for, and nothing has become of it. -/
theorem exists_spec_of_build (done : build last specs = (after, .ok built)) :
    ∀ m ∈ built, ∃ spec ∈ specs, ∃ number amount, spec.checkedAmount = .ok amount ∧
      m = { id := Ids.milestone number, description := spec.description, amount
            proofKind := spec.proofKind } := by
  induction specs generalizing last after built with
  | nil =>
    cases done
    simp
  | cons spec rest ih =>
    obtain ⟨amount, milestones, checked, later, rfl⟩ := build_cons_ok done
    intro m mem
    rcases List.mem_cons.mp mem with rfl | mem
    · exact ⟨spec, by simp, last + 1, amount, checked, rfl⟩
    · obtain ⟨asked, known, made⟩ := ih later m mem
      exact ⟨asked, by simp [known], made⟩

theorem completed_add_open (milestones : List Milestone) :
    exactTotal (milestones.filter (·.isCompleted)) +
      exactTotal (milestones.filter (!·.isCompleted)) = exactTotal milestones := by
  induction milestones with
  | nil => simp
  | cons m rest ih =>
    cases done : m.isCompleted
    · simp only [List.filter_cons, done, Bool.false_eq_true, ↓reduceIte, Bool.not_false,
        exactTotal_cons]
      linarith
    · simp only [List.filter_cons, done, Bool.false_eq_true, ↓reduceIte, Bool.not_true,
        exactTotal_cons]
      linarith

section Totals

variable {milestones : List Milestone}

theorem exactTotal_nonneg (amounts : ∀ m ∈ milestones, m.amount.IsAmount ∧ 0 < m.amount.cents) :
    0 ≤ exactTotal milestones := by
  refine List.sum_nonneg fun x mem => ?_
  obtain ⟨m, known, rfl⟩ := List.mem_map.mp mem
  obtain ⟨whole, positive⟩ := amounts m known
  exact (whole.toRat_pos positive).le

theorem exactTotal_pos_iff (amounts : ∀ m ∈ milestones, m.amount.IsAmount ∧ 0 < m.amount.cents) :
    0 < exactTotal milestones ↔ milestones ≠ [] := by
  cases milestones with
  | nil => simp
  | cons m rest =>
    obtain ⟨whole, positive⟩ := amounts m (by simp)
    have first := whole.toRat_pos positive
    have others : 0 ≤ exactTotal rest :=
      exactTotal_nonneg fun other mem => amounts other (by simp [mem])
    simp only [exactTotal_cons, ne_eq, reduceCtorEq, not_false_eq_true, iff_true]
    linarith

/-- The amounts of milestones are summed exactly as long as their total is an amount. -/
theorem exists_sum (amounts : ∀ m ∈ milestones, m.amount.IsAmount ∧ 0 < m.amount.cents)
    (fits : exactTotal milestones < 10 ^ 26) :
    ∃ total, Decimal.sum (milestones.map (·.amount)) = .ok total ∧ total.IsAmount ∧
      total.toRat = exactTotal milestones := by
  have parts : ∀ d ∈ milestones.map (·.amount), d.IsAmount ∧ 0 ≤ d.cents := by
    intro d mem
    obtain ⟨m, known, rfl⟩ := List.mem_map.mp mem
    exact ⟨(amounts m known).1, (amounts m known).2.le⟩
  have exact : exactTotal milestones =
      (((milestones.map (·.amount)).map Decimal.cents).sum : ℤ) / 100 := by
    rw [← Decimal.sum_toRat fun d mem => (parts d mem).1, List.map_map]
    rfl
  obtain ⟨total, summed, whole, value⟩ := Decimal.exists_sum parts (by
    have scaled : ((((milestones.map (·.amount)).map Decimal.cents).sum : ℤ) : ℚ) < 10 ^ 28 := by
      linarith
    exact_mod_cast scaled)
  exact ⟨total, summed, whole, by rw [whole.toRat_eq, value, exact]⟩

end Totals

end Milestone

namespace Escrow

/-- The exact total of the completed milestones. -/
def completedTotal (e : Escrow) : ℚ := Milestone.exactTotal (e.milestones.filter (·.isCompleted))

/-- The exact total of the milestones that are not completed. -/
def openTotal (e : Escrow) : ℚ := Milestone.exactTotal (e.milestones.filter (!·.isCompleted))

/-- The status that the receipt and the completed milestones of an escrow call for. -/
def stage (e : Escrow) : EscrowStatus :=
  if e.clawback.isSome then .clawback
  else if e.milestones.all (·.isCompleted) then .released
  else if e.milestones.any (·.isCompleted) then .partiallyReleased
  else .locked

/-- An escrow whose milestones can be told apart, have positive amounts and are few enough for their
total to be an amount. -/
structure Sound (e : Escrow) : Prop where
  some_milestone : e.milestones ≠ []
  ids : (e.milestones.map (·.id)).Nodup
  amounts : ∀ m ∈ e.milestones, m.amount.IsAmount ∧ 0 < m.amount.cents
  fits : Milestone.exactTotal e.milestones < 10 ^ 26

variable {e : Escrow}

theorem completedTotal_add_openTotal (e : Escrow) :
    e.completedTotal + e.openTotal = Milestone.exactTotal e.milestones :=
  Milestone.completed_add_open e.milestones

namespace Sound

theorem filter_amounts (sound : e.Sound) (p : Milestone → Bool) :
    ∀ m ∈ e.milestones.filter p, m.amount.IsAmount ∧ 0 < m.amount.cents :=
  fun m mem => sound.amounts m (List.mem_of_mem_filter mem)

theorem completedTotal_nonneg (sound : e.Sound) : 0 ≤ e.completedTotal :=
  Milestone.exactTotal_nonneg (sound.filter_amounts _)

theorem openTotal_nonneg (sound : e.Sound) : 0 ≤ e.openTotal :=
  Milestone.exactTotal_nonneg (sound.filter_amounts _)

theorem total_eq (sound : e.Sound) :
    ∃ total, e.total = .ok total ∧ total.IsAmount ∧
      total.toRat = Milestone.exactTotal e.milestones := by
  obtain ⟨total, summed, whole, value⟩ := Milestone.exists_sum sound.amounts sound.fits
  exact ⟨total, by simp only [Escrow.total, summed, Failure.ofDecimal_ok], whole, value⟩

theorem released_eq (sound : e.Sound) :
    ∃ released, e.released = .ok released ∧ released.IsAmount ∧
      released.toRat = e.completedTotal := by
  have parts := e.completedTotal_add_openTotal
  have rest := sound.openTotal_nonneg
  have fits := sound.fits
  obtain ⟨released, summed, whole, value⟩ :=
    Milestone.exists_sum (sound.filter_amounts (·.isCompleted))
      (show e.completedTotal < 10 ^ 26 by linarith)
  exact ⟨released, by simp only [Escrow.released, summed, Failure.ofDecimal_ok], whole, value⟩

theorem pending_eq (sound : e.Sound) :
    ∃ pending, e.pending = .ok pending ∧ pending.IsAmount ∧ pending.toRat = e.openTotal := by
  have parts := e.completedTotal_add_openTotal
  have rest := sound.openTotal_nonneg
  obtain ⟨total, totalled, wholeTotal, valueTotal⟩ := sound.total_eq
  obtain ⟨released, summed, whole, value⟩ := sound.released_eq
  obtain ⟨pending, subtracted, wholePending, left⟩ := wholeTotal.exists_sub_of_le whole
    (by rw [value]; exact sound.completedTotal_nonneg) (by rw [value, valueTotal]; linarith)
  refine ⟨pending, ?_, wholePending, by rw [left, value, valueTotal]; linarith⟩
  simp only [Escrow.pending, totalled, summed, ok_bind, subtracted, Failure.ofDecimal_ok]

theorem openTotal_pos_iff (sound : e.Sound) :
    0 < e.openTotal ↔ e.milestones.all (·.isCompleted) = false := by
  rw [openTotal, Milestone.exactTotal_pos_iff (sound.filter_amounts _)]
  simp

theorem completedTotal_pos_iff (sound : e.Sound) :
    0 < e.completedTotal ↔ e.milestones.any (·.isCompleted) = true := by
  rw [completedTotal, Milestone.exactTotal_pos_iff (sound.filter_amounts _)]
  simp

/-- The status is read off the receipt and the completed milestones. -/
theorem status_eq (sound : e.Sound) : e.status = .ok e.stage := by
  obtain ⟨released, summed, wholeReleased, valueReleased⟩ := sound.released_eq
  obtain ⟨pending, left, wholePending, valuePending⟩ := sound.pending_eq
  have done : pending.cents ≤ 0 ↔ e.milestones.all (·.isCompleted) = true := by
    rw [← not_lt, wholePending.cents_pos_iff, valuePending, sound.openTotal_pos_iff,
      Bool.not_eq_false]
  have begun : 0 < released.cents ↔ e.milestones.any (·.isCompleted) = true := by
    rw [wholeReleased.cents_pos_iff, valueReleased, sound.completedTotal_pos_iff]
  simp only [status, stage]
  cases clawedBack : e.clawback.isSome
  · simp only [Bool.false_eq_true, ↓reduceIte, left, ok_bind, wholePending.le?_zero,
      Failure.ofDecimal_ok, decide_eq_true_eq, summed, wholeReleased.gt?_zero, done, begun]
    split <;> rfl
  · simp only [↓reduceIte]

end Sound

section Build

variable {ids : Ids} {user title : String} {specs : List MilestoneSpec} {now : Time}
  {intentId : Option String} {days : Int}

/-- What an escrow is built of. -/
theorem build_ok (built : (build ids user specs now intentId title days).2 = .ok e) :
    specs ≠ [] ∧ ∃ last milestones expiresAt,
      Milestone.build ids.milestones specs = (last, .ok milestones) ∧
      now.addDays? days = some expiresAt ∧
      e = { id := Ids.escrow (ids.escrows + 1), user, milestones, createdAt := now, expiresAt
            intentId, title } := by
  simp only [build] at built
  split at built
  · cases built
  · rename_i asked
    rcases made : Milestone.build ids.milestones specs with ⟨last, failure | milestones⟩
    · simp [made] at built
    · simp only [made, bind_ok_iff, Failure.require_ok_iff, Except.ok.injEq] at built
      obtain ⟨expiresAt, dated, rfl⟩ := built
      exact ⟨by simpa using asked, last, milestones, expiresAt, rfl, dated, rfl⟩

/-- A built escrow has milestones, which can be told apart, are pending and have positive
amounts. -/
theorem milestones_of_build (built : (build ids user specs now intentId title days).2 = .ok e) :
    e.clawback = none ∧ e.milestones ≠ [] ∧ (e.milestones.map (·.id)).Nodup ∧
      ∀ m ∈ e.milestones, m.isCompleted = false ∧ m.amount.IsAmount ∧ 0 < m.amount.cents := by
  obtain ⟨asked, last, milestones, expiresAt, made, -, rfl⟩ := build_ok built
  obtain ⟨count, numbers, fresh⟩ := Milestone.build_ok made
  refine ⟨rfl, ?_, ?_, fresh⟩
  · rintro rfl
    exact asked (List.length_eq_zero_iff.mp count.symm)
  · rw [numbers]
    exact (List.nodup_range').map (Ids.text_injective "MST")

/-- An escrow as it is built is sound if its exact total is an amount. -/
theorem sound_of_build (built : (build ids user specs now intentId title days).2 = .ok e)
    (fits : Milestone.exactTotal e.milestones < 10 ^ 26) : e.Sound := by
  obtain ⟨-, some_milestone, unique, fresh⟩ := milestones_of_build built
  exact ⟨some_milestone, unique, fun m mem => (fresh m mem).2, fits⟩

/-- A built escrow has a total, whatever its size. -/
theorem exists_total_of_build
    (built : (build ids user specs now intentId title days).2 = .ok e) :
    ∃ total, e.total = .ok total := by
  obtain ⟨-, -, -, fresh⟩ := milestones_of_build built
  have amounts : ∀ d ∈ e.milestones.map (·.amount), d.Below 26 := by
    intro d mem
    obtain ⟨m, known, rfl⟩ := List.mem_map.mp mem
    exact (fresh m known).2.1.below
  obtain ⟨total, summed, -⟩ := Decimal.exists_sum_of_below amounts (by decide) (by decide)
  exact ⟨total, by simp only [Escrow.total, summed, Failure.ofDecimal_ok]⟩

/-- The milestones of a built escrow are those that its specifications ask for. -/
theorem exists_spec_of_build (built : (build ids user specs now intentId title days).2 = .ok e) :
    ∀ m ∈ e.milestones, m.completedAt = none ∧ ∃ spec ∈ specs,
      spec.amount.toAmount = .ok m.amount := by
  obtain ⟨-, last, milestones, expiresAt, made, -, rfl⟩ := build_ok built
  intro m mem
  obtain ⟨spec, known, number, amount, checked, rfl⟩ := Milestone.exists_spec_of_build made m mem
  exact ⟨rfl, spec, known, Milestone.toAmount_of_checked checked⟩

end Build

end Escrow

end Earmark
