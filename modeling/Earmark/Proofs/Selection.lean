import Earmark.Proofs.Runs

/-!
The intent of a payment. It is always one of the payer's, and the one that is named if any is: a
strategy chooses among the intents it is given.
-/

namespace Earmark

private theorem mem_of_filterAuxM {α : Type} {f : α → Except Failure Bool} {xs acc ys : List α}
    (done : xs.filterAuxM f acc = .ok ys) {y : α} (mem : y ∈ ys) : y ∈ xs ∨ y ∈ acc := by
  induction xs generalizing acc with
  | nil =>
    cases done
    exact .inr mem
  | cons x rest ih =>
    obtain ⟨chosen, -, done⟩ := bind_ok_iff.mp done
    rcases ih done with known | known
    · exact .inl (by simp [known])
    · cases chosen with
      | true =>
        rcases List.mem_cons.mp known with rfl | known
        · exact .inl (by simp)
        · exact .inr known
      | false => exact .inr known

theorem mem_of_filterM {α : Type} {f : α → Except Failure Bool} {xs ys : List α}
    (done : xs.filterM f = .ok ys) {y : α} (mem : y ∈ ys) : y ∈ xs := by
  obtain ⟨reversed, filtered, done⟩ := bind_ok_iff.mp done
  cases done
  rcases mem_of_filterAuxM filtered (List.mem_reverse.mp mem) with known | known
  · exact known
  · simp at known

private theorem mem_of_foldlM {α : Type} {f : α → α → Except Failure α}
    (picks : ∀ {a b c}, f a b = .ok c → c = a ∨ c = b) {xs : List α} {first last : α}
    (done : xs.foldlM f first = .ok last) : last = first ∨ last ∈ xs := by
  induction xs generalizing first with
  | nil =>
    cases done
    exact .inl rfl
  | cons x rest ih =>
    obtain ⟨next, picked, done⟩ := bind_ok_iff.mp done
    rcases ih done with rfl | known
    · rcases picks picked with rfl | rfl
      · exact .inl rfl
      · exact .inr (by simp)
    · exact .inr (by simp [known])

theorem Strategy.mem_of_least {strategy : Strategy} {intents : List Intent} {i : Intent}
    (done : strategy.least intents = .ok (some i)) : i ∈ intents := by
  cases intents with
  | nil => cases done
  | cons first rest =>
    obtain ⟨last, folded, chosen⟩ := map_ok_iff.mp done
    obtain rfl : last = i := by simpa using chosen
    have picks {best next picked : Intent}
        (pick : (do return if ← strategy.before next best then next else best) =
          (.ok picked : Except Failure Intent)) : picked = best ∨ picked = next := by
      obtain ⟨less, -, pick⟩ := bind_ok_iff.mp pick
      cases less with
      | true =>
        cases pick
        exact .inr rfl
      | false =>
        cases pick
        exact .inl rfl
    rcases mem_of_foldlM picks folded with rfl | known
    · simp
    · simp [known]

theorem Strategy.mem_of_choose {strategy : Strategy} {intents : List Intent} {amount : Numeral}
    {now : Time} {i : Intent} (done : strategy.choose intents amount now = .ok (some i)) :
    i ∈ intents := by
  simp only [choose, bind_ok_iff] at done
  obtain ⟨d, -, able, filtered, done⟩ := done
  exact mem_of_filterM filtered (mem_of_least done)

theorem perm_of_sortByTime {α : Type} {time : α → Time} {xs ys : List α}
    (sorted : sortByTime time xs = .ok ys) : ys.Perm xs := by
  unfold sortByTime at sorted
  split at sorted
  · cases sorted
    exact List.mergeSort_perm _ _
  · cases sorted

theorem mem_of_sortByTime {α : Type} {time : α → Time} {xs ys : List α}
    (sorted : sortByTime time xs = .ok ys) {y : α} (mem : y ∈ ys) : y ∈ xs :=
  (perm_of_sortByTime sorted).mem_iff.mp mem

/-- A payment goes to an intent of the payer's, and to the one that is named if any is. -/
theorem Payment.exists_of_target {config : Config} {intents : List Intent} {p : Payment}
    {id : String} (target : p.target config intents = .ok (some id)) :
    ∃ i ∈ intents, i.id = id ∧ i.user = p.user ∧ ∀ named ∈ p.named, named = id := by
  unfold Payment.target at target
  cases named : p.named with
  | some given =>
    rw [named] at target
    cases found : Intent.findIn intents given with
    | none => simp [found] at target
    | some i =>
      by_cases own : i.user = p.user
      · simp only [found, own, ↓reduceIte, Except.ok.injEq, Option.some.injEq] at target
        refine ⟨i, Intent.mem_of_findIn found, target, own, ?_⟩
        intro other same
        obtain rfl : given = other := by simpa using same
        exact (Intent.id_of_findIn found).symm.trans target
      · simp [found, own] at target
  | none =>
    rw [named] at target
    cases emergency : p.context.emergency with
    | true => simp [emergency] at target
    | false =>
      simp only [emergency, Bool.false_eq_true, ↓reduceIte, bind_ok_iff] at target
      obtain ⟨own, sorted, chosen, choice, target⟩ := target
      cases chosen with
      | none => simp at target
      | some i =>
        have mem := mem_of_sortByTime sorted (Strategy.mem_of_choose choice)
        obtain ⟨known, owned⟩ := List.mem_filter.mp mem
        exact ⟨i, known, by simpa using target, by simpa using owned, by simp⟩

/-- A payment that names an intent does not go to none. -/
theorem Payment.named_of_target_none {config : Config} {intents : List Intent} {p : Payment}
    (target : p.target config intents = .ok none) : p.named = none := by
  cases named : p.named with
  | none => rfl
  | some given =>
    simp only [Payment.target, named] at target
    cases found : Intent.findIn intents given with
    | none => simp [found] at target
    | some i =>
      rw [found] at target
      by_cases own : i.user = p.user
      · simp [own] at target
      · simp [own] at target

end Earmark
