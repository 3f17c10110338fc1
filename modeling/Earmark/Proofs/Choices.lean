import Mathlib.Data.List.MinMax
import Mathlib.Data.String.Basic
import Earmark.Proofs.Eligibility

/-!
The intent that a strategy chooses. Among the eligible intents it is the least by the instants that
the strategy looks at, and by the id where these are the same. The ids make it the only one, so
neither the order of the list nor the intents that are passed over have a say in it
(`Strategy.choose_least`).
-/

namespace Earmark

/-! ### The order of a strategy -/

namespace Strategy

/-- The instants that a strategy looks at, one after the other. -/
def instants (strategy : Strategy) (i : Intent) : List ℤ :=
  match strategy with
  | .soonestExpiring => [i.expiresAt.instant, i.createdAt.instant]
  | .firstCreated => [i.createdAt.instant]

/-- What a strategy orders by: the instants it looks at, then the id. -/
def rank (strategy : Strategy) (i : Intent) : List ℤ ×ₗ String :=
  toLex (strategy.instants i, i.id)

end Strategy

namespace Intent

/-- Both ends of the intent's window have an offset. -/
def Aware (i : Intent) : Prop := i.createdAt.offset.isSome ∧ i.expiresAt.offset.isSome

/-- It can be told whether the intent can pay: if it is active, its expiry compares with the time,
and if it has not expired, what is left of it is a number. -/
structure Told (time : Time) (i : Intent) : Prop where
  compares : i.status = .active → time.offset.isSome = i.expiresAt.offset.isSome
  counted : i.status = .active → time.instant ≤ i.expiresAt.instant →
    ∃ remaining, i.remaining = .ok remaining ∧ remaining.isNaN = false

variable {i : Intent} {d : Decimal} {time : Time}

theorem exists_le?_iff (whole : d.IsAmount) {remaining : Decimal} :
    (∃ covered, d.le? remaining = .ok covered) ↔ remaining.isNaN = false := by
  constructor
  · rintro ⟨covered, compared⟩
    obtain ⟨order, compared, -⟩ := map_ok_iff.mp compared
    exact (Decimal.exists_compare?_iff.mp ⟨order, compared⟩).2
  · intro number
    obtain ⟨order, compared⟩ := Decimal.exists_compare?_iff.mpr ⟨whole.isNaN_eq, number⟩
    exact ⟨_, map_ok_iff.mpr ⟨order, compared, rfl⟩⟩

/-- Whether an intent can pay is answered exactly where it can be told. -/
theorem exists_canPay_iff (whole : d.IsAmount) :
    (∃ able, i.canPay d time = .ok able) ↔ i.Told time := by
  by_cases active : i.status = .active
  · simp only [canPay_of_active active]
    constructor
    · rintro ⟨able, told⟩
      obtain ⟨expired, compared, told⟩ := bind_ok_iff.mp told
      cases expired with
      | true =>
        obtain ⟨alike, past⟩ := Time.after_eq_true_iff.mp compared
        exact ⟨fun _ => alike, fun _ unexpired => absurd unexpired (not_le.mpr past)⟩
      | false =>
        obtain ⟨remaining, left, told⟩ := bind_ok_iff.mp told
        refine ⟨fun _ => (Time.after_eq_false_iff.mp compared).1, fun _ _ => ⟨remaining, left, ?_⟩⟩
        exact (exists_le?_iff whole).mp ⟨able, Failure.ofDecimal_ok_iff.mp told⟩
    · rintro ⟨compares, counted⟩
      by_cases unexpired : time.instant ≤ i.expiresAt.instant
      · obtain ⟨remaining, left, number⟩ := counted active unexpired
        obtain ⟨covered, compared⟩ := (exists_le?_iff whole).mpr number
        have within : i.isExpired time = .ok false :=
          Time.after_eq_false_iff.mpr ⟨compares active, unexpired⟩
        exact ⟨covered, by simp [within, left, compared]⟩
      · have past : i.isExpired time = .ok true :=
          Time.after_eq_true_iff.mpr ⟨compares active, not_le.mp unexpired⟩
        exact ⟨false, by simp [past]⟩
  · refine iff_of_true ⟨false, ?_⟩ ⟨fun is => absurd is active, fun is => absurd is active⟩
    simp [canPay, isActive, active]

/-- Of the intents that can be told, the eligible ones are those that are found able to pay. -/
theorem Told.canPay_iff (told : i.Told time) : i.canPay d time = .ok true ↔ i.Eligible d time := by
  rw [canPay_eq_true_iff]
  refine and_iff_left_of_imp fun eligible => ?_
  exact Time.after_eq_false_iff.mpr ⟨told.compares eligible.active, eligible.unexpired⟩

end Intent

namespace Strategy

variable {strategy : Strategy} {intents other : List Intent} {amount : Numeral} {d : Decimal}
  {time : Time} {i j : Intent}

theorem thenBefore_eq {a b : Time} (aware : a.offset.isSome) (aware' : b.offset.isSome)
    (next : Bool) : a.thenBefore b (.ok next) =
      .ok (decide (a.instant < b.instant ∨ a.instant = b.instant ∧ next = true)) := by
  by_cases same : a.instant = b.instant
  · have alike : a.same b = true := by simp [Time.same, Time.compare?, aware, aware', same]
    simp [Time.thenBefore, alike, same]
  · have apart : a.same b = false := by
      simp [Time.same, Time.compare?, aware, aware', same]
    rw [Time.thenBefore, apart, if_neg Bool.false_ne_true, Time.after_eq aware' aware]
    by_cases less : a.instant < b.instant
    · simp [less, compare_gt_iff_gt]
    · simp [less, same, compare_gt_iff_gt]

/-- Between intents whose times have offsets the order of a strategy is that of their ranks. -/
theorem before_eq (aware : i.Aware) (aware' : j.Aware) :
    strategy.before i j = .ok (decide (strategy.rank i < strategy.rank j)) := by
  have older : i.createdAt.thenBefore j.createdAt (.ok (decide (i.id < j.id))) =
      .ok (decide (i.createdAt.instant < j.createdAt.instant ∨
        i.createdAt.instant = j.createdAt.instant ∧ i.id < j.id)) := by
    rw [thenBefore_eq aware.1 aware'.1]
    simp only [decide_eq_true_eq]
  cases strategy with
  | soonestExpiring =>
    simp only [before, older]
    rw [thenBefore_eq aware.2 aware'.2]
    simp [rank, instants, Prod.Lex.toLex_lt_toLex, List.cons_lt_cons_iff, and_or_left, or_assoc,
      and_assoc]
  | firstCreated =>
    rw [before, older]
    simp [rank, instants, Prod.Lex.toLex_lt_toLex, List.cons_lt_cons_iff]

/-- What is kept of intents whose times have offsets is the first of least rank. -/
theorem least_eq_argmin (aware : ∀ i ∈ intents, i.Aware) :
    strategy.least intents = .ok (intents.argmin strategy.rank) := by
  -- from any intent on, both keep the better of two
  have folded {best : Intent} {rest : List Intent} (good : best.Aware)
      (later : ∀ i ∈ rest, i.Aware) :
      some <$> rest.foldlM (fun best i => return if ← strategy.before i best then i else best)
        best = (.ok (rest.foldl (List.argAux fun i best => strategy.rank i < strategy.rank best)
          (some best)) : Except Failure (Option Intent)) := by
    induction rest generalizing best with
    | nil => rfl
    | cons next rest ih =>
      obtain ⟨nextAware, later⟩ := List.forall_mem_cons.mp later
      rw [List.foldlM_cons, before_eq nextAware good]
      by_cases less : strategy.rank next < strategy.rank best
      · simpa [List.argAux, less] using ih nextAware later
      · simpa [List.argAux, less] using ih good later
  cases intents with
  | nil => rfl
  | cons first rest =>
    obtain ⟨firstAware, later⟩ := List.forall_mem_cons.mp aware
    exact folded firstAware later

/-- Which of the intents were found able to pay. -/
def eligible (d : Decimal) (time : Time) (intents : List Intent) : List Intent :=
  intents.filter fun i => (i.canPay d time).toOption == some true

theorem mem_eligible (told : ∀ i ∈ intents, i.Told time) :
    i ∈ eligible d time intents ↔ i ∈ intents ∧ i.Eligible d time := by
  rw [eligible, List.mem_filter, beq_iff_eq, toOption_eq_some_iff]
  exact and_congr_right fun mem => (told i mem).canPay_iff

/-- A choice is made exactly where it can be told of each intent whether it can pay, and it is the
least of those that can. -/
theorem choose_eq_ok_iff (brought : amount.toAmount = .ok d)
    (aware : ∀ i ∈ intents, i.Eligible d time → i.Aware) {chosen : Option Intent} :
    strategy.choose intents amount time = .ok chosen ↔
      (∀ i ∈ intents, i.Told time) ∧ chosen = (eligible d time intents).argmin strategy.rank := by
  have whole := isAmount_of_toAmount brought
  have answered : (∀ i ∈ intents, ∃ able, i.canPay d time = .ok able) ↔
      ∀ i ∈ intents, i.Told time := by
    simp only [Intent.exists_canPay_iff whole]
  have least (told : ∀ i ∈ intents, i.Told time) : strategy.least (eligible d time intents) =
      .ok ((eligible d time intents).argmin strategy.rank) := by
    refine least_eq_argmin fun i kept => ?_
    obtain ⟨mem, able⟩ := (mem_eligible told).mp kept
    exact aware i mem able
  simp only [choose, brought, ok_bind]
  constructor
  · intro chose
    obtain ⟨able, filtered, leastAble⟩ := bind_ok_iff.mp chose
    obtain ⟨asked, rfl⟩ := filterM_ok_iff.mp filtered
    have told := answered.mp asked
    exact ⟨told, Except.ok.inj (leastAble.symm.trans (least told))⟩
  · rintro ⟨told, rfl⟩
    exact bind_ok_iff.mpr ⟨_, filterM_ok_iff.mpr ⟨answered.mpr told, rfl⟩, least told⟩

/-- Intents of one rank have one id. -/
theorem eq_of_rank (distinct : (intents.map Intent.id).Nodup) (mem : i ∈ intents)
    (mem' : j ∈ intents) (same : strategy.rank i = strategy.rank j) : i = j := by
  have ids : i.id = j.id := congrArg (fun rank => (ofLex rank).2) same
  exact List.inj_on_of_nodup_map distinct mem mem' ids

/-- An intent is chosen exactly where it comes before all others that are eligible. -/
theorem argmin_eligible_iff (distinct : (intents.map Intent.id).Nodup)
    (told : ∀ i ∈ intents, i.Told time) :
    (eligible d time intents).argmin strategy.rank = some i ↔ i ∈ intents ∧ i.Eligible d time ∧
      ∀ j ∈ intents, j.Eligible d time → j ≠ i → strategy.rank i < strategy.rank j := by
  constructor
  · intro chose
    obtain ⟨mem, able⟩ := (mem_eligible told).mp (List.argmin_mem chose)
    refine ⟨mem, able, fun j mem' able' other => ?_⟩
    refine lt_of_le_of_ne (List.le_of_mem_argmin ((mem_eligible told).mpr ⟨mem', able'⟩) chose) ?_
    intro same
    exact other (eq_of_rank distinct mem' mem same.symm)
  · rintro ⟨mem, able, before⟩
    cases chose : (eligible d time intents).argmin strategy.rank with
    | none =>
      have kept := (mem_eligible told).mpr ⟨mem, able⟩
      rw [List.argmin_eq_none.mp chose] at kept
      cases kept
    | some j =>
      obtain ⟨mem', able'⟩ := (mem_eligible told).mp (List.argmin_mem chose)
      by_contra other
      have less := before j mem' able' fun same => other (congrArg some same)
      have least := List.le_of_mem_argmin ((mem_eligible told).mpr ⟨mem, able⟩) chose
      exact absurd less (not_lt.mpr least)

theorem argmin_eligible_none_iff (told : ∀ i ∈ intents, i.Told time) :
    (eligible d time intents).argmin strategy.rank = none ↔
      ∀ i ∈ intents, ¬i.Eligible d time := by
  rw [List.argmin_eq_none, List.eq_nil_iff_forall_not_mem]
  refine forall_congr' fun i => ?_
  rw [mem_eligible told, not_and]

/-- Lists with the same eligible intents, but for some that are not the choice, have one choice. -/
theorem argmin_eligible_eq (distinct : (intents.map Intent.id).Nodup)
    (told : ∀ i ∈ intents, i.Told time) (told' : ∀ i ∈ other, i.Told time)
    (known : ∀ i ∈ other, i.Eligible d time → i ∈ intents)
    (kept : ∀ i ∈ (eligible d time intents).argmin strategy.rank, i ∈ other) :
    (eligible d time other).argmin strategy.rank =
      (eligible d time intents).argmin strategy.rank := by
  have within (i) (mem : i ∈ eligible d time other) : i ∈ eligible d time intents := by
    obtain ⟨mem, able⟩ := (mem_eligible told').mp mem
    exact (mem_eligible told).mpr ⟨known i mem able, able⟩
  cases chose : (eligible d time other).argmin strategy.rank with
  | none =>
    symm
    by_contra some_chosen
    obtain ⟨i, chosen⟩ := Option.ne_none_iff_exists'.mp some_chosen
    have able := (mem_eligible told).mp (List.argmin_mem chosen)
    have there := (mem_eligible told').mpr ⟨kept i chosen, able.2⟩
    rw [List.argmin_eq_none.mp chose] at there
    cases there
  | some j =>
    have mem := within j (List.argmin_mem chose)
    cases chosen : (eligible d time intents).argmin strategy.rank with
    | none =>
      rw [List.argmin_eq_none.mp chosen] at mem
      cases mem
    | some i =>
      have able := (mem_eligible told).mp (List.argmin_mem chosen)
      have there := (mem_eligible told').mpr ⟨kept i chosen, able.2⟩
      have same := le_antisymm (List.le_of_mem_argmin there chose)
        (List.le_of_mem_argmin mem chosen)
      rw [eq_of_rank distinct ((mem_eligible told).mp mem).1 able.1 same]

/-- What a strategy makes of intents for an amount at a time. -/
structure Chooses (strategy : Strategy) (intents : List Intent) (amount : Numeral) (d : Decimal)
    (time : Time) (chosen : Option Intent) : Prop where
  none_iff : chosen = none ↔ ∀ i ∈ intents, ¬i.Eligible d time
  some_iff : ∀ i, chosen = some i ↔ i ∈ intents ∧ i.Eligible d time ∧
    ∀ j ∈ intents, j.Eligible d time → j ≠ i → strategy.rank i < strategy.rank j
  permuted : ∀ other, other.Perm intents → strategy.choose other amount time = .ok chosen
  /-- Intents that are not eligible may come and go, and of the eligible ones all may go but the
  one that is chosen. -/
  stable : ∀ other, (∀ i ∈ other, i.Told time) →
    (∀ i ∈ other, i.Eligible d time → i ∈ intents) → (∀ i ∈ chosen, i ∈ other) →
      strategy.choose other amount time = .ok chosen

/-- Of intents with ids of their own and times with offsets a strategy chooses exactly where it can
be told of each whether it can pay. It chooses none just where none is eligible, and else the one
that is least in its order, whatever the order of the list and whatever else is in it. -/
theorem choose_least (strategy : Strategy) {intents : List Intent} {amount : Numeral} {d : Decimal}
    (distinct : (intents.map Intent.id).Nodup) (aware : ∀ i ∈ intents, i.Aware)
    (brought : amount.toAmount = .ok d) (time : Time) :
    ((∃ chosen, strategy.choose intents amount time = .ok chosen) ↔
      ∀ i ∈ intents, i.Told time) ∧
    ∀ chosen, strategy.choose intents amount time = .ok chosen →
      strategy.Chooses intents amount d time chosen := by
  have able_aware : ∀ i ∈ intents, i.Eligible d time → i.Aware := fun i mem _ => aware i mem
  constructor
  · constructor
    · rintro ⟨chosen, chose⟩
      exact ((choose_eq_ok_iff brought able_aware).mp chose).1
    · intro told
      exact ⟨_, (choose_eq_ok_iff brought able_aware).mpr ⟨told, rfl⟩⟩
  · intro chosen chose
    obtain ⟨told, rfl⟩ := (choose_eq_ok_iff brought able_aware).mp chose
    have stable (other : List Intent) (told' : ∀ i ∈ other, i.Told time)
        (known : ∀ i ∈ other, i.Eligible d time → i ∈ intents)
        (kept : ∀ i ∈ (eligible d time intents).argmin strategy.rank, i ∈ other) :
        strategy.choose other amount time =
          .ok ((eligible d time intents).argmin strategy.rank) := by
      refine (choose_eq_ok_iff brought fun i mem able => aware i (known i mem able)).mpr
        ⟨told', ?_⟩
      exact (argmin_eligible_eq distinct told told' known kept).symm
    refine ⟨argmin_eligible_none_iff told, fun i => argmin_eligible_iff distinct told, ?_, stable⟩
    intro other perm
    refine stable other (fun i mem => told i (perm.mem_iff.mp mem))
      (fun i mem _ => perm.mem_iff.mp mem) fun i chosen => ?_
    exact perm.mem_iff.mpr ((mem_eligible told).mp (List.argmin_mem chosen)).1

end Strategy

namespace Sample

/-- The intent for Chennai under another id, with its window told on a clock five and a half hours
ahead. -/
def twin : Intent :=
  let ahead (t : Time) : Time :=
    { micros := t.micros + 19800000000, offset := some 19800000000 }
  { localIntent with
    id := Ids.intent 2
    createdAt := ahead localIntent.createdAt
    expiresAt := ahead localIntent.expiresAt }

/-- The intent for Chennai, of which what was used is not a number. -/
def unmeasured : Intent := { localIntent with used := .nan false false 0 }

/-- Today on a clock that is not told to be of any zone. -/
def clockless : Time := { today with offset := none }

theorem aware_of_mem : ∀ i ∈ [twin, localIntent, unmeasured], i.Aware := by
  simp [Intent.Aware, twin, localIntent, unmeasured, today]

theorem localIntent_remaining : localIntent.remaining = .ok (.ofCents 6000) :=
  eq_ok_of_toOption (by decide +kernel)

end Sample

/-- Of two intents with one window, told in two offsets, the one with the lesser id is chosen. -/
theorem Strategy.choose_least_twins : soonestExpiring.Chooses [Sample.twin, Sample.localIntent]
    (.whole 10) (.ofCents 1000) Sample.today (some Sample.localIntent) := by
  have chosen : (soonestExpiring.choose [Sample.twin, Sample.localIntent] (.whole 10)
      Sample.today).toOption = some (some Sample.localIntent) := by decide +kernel
  have aware : ∀ i ∈ [Sample.twin, Sample.localIntent], i.Aware :=
    fun i mem => Sample.aware_of_mem i (by simp at mem ⊢; tauto)
  exact (choose_least soonestExpiring (by decide +kernel) aware Sample.ten_toAmount
    Sample.today).2 _ (eq_ok_of_toOption chosen)

/-- At a time without an offset an intent is not chosen, although it is eligible; and where what was
used of an intent is not a number, that none is eligible is not told. -/
theorem Strategy.choose_falters :
    Sample.localIntent.Aware ∧ Sample.localIntent.Eligible (.ofCents 1000) Sample.clockless ∧
    (¬∃ chosen, soonestExpiring.choose [Sample.localIntent] (.whole 10) Sample.clockless =
      .ok chosen) ∧
    Sample.unmeasured.Aware ∧ ¬Sample.unmeasured.Eligible (.ofCents 1000) Sample.today ∧
    ¬∃ chosen, soonestExpiring.choose [Sample.unmeasured] (.whole 10) Sample.today =
      .ok chosen := by
  have answerless {intents : List Intent} {time : Time}
      (failed : (soonestExpiring.choose intents (.whole 10) time).toOption.isSome = false) :
      ¬∃ chosen, soonestExpiring.choose intents (.whole 10) time = .ok chosen := by
    rintro ⟨chosen, chose⟩
    rw [chose] at failed
    cases failed
  refine ⟨Sample.aware_of_mem _ (by simp), ⟨rfl, by decide, .ofCents 6000,
    Sample.localIntent_remaining, by decide +kernel⟩, answerless (by decide +kernel),
    Sample.aware_of_mem _ (by simp), ?_, answerless (by decide +kernel)⟩
  rintro ⟨-, -, remaining, left, covered⟩
  have unmeasured : Sample.unmeasured.remaining.toOption.map Decimal.isNaN = some true := by
    decide +kernel
  rw [left] at unmeasured
  have number := (Decimal.exists_compare?_iff.mp
    (by obtain ⟨order, compared, -⟩ := map_ok_iff.mp covered; exact ⟨order, compared⟩)).2
  rw [Option.some.inj unmeasured] at number
  cases number

end Earmark
