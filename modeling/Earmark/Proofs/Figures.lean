import Earmark.Proofs.Normal
import Earmark.Proofs.SpendingTotals

/-!
The figures of a summary as exact numbers. While everything that is added up stays below ten to the
26, each figure is the exact sum of what it counts (`SpendingSummary.exists_tells`), so the figures
do not depend on the order in which payments, intents and escrows are given (`Tells.perm`), and what
was spent in the categories adds up to what was spent (`Tells.spent_eq_categories`).
-/

namespace Earmark

/-- What some records come to, exactly. -/
def TransactionRecord.exactTotal (records : List TransactionRecord) : ℚ :=
  (records.map (·.amount.toRat)).sum

/-- Whether an escrow is neither clawed back nor fully released. -/
def Escrow.isUnderWay (e : Escrow) : Bool :=
  e.clawback.isNone && !e.milestones.all (·.isCompleted)

open TransactionRecord (exactTotal)

/-! ### Exact sums -/

/-- Items that are told apart by a key in a list of distinct keys add up key by key. -/
theorem sum_by_key {α : Type} (key : α → String) (f : α → ℚ) {names : List String}
    (distinct : names.Nodup) {xs : List α} (covered : ∀ x ∈ xs, key x ∈ names) :
    (names.map fun name => ((xs.filter (key · == name)).map f).sum).sum = (xs.map f).sum := by
  induction xs with
  | nil => simp
  | cons x rest ih =>
    have once : (names.map fun name => if name = key x then f x else 0).sum = f x := by
      have single := List.count_eq_one_of_mem distinct (covered x (by simp))
      simpa [single] using List.sum_map_ite_eq names (fun _ => f x) (fun _ => 0) (key x)
    have each (name : String) : (((x :: rest).filter (key · == name)).map f).sum =
        (if name = key x then f x else 0) + ((rest.filter (key · == name)).map f).sum := by
      by_cases at_ : key x = name
      · simp [at_]
      · simp [at_, Ne.symm at_]
    simp only [each, List.sum_map_add, once, List.map_cons, List.sum_cons,
      ih fun other mem => covered other (List.mem_cons_of_mem x mem)]

/-- What is asked of each item is told, and the tellings that hold are kept. -/
theorem filterM_ok {α : Type} {f : α → Except Failure Bool} {p : α → Bool} {xs : List α}
    (each : ∀ x ∈ xs, f x = .ok (p x)) : xs.filterM f = .ok (xs.filter p) := by
  have collected (kept : List α) :
      List.filterAuxM f xs kept = .ok ((xs.filter p).reverse ++ kept) := by
    induction xs generalizing kept with
    | nil => rfl
    | cons x rest ih =>
      have later := ih fun other mem => each other (List.mem_cons_of_mem x mem)
      rw [List.filterAuxM, each x (by simp), ok_bind, later]
      cases chosen : p x <;> simp [chosen]
  rw [List.filterM, collected, ok_bind, List.append_nil]
  exact congrArg Except.ok (List.reverse_reverse _)

/-- Amounts that are not negative are made of items and added up exactly as long as their total is
an amount. -/
theorem exists_exact_mapM_sum {α : Type} {f : α → Except Failure Decimal} {value : α → ℚ}
    {items : List α}
    (each : ∀ a ∈ items, ∃ d, f a = .ok d ∧ d.IsAmount ∧ 0 ≤ d.cents ∧ d.toRat = value a)
    (fits : (items.map value).sum < 10 ^ 26) :
    ∃ ds total, items.mapM f = .ok ds ∧ Decimal.sum ds = .ok total ∧
      total.toRat = (items.map value).sum := by
  obtain ⟨ds, made, amounts, values⟩ : ∃ ds, items.mapM f = .ok ds ∧
      (∀ d ∈ ds, d.IsAmount ∧ 0 ≤ d.cents) ∧ ds.map Decimal.toRat = items.map value := by
    clear fits
    induction items with
    | nil => exact ⟨[], rfl, by simp, rfl⟩
    | cons a rest ih =>
      obtain ⟨d, done, whole, nonneg, same⟩ := each a (by simp)
      obtain ⟨ds, all, amounts, values⟩ := ih fun other mem => each other (by simp [mem])
      exact ⟨d :: ds, by simp [List.mapM_cons, done, all],
        List.forall_mem_cons.mpr ⟨⟨whole, nonneg⟩, amounts⟩, by simp [same, values]⟩
  have exact := Decimal.sum_toRat fun d mem => (amounts d mem).1
  rw [← values, exact] at fits
  obtain ⟨total, summed, whole, cents⟩ := Decimal.exists_sum amounts (by
    have scaled : (((ds.map Decimal.cents).sum : ℤ) : ℚ) < 10 ^ 28 := by linarith
    exact_mod_cast scaled)
  exact ⟨ds, total, made, summed, by rw [whole.toRat_eq, cents, ← exact, values]⟩

private theorem natAbs_lt_of_value {cents : ℤ} (small : |(cents : ℚ) / 100| < 10 ^ 26) :
    cents.natAbs < 10 ^ 28 := by
  obtain ⟨low, high⟩ := abs_lt.mp small
  have low' : (-(10 ^ 28) : ℚ) < cents := by linarith
  have high' : (cents : ℚ) < 10 ^ 28 := by linarith
  have low'' : -(10 ^ 28) < cents := by exact_mod_cast low'
  have high'' : cents < 10 ^ 28 := by exact_mod_cast high'
  omega

/-- What is told in cents adds up in cents. -/
theorem sum_of_cents {α : Type} {value : α → ℚ} {cents : α → ℤ} {xs : List α}
    (each : ∀ x ∈ xs, value x = cents x / 100) :
    (xs.map value).sum = ((xs.map cents).sum : ℤ) / 100 := by
  induction xs with
  | nil => simp
  | cons x rest ih =>
    have tail := ih fun other mem => each other (List.mem_cons_of_mem x mem)
    rw [List.map_cons, List.map_cons, List.sum_cons, List.sum_cons, each x (by simp), tail,
      Int.cast_add, add_div]

theorem TransactionRecord.exactTotal_eq {records : List TransactionRecord}
    (amounts : ∀ r ∈ records, r.amount.IsAmount) :
    exactTotal records = ((records.map (·.amount.cents)).sum : ℤ) / 100 :=
  sum_of_cents fun r mem => (amounts r mem).toRat_eq

/-- What some records come to is what those that are told apart come to, and the others. -/
theorem TransactionRecord.exactTotal_split (p : TransactionRecord → Bool)
    (records : List TransactionRecord) :
    exactTotal records = exactTotal (records.filter p) + exactTotal (records.filter (!p ·)) := by
  have parts := ((List.filter_append_perm p records).map (·.amount.toRat)).sum_eq
  rw [List.map_append, List.sum_append] at parts
  exact parts.symm

/-- The amounts of some records are summed exactly as long as those of every part of them are. -/
theorem TransactionRecord.exists_sum {records : List TransactionRecord}
    (amounts : ∀ r ∈ records, r.amount.IsAmount)
    (fits : ∀ part : List TransactionRecord, part.Sublist records → |exactTotal part| < 10 ^ 26) :
    ∃ total, Decimal.sum (records.map (·.amount)) = .ok total ∧
      total.toRat = exactTotal records := by
  have whole : ∀ d ∈ records.map (·.amount), d.IsAmount := by
    intro d mem
    obtain ⟨r, known, rfl⟩ := List.mem_map.mp mem
    exact amounts r known
  have small : ∀ part, part <+: records.map (·.amount) →
      (part.map Decimal.cents).sum.natAbs < 10 ^ 28 := by
    intro part begins
    have sublist := List.take_sublist part.length records
    have same : (records.take part.length).map (·.amount) = part := by
      rw [List.map_take]
      exact (List.prefix_iff_eq_take.mp begins).symm
    have small := fits _ sublist
    rw [exactTotal_eq fun r mem => amounts r (sublist.subset mem)] at small
    rw [← same, List.map_map]
    exact natAbs_lt_of_value small
  obtain ⟨total, summed, whole, value⟩ := Decimal.exists_sum_of_prefixes whole small
  refine ⟨total, summed, ?_⟩
  rw [whole.toRat_eq, value, exactTotal_eq amounts, List.map_map]
  rfl

/-- An escrow is open as long as it is under way. -/
theorem Escrow.Sound.isOpen_eq {e : Escrow} (sound : e.Sound) : e.isOpen = .ok e.isUnderWay := by
  rw [isOpen, sound.status_eq, ok_bind, stage, isUnderWay]
  cases e.clawback with
  | some receipt => rfl
  | none =>
    cases e.milestones.all (·.isCompleted) with
    | true => rfl
    | false => cases e.milestones.any (·.isCompleted) <;> rfl

namespace SpendingSummary

variable {user : String} {records records' : List TransactionRecord} {intents intents' : List Intent}
  {escrows escrows' : List Escrow} {s t : SpendingSummary}

/-! ### What a summary tells -/

/-- What is added up is told exactly: every part of the approved payments, every part of the others,
and all that intents and escrows hold, stays below ten to the 26. -/
structure Fits (records : List TransactionRecord) (intents : List Intent) (escrows : List Escrow) :
    Prop where
  amounts : ∀ r ∈ records, r.amount.IsAmount
  spent : ∀ part : List TransactionRecord, part.Sublist (records.filter (·.approved)) →
    |exactTotal part| < 10 ^ 26
  blocked : ∀ part : List TransactionRecord, part.Sublist (records.filter (!·.approved)) →
    |exactTotal part| < 10 ^ 26
  ledgers : ∀ i ∈ intents, i.Sound
  held : ((intents.filter (·.isActive)).map fun i => i.limit.toRat - i.used.toRat).sum < 10 ^ 26
  vaults : ∀ e ∈ escrows, e.Sound
  pending : ((escrows.filter (·.isUnderWay)).map Escrow.openTotal).sum < 10 ^ 26

/-- The figures are the exact ones. -/
structure Tells (s : SpendingSummary) (records : List TransactionRecord) (intents : List Intent)
    (escrows : List Escrow) : Prop where
  total : s.total = records.length
  approved : s.approved = records.countP (·.approved)
  rejected : s.rejected = records.countP (!·.approved)
  complianceRate : s.complianceRate = percentage s.approved s.total
  spent : s.spent.toRat = exactTotal (records.filter (·.approved))
  blocked : s.blocked.toRat = exactTotal (records.filter (!·.approved))
  categorySpend : s.categorySpend.map (fun entry => (entry.1, entry.2.toRat)) =
    (sortedSet ((records.filter (·.approved)).map categoryOf)).map fun name =>
      (name, exactTotal ((records.filter (·.approved)).filter (categoryOf · == name)))
  activeIntents : s.activeIntents = intents.countP (·.isActive)
  lockedInIntents : s.lockedInIntents.toRat =
    ((intents.filter (·.isActive)).map fun i => i.limit.toRat - i.used.toRat).sum
  openEscrows : s.openEscrows = escrows.countP (·.isUnderWay)
  pendingInEscrows : s.pendingInEscrows.toRat =
    ((escrows.filter (·.isUnderWay)).map Escrow.openTotal).sum

/-- Two summaries tell the same numbers. -/
structure SameNumbers (s t : SpendingSummary) : Prop where
  total : s.total = t.total
  approved : s.approved = t.approved
  rejected : s.rejected = t.rejected
  complianceRate : s.complianceRate = t.complianceRate
  spent : s.spent.toRat = t.spent.toRat
  blocked : s.blocked.toRat = t.blocked.toRat
  categorySpend : s.categorySpend.map (fun entry => (entry.1, entry.2.toRat)) =
    t.categorySpend.map fun entry => (entry.1, entry.2.toRat)
  activeIntents : s.activeIntents = t.activeIntents
  lockedInIntents : s.lockedInIntents.toRat = t.lockedInIntents.toRat
  openEscrows : s.openEscrows = t.openEscrows
  pendingInEscrows : s.pendingInEscrows.toRat = t.pendingInEscrows.toRat

private theorem exists_categories (records : List TransactionRecord)
    (each : ∀ name, ∃ total,
      Decimal.sum ((records.filter (categoryOf · == name)).map (·.amount)) = .ok total ∧
        total.toRat = exactTotal (records.filter (categoryOf · == name)))
    (names : List String) :
    ∃ entries : List (String × Decimal),
      (names.mapM fun name => do .ok (name, ← spentIn records name)) = .ok entries ∧
        entries.map (fun entry => (entry.1, entry.2.toRat)) =
          names.map fun name => (name, exactTotal (records.filter (categoryOf · == name))) := by
  induction names with
  | nil => exact ⟨[], rfl, rfl⟩
  | cons name rest ih =>
    obtain ⟨entries, all, values⟩ := ih
    obtain ⟨total, summed, value⟩ := each name
    refine ⟨(name, total) :: entries, ?_, by simp [values, value]⟩
    rw [List.mapM_cons, all, spentIn, summed]
    rfl

theorem exists_tells (user : String) (fits : Fits records intents escrows) :
    ∃ s, of user records intents escrows = .ok s ∧ s.Tells records intents escrows := by
  have exists_total {part : List TransactionRecord} (among : part.Sublist records)
      (small : ∀ less : List TransactionRecord, less.Sublist part → |exactTotal less| < 10 ^ 26) :
      ∃ total, Decimal.sum (part.map (·.amount)) = .ok total ∧ total.toRat = exactTotal part :=
    TransactionRecord.exists_sum (fun r mem => fits.amounts r (among.subset mem)) small
  obtain ⟨spent, summedSpent, spentValue⟩ := exists_total List.filter_sublist fits.spent
  obtain ⟨blocked, summedBlocked, blockedValue⟩ := exists_total List.filter_sublist fits.blocked
  obtain ⟨entries, listed, values⟩ := exists_categories (records.filter (·.approved))
    (fun _ => exists_total (List.filter_sublist.trans List.filter_sublist) fun less sublist =>
      fits.spent less (sublist.trans List.filter_sublist))
    (sortedSet ((records.filter (·.approved)).map categoryOf))
  obtain ⟨rests, locked, remaining, summedLocked, lockedValue⟩ :=
    exists_exact_mapM_sum (f := Intent.remaining) (fun i mem => by
      have sound := fits.ledgers i (List.mem_of_mem_filter mem)
      obtain ⟨rest, left, whole, value⟩ := sound.exists_remaining
      refine ⟨rest, left, whole, ?_, ?_⟩
      · rw [value]
        exact sub_nonneg.mpr sound.used_le
      · rw [whole.toRat_eq, value, sound.limit.toRat_eq, sound.used.toRat_eq, Int.cast_sub,
          sub_div]) fits.held
  obtain ⟨pendings, pending, left, summedPending, pendingValue⟩ :=
    exists_exact_mapM_sum (f := Escrow.pending) (fun e mem => by
      have sound := fits.vaults e (List.mem_of_mem_filter mem)
      obtain ⟨pending, left, whole, value⟩ := sound.pending_eq
      exact ⟨pending, left, whole, whole.cents_nonneg_iff.mpr (value ▸ sound.openTotal_nonneg),
        value⟩) fits.pending
  have opened : escrows.filterM Escrow.isOpen = .ok (escrows.filter (·.isUnderWay)) :=
    filterM_ok fun e mem => (fits.vaults e mem).isOpen_eq
  refine ⟨{ user, total := records.length, approved := (records.filter (·.approved)).length
            rejected := (records.filter (!·.approved)).length
            complianceRate := percentage (records.filter (·.approved)).length records.length
            spent, blocked, categorySpend := entries
            activeIntents := (intents.filter (·.isActive)).length, lockedInIntents := locked
            openEscrows := (escrows.filter (·.isUnderWay)).length, pendingInEscrows := pending },
    ?_, ?_⟩
  · simp only [of, listed, summedSpent, summedBlocked, remaining, summedLocked, opened, left,
      summedPending, Failure.ofDecimal_ok, ok_bind]
  · constructor
    case total => rfl
    case approved => exact List.countP_eq_length_filter.symm
    case rejected => exact List.countP_eq_length_filter.symm
    case complianceRate => rfl
    case spent => exact spentValue
    case blocked => exact blockedValue
    case categorySpend => exact values
    case activeIntents => exact List.countP_eq_length_filter.symm
    case lockedInIntents => exact lockedValue
    case openEscrows => exact List.countP_eq_length_filter.symm
    case pendingInEscrows => exact pendingValue

/-! ### The order of what is told -/

private theorem exactTotal_perm (perm : records.Perm records') (p : TransactionRecord → Bool) :
    exactTotal (records.filter p) = exactTotal (records'.filter p) :=
  ((perm.filter p).map _).sum_eq

section

variable (same : records.Perm records') (same' : intents.Perm intents')
  (same'' : escrows.Perm escrows')

include same same' same''

theorem Fits.perm (fits : Fits records intents escrows) : Fits records' intents' escrows' := by
  have parts {all all' : List TransactionRecord} (perm : all.Perm all')
      (fits : ∀ part : List TransactionRecord, part.Sublist all → |exactTotal part| < 10 ^ 26)
      (part : List TransactionRecord) (sublist : part.Sublist all') :
      |exactTotal part| < 10 ^ 26 := by
    obtain ⟨part', perm', sublist'⟩ := perm.subperm_left.mpr sublist.subperm
    rw [exactTotal, ← (perm'.map _).sum_eq]
    exact fits part' sublist'
  constructor
  case amounts => exact fun r mem => fits.amounts r (same.mem_iff.mpr mem)
  case spent => exact parts (same.filter _) fits.spent
  case blocked => exact parts (same.filter _) fits.blocked
  case ledgers => exact fun i mem => fits.ledgers i (same'.mem_iff.mpr mem)
  case held =>
    rw [← ((same'.filter _).map _).sum_eq]
    exact fits.held
  case vaults => exact fun e mem => fits.vaults e (same''.mem_iff.mpr mem)
  case pending =>
    rw [← ((same''.filter _).map _).sum_eq]
    exact fits.pending

/-- What is told of payments, intents and escrows is told of them in any order. -/
theorem Tells.perm (tells : s.Tells records intents escrows) :
    s.Tells records' intents' escrows' := by
  constructor
  case total => rw [tells.total, same.length_eq]
  case approved => rw [tells.approved, same.countP_eq]
  case rejected => rw [tells.rejected, same.countP_eq]
  case complianceRate => exact tells.complianceRate
  case spent => rw [tells.spent, exactTotal_perm same]
  case blocked => rw [tells.blocked, exactTotal_perm same]
  case categorySpend =>
    rw [tells.categorySpend, sortedSet_perm ((same.filter _).map categoryOf)]
    refine List.map_congr_left fun name _ => ?_
    rw [exactTotal_perm (same.filter _)]
  case activeIntents => rw [tells.activeIntents, same'.countP_eq]
  case lockedInIntents => rw [tells.lockedInIntents, ((same'.filter _).map _).sum_eq]
  case openEscrows => rw [tells.openEscrows, same''.countP_eq]
  case pendingInEscrows => rw [tells.pendingInEscrows, ((same''.filter _).map _).sum_eq]

end

/-- The figures are those that the exact sums leave. -/
theorem Tells.sameNumbers (tells : s.Tells records intents escrows)
    (tells' : t.Tells records intents escrows) : s.SameNumbers t where
  total := tells.total.trans tells'.total.symm
  approved := tells.approved.trans tells'.approved.symm
  rejected := tells.rejected.trans tells'.rejected.symm
  complianceRate := by
    rw [tells.complianceRate, tells'.complianceRate, tells.total, tells'.total, tells.approved,
      tells'.approved]
  spent := tells.spent.trans tells'.spent.symm
  blocked := tells.blocked.trans tells'.blocked.symm
  categorySpend := tells.categorySpend.trans tells'.categorySpend.symm
  activeIntents := tells.activeIntents.trans tells'.activeIntents.symm
  lockedInIntents := tells.lockedInIntents.trans tells'.lockedInIntents.symm
  openEscrows := tells.openEscrows.trans tells'.openEscrows.symm
  pendingInEscrows := tells.pendingInEscrows.trans tells'.pendingInEscrows.symm

/-- Whatever the order in which payments, intents and escrows are given, the numbers are the same. -/
theorem exists_sameNumbers (user : String) (fits : Fits records intents escrows)
    (tells : s.Tells records intents escrows) (same : records.Perm records')
    (same' : intents.Perm intents') (same'' : escrows.Perm escrows') :
    ∃ t, of user records' intents' escrows' = .ok t ∧ t.SameNumbers s := by
  obtain ⟨t, made, tells'⟩ := exists_tells user (fits.perm same same' same'')
  exact ⟨t, made, tells'.sameNumbers (tells.perm same same' same'')⟩

theorem Tells.total_eq (tells : s.Tells records intents escrows) :
    s.total = s.approved + s.rejected := by
  rw [tells.total, tells.approved, tells.rejected, List.length_eq_countP_add_countP (·.approved)]
  simp

/-- What was spent is what was spent in the categories. -/
theorem Tells.spent_eq_categories (tells : s.Tells records intents escrows) :
    s.spent.toRat = (s.categorySpend.map (·.2.toRat)).sum := by
  have parts := congrArg (List.map Prod.snd) tells.categorySpend
  rw [List.map_map, List.map_map] at parts
  rw [tells.spent, show s.categorySpend.map (·.2.toRat) = _ from parts]
  refine (sum_by_key categoryOf _ (nodup_sortedSet _) fun r mem => ?_).symm
  exact mem_sortedSet.mpr (List.mem_map_of_mem mem)

end SpendingSummary

end Earmark
