import Earmark.Proofs.Confinement
import Earmark.Proofs.Gauges
import Earmark.Proofs.Reckoning
import Earmark.Proofs.UnsignedZeros

/-!
What columns hold of money. `MoneyColumns` tells where the rows of a backend keep amounts, and
`MoneyColumns.Faithful` that a column gives back the amounts of up to twelve digits before the point
that were written to it. Records that are kept as they are do so, and so do the rows of a database
(`Backend.memoryColumns_faithful`, `Backend.relationalColumns_faithful`).
-/

namespace Earmark

/-- The intent is kept as the tab says. -/
structure Intent.Shows (i : Intent) (t : Tab) : Prop where
  owner : i.user = t.owner
  limit : i.limit.Holds t.limit
  used : i.used.Holds t.used
  status : i.status = t.status

/-- What is kept of a milestone that a ledger knows. -/
structure Portion where
  id : String
  amount : Decimal
  completed : Bool

/-- The milestone is kept as the ledger says. -/
structure Portion.Shows (k : Portion) (p : Part) : Prop where
  id : k.id = p.id
  amount : k.amount.Holds p.cents
  completed : k.completed = p.released

def Milestone.portion (m : Milestone) : Portion := ⟨m.id, m.amount, m.isCompleted⟩

/-- The escrow is kept as the parts say. -/
def Escrow.Shows (e : Escrow) (parts : List Part) : Prop :=
  List.Forall₂ Portion.Shows (e.milestones.map Milestone.portion) parts

theorem Escrow.Shows.ids {e : Escrow} {parts : List Part} (shows : e.Shows parts) :
    e.milestones.map (·.id) = parts.map (·.id) := by
  have ids : (e.milestones.map Milestone.portion).map Portion.id = parts.map (·.id) :=
    List.forall₂_eq_eq_eq ▸ List.forall₂_map_left_iff.mpr
      (List.forall₂_map_right_iff.mpr (shows.imp fun _ _ shown => shown.id))
  simpa [Function.comp_def, Milestone.portion] using ids

/-- Where the rows of a backend keep amounts, and what goes with them. -/
structure MoneyColumns (b : Backend) where
  limit : b.intents.Row → Decimal
  used : b.intents.Row → Decimal
  status : b.intents.Row → Option IntentStatus
  portions : b.escrows.Row → List Portion
  logged : b.records.Row → Decimal

namespace MoneyColumns

variable {b : Backend}

/-- The row of an intent is kept as the tab says. -/
structure Shows (c : MoneyColumns b) (row : b.intents.Row) (t : Tab) : Prop where
  owner : b.intents.user row = t.owner
  limit : (c.limit row).Holds t.limit
  used : (c.used row).Holds t.used
  status : c.status row = some t.status

/-- The row of an escrow is kept as the parts say. -/
def Carries (c : MoneyColumns b) (row : b.escrows.Row) (parts : List Part) : Prop :=
  List.Forall₂ Portion.Shows (c.portions row) parts

/-- What is written is what is kept, and what is kept is what is read; and where a change can fail
once it is made, what was written before is taken back. -/
structure Faithful (c : MoneyColumns b) : Prop where
  money : ∀ {d cents}, Decimal.Holds d cents → ∃ given, b.money d = .ok given ∧ given.Holds cents
  intent_written : ∀ {i t row}, Intent.Shows i t → b.intents.write i = .ok row →
    b.intents.id row = i.id ∧ c.Shows row t
  intent_read : ∀ {row t i}, c.Shows row t → b.intents.read row = .ok i →
    i.id = b.intents.id row ∧ i.Shows t
  intent_updated : ∀ {row t i t' changed}, c.Shows row t → i.id = b.intents.id row →
    Intent.Shows i t' → t'.owner = t.owner → t'.limit = t.limit →
      b.intents.update row i = .ok changed →
        b.intents.id changed = b.intents.id row ∧ c.Shows changed t'
  intent_taken_back : ∀ {row i failure}, b.intents.update row i = .error failure →
    b.rollsBack = true
  escrow_written : ∀ {e parts row}, Escrow.Shows e parts → b.escrows.write e = .ok row →
    b.escrows.id row = e.id ∧ c.Carries row parts
  escrow_read : ∀ {row parts e}, c.Carries row parts → b.escrows.read row = .ok e →
    e.id = b.escrows.id row ∧ e.Shows parts
  escrow_updated : ∀ {row parts e next parts' changed}, c.Carries row parts →
    (parts.map (·.id)).Nodup → b.escrows.read row = .ok e → next.id = e.id →
      next.milestones.map Milestone.terms = e.milestones.map Milestone.terms →
        next.Shows parts' → b.escrows.update row next = .ok changed →
          b.escrows.id changed = b.escrows.id row ∧ c.Carries changed parts'
  record_written : ∀ {r row cents}, Decimal.Holds (TransactionRecord.amount r) cents →
    b.records.write r = .ok row → (c.logged row).Holds cents

end MoneyColumns

namespace Backend

/-- Records that are kept as they are tell themselves. -/
def memoryColumns : MoneyColumns .memory where
  limit i := Intent.limit i
  used := Intent.used
  status i := some (Intent.status i)
  portions e := (Escrow.milestones e).map Milestone.portion
  logged := TransactionRecord.amount

theorem memoryColumns_faithful : memoryColumns.Faithful where
  money holds := ⟨_, rfl, holds⟩
  intent_written shows written := by
    cases written
    exact ⟨rfl, shows.owner, shows.limit, shows.used, congrArg some shows.status⟩
  intent_read shows read := by
    cases read
    exact ⟨rfl, shows.owner, shows.limit, shows.used, Option.some.inj shows.status⟩
  intent_updated _ same shows _ _ updated := by
    cases updated
    exact ⟨same, shows.owner, shows.limit, shows.used, congrArg some shows.status⟩
  intent_taken_back updated := by cases updated
  escrow_written shows written := by
    cases written
    exact ⟨rfl, shows⟩
  escrow_read carries read := by
    cases read
    exact ⟨rfl, carries⟩
  escrow_updated _ _ read same _ shows updated := by
    cases read
    cases updated
    exact ⟨same, shows⟩
  record_written holds written := by
    cases written
    exact holds

end Backend

/-! ### Rows of a database -/

/-- A money column gives back amounts of up to twelve digits before the point. -/
theorem Decimal.Holds.column {d : Decimal} {cents : Int} (holds : d.Holds cents) :
    (Column.toMoney (Column.ofMoney d)).Holds cents := by
  obtain ⟨amount, rfl, fits⟩ := holds
  have kept : Column.Keeps d := Column.keeps_of_small amount (by omega)
  obtain ⟨unsigned, same⟩ := amount.unsignedZero
  rw [kept]
  exact ⟨unsigned, same, fits⟩

theorem Decimal.Holds.toAmount_eq {d : Decimal} {cents : Int} (holds : d.Holds cents) :
    d.toAmount = .ok d := holds.amount.toAmount_eq

namespace IntentRow

/-- The limit that the row gives back. -/
def givenLimit (row : IntentRow) : Decimal := Column.toMoney row.limit

/-- What the row gives back as used. -/
def givenUsed (row : IntentRow) : Decimal := Column.toMoney row.used

end IntentRow

/-- The amount that the row gives back. -/
def RecordRow.givenAmount (row : RecordRow) : Decimal := Column.toMoney row.amount

namespace MilestoneRow

/-- What the row gives back of the milestone. -/
def portion (row : MilestoneRow) : Portion := ⟨row.id, Column.toMoney row.amount, row.isCompleted⟩

@[simp] theorem updatedBy_amount (e : Escrow) (row : MilestoneRow) :
    (row.updatedBy e).amount = row.amount := by
  unfold updatedBy
  split <;> rfl

theorem portion_ofMilestone {m : Milestone} {p : Part} (shows : m.portion.Shows p) :
    (ofMilestone m).portion.Shows p where
  id := shows.id
  amount := shows.amount.column
  completed := (isCompleted_of_status rfl).trans shows.completed

theorem portion_of_toMilestone {row : MilestoneRow} {p : Part} (shows : row.portion.Shows p)
    {m : Milestone} (read : row.toMilestone = .ok m) : m.portion = row.portion := by
  obtain ⟨id, completed⟩ := of_toMilestone read
  have whole : (Column.toMoney row.amount).toAmount = .ok (Column.toMoney row.amount) :=
    shows.amount.toAmount_eq
  simp only [toMilestone, bind_ok_iff] at read
  obtain ⟨amount, brought, status, -, made⟩ := read
  obtain rfl : Column.toMoney row.amount = amount := Except.ok.inj (whole.symm.trans brought)
  have amount : m.amount = Column.toMoney row.amount := by rw [← Except.ok.inj made]
  rw [Milestone.portion, portion, id, amount, completed]

theorem portions_of_mapM {rows : List MilestoneRow} {parts : List Part}
    (shows : List.Forall₂ Portion.Shows (rows.map portion) parts) {milestones : List Milestone}
    (read : rows.mapM toMilestone = .ok milestones) :
    milestones.map Milestone.portion = rows.map portion := by
  induction rows generalizing parts milestones with
  | nil =>
    cases read
    rfl
  | cons row rest ih =>
    cases shows with
    | cons shown others =>
      rw [List.mapM_cons] at read
      obtain ⟨m, first, read⟩ := bind_ok_iff.mp read
      obtain ⟨later, known, read⟩ := bind_ok_iff.mp read
      cases read
      rw [List.map_cons, List.map_cons, portion_of_toMilestone shown first, ih others known]

/-- The rows that an escrow updates are kept as its milestones are. -/
theorem portions_updatedBy {rows : List MilestoneRow} {e : Escrow}
    (terms : e.milestones.map (fun m => (m.id, m.amount)) =
      rows.map fun row => (row.id, Column.toMoney row.amount))
    (unique : (rows.map (·.id)).Nodup) :
    (rows.map (updatedBy e)).map portion = e.milestones.map Milestone.portion := by
  have ids : e.milestones.map (·.id) = rows.map (·.id) := by
    simpa [Function.comp_def] using congrArg (List.map Prod.fst) terms
  let told (known : String × Decimal) : Portion :=
    ⟨known.1, known.2, (e.find? known.1).any (·.isCompleted)⟩
  have of_row (row : MilestoneRow) (mem : row ∈ rows) :
      (row.updatedBy e).portion = told (row.id, Column.toMoney row.amount) := by
    rw [portion, isCompleted_updatedBy ids unique mem, updatedBy_id, updatedBy_amount]
  have of_milestone (m : Milestone) (mem : m ∈ e.milestones) :
      m.portion = told (m.id, m.amount) := by
    have completed := any_isCompleted_of_mem (ids ▸ unique) mem
    simp only [told, completed, Milestone.portion]
  have same := congrArg (List.map told) terms
  rw [List.map_map, List.map_map] at same
  rw [List.map_congr_left of_milestone, List.map_map]
  exact (List.map_congr_left of_row).trans same.symm

end MilestoneRow

namespace EscrowRow

variable {row : EscrowRow} {parts : List Part} {e : Escrow}

def portions (row : EscrowRow) : List Portion := row.milestones.map MilestoneRow.portion

theorem shows_ofEscrow (shows : e.Shows parts) :
    List.Forall₂ Portion.Shows (ofEscrow e).portions parts := by
  rw [portions, ofEscrow, List.map_map, List.forall₂_map_left_iff]
  exact (List.forall₂_map_left_iff.mp shows).imp fun _ _ => MilestoneRow.portion_ofMilestone

theorem portions_of_toEscrow (carries : List.Forall₂ Portion.Shows row.portions parts)
    (read : row.toEscrow = .ok e) : e.milestones.map Milestone.portion = row.portions := by
  simp only [toEscrow, bind_ok_iff] at read
  obtain ⟨milestones, known, receipt, -, made⟩ := read
  rw [← Except.ok.inj made]
  exact MilestoneRow.portions_of_mapM carries known

theorem portions_update (carries : List.Forall₂ Portion.Shows row.portions parts)
    (unique : (parts.map (·.id)).Nodup) (read : row.toEscrow = .ok e) {next : Escrow}
    (terms : next.milestones.map Milestone.terms = e.milestones.map Milestone.terms) :
    (row.update next).portions = next.milestones.map Milestone.portion := by
  have same := portions_of_toEscrow carries read
  have shows : e.Shows parts := by rwa [Escrow.Shows, same]
  have ids := congrArg (List.map Portion.id) same
  have kept := congrArg (List.map fun t => (t.1, t.2.2.1)) terms
  have told := congrArg (List.map fun k => (Portion.id k, Portion.amount k)) same
  simp only [portions, List.map_map, Function.comp_def, Milestone.portion, Milestone.terms,
    MilestoneRow.portion] at ids kept told
  rw [portions, milestones_update]
  exact MilestoneRow.portions_updatedBy (kept.trans told) (ids ▸ shows.ids ▸ unique)

end EscrowRow

/-- Rows keep amounts in money columns. -/
def Backend.relationalColumns : MoneyColumns .relational where
  limit := IntentRow.givenLimit
  used := IntentRow.givenUsed
  status row := IntentStatus.ofWord? (IntentRow.status row)
  portions := EscrowRow.portions
  logged := RecordRow.givenAmount

namespace IntentRow

variable {row changed : IntentRow} {t t' : Tab} {i : Intent}

theorem shows_ofIntent (shows : i.Shows t) (written : ofIntent i = .ok row) :
    Backend.relationalColumns.Shows row t := by
  simp only [ofIntent, bind_ok_iff] at written
  obtain ⟨used, kept, days, -, violations, -, approvals, -, checked⟩ := written
  have used_eq : used = Column.ofMoney i.used := by
    unfold Column.writeMoney at kept
    split at kept
    · cases kept
    · exact (Except.ok.inj kept).symm
  split at checked
  · cases checked
  · cases checked
    refine ⟨shows.owner, shows.limit.column, ?_, ?_⟩
    · change (Column.toMoney used).Holds t.used
      exact used_eq ▸ shows.used.column
    · exact (IntentStatus.ofWord?_word i.status).trans (congrArg some shows.status)

theorem shows_of_toIntent (shows : Backend.relationalColumns.Shows row t)
    (read : row.toIntent = .ok i) : i.Shows t := by
  simp only [toIntent, Json.toWord, bind_ok_iff, Failure.require_ok_iff] at read
  obtain ⟨geo, -, split, -, policy, built, status, known, used, brought, made⟩ := read
  obtain ⟨limit, given, -, -, -, rfl⟩ := Policy.build_ok_iff.mp built
  have limit_eq := shows.limit.toAmount_eq
  have used_eq := shows.used.toAmount_eq
  have limit_same : limit = row.givenLimit := Except.ok.inj (given.symm.trans limit_eq)
  have used_same : used = row.givenUsed := Except.ok.inj (brought.symm.trans used_eq)
  cases made
  exact ⟨shows.owner, limit_same ▸ shows.limit, used_same ▸ shows.used,
    Option.some.inj (known.symm.trans shows.status)⟩

theorem shows_of_update (shows : Backend.relationalColumns.Shows row t) (shown : i.Shows t')
    (owner : t'.owner = t.owner) (limit : t'.limit = t.limit)
    (updated : row.update i = .ok changed) : Backend.relationalColumns.Shows changed t' := by
  simp only [update, bind_ok_iff] at updated
  obtain ⟨violations, -, approvals, -, made⟩ := updated
  cases made
  exact ⟨shows.owner.trans owner.symm, limit ▸ shows.limit, shown.used.column,
    (IntentStatus.ofWord?_word i.status).trans (congrArg some shown.status)⟩

end IntentRow

theorem Backend.relationalColumns_faithful : relationalColumns.Faithful where
  money holds := ⟨_, holds.column.toAmount_eq, holds.column⟩
  intent_written shows written :=
    ⟨(IntentRow.owner_of_ofIntent written).1, IntentRow.shows_ofIntent shows written⟩
  intent_read shows read :=
    ⟨(IntentRow.owner_of_toIntent read).1, IntentRow.shows_of_toIntent shows read⟩
  intent_updated shows _ shown owner limit updated :=
    ⟨(IntentRow.owner_of_update updated).1,
      IntentRow.shows_of_update shows shown owner limit updated⟩
  intent_taken_back _ := rfl
  escrow_written shows written := by
    cases written
    exact ⟨rfl, EscrowRow.shows_ofEscrow shows⟩
  escrow_read carries read := by
    refine ⟨(EscrowRow.owner_of_toEscrow read).1, ?_⟩
    rw [Escrow.Shows, EscrowRow.portions_of_toEscrow carries read]
    exact carries
  escrow_updated {row _ _ next parts' _} carries unique read _ terms shows updated := by
    cases updated
    have same := EscrowRow.portions_update carries unique read terms
    have carried : List.Forall₂ Portion.Shows (row.update next).portions parts' := by rwa [same]
    exact ⟨rfl, carried⟩
  record_written holds written := by
    obtain ⟨merchant, -, made⟩ := bind_ok_iff.mp written
    cases made
    exact holds.column

end Earmark
