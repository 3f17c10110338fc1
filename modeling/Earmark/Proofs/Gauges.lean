import Earmark.Proofs.Runs
import Earmark.Proofs.Escrows
import Earmark.Store.Relational

/-!
What is counted, read off the rows of a store. A gauge tells of the rows of a backend what the
counters of the service tell of its calls: of a payment whether and where it failed, of an escrow
how many of its milestones are completed and why it was clawed back, of an event its kind. Both
backends have one (`Backend.memoryGauge`, `Backend.relationalGauge`).
-/

namespace Earmark

/-- How many milestones are completed. -/
def Escrow.completions (e : Escrow) : Nat := e.milestones.countP (·.isCompleted)

/-- Why an escrow was clawed back, if it was. -/
def Escrow.claim (e : Escrow) : Option ClawbackReason := e.clawback.map (·.reason)

/-- How what is counted is read off the rows of a store, and that it is what was written. -/
structure Gauge (b : Backend) where
  approved : b.records.Row → Bool
  bypass : b.records.Row → Bool
  failedAt : b.records.Row → Option Stage
  completions : b.escrows.Row → Nat
  claim : b.escrows.Row → Option ClawbackReason
  kind : b.events.Row → Option EventKind
  /-- What every row of an escrow keeps to. -/
  Sound : b.escrows.Row → Prop
  record_written : ∀ {r row}, b.records.write r = .ok row →
    approved row = r.approved ∧ bypass row = r.bypass ∧ failedAt row = r.failedAt
  event_written : ∀ e, ∃ row, b.events.write e = .ok row ∧ kind row = some e.kind
  escrow_written : ∀ {e row}, (e.milestones.map (·.id)).Nodup → b.escrows.write e = .ok row →
    b.escrows.id row = e.id ∧ Sound row ∧ completions row = e.completions ∧ claim row = e.claim
  escrow_read : ∀ {row e}, b.escrows.read row = .ok e →
    completions row = e.completions ∧ claim row = e.claim
  escrow_updated : ∀ {row e next changed}, Sound row → b.escrows.read row = .ok e →
    next.id = e.id → next.milestones.map (·.id) = e.milestones.map (·.id) →
      b.escrows.update row next = .ok changed →
        b.escrows.id changed = b.escrows.id row ∧ Sound changed ∧
          completions changed = next.completions ∧ claim changed = next.claim

namespace Backend

/-- Records that are kept as they are tell themselves. -/
def memoryGauge : Gauge .memory where
  approved := TransactionRecord.approved
  bypass := TransactionRecord.bypass
  failedAt := TransactionRecord.failedAt
  completions := Escrow.completions
  claim := Escrow.claim
  kind e := some e.kind
  Sound _ := True
  record_written written := by
    cases written
    exact ⟨rfl, rfl, rfl⟩
  event_written e := ⟨e, rfl, rfl⟩
  escrow_written _ written := by
    cases written
    exact ⟨rfl, trivial, rfl, rfl⟩
  escrow_read read := by
    cases read
    exact ⟨rfl, rfl⟩
  escrow_updated _ read same _ updated := by
    cases read
    cases updated
    exact ⟨same, trivial, rfl, rfl⟩

end Backend

/-! ### Rows of a database -/

theorem MilestoneStatus.eq_word_of_ofWord? {word : String} {status : MilestoneStatus}
    (known : ofWord? word = some status) : word = status.word := by
  have found : all.find? (·.word == word) = some status := known
  have same := List.find?_some found
  exact (by simpa using same : status.word = word).symm

namespace MilestoneRow

def isCompleted (row : MilestoneRow) : Bool := row.status == MilestoneStatus.completed.word

theorem isCompleted_of_status {row : MilestoneRow} {m : Milestone}
    (status : row.status = m.status.word) : row.isCompleted = m.isCompleted := by
  rw [isCompleted, Milestone.isCompleted, status]
  cases m.status <;> decide

theorem of_toMilestone {row : MilestoneRow} {m : Milestone} (read : row.toMilestone = .ok m) :
    m.id = row.id ∧ row.isCompleted = m.isCompleted := by
  simp only [toMilestone, Json.toWord, bind_ok_iff, Failure.require_ok_iff] at read
  obtain ⟨amount, -, status, known, made⟩ := read
  cases made
  exact ⟨rfl, isCompleted_of_status (MilestoneStatus.eq_word_of_ofWord? known)⟩

theorem of_mapM_toMilestone {rows : List MilestoneRow} {milestones : List Milestone}
    (read : rows.mapM toMilestone = .ok milestones) :
    milestones.map (·.id) = rows.map (·.id) ∧
      rows.countP isCompleted = milestones.countP (·.isCompleted) := by
  induction rows generalizing milestones with
  | nil =>
    cases read
    exact ⟨rfl, rfl⟩
  | cons row rest ih =>
    rw [List.mapM_cons] at read
    obtain ⟨m, first, read⟩ := bind_ok_iff.mp read
    obtain ⟨later, known, read⟩ := bind_ok_iff.mp read
    cases read
    obtain ⟨id, completed⟩ := of_toMilestone first
    obtain ⟨ids, count⟩ := ih known
    exact ⟨by rw [List.map_cons, List.map_cons, id, ids],
      by rw [List.countP_cons, List.countP_cons, completed, count]⟩

section Updates

variable {rows : List MilestoneRow} {e : Escrow}

/-- The row once it is updated with the milestone of its id. -/
def updatedBy (e : Escrow) (row : MilestoneRow) : MilestoneRow :=
  match e.find? row.id with
  | some m => row.update m
  | none => row

@[simp] theorem updatedBy_id (e : Escrow) (row : MilestoneRow) :
    (row.updatedBy e).id = row.id := by
  unfold updatedBy
  split <;> rfl

/-- A row that is updated with the milestone of its id is as completed as that is. -/
theorem isCompleted_updatedBy (ids : e.milestones.map (·.id) = rows.map (·.id))
    (unique : (rows.map (·.id)).Nodup) {row : MilestoneRow} (mem : row ∈ rows) :
    (row.updatedBy e).isCompleted = (e.find? row.id).any (·.isCompleted) := by
  have among : row.id ∈ e.milestones.map (·.id) := ids ▸ List.mem_map_of_mem mem
  obtain ⟨m, known, same⟩ := List.mem_map.mp among
  have found : e.find? row.id = some m := same ▸ find?_key_of_mem (ids ▸ unique) known
  rw [updatedBy, found]
  exact isCompleted_of_status rfl

theorem any_isCompleted_of_mem (unique : (e.milestones.map (·.id)).Nodup) {m : Milestone}
    (mem : m ∈ e.milestones) : (e.find? m.id).any (·.isCompleted) = m.isCompleted := by
  have found : e.find? m.id = some m := find?_key_of_mem unique mem
  rw [found, Option.any_some]

/-- Where ids are shared by no two milestones, each row is updated with the milestone of its id. -/
theorem countP_updatedBy (ids : e.milestones.map (·.id) = rows.map (·.id))
    (unique : (rows.map (·.id)).Nodup) :
    (rows.map (updatedBy e)).countP isCompleted = e.completions :=
  calc (rows.map (updatedBy e)).countP isCompleted
      = rows.countP fun row => (e.find? row.id).any (·.isCompleted) := by
        rw [List.countP_map]
        exact List.countP_congr fun row mem => by
          rw [Function.comp_apply, isCompleted_updatedBy ids unique mem]
    _ = (rows.map (·.id)).countP fun id => (e.find? id).any (·.isCompleted) := by
        rw [List.countP_map]
        rfl
    _ = e.milestones.countP fun m => (e.find? m.id).any (·.isCompleted) := by
        rw [← ids, List.countP_map]
        rfl
    _ = e.completions := List.countP_congr fun m mem => by
        rw [any_isCompleted_of_mem (ids ▸ unique) mem]

end Updates

end MilestoneRow

namespace EscrowRow

/-- Why an escrow was clawed back, as its document tells. -/
def claim (row : EscrowRow) : Option ClawbackReason :=
  (Column.toText? (Column.field row.clawback "reason")).bind ClawbackReason.ofWord?

theorem claim_receiptDocument {row : EscrowRow} {receipt : Option ClawbackReceipt}
    (document : row.clawback = receiptDocument receipt) : row.claim = receipt.map (·.reason) := by
  rw [claim, document]
  cases receipt with
  | none => rfl
  | some r => exact ClawbackReason.ofWord?_word r.reason

theorem field_of_untruthy {document : Json} (untruthy : document.truthy = false) (key : String) :
    Column.field document key = .null := by
  cases document with
  | object fields =>
    cases fields with
    | nil => rfl
    | cons first rest => cases untruthy
  | _ => rfl

theorem claim_of_readReceipt {row : EscrowRow} {receipt : Option ClawbackReceipt}
    (read : readReceipt row.id row.clawback = .ok receipt) :
    row.claim = receipt.map (·.reason) := by
  unfold readReceipt at read
  split at read
  · rename_i untruthy
    cases read
    rw [claim, field_of_untruthy (by simpa using untruthy)]
    rfl
  · simp only [bind_ok_iff] at read
    obtain ⟨reason, known, amount, -, penalty, -, net, -, savings, -, rest, -, time, -, made⟩ :=
      read
    cases made
    rw [claim]
    cases told : Column.field row.clawback "reason" with
    | text word =>
      rw [told] at known
      exact Failure.require_ok_iff.mp known
    | _ =>
      rw [told] at known
      cases known

theorem milestones_update (row : EscrowRow) (e : Escrow) :
    (row.update e).milestones = row.milestones.map (MilestoneRow.updatedBy e) := rfl

theorem ids_update (row : EscrowRow) (e : Escrow) :
    (row.update e).milestones.map (·.id) = row.milestones.map (·.id) := by
  simp [milestones_update, Function.comp_def]

theorem of_toEscrow {row : EscrowRow} {e : Escrow} (read : row.toEscrow = .ok e) :
    e.milestones.map (·.id) = row.milestones.map (·.id) ∧
      row.milestones.countP MilestoneRow.isCompleted = e.completions ∧ row.claim = e.claim := by
  simp only [toEscrow, bind_ok_iff] at read
  obtain ⟨milestones, known, receipt, claimed, made⟩ := read
  cases made
  obtain ⟨ids, count⟩ := MilestoneRow.of_mapM_toMilestone known
  exact ⟨ids, count, claim_of_readReceipt claimed⟩

end EscrowRow

namespace Backend

/-- Rows tell what is counted in columns of their own. -/
def relationalGauge : Gauge .relational where
  approved := RecordRow.approved
  bypass := RecordRow.bypass
  failedAt row := row.failedAt.bind Stage.ofWord?
  completions row := row.milestones.countP MilestoneRow.isCompleted
  claim := EscrowRow.claim
  kind row := EventKind.ofWord? row.kind
  Sound row := (row.milestones.map (·.id)).Nodup
  record_written {r row} written := by
    obtain ⟨merchant, -, made⟩ := bind_ok_iff.mp written
    cases made
    refine ⟨rfl, rfl, ?_⟩
    cases failedAt : r.failedAt with
    | none => rfl
    | some stage => exact Stage.ofWord?_word stage
  event_written e := ⟨_, rfl, EventKind.ofWord?_word e.kind⟩
  escrow_written {e row} unique written := by
    cases written
    refine ⟨rfl, ?_, ?_, EscrowRow.claim_receiptDocument rfl⟩
    · simpa [EscrowRow.ofEscrow, Function.comp_def, MilestoneRow.ofMilestone] using unique
    · simp only [EscrowRow.ofEscrow, List.countP_map, Escrow.completions]
      refine List.countP_congr fun m _ => ?_
      have same : MilestoneRow.isCompleted (.ofMilestone m) = m.isCompleted :=
        MilestoneRow.isCompleted_of_status rfl
      rw [Function.comp_apply, same]
  escrow_read read := (EscrowRow.of_toEscrow read).2
  escrow_updated {row e next changed} unique read _ same updated := by
    cases updated
    obtain ⟨ids, -⟩ := EscrowRow.of_toEscrow read
    exact ⟨rfl, EscrowRow.ids_update row next ▸ unique,
      MilestoneRow.countP_updatedBy (same.trans ids) unique,
      EscrowRow.claim_receiptDocument rfl⟩

end Backend

end Earmark
