import Earmark.Proofs.Documents
import Earmark.Proofs.EscrowRuns
import Earmark.Proofs.Rows
import Earmark.Proofs.StoredEscrows

/-!
Escrows as rows. The row of an escrow reads back as that escrow, its receipt from the document that
keeps it as text, and updating the row after a release or a clawback makes it the row of the escrow
as it is then (`EscrowRow.follow_ofEscrow`).
-/

namespace Earmark

/-! ### What can be stored -/

/-- The amount is one that a money column keeps, and the times are those of universal time. -/
structure Milestone.Storable (m : Milestone) : Prop where
  amount : m.amount.IsAmount
  positive : 0 < m.amount.cents
  keeps : Column.Keeps m.amount
  completedAt : ∀ t ∈ m.completedAt, t.offset = some 0

/-- The receipt is one of the escrow, its amounts can be written and its time is one of universal
time. -/
structure ClawbackReceipt.Storable (r : ClawbackReceipt) (escrowId : String) : Prop where
  escrowId : r.escrowId = escrowId
  amount : r.amount.IsWritten
  penalty : r.penalty.IsWritten
  netReturned : r.netReturned.IsWritten
  savings : r.savings.IsWritten
  unrecovered : r.unrecovered.IsWritten
  universal : r.time.offset = some 0
  onCalendar : Time.onCalendar r.time.micros = true

namespace Escrow

structure Storable (e : Escrow) : Prop where
  createdAt : e.createdAt.offset = some 0
  expiresAt : e.expiresAt.offset = some 0
  ids : (e.milestones.map (·.id)).Nodup
  milestones : ∀ m ∈ e.milestones, m.Storable
  receipt : ∀ r ∈ e.clawback, r.Storable e.id

/-- A later state of an escrow, in which its terms are the same. -/
structure Continues (e next : Escrow) : Prop where
  id : next.id = e.id
  user : next.user = e.user
  intentId : next.intentId = e.intentId
  title : next.title = e.title
  createdAt : next.createdAt = e.createdAt
  expiresAt : next.expiresAt = e.expiresAt
  terms : next.milestones.map Milestone.terms = e.milestones.map Milestone.terms

end Escrow

/-! ### Reading rows -/

theorem MilestoneRow.toMilestone_ofMilestone {m : Milestone} (storable : m.Storable) :
    (ofMilestone m).toMilestone = .ok m := by
  have amount := storable.keeps.toAmount_eq storable.amount
    (Decimal.unsignedZero_eq storable.positive.ne')
  have completedAt : (m.completedAt.map Column.ofTime).map Column.toTime = m.completedAt := by
    cases completed : m.completedAt with
    | none => rfl
    | some t => exact congrArg some (Column.toTime_ofTime (storable.completedAt t completed))
  simp only [toMilestone, ofMilestone, amount, Json.toWord, MilestoneStatus.ofWord?_word,
    Failure.require, completedAt, ok_bind]

namespace EscrowRow

variable {e next : Escrow}

private theorem exact_toText {d : Decimal} (written : d.IsWritten) :
    (Numeral.text d.toText).exact = .ok d := by
  rw [Numeral.exact, Decimal.ofText?_toText written]
  rfl

theorem readReceipt_receiptDocument {receipt : Option ClawbackReceipt} {escrowId : String}
    (storable : ∀ r ∈ receipt, r.Storable escrowId) :
    readReceipt escrowId (receiptDocument receipt) = .ok receipt := by
  cases receipt with
  | none => rfl
  | some r =>
    obtain ⟨rfl, amount, penalty, netReturned, savings, unrecovered, universal, onCalendar⟩ :=
      storable r rfl
    have time : ({ r.time with offset := some (r.time.offset.getD 0) } : Time) = r.time := by
      rw [universal, Option.getD_some, ← universal]
    have read : readReceipt r.escrowId (receiptDocument (some r)) = (do
        let reason ← (Json.text r.reason.word).toWord "ClawbackReason" ClawbackReason.ofWord?
        let amount ← (Numeral.text r.amount.toText).exact
        let penalty ← (Numeral.text r.penalty.toText).exact
        let netReturned ← (Numeral.text r.netReturned.toText).exact
        let savings ← (Numeral.text r.savings.toText).exact
        let unrecovered ← (Numeral.text r.unrecovered.toText).exact
        let time ← (Time.ofText r.time.toText).mapError (.notATime r.time.toText)
        .ok (some
          { escrowId := r.escrowId, reason, amount, penalty, netReturned, savings, unrecovered
            time := { time with offset := some (time.offset.getD 0) } })) := rfl
    simp only [read, Json.toWord, ClawbackReason.ofWord?_word, Failure.require,
      exact_toText amount, exact_toText penalty, exact_toText netReturned, exact_toText savings,
      exact_toText unrecovered, Time.ofText_toText universal onCalendar, Except.mapError, ok_bind,
      time]

/-- The row of an escrow reads back as that escrow. -/
theorem toEscrow_ofEscrow (storable : e.Storable) : (ofEscrow e).toEscrow = .ok e := by
  have milestones := mapM_map_ok fun m mem =>
    MilestoneRow.toMilestone_ofMilestone (storable.milestones m mem)
  simp only [toEscrow, ofEscrow, milestones, readReceipt_receiptDocument storable.receipt, ok_bind,
    Column.toTime_ofTime storable.createdAt, Column.toTime_ofTime storable.expiresAt]

private theorem find?_of_mem {milestones : List Milestone} (ids : (milestones.map (·.id)).Nodup)
    {m : Milestone} (mem : m ∈ milestones) : milestones.find? (·.id == m.id) = some m := by
  obtain ⟨first, rest, rfl⟩ := List.append_of_mem mem
  rw [List.map_append, List.map_cons, List.nodup_append] at ids
  refine List.find?_eq_some_iff_append.mpr ⟨by simp, first, rest, rfl, fun other known => ?_⟩
  have apart := ids.2.2 other.id (List.mem_map_of_mem known) m.id (by simp)
  simpa using apart

/-- A row that is updated with a milestone of the same terms is the row of that milestone. -/
private theorem update_ofMilestone {m done : Milestone} (same : done.terms = m.terms) :
    (MilestoneRow.ofMilestone m).update done = MilestoneRow.ofMilestone done := by
  simp only [Milestone.terms, Prod.mk.injEq] at same
  obtain ⟨id, description, amount, proofKind⟩ := same
  simp only [MilestoneRow.update, MilestoneRow.ofMilestone, id, description, amount, proofKind]

/-- Copying the state of the milestones and the receipt into the row of an escrow makes the row of
a later state of it. -/
theorem update_ofEscrow (later : e.Continues next) (ids : (next.milestones.map (·.id)).Nodup) :
    (ofEscrow e).update next = ofEscrow next := by
  have milestones : ((ofEscrow e).update next).milestones = (ofEscrow next).milestones := by
    have count : e.milestones.length = next.milestones.length := by
      simpa using congrArg List.length later.terms.symm
    refine List.ext_getElem (by simp [update, ofEscrow, count]) fun n old new => ?_
    have within : n < next.milestones.length := by simpa [ofEscrow] using new
    have terms : next.milestones[n].terms = e.milestones[n].terms := by
      have here := congrArg (·[n]?) later.terms
      simpa [within, count] using here
    have id : next.milestones[n].id = e.milestones[n].id := congrArg Prod.fst terms
    have found := find?_of_mem ids (List.getElem_mem within)
    rw [id] at found
    simp only [update, ofEscrow, List.getElem_map]
    rw [show next.find? (MilestoneRow.ofMilestone e.milestones[n]).id = _ from found]
    simpa [ofEscrow] using update_ofMilestone terms
  simp only [update, ofEscrow, EscrowRow.mk.injEq, later.id, later.user, later.intentId,
    later.title, later.createdAt, later.expiresAt, true_and]
  exact milestones

end EscrowRow

namespace Escrow

variable {e next : Escrow} {now : Time}

/-! ### Calls -/

private theorem completedAt_of_release {milestoneId : String} {proof merchantId : Option String}
    {done : Milestone} (released : e.release milestoneId proof now merchantId = .ok (done, next)) :
    done.completedAt = some now := by
  simp only [release, bind_ok_iff] at released
  obtain ⟨status, -, released⟩ := released
  split at released
  · cases released
  · split at released
    · cases released
    · split_ifs at released
      cases released
      rfl

private theorem Storable.isWritten_pending (storable : e.Storable) {pending : Decimal}
    (left : e.pending = .ok pending) : pending.IsWritten := by
  simp only [Escrow.pending, Escrow.total, Escrow.released, bind_ok_iff,
    Failure.ofDecimal_ok_iff] at left
  obtain ⟨total, totalled, released, summed, left⟩ := left
  have finite (milestones : List Milestone) (known : ∀ m ∈ milestones, m ∈ e.milestones) :
      ∀ d ∈ milestones.map (·.amount), d.isFinite = true := by
    intro d mem
    obtain ⟨m, among, rfl⟩ := List.mem_map.mp mem
    exact (storable.milestones m (known m among)).amount.isFinite_eq
  have whole := Decimal.isWritten_of_sum (finite _ fun m mem => mem) totalled
  have part := Decimal.isWritten_of_sum (finite _ fun m mem => List.mem_of_mem_filter mem) summed
  exact Decimal.isWritten_of_sub whole.isFinite_eq part.isFinite_eq left

/-- The receipt of a clawback can be written. -/
private theorem storable_of_clawBack (storable : e.Storable) (universal : now.offset = some 0)
    (onCalendar : Time.onCalendar now.micros = true) {reason : ClawbackReason}
    {part : Option Numeral} {rates : Rates} {receipt : ClawbackReceipt}
    (done : e.clawBack reason now part rates = .ok (receipt, next)) :
    receipt.Storable e.id ∧ next = { e with clawback := some receipt } := by
  simp only [clawBack_eq, recover, bind_ok_iff] at done
  obtain ⟨status, -, done⟩ := done
  split at done
  · cases done
  · simp only [bind_ok_iff] at done
    obtain ⟨pending, left, amount, asked, empty, -, beyond, -, done⟩ := done
    split at done
    · cases done
    · simp only [bind_ok_iff, Failure.ofDecimal_ok_iff, Except.ok.injEq, Prod.mk.injEq] at done
      obtain ⟨penalty, penalised, net, returned, savings, saved, unrecovered, rest, rfl, rfl⟩ := done
      have wholePending := storable.isWritten_pending left
      have whole : amount.IsWritten := by
        cases part with
        | none =>
          cases asked
          exact wholePending
        | some part =>
          have brought : part.toAmount = .ok amount := asked
          exact (isAmount_of_toAmount brought).isWritten
      have penalty' : penalty.IsWritten := (isAmount_of_applyRate penalised).isWritten
      have net' : net.IsWritten :=
        Decimal.isWritten_of_sub whole.isFinite_eq penalty'.isFinite_eq returned
      have savings' : savings.IsWritten := (isAmount_of_applyRate saved).isWritten
      have unrecovered' : unrecovered.IsWritten :=
        Decimal.isWritten_of_sub wholePending.isFinite_eq whole.isFinite_eq rest
      exact ⟨⟨rfl, whole, penalty', net', savings', unrecovered', universal, onCalendar⟩, rfl⟩

/-- A release keeps the terms and leads to an escrow that can be stored. -/
private theorem Storable.released (storable : e.Storable) (universal : now.offset = some 0)
    {milestoneId : String} {proof merchantId : Option String} {done : Milestone}
    (released : e.release milestoneId proof now merchantId = .ok (done, next)) :
    e.Continues next ∧ next.Storable := by
  have completedAt := completedAt_of_release released
  obtain ⟨first, m, rest, unclaimed, place, -, -, terms, -, rfl⟩ := release_ok released
  have same : (first ++ done :: rest).map Milestone.terms = e.milestones.map Milestone.terms := by
    rw [place, List.map_append, List.map_cons, terms, List.map_append, List.map_cons]
  have ids : (first ++ done :: rest).map (·.id) = e.milestones.map (·.id) := by
    have firsts := congrArg (List.map Prod.fst) same
    rwa [List.map_map, List.map_map] at firsts
  refine ⟨⟨rfl, rfl, rfl, rfl, rfl, rfl, same⟩, storable.createdAt, storable.expiresAt,
    ids ▸ storable.ids, fun other mem => ?_, storable.receipt⟩
  have old : m.Storable := storable.milestones m (by simp [place])
  have amount : done.amount = m.amount := by
    simp only [Milestone.terms, Prod.mk.injEq] at terms
    exact terms.2.2.1
  rcases List.mem_append.mp mem with before | later
  · exact storable.milestones other (by simp [place, before])
  · rcases List.mem_cons.mp later with rfl | later
    · refine ⟨amount ▸ old.amount, amount ▸ old.positive, amount ▸ old.keeps, fun t known => ?_⟩
      rw [completedAt] at known
      cases known
      exact universal
    · exact storable.milestones other (by simp [place, later])

/-- A built escrow can be stored if a money column keeps its amounts. -/
theorem storable_of_build {ids : Ids} {user title : String} {specs : List MilestoneSpec}
    {intentId : Option String} {days : Int}
    (built : (build ids user specs now intentId title days).2 = .ok e)
    (universal : now.offset = some 0) (keeps : ∀ m ∈ e.milestones, Column.Keeps m.amount) :
    e.Storable := by
  obtain ⟨unclaimed, -, ids', fresh⟩ := milestones_of_build built
  obtain ⟨createdAt, expiresAt⟩ :
      e.createdAt.offset = some 0 ∧ e.expiresAt.offset = some 0 := by
    obtain ⟨-, last, milestones, expiresAt, -, added, rfl⟩ := build_ok built
    exact ⟨universal, (Time.offset_addDays? added).trans universal⟩
  refine ⟨createdAt, expiresAt, ids', fun m mem => ?_, fun r claimed => ?_⟩
  · obtain ⟨-, amount, positive⟩ := fresh m mem
    have pending := (exists_spec_of_build built m mem).1
    exact ⟨amount, positive, keeps m mem, by simp [pending]⟩
  · rw [unclaimed] at claimed
    cases claimed

/-- A call that succeeds leads to a later state that can be stored. -/
theorem Storable.run (storable : e.Storable) (universal : now.offset = some 0)
    (onCalendar : Time.onCalendar now.micros = true) {c : Call} {answer : Answer}
    (done : c.run now e = .ok (answer, next)) : e.Continues next ∧ next.Storable := by
  cases c with
  | release milestoneId proof merchantId =>
    simp only [Call.run, Service.releaseIn, bind_ok_iff, Except.ok.injEq, Prod.mk.injEq] at done
    obtain ⟨-, ⟨⟨completed, after⟩, released, -, -, -, -, -, -, rfl⟩, -, rfl⟩ := done
    exact storable.released universal released
  | clawBack reason part rates =>
    simp only [Call.run, bind_ok_iff, Except.ok.injEq, Prod.mk.injEq] at done
    obtain ⟨⟨receipt, after⟩, clawed, -, rfl⟩ := done
    obtain ⟨receipt, rfl⟩ := storable_of_clawBack storable universal onCalendar clawed
    refine ⟨⟨rfl, rfl, rfl, rfl, rfl, rfl, rfl⟩, storable.createdAt, storable.expiresAt,
      storable.ids, storable.milestones, fun r claimed => ?_⟩
    cases claimed
    exact receipt

end Escrow

namespace EscrowRow

variable {e : Escrow} {run : List (Time × Escrow.Call)}

/-- The row of an escrow, updated after each of some calls that succeeds. -/
def follow (row : EscrowRow) (e : Escrow) : List (Time × Escrow.Call) → EscrowRow
  | [] => row
  | (now, c) :: rest =>
    match c.run now e with
    | .ok (_, next) => (row.update next).follow next rest
    | .error _ => row.follow e rest

/-- After any calls the row that followed them is the row of the escrow as it is then. -/
theorem follow_ofEscrow (storable : e.Storable)
    (times : ∀ entry ∈ run, entry.1.offset = some 0 ∧ Time.onCalendar entry.1.micros = true) :
    (ofEscrow e).follow e run = ofEscrow (e.after run) ∧ (e.after run).Storable := by
  induction run generalizing e with
  | nil => exact ⟨rfl, storable⟩
  | cons entry rest ih =>
    obtain ⟨now, c⟩ := entry
    have times' := fun entry mem => times entry (List.mem_cons_of_mem _ mem)
    obtain ⟨universal, onCalendar⟩ := times (now, c) (by simp)
    rw [follow, Escrow.after, Escrow.step]
    cases done : c.run now e with
    | error failure => exact ih storable times'
    | ok result =>
      obtain ⟨answer, next⟩ := result
      obtain ⟨later, storable'⟩ := storable.run universal onCalendar done
      simp only [update_ofEscrow later storable'.ids]
      exact ih storable' times'

end EscrowRow

end Earmark
