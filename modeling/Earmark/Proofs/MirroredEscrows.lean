import Earmark.Proofs.MirroredPayments

/-!
Escrows over a world and its mirror, and the summary of a user. Rows follow the escrows they are of,
and the totals of a summary are the same numbers in both.
-/

namespace Earmark

open scoped Earmark.Whole

namespace Service

variable {α : Type} {w : World .memory} {id : String}

/-! ### Escrows -/

theorem find?_escrows_mirror (w : World .memory) (id : String) :
    Backend.relational.escrows.find? id w.mirror.store.escrows =
      (Escrow.findIn w.escrows id).map EscrowRow.ofEscrow :=
  Table.find?_map (fun _ => rfl) id w.escrows

theorem mirrors_getEscrow (stored : w.Stored) (id : String) :
    Mirrors Eq w (getEscrow id) (getEscrow id) := by
  have kept : Backend.memory.escrows.find? id w.store.escrows = Escrow.findIn w.escrows id := rfl
  refine mirrors_get (mirrors_check_bind (R := Eq) ?_ fun _ same => same ▸ mirrors_check (.refl _))
  rw [find?_escrows_mirror, kept]
  cases found : Escrow.findIn w.escrows id with
  | none => exact .ok rfl
  | some e =>
    have read := EscrowRow.toEscrow_ofEscrow (stored.escrows e (Escrow.mem_of_findIn found)).1
    change SameResult Eq _ (some <$> (EscrowRow.ofEscrow e).toEscrow)
    rw [read]
    exact .ok rfl

theorem mirrors_listEscrows (stored : w.Stored) (user : String) :
    Mirrors Eq w (listEscrows user) (listEscrows user) := by
  have own : Backend.memory.escrows.ofUser user w.store.escrows =
      .ok (w.escrows.filter (·.user == user)) := Table.ofUser_direct Escrow.id Escrow.user user _
  have own' : Backend.relational.escrows.ofUser user w.mirror.store.escrows =
      .ok ((w.escrows.filter (·.user == user)).map id) :=
    Table.ofUser_map (fun _ => rfl) fun e mem =>
      EscrowRow.toEscrow_ofEscrow (stored.escrows e mem).1
  refine mirrors_get (mirrors_check ?_)
  rw [own, own', List.map_id]
  exact .refl _

/-- A change of an escrow is followed by the row of that escrow. -/
theorem mirrors_updateEscrow (stored : w.Stored) {change : Escrow → Except Failure (α × Escrow)}
    (continues : ∀ e a next, e.Storable → change e = .ok (a, next) →
      e.Continues next ∧ next.Storable) :
    Mirrors Eq w (updateEscrow id change) (updateEscrow id change) := by
  have kept : Backend.memory.escrows.find? id w.store.escrows = Escrow.findIn w.escrows id := rfl
  refine Mirrors.atomically (mirrors_get ?_) (atomic_updateEscrow id change w)
  rw [find?_escrows_mirror, kept]
  cases found : Escrow.findIn w.escrows id with
  | none => exact mirrors_throw (.escrowNotFound _ _ _)
  | some e =>
    have mem := Escrow.mem_of_findIn found
    obtain ⟨storable, number, given, named⟩ := stored.escrows e mem
    have read : Backend.memory.escrows.read e = .ok e := rfl
    have read' : Backend.relational.escrows.read (EscrowRow.ofEscrow e) = .ok e :=
      EscrowRow.toEscrow_ofEscrow storable
    simp only [Option.map_some]
    rw [read, read', ok_bind]
    refine mirrors_check_bind (.refl _) fun {made made'} done same => ?_
    obtain rfl := same
    obtain ⟨result, next⟩ := made
    obtain ⟨later, storable'⟩ := continues e result next storable done
    have updated : Backend.relational.escrows.update (EscrowRow.ofEscrow e) next =
        .ok (EscrowRow.ofEscrow next) :=
      congrArg Except.ok (EscrowRow.update_ofEscrow later storable'.ids)
    dsimp only
    rw [updated]
    refine mirrors_check_bind (R := fun row row' => next = row ∧ EscrowRow.ofEscrow next = row')
      (.ok ⟨rfl, rfl⟩) fun {row row'} _ same => ?_
    obtain ⟨rfl, rfl⟩ := same
    refine (mirrors_modify ?_ fun before => ?_).bind fun _ _ _ => mirrors_pure rfl
    · simp only [World.mirror, Store.mirror]
      congr 2
      exact Table.replace_map (fun _ => rfl) id next w.escrows
    · refine { before with escrows := fun other mem' => ?_ }
      rcases Escrow.mem_replaceIn mem' with rfl | old
      · exact ⟨storable', number, given, later.id.trans named⟩
      · exact before.escrows other old

theorem mirrors_addEscrow {e : Escrow} {number : Nat} (storable : e.Storable)
    (fresh : Escrow.findIn w.escrows e.id = none) (named : e.id = Ids.escrow number)
    (given : number ≤ w.ids.escrows) : Mirrors Eq w (addEscrow e) (addEscrow e) := by
  have lost : Backend.memory.escrows.find? e.id w.store.escrows = none := fresh
  have lost' : Backend.relational.escrows.find? e.id w.mirror.store.escrows = none := by
    rw [find?_escrows_mirror, fresh]
    rfl
  refine Mirrors.atomically (mirrors_get ?_) (atomic_addEscrow e w)
  rw [lost, lost']
  refine mirrors_check_bind (R := fun row row' => e = row ∧ EscrowRow.ofEscrow e = row')
    (.ok ⟨rfl, rfl⟩) fun {row row'} _ same => ?_
  obtain ⟨rfl, rfl⟩ := same
  refine mirrors_modify ?_ fun stored => { stored with
    escrows := List.forall_mem_append.mpr ⟨stored.escrows,
      List.forall_mem_singleton.mpr ⟨storable, number, given, named⟩⟩ }
  simp only [World.mirror, Store.mirror]
  congr 2
  exact (@List.map_append _ _ EscrowRow.ofEscrow w.escrows [e]).symm

/-- An escrow of amounts that a money column keeps. -/
theorem mirrors_createEscrow (stored : w.Stored) (config : Config) {now : Time}
    (universal : now.offset = some 0) (user : String) {specs : List MilestoneSpec}
    (small : ∀ spec ∈ specs, ∀ d, spec.amount.toAmount = .ok d →
      d.cents.natAbs < 10 ^ (15 : Nat)) (title : String) (intentId : Option String) :
    Mirrors Eq w (createEscrow config now user specs title intentId)
      (createEscrow config now user specs title intentId) := by
  refine mirrors_get ?_
  have same : w.mirror.ids = w.ids := rfl
  rw [same]
  have number := Escrow.build_number w.ids user specs now intentId title config.expiryDays
  have built (e : Escrow)
      (made : (Escrow.build w.ids user specs now intentId title config.expiryDays).2 = .ok e) :
      e.Storable ∧ ∃ total, e.total = .ok total := by
    refine ⟨Escrow.storable_of_build made universal fun m mem => ?_,
      Escrow.exists_total_of_build made⟩
    obtain ⟨-, spec, asked, brought⟩ := Escrow.exists_spec_of_build made m mem
    exact Column.keeps_of_small (isAmount_of_toAmount brought) (small spec asked _ brought)
  have intents := congrArg Ids.intents
    (Escrow.ids_build w.ids user specs now intentId title config.expiryDays)
  generalize Escrow.build w.ids user specs now intentId title config.expiryDays = made at *
  obtain ⟨ids, made⟩ := made
  dsimp only at number built intents ⊢
  obtain ⟨grown, number⟩ := number
  refine (mirrors_modify rfl fun stored => { stored with
    intents := fun i mem => ?_, escrows := fun e mem => ?_ }).bind fun {_ _ after} ran kept _ => ?_
  · obtain ⟨storable, n, given, named⟩ := stored.intents i mem
    exact ⟨storable, n, given.trans intents.ge, named⟩
  · obtain ⟨storable, n, given, named⟩ := stored.escrows e mem
    exact ⟨storable, n, given.trans grown, named⟩
  refine mirrors_check_bind (.refl _) fun {e e'} made same => ?_
  obtain rfl := same
  obtain ⟨storable, total, summed⟩ := built e made
  obtain ⟨next, named, -⟩ := number e made
  have fresh : Escrow.findIn (World.escrows { w with ids }) e.id = none := by
    refine List.find?_eq_none.mpr fun old mem same => ?_
    exact Ids.next_ne (stored.escrows old mem).2 ((eq_of_beq same).trans named)
  obtain ⟨-, rfl⟩ := Prod.mk.inj ran
  rw [summed]
  exact (mirrors_addEscrow storable fresh named (le_of_eq next.symm)).bind fun _ _ _ =>
    (mirrors_note _).bind fun _ _ _ => mirrors_pure rfl

theorem mirrors_releaseMilestone (stored : w.Stored) (config : Config) {now : Time}
    (universal : now.offset = some 0) (onCalendar : Time.onCalendar now.micros = true)
    (escrowId milestoneId : String) (proof merchantId : Option String) :
    Mirrors Eq w (releaseMilestone config now escrowId milestoneId proof merchantId)
      (releaseMilestone config now escrowId milestoneId proof merchantId) := by
  refine (mirrors_updateEscrow stored fun e made next storable done => ?_).bind
    fun {made made' after} _ _ same => ?_
  · have run : (Escrow.Call.release milestoneId proof merchantId).run now e =
        .ok (.released made.1, next) := by
      rw [Escrow.Call.run, done]
      rfl
    exact storable.run universal onCalendar run
  obtain rfl := same
  exact (mirrors_tally _).bind fun _ _ _ => (mirrors_note _).bind fun _ _ _ => mirrors_ite
    (fun _ => (mirrors_follow config universal _ _ _).bind fun _ _ _ => mirrors_pure rfl)
    fun _ => mirrors_pure rfl

theorem mirrors_clawBack (stored : w.Stored) (config : Config) {now : Time}
    (universal : now.offset = some 0) (onCalendar : Time.onCalendar now.micros = true)
    (escrowId : String) (reason : ClawbackReason) (part : Option Numeral) :
    Mirrors Eq w (clawBack config now escrowId reason part)
      (clawBack config now escrowId reason part) := by
  refine (mirrors_updateEscrow stored fun e made next storable done => ?_).bind
    fun {made made' after} _ _ same => ?_
  · obtain ⟨⟨receipt, after⟩, clawed, made⟩ := bind_ok_iff.mp done
    cases made
    have run : (Escrow.Call.clawBack reason part config.rates).run now e =
        .ok (.clawedBack receipt, next) := by
      rw [Escrow.Call.run, clawed]
      rfl
    exact storable.run universal onCalendar run
  obtain rfl := same
  exact (mirrors_tally _).bind fun _ _ _ => (mirrors_note _).bind fun _ _ _ => mirrors_ite
    (fun _ => (mirrors_follow config universal _ _ _).bind fun _ _ _ => mirrors_pure rfl)
    fun _ => mirrors_pure rfl

end Service

/-! ### Summaries -/

/-- The figures with amounts as numbers: zero has no sign. -/
def SpendingSummary.unsigned (figures : SpendingSummary) : SpendingSummary :=
  { figures with
    spent := figures.spent.unsignedZero
    blocked := figures.blocked.unsignedZero
    categorySpend := figures.categorySpend.map fun entry => (entry.1, entry.2.unsignedZero)
    lockedInIntents := figures.lockedInIntents.unsignedZero
    pendingInEscrows := figures.pendingInEscrows.unsignedZero }

namespace SpendingSummary

/-- A sum does not depend on the signs of zeros, but for its own. -/
private theorem sameResult_sum (ds : List Decimal) :
    SameResult (fun total total' => total.unsignedZero = total'.unsignedZero)
      (Failure.ofDecimal (Decimal.sum ds))
      (Failure.ofDecimal (Decimal.sum (ds.map Decimal.unsignedZero))) := by
  have same := Decimal.sum_unsignedZero ds
  cases first : Decimal.sum ds with
  | error fault =>
    cases second : Decimal.sum (ds.map Decimal.unsignedZero) with
    | error fault' =>
      rw [first, second] at same
      obtain rfl := Except.error.inj same
      exact .error (.refl _)
    | ok total =>
      rw [first, second] at same
      cases same
  | ok total =>
    cases second : Decimal.sum (ds.map Decimal.unsignedZero) with
    | error fault =>
      rw [first, second] at same
      cases same
    | ok total' =>
      rw [first, second] at same
      exact .ok (Except.ok.inj same).symm

theorem sameResult_of (user : String) (records : List TransactionRecord) (intents : List Intent)
    (escrows : List Escrow) :
    SameResult (fun figures figures' => figures.unsigned = figures'.unsigned)
      (of user records intents escrows)
      (of user (records.map TransactionRecord.unsigned) intents escrows) := by
  have approved : (records.map TransactionRecord.unsigned).filter (·.approved) =
      (records.filter (·.approved)).map TransactionRecord.unsigned := List.filter_map
  have rejected : (records.map TransactionRecord.unsigned).filter (!·.approved) =
      (records.filter (!·.approved)).map TransactionRecord.unsigned := List.filter_map
  have amounts (some : List TransactionRecord) :
      (some.map TransactionRecord.unsigned).map (·.amount) =
        (some.map (·.amount)).map Decimal.unsignedZero := by
    rw [List.map_map, List.map_map]
    rfl
  have categories (some : List TransactionRecord) :
      (some.map TransactionRecord.unsigned).map categoryOf = some.map categoryOf := by
    rw [List.map_map]
    rfl
  rw [of, of]
  simp only [approved, rejected, amounts, categories, List.length_map]
  refine (SameResult.mapM (fun entry : String × Decimal => (entry.1, entry.2.unsignedZero)) _
    fun category => ?_).bind fun spends spends' sameSpends => ?_
  · have filed (some : List TransactionRecord) :
        (some.map TransactionRecord.unsigned).filter (categoryOf · == category) =
          (some.filter (categoryOf · == category)).map TransactionRecord.unsigned := List.filter_map
    simp only [spentIn, filed, amounts]
    exact (sameResult_sum _).bind fun total total' same => .ok (by rw [same])
  refine (sameResult_sum _).bind fun spent spent' sameSpent =>
    (sameResult_sum _).bind fun blocked blocked' sameBlocked => ?_
  refine (SameResult.refl _).bind fun _ _ same => same ▸ (SameResult.refl _).bind fun _ _ same =>
    same ▸ (SameResult.refl _).bind fun _ _ same => same ▸ (SameResult.refl _).bind fun _ _ same =>
    same ▸ (SameResult.refl _).bind fun _ _ same => same ▸ .ok ?_
  simp only [unsigned, sameSpends, sameSpent, sameBlocked]

end SpendingSummary

namespace Service

variable {w : World .memory}

theorem mirrors_summary (stored : w.Stored) (inOrder : TransactionRecord.InOrder w.records)
    (user : String) :
    Mirrors (fun figures figures' => figures.unsigned = figures'.unsigned) w (summary user)
      (summary user) := by
  refine (mirrors_history stored inOrder user (by simp)).bind fun _ kept same => ?_
  exact same ▸ (mirrors_listIntents (kept stored) user).bind fun _ kept' same =>
    same ▸ (mirrors_listEscrows (kept' (kept stored)) user).bind fun _ _ same =>
    same ▸ mirrors_check (SpendingSummary.sameResult_of _ _ _ _)

end Service

end Earmark
