import Earmark.Proofs.MirroredIntents

/-!
Payments over a world and its mirror. A payment takes every step alike in both, and the record it
leaves is read back with its amount, a zero without its sign.
-/

namespace Earmark

open scoped Earmark.Whole

/-- Each record is later than those before it. -/
def TransactionRecord.InOrder (records : List TransactionRecord) : Prop :=
  records.Pairwise (·.createdAt.instant < ·.createdAt.instant)

/-- Records that are added one after the other are the newest first when they are reversed. -/
theorem Backend.newest_eq {records : List TransactionRecord}
    (inOrder : TransactionRecord.InOrder records) {limit : Option Int}
    (fits : ∀ n ∈ limit, 0 ≤ n ∧ n < 2 ^ (63 : Nat)) :
    newest records limit = .ok (slice records.reverse limit) := by
  have sorted : records.mergeSort (fun a b =>
      decide (b.createdAt.instant ≤ a.createdAt.instant)) = records.reverse := by
    have distinct : (records.map (·.createdAt.instant)).Nodup :=
      List.pairwise_map.mpr (inOrder.imp fun earlier => earlier.ne)
    refine List.Perm.eq_of_pairwise (fun a b memA memB first second => ?_)
      (List.pairwise_mergeSort (fun a b c first second => ?_) (fun a b => ?_) records)
      (List.pairwise_reverse.mpr (inOrder.imp fun earlier => ?_))
      ((List.mergeSort_perm _ _).trans (List.reverse_perm _).symm)
    · rw [decide_eq_true_eq] at first second
      exact List.inj_on_of_nodup_map distinct (List.mem_mergeSort.mp memA)
        (List.mem_reverse.mp memB) (le_antisymm second first)
    · rw [decide_eq_true_eq] at first second ⊢
      exact second.trans first
    · rw [Bool.or_eq_true, decide_eq_true_eq, decide_eq_true_eq]
      exact le_total _ _
    · rw [decide_eq_true_eq]
      exact earlier.le
  cases limit with
  | none =>
    rw [newest, sorted]
    rfl
  | some n =>
    obtain ⟨nonneg, lt⟩ := fits n rfl
    simp only [newest, sorted, Column.ofWhole_eq nonneg lt, ok_bind, slice]
    rw [if_pos nonneg, if_pos nonneg]

theorem Backend.slice_map {α β : Type} (f : α → β) (xs : List α) (limit : Option Int) :
    slice (xs.map f) limit = (slice xs limit).map f := by
  cases limit with
  | none => rfl
  | some n =>
    simp only [slice, List.length_map, ← List.map_take]
    split <;> rfl

namespace Service

variable {w : World .memory} {config : Config} {p : Payment}

/-! ### Steps of a payment -/

theorem mirrors_beginPayment (config : Config) (r : PaymentRequest) :
    Mirrors Eq w (beginPayment config r) (beginPayment config r) :=
  mirrors_get ((mirrors_modify rfl fun stored => { stored with }).bind fun _ _ _ =>
    mirrors_check_bind (.refl _) fun _ same => mirrors_check_bind (.refl _) fun _ same' =>
      mirrors_pure (by rw [same, same']; rfl))

theorem mirrors_resolvePayment (stored : w.Stored) (config : Config) (p : Payment) :
    Mirrors Eq w (resolvePayment config p) (resolvePayment config p) := by
  rw [resolvePayment, resolvePayment]
  cases p.named with
  | some id =>
    refine (mirrors_findIntent? stored id).bind fun {found found' after} _ _ same => ?_
    obtain rfl := same
    cases found with
    | none => exact mirrors_throw (.refl _)
    | some i => exact mirrors_ite (fun _ => mirrors_pure rfl) fun _ => mirrors_throw (.refl _)
  | none =>
    refine mirrors_ite (fun _ => mirrors_pure rfl) fun _ =>
      (mirrors_listIntents stored p.user).bind fun _ _ same => ?_
    exact same ▸ mirrors_check_bind (.refl _) fun _ same => mirrors_pure (same ▸ rfl)

/-- A payment changes a sound intent as `Intent.Changes` says. -/
theorem mirrors_settlePayment (stored : w.Stored) (config : Config) (p : Payment) {id : String}
    {i : Intent} (found : Intent.findIn w.intents id = some i) :
    Mirrors (fun made made' => made = made' ∧ i.Changes made.2) w (settlePayment config p i)
      (settlePayment config p i) := by
  have sound := stored.sound found
  refine mirrors_check_bind (.refl _) fun {v v'} _ same => ?_
  obtain rfl := same
  refine mirrors_ite (fun _ => mirrors_pure ⟨rfl, .same⟩) fun _ => mirrors_ite (fun _ => ?_) fun _ => ?_
  · refine mirrors_check_bind (.refl _) fun {j j'} spent same => ?_
    obtain ⟨d, -, spent⟩ := sound.spent spent
    exact mirrors_pure ⟨same ▸ rfl, .spent spent⟩
  · refine mirrors_check_bind (.refl _) fun {closed closed'} expired same => ?_
    obtain rfl := same
    obtain ⟨rest, j⟩ := closed
    rcases sound.recordViolation.stays_or_closed_of_expire expired with
      ⟨rfl, rfl, -⟩ | ⟨closed, -⟩
    · exact (mirrors_releaseRest stored i Decimal.isAmount_zero).bind fun _ _ _ =>
        mirrors_pure ⟨rfl, .violated⟩
    · exact (mirrors_releaseRest stored i closed.amount).bind fun _ _ _ =>
        mirrors_pure ⟨rfl, .lapsed closed⟩

theorem keepsIntents_settlePayment (config : Config) (p : Payment) (i : Intent) :
    Keeps World.intents (settlePayment config p i) :=
  keeps_bind (keeps_check _) fun _ => keeps_ite (keeps_pure _) (keeps_ite
    (keeps_bind (keeps_check _) fun _ => keeps_pure _)
    (keeps_bind (keeps_check _) fun _ => keeps_bind (keepsIntents_releaseRest _ _) fun _ =>
      keeps_pure _))

theorem mirrors_commitPayment (stored : w.Stored) (roomy : ∀ i ∈ w.intents, i.Fits 1)
    (config : Config) (p : Payment) (intentId : Option String) :
    Mirrors Eq w (commitPayment config p intentId) (commitPayment config p intentId) := by
  cases intentId with
  | none => exact mirrors_check_bind (.refl _) fun _ same => mirrors_pure (same ▸ rfl)
  | some id =>
    exact (mirrors_updateIntent stored roomy
      (fun i found => mirrors_settlePayment stored config p found)
      (keepsIntents_settlePayment config p)
      (atomic_updateIntent id (atomic_settlePayment config p) w)).bind
        fun _ _ same => mirrors_pure (same ▸ rfl)

/-! ### What follows a commit -/

theorem mirrors_addRecord {record : TransactionRecord} (storable : record.Storable) :
    Mirrors Eq w (addRecord record) (addRecord record) := by
  have written : Backend.relational.records.write record = .ok (RecordRow.plain record) :=
    RecordRow.ofRecord_eq storable
  refine mirrors_get ((mirrors_modify rfl fun stored => { stored with }).bind fun {_ _ after} _ _ _ =>
    mirrors_get (mirrors_ite (fun _ => mirrors_throw (.refl _)) fun _ => ?_))
  rw [written]
  refine mirrors_check_bind (R := fun row row' => record = row ∧ RecordRow.plain record = row')
    (.ok ⟨rfl, rfl⟩) fun {row row'} _ same => ?_
  obtain ⟨rfl, rfl⟩ := same
  refine mirrors_modify ?_ fun stored => { stored with
    records := List.forall_mem_append.mpr ⟨stored.records, List.forall_mem_singleton.mpr storable⟩ }
  simp only [World.mirror, Store.mirror]
  congr 2
  exact (@List.map_append _ _ RecordRow.plain after.records [record]).symm

theorem mirrors_logPayment {record : TransactionRecord} (storable : record.Storable) :
    Mirrors Eq w (logPayment record) (logPayment record) := by
  refine (mirrors_addRecord storable).attempt.bind fun {result result' after} _ _ same => ?_
  cases same with
  | ok => exact mirrors_pure rfl
  | error => exact mirrors_note _

theorem mirrors_countPayment (p : Payment) (intentId : Option String) (v : Verdict) :
    Mirrors Eq w (countPayment p intentId v) (countPayment p intentId v) := by
  have closing (w : World .memory) (entry : LogEntry) :
      Mirrors Eq w (do tally .latency; note entry) (do tally .latency; note entry) :=
    (mirrors_tally _).bind fun _ _ _ => mirrors_note _
  unfold countPayment
  dsimp only
  -- both arms go on with the same counting
  refine mirrors_ite (fun _ => (mirrors_tally _).bind fun _ _ _ => ?_) fun _ => ?_
  all_goals
    refine (mirrors_tally _).bind fun _ _ _ => ?_
    cases v.failedAt with
    | some stage => exact (mirrors_tally _).bind fun _ _ _ => closing _ _
    | none => exact closing _ _

theorem mirrors_rewardPayment (config : Config) {now : Time} (universal : now.offset = some 0)
    (p : Payment) (v : Verdict) :
    Mirrors Eq w (rewardPayment config now p v) (rewardPayment config now p v) := by
  have follows (w : World .memory) (kind : EventKind) (description : String) :=
    mirrors_follow (w := w) config universal p.user kind description
  refine mirrors_ite (fun _ => (mirrors_note _).bind fun _ _ _ => follows _ _ _) fun _ =>
    mirrors_ite (fun _ => ?_) fun _ => follows _ _ _
  exact (follows _ _ _).bind fun _ _ _ =>
    mirrors_ite (fun _ => follows _ _ _) fun _ => mirrors_pure rfl

/-- A payment of an amount that a money column keeps, to a merchant whose id is a text. -/
theorem mirrors_pay (stored : w.Stored) (roomy : ∀ i ∈ w.intents, i.Fits 1) (config : Config)
    {now : Time} (universal : now.offset = some 0) {r : PaymentRequest}
    (small : ∀ d, r.amount.toAmount = .ok d → d.cents.natAbs < 10 ^ (15 : Nat))
    (named : ∀ m, config.directory r.merchant = .ok m → ∃ id, m.id = .text id) :
    Mirrors Eq w (pay config now r) (pay config now r) := by
  refine (mirrors_beginPayment config r).bind fun {p p' begun} ran kept same => ?_
  obtain rfl := same
  obtain ⟨after, books, ⟨failure, failed⟩ | ⟨d, m, brought, known, done⟩⟩ :=
    runFrom_beginPayment config r w
  · cases failed.symm.trans ran
  obtain ⟨rfl, rfl⟩ : .ofRequest r _ d m = p ∧ after = begun := by
    simpa using done.symm.trans ran
  have storable (id : String) (intentId : Option String) (v : Verdict) :
      (TransactionRecord.ofVerdict id r.user m intentId now d v).Storable :=
    ⟨named m known, isAmount_of_toAmount brought,
      Column.keeps_of_small (isAmount_of_toAmount brought) (small d brought), universal⟩
  refine (mirrors_resolvePayment (kept stored) config _).bind
    fun {target target' found} ran kept' same => ?_
  obtain rfl := same
  obtain ⟨-, rfl⟩ := Prod.mk.inj ((runFrom_resolvePayment config _ _).symm.trans ran)
  refine (mirrors_commitPayment (kept stored) (books.intents ▸ roomy) config _ target).bind
    fun {made made' committed} _ _ same => ?_
  obtain rfl := same
  obtain ⟨v, intent⟩ := made
  exact (mirrors_logPayment (storable _ target v)).bind fun _ _ _ =>
    (mirrors_countPayment _ target v).bind fun _ _ _ =>
    (mirrors_rewardPayment config universal _ v).bind fun _ _ _ => mirrors_pure rfl

/-! ### Reading the records -/

theorem mirrors_history (stored : w.Stored) (inOrder : TransactionRecord.InOrder w.records)
    (user : String) {limit : Option Int} (fits : ∀ n ∈ limit, 0 ≤ n ∧ n < 2 ^ (63 : Nat)) :
    Mirrors (fun all all' => all' = all.map TransactionRecord.unsigned) w (history user limit)
      (history user limit) := by
  have own : Backend.memory.records.ofUser user w.store.records =
      .ok (w.records.filter (·.user == user)) :=
    Table.ofUser_direct TransactionRecord.id TransactionRecord.user user _
  have own' : Backend.relational.records.ofUser user w.mirror.store.records =
      .ok ((w.records.filter (·.user == user)).map TransactionRecord.unsigned) :=
    Table.ofUser_map (fun _ => rfl) fun record mem =>
      RecordRow.toRecord_plain (stored.records record mem)
  have sorted : TransactionRecord.InOrder
      ((w.records.filter (·.user == user)).map TransactionRecord.unsigned) :=
    List.pairwise_map.mpr (List.Pairwise.filter _ inOrder)
  have latest : Backend.relational.latest _ limit = _ := Backend.newest_eq sorted fits
  refine mirrors_get ?_
  rw [own, own', check_ok_bind, check_ok_bind, latest, ← List.map_reverse, Backend.slice_map]
  exact mirrors_check (.ok rfl)

end Service

end Earmark
