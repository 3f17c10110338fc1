import Earmark.Proofs.Enforcement
import Earmark.Proofs.EscrowRows

/-!
A relational store says what it was told. Records of payments read back as they were written, zero
without its sign, and with them intents and escrows in every state that their changes lead to
(`Backend.rows_faithful`).
-/

namespace Earmark

open scoped Earmark.Whole

/-! ### Records of payments -/

/-- The record with its amount as a number: zero has no sign. -/
def TransactionRecord.unsigned (record : TransactionRecord) : TransactionRecord :=
  { record with amount := record.amount.unsignedZero }

namespace RecordRow

/-- The record of a payment whose amount a money column keeps reads back with that amount. -/
theorem exists_ofRecord {record : TransactionRecord} {merchantId : String}
    (merchant : record.merchantId = .text merchantId) (amount : record.amount.IsAmount)
    (keeps : Column.Keeps record.amount) (universal : record.createdAt.offset = some 0) :
    ∃ row, ofRecord record = .ok row ∧ row.toRecord = .ok record.unsigned := by
  have failedAt : (record.failedAt.map Stage.word).mapM (fun word =>
      (Json.text word).toWord "CheckName" Stage.ofWord?) = .ok record.failedAt := by
    cases record.failedAt with
    | none => rfl
    | some stage => simp [Json.toWord, Stage.ofWord?_word, Failure.require]
  have riskLevel : (record.riskLevel.map RiskLevel.word).mapM (fun word =>
      (Json.text word).toWord "RiskLevel" RiskLevel.ofWord?) = .ok record.riskLevel := by
    cases record.riskLevel with
    | none => rfl
    | some level => simp [Json.toWord, RiskLevel.ofWord?_word, Failure.require]
  simp only [ofRecord, merchant, textColumn, ok_bind]
  refine ⟨_, rfl, ?_⟩
  simp only [toRecord, keeps.toAmount amount, failedAt, riskLevel, ok_bind,
    Column.toTime_ofTime universal, TransactionRecord.unsigned, merchant]

end RecordRow

namespace Service

variable {b : Backend} {α β : Type}

theorem exists_of_runFrom_bind {w after : World b} {op : Service b α} {next : α → Service b β}
    {c : β} (done : (op >>= next).runFrom w = (.ok c, after)) :
    ∃ a mid, op.runFrom w = (.ok a, mid) ∧ (next a).runFrom mid = (.ok c, after) := by
  rw [runFrom_bind] at done
  rcases ran : op.runFrom w with ⟨failure | a, mid⟩
  · rw [ran] at done
    cases done
  · rw [ran] at done
    exact ⟨a, mid, rfl, done⟩

/-- What a payment that comes to an end records. -/
theorem record_of_pay {config : Config} {now : Time} {w after : World b} {r : PaymentRequest}
    {result : PaymentResult} (paid : (pay config now r).runFrom w = (.ok result, after)) :
    result.record.amount.IsAmount ∧ result.record.createdAt = now ∧
      ∃ m, config.directory r.merchant = .ok m ∧ result.record.merchantId = m.id := by
  obtain ⟨p, began, begun, paid⟩ := exists_of_runFrom_bind paid
  obtain ⟨target, resolved, -, paid⟩ := exists_of_runFrom_bind paid
  obtain ⟨⟨verdict, intent⟩, committed, -, paid⟩ := exists_of_runFrom_bind paid
  obtain ⟨-, logged, -, paid⟩ := exists_of_runFrom_bind paid
  obtain ⟨-, counted, -, paid⟩ := exists_of_runFrom_bind paid
  obtain ⟨-, rewarded, -, paid⟩ := exists_of_runFrom_bind paid
  cases paid
  obtain ⟨w₀, w₁, -, begun⟩ := exists_of_runFrom_bind begun
  obtain ⟨-, w₂, -, begun⟩ := exists_of_runFrom_bind begun
  obtain ⟨amount, w₃, brought, begun⟩ := exists_of_runFrom_bind begun
  obtain ⟨m, w₄, known, begun⟩ := exists_of_runFrom_bind begun
  cases begun
  rw [runFrom_check] at brought known
  exact ⟨isAmount_of_toAmount (Prod.mk.inj brought).1, rfl, m, (Prod.mk.inj known).1, rfl⟩

end Service

/-! ### Rows of a store -/

/-- Nothing has happened to the intent yet. -/
structure Intent.IsNew (i : Intent) : Prop where
  status : i.status = .active
  used : i.used = .zero
  violations : i.violations = 0
  approvals : i.approvals = 0

theorem Intent.IsNew.sound {i : Intent} (new : i.IsNew) (built : i.policy.IsBuilt) : i.Sound := by
  obtain ⟨status, used, violations, approvals⟩ := new
  obtain ⟨amount, positive⟩ := built.limit
  refine ⟨amount, positive, used ▸ Decimal.isAmount_zero, ?_, ?_, ?_, approvals.ge, ?_⟩
  · simp [used]
  · rw [used]
    exact positive.le
  · simp only [status, used, reduceCtorEq, Decimal.cents_zero, false_iff]
    exact positive.ne
  · simp [used, approvals]

/-- An intent whose policy was accepted, with a limit of at most twelve whole digits, reads back
from its row after any changes, and so do an escrow after any calls and the record of a payment,
whose amount reads back as the same number. The rows that were updated are those that would be
written anew. A row of an intent is only refused for a count of more than 64 bits. -/
theorem Backend.rows_faithful :
    (∀ (i : Intent) (changes : List Intent.Change), i.IsNew → i.policy.IsAccepted →
      i.createdAt.offset = some 0 → i.expiresAt.offset = some 0 →
      i.limit.toRat < 10 ^ (12 : Nat) →
      (∀ row, (IntentRow.ofIntent i >>= (·.follow i changes)) = .ok row →
        row.toIntent = .ok (i.changed changes) ∧
          IntentRow.ofIntent (i.changed changes) = .ok row) ∧
      (i.policy.validityDays < 2 ^ (63 : Nat) → changes.length < 2 ^ (63 : Nat) →
        ∃ row, (IntentRow.ofIntent i >>= (·.follow i changes)) = .ok row)) ∧
    (∀ (ids : Ids) (user : String) (specs : List MilestoneSpec) (made : Time)
      (intentId : Option String) (title : String) (days : Int) (e : Escrow)
      (run : List (Time × Escrow.Call)),
      (Escrow.build ids user specs made intentId title days).2 = .ok e →
      made.offset = some 0 → (∀ m ∈ e.milestones, Column.Keeps m.amount) →
      (∀ entry ∈ run, entry.1.offset = some 0 ∧ Time.onCalendar entry.1.micros = true) →
      ((EscrowRow.ofEscrow e).follow e run).toEscrow = .ok (e.after run) ∧
        (EscrowRow.ofEscrow e).follow e run = EscrowRow.ofEscrow (e.after run)) ∧
    ∀ (b : Backend) (config : Config) (now : Time) (w after : World b) (r : PaymentRequest)
      (result : PaymentResult), (Service.pay config now r).runFrom w = (.ok result, after) →
      (∀ m, config.directory r.merchant = .ok m → ∃ id, m.id = .text id) →
      now.offset = some 0 → Column.Keeps result.record.amount →
      ∃ row, RecordRow.ofRecord result.record = .ok row ∧
        row.toRecord = .ok result.record.unsigned := by
  refine ⟨?intents, ?escrows, ?records⟩
  case intents =>
    intro i changes new accepted createdAt expiresAt small
    have sound := new.sound accepted.built
    have limit : i.limit.cents < 10 ^ (15 : Nat) := by
      have cents : (i.limit.cents : ℚ) < ((10 ^ (14 : Nat) : ℤ) : ℚ) := by
        rw [sound.limit.toRat_eq] at small
        push_cast
        linarith
      have fewer : (10 : ℤ) ^ (14 : Nat) < 10 ^ (15 : Nat) := by norm_num
      exact (Int.cast_lt.mp cents).trans fewer
    have storable : i.Storable :=
      ⟨sound, accepted, limit, by rw [new.used]; rfl, createdAt, expiresAt⟩
    refine ⟨fun row done => ?_, fun validity few => ?_⟩
    · obtain ⟨first, written, followed⟩ := bind_ok_iff.mp done
      obtain ⟨-, rfl⟩ := (IntentRow.ofIntent_ok_iff storable).mp written
      exact (IntentRow.follow_ok storable written followed).symm
    · have fits : i.Fits changes.length := by
        refine ⟨validity, new.violations.ge, ?_, ?_⟩
        · rw [new.violations, zero_add]
          exact_mod_cast few
        · rw [new.approvals, zero_add]
          exact_mod_cast few
      rw [IntentRow.ofIntent_eq storable fits, ok_bind]
      exact IntentRow.exists_follow sound fits
  case escrows =>
    intro ids user specs made intentId title days e run built universal keeps times
    obtain ⟨followed, storable⟩ :=
      EscrowRow.follow_ofEscrow (Escrow.storable_of_build built universal keeps) times
    exact ⟨followed ▸ EscrowRow.toEscrow_ofEscrow storable, followed⟩
  case records =>
    intro b config now w after r result paid named universal keeps
    obtain ⟨amount, createdAt, m, known, merchant⟩ := Service.record_of_pay paid
    obtain ⟨id, isText⟩ := named m known
    exact RecordRow.exists_ofRecord (merchant.trans isText) amount keeps (createdAt ▸ universal)

namespace Sample

/-- Sixty for books within five kilometres, of which three tenths are saved. -/
def nearby : PolicyTerms :=
  { limit := .whole 60, categories := [" Books "]
    geo := some ⟨some "Chennai", none, some (.whole 5)⟩
    split := some ⟨.finite false 7 (-1), .finite false 3 (-1)⟩ }

def nearbyIntent : Intent :=
  { id := Ids.intent 1, user := "reader", text := "books nearby", createdAt := today
    policy := { policy with geo := nearby.geo, split := nearby.split }
    expiresAt := { micros := 63879012000000000, offset := some 0 } }

/-- A purchase, a blocked attempt, a purchase that is too large, and a cancellation. -/
def nearbyChanges : List Intent.Change :=
  [.spend (.decimal (.ofCents 2550)), .recordViolation, .spend (.whole 100), .cancel]

/-- Ten for books, when no intent is open. -/
def refused : PaymentRequest :=
  { user := "reader", merchant := "MRC001", amount := .whole 10, requestedAt := today }

end Sample

theorem Backend.rows_faithful_sample :
    (∃ row, (IntentRow.ofIntent Sample.nearbyIntent >>=
        (·.follow Sample.nearbyIntent Sample.nearbyChanges)) = .ok row ∧
      row.toIntent = .ok (Sample.nearbyIntent.changed Sample.nearbyChanges)) ∧
    ((EscrowRow.ofEscrow Escrow.Sample.escrow).follow Escrow.Sample.escrow
        Escrow.Sample.calls).toEscrow =
      .ok (Escrow.Sample.escrow.after Escrow.Sample.calls) ∧
    ∃ result after row,
      (Service.pay Sample.config Sample.today Sample.refused).runFrom ({} : World .relational) =
        (.ok result, after) ∧
      RecordRow.ofRecord result.record = .ok row ∧ row.toRecord = .ok result.record.unsigned := by
  obtain ⟨intents, escrows, records⟩ := Backend.rows_faithful
  refine ⟨?_, ?_, ?_⟩
  · have built : Sample.nearbyIntent.policy.IsBuilt :=
      ⟨Sample.nearby, eq_ok_of_toOption (by decide +kernel)⟩
    have geo : GeoRestriction.build (some "Chennai") none (some (.whole 5)) =
        .ok ⟨some "Chennai", none, some (.whole 5)⟩ := rfl
    have split : SplitRule.build (.text "0.7") (.text "0.3") =
        .ok ⟨.finite false 7 (-1), .finite false 3 (-1)⟩ := eq_ok_of_toOption (by decide +kernel)
    obtain ⟨faithful, exists_row⟩ := intents Sample.nearbyIntent Sample.nearbyChanges
      ⟨rfl, rfl, rfl, rfl⟩
      ⟨built, by rintro g ⟨⟩; exact ⟨_, _, _, geo⟩, by rintro s ⟨⟩; exact ⟨_, _, split⟩⟩ rfl rfl
      (by norm_num [Sample.nearbyIntent, Sample.policy, Intent.limit, Decimal.ofCents, Decimal.toRat,
        Decimal.signed])
    obtain ⟨row, followed⟩ := exists_row (by norm_num [Sample.nearbyIntent, Sample.policy])
      (by norm_num [Sample.nearbyChanges])
    exact ⟨row, followed, (faithful row followed).1⟩
  · refine (escrows _ _ _ _ _ _ _ _ _ Escrow.Sample.build_specs rfl ?_ ?_).1
    · simp only [Escrow.Sample.escrow, List.forall_mem_cons]
      exact ⟨Column.keeps_of_small ⟨rfl, by decide⟩ (by decide),
        Column.keeps_of_small ⟨rfl, by decide⟩ (by decide), by simp⟩
    · simp only [Escrow.Sample.calls, List.forall_mem_cons]
      decide
  · have merchant : ∀ m, Sample.config.directory Sample.refused.merchant = .ok m →
        ∃ id, m.id = .text id := by
      intro m known
      have listed := Directory.mem_of_ofList known
      simp only [Directory.catalog, List.mem_cons, List.not_mem_nil, or_false] at listed
      rcases listed with rfl | rfl | rfl | rfl | rfl | rfl | rfl | rfl <;> exact ⟨_, rfl⟩
    have done : ((Service.pay Sample.config Sample.today Sample.refused).runFrom
        ({} : World .relational)).1.toOption.map (·.record.amount) = some (.ofCents 1000) := by
      decide +kernel
    rcases paid : (Service.pay Sample.config Sample.today Sample.refused).runFrom
        ({} : World .relational) with ⟨failure | result, after⟩
    · rw [paid] at done
      cases done
    · rw [paid] at done
      have amount : result.record.amount = .ofCents 1000 := Option.some.inj done
      obtain ⟨row, written, read⟩ := records _ _ _ _ _ _ _ paid merchant rfl
        (amount ▸ Column.keeps_of_small ⟨rfl, by decide⟩ (by decide))
      exact ⟨result, after, row, rfl, written, read⟩

end Earmark
