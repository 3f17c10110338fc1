import Earmark.Proofs.Aloofness
import Earmark.Proofs.BackendEquivalence

/-!
Advice decides nothing, and neither do marks of the caller. Two runs of the same operations that
differ in the thresholds of risk and in the marks of their payments come to the same, failure by
failure, and leave the same world, but for the levels of risk that verdicts tell and records keep
(`World.advice_decides_nothing`). Thresholds are numbers here: one that is not a number stops what
it should only remark on (`World.advice_can_stop`).
-/

namespace Earmark

/-! ### Without advice -/

def Verdict.unadvised (v : Verdict) : Verdict := { v with risk := none }

def TransactionRecord.unadvised (r : TransactionRecord) : TransactionRecord :=
  { r with riskLevel := none }

def PaymentResult.unadvised (paid : PaymentResult) : PaymentResult :=
  { paid with record := paid.record.unadvised, verdict := paid.verdict.unadvised }

def Reply.unadvised : Reply → Reply
  | .payment paid => .payment paid.unadvised
  | reply => reply

def Answer.unadvised : Answer → Answer
  | .payments records => .payments (records.map TransactionRecord.unadvised)
  | answer => answer

def Outcome.unadvised : Outcome → Outcome
  | .reply r => .reply r.unadvised
  | .answer a => .answer a.unadvised

def PaymentRequest.untraced (r : PaymentRequest) : PaymentRequest := { r with requestId := "" }

def Command.untraced : Command → Command
  | .pay r => .pay r.untraced
  | c => c

def Operation.untraced : Operation → Operation
  | .command c => .command c.untraced
  | .inquiry q => .inquiry q

variable {b : Backend} {α β γ δ : Type}

/-- Two rows of the log are the same, or were written of records that differ in their levels of risk
only. -/
def Backend.SameButAdvice (b : Backend) (row row' : b.records.Row) : Prop :=
  row = row' ∨ ∃ r r' : TransactionRecord, r.unadvised = r'.unadvised ∧
    b.records.write r = .ok row ∧ b.records.write r' = .ok row'

/-- The log of payments keeps levels of risk beside the rest of a record. -/
structure Backend.SeparatesAdvice (b : Backend) : Prop where
  write : ∀ {r r' : TransactionRecord}, r.unadvised = r'.unadvised →
    (b.records.write r).map (fun _ => ()) = (b.records.write r').map (fun _ => ())
  user : ∀ {row row'}, b.SameButAdvice row row' → b.records.user row = b.records.user row'
  read : ∀ {row row'}, b.SameButAdvice row row' →
    (b.records.read row).map TransactionRecord.unadvised =
      (b.records.read row').map TransactionRecord.unadvised
  latest : ∀ {records records' : List TransactionRecord} (limit : Option Int),
    records.map TransactionRecord.unadvised = records'.map TransactionRecord.unadvised →
      (b.latest records limit).map (List.map TransactionRecord.unadvised) =
        (b.latest records' limit).map (List.map TransactionRecord.unadvised)

theorem TransactionRecord.eq_of_unadvised {r r' : TransactionRecord}
    (same : r.unadvised = r'.unadvised) : r' = { r with riskLevel := r'.riskLevel } := by
  cases r
  cases r'
  cases same
  rfl

theorem Backend.memory_separatesAdvice : Backend.memory.SeparatesAdvice := by
  have alike {row row' : TransactionRecord} (same : Backend.memory.SameButAdvice row row') :
      row.unadvised = row'.unadvised := by
    rcases same with rfl | ⟨r, r', same, written, written'⟩
    · rfl
    · cases written
      cases written'
      exact same
  constructor
  case write => exact fun _ => rfl
  case user => exact fun same => (congrArg TransactionRecord.user (alike same) :)
  case read => exact fun same => congrArg Except.ok (alike same)
  case latest =>
    intro records records' limit same
    change Except.ok _ = Except.ok _
    rw [← Backend.slice_map, ← Backend.slice_map, List.map_reverse, List.map_reverse, same]

theorem RiskLevel.toWord_word (level : RiskLevel) :
    (Json.text level.word).toWord "RiskLevel" RiskLevel.ofWord? = .ok level := by
  cases level <;> rfl

namespace RecordRow

/-- A row but for its level of risk. -/
def unadvised (row : RecordRow) : RecordRow := { row with riskLevel := none }

theorem toRecord_unadvised {r : TransactionRecord} {row : RecordRow}
    (written : ofRecord r = .ok row) :
    row.toRecord.map TransactionRecord.unadvised = row.unadvised.toRecord := by
  obtain ⟨merchantId, -, written⟩ := bind_ok_iff.mp written
  cases written
  simp only [toRecord, unadvised]
  cases (Column.toMoney (Column.ofMoney r.amount)).toAmount with
  | error failure => rfl
  | ok amount =>
    cases (r.failedAt.map Stage.word).mapM fun word =>
        (Json.text word).toWord "CheckName" Stage.ofWord? with
    | error failure => rfl
    | ok failedAt =>
      cases r.riskLevel with
      | none => rfl
      | some level =>
        simp only [ok_bind, Option.map_some, Option.mapM_some, RiskLevel.toWord_word]
        rfl

theorem unadvised_of_ofRecord {r r' : TransactionRecord} (same : r.unadvised = r'.unadvised) :
    (ofRecord r).map unadvised = (ofRecord r').map unadvised := by
  rw [TransactionRecord.eq_of_unadvised same]
  simp only [ofRecord]
  cases textColumn r.merchantId <;> rfl

end RecordRow

theorem Backend.relational_separatesAdvice : Backend.relational.SeparatesAdvice := by
  have alike {r r' : TransactionRecord} {row row' : RecordRow} (same : r.unadvised = r'.unadvised)
      (written : RecordRow.ofRecord r = .ok row) (written' : RecordRow.ofRecord r' = .ok row') :
      row.unadvised = row'.unadvised := by
    have rows := RecordRow.unadvised_of_ofRecord same
    rw [written, written'] at rows
    exact Except.ok.inj rows
  constructor
  case write =>
    intro r r' same
    have emptied (x : Except Failure RecordRow) :
        x.map (fun _ => ()) = (x.map RecordRow.unadvised).map fun _ => () := by cases x <;> rfl
    calc (RecordRow.ofRecord r).map (fun _ => ())
        = ((RecordRow.ofRecord r).map RecordRow.unadvised).map fun _ => () := emptied _
      _ = ((RecordRow.ofRecord r').map RecordRow.unadvised).map fun _ => () := by
        rw [RecordRow.unadvised_of_ofRecord same]
      _ = (RecordRow.ofRecord r').map fun _ => () := (emptied _).symm
  case user =>
    rintro row row' (rfl | ⟨r, r', same, written, written'⟩)
    · rfl
    · exact (congrArg RecordRow.user (alike same written written') :)
  case read =>
    rintro row row' (rfl | ⟨r, r', same, written, written'⟩)
    · rfl
    · change row.toRecord.map _ = row'.toRecord.map _
      rw [RecordRow.toRecord_unadvised written, RecordRow.toRecord_unadvised written',
        alike same written written']
  case latest =>
    intro records records' limit same
    have sorted (records : List TransactionRecord) :
        (records.mergeSort fun a b => decide (b.createdAt.instant ≤ a.createdAt.instant)).map
            TransactionRecord.unadvised =
          (records.map TransactionRecord.unadvised).mergeSort fun a b =>
            decide (b.createdAt.instant ≤ a.createdAt.instant) :=
      List.map_mergeSort fun _ _ _ _ => rfl
    change (Backend.newest records limit).map _ = (Backend.newest records' limit).map _
    cases limit with
    | none => exact congrArg Except.ok (by rw [sorted, sorted, same])
    | some n =>
      simp only [Backend.newest]
      cases Column.ofWhole n with
      | error failure => rfl
      | ok n =>
        simp only [ok_bind, Except.map, Except.ok.injEq]
        split
        · rw [List.map_take, List.map_take, sorted, sorted, same]
        · rw [sorted, sorted, same]

/-! ### Verdicts under other thresholds -/

namespace RiskAssessment

variable {thresholds : RiskThresholds} {m : Merchant} {d : Decimal}

theorem exists_assess (ordered : thresholds.highValue.isNaN = false) (whole : d.IsAmount) :
    ∃ risk, assess thresholds m d = .ok risk := by
  simp [assess, Decimal.gt?, Decimal.lt?, Decimal.compare?, ordered, whole.isNaN_eq, Functor.map,
    Except.map]

end RiskAssessment

namespace Verdict

variable {one other : RiskThresholds} {m : Merchant} {d : Decimal} {context : Context}

/-- The verdict with the advice that other thresholds give. -/
def readvised (thresholds : RiskThresholds) (m : Merchant) (v : Verdict) : Verdict :=
  { v with risk :=
      if v.approved then
        (RiskAssessment.assess thresholds m v.amount).toOption.map fun risk =>
          if v.bypass then { risk with factors := risk.factors ++ ["Emergency override used"] }
          else risk
      else none }

@[simp] theorem approved_readvised (v : Verdict) :
    (v.readvised other m).approved = v.approved := rfl

@[simp] theorem bypass_readvised (v : Verdict) : (v.readvised other m).bypass = v.bypass := rfl

@[simp] theorem unadvised_readvised (v : Verdict) :
    (v.readvised other m).unadvised = v.unadvised := rfl

/-- Other thresholds that are numbers change the advice and nothing else. -/
theorem validate_thresholds (ordered : one.highValue.isNaN = false)
    (ordered' : other.highValue.isNaN = false) (intent : Option Intent) (amount : Numeral) :
    validate other intent m amount context =
      (validate one intent m amount context).map (readvised other m) := by
  cases brought : amount.toAmount with
  | error failure => simp only [validate, brought, error_bind, Except.map]
  | ok d =>
    have whole := isAmount_of_toAmount brought
    obtain ⟨risk, assessed⟩ := RiskAssessment.exists_assess (m := m) ordered whole
    obtain ⟨risk', assessed'⟩ := RiskAssessment.exists_assess (m := m) ordered' whole
    simp only [validate, brought, ok_bind, judge]
    split
    · simp only [override, assessed, assessed', ok_bind]
      cases m.encodedId with
      | error failure => rfl
      | ok merchant => simp [Except.map, readvised, assessed', Except.toOption]
    · generalize Check.run _ Stage.order = ran
      cases ran with
      | error failure => rfl
      | ok checks =>
        simp only [ok_bind, ofChecks, assessed, assessed']
        cases Check.firstFailed? checks with
        | some failed => rfl
        | none =>
          cases m.encodedId with
          | error failure => rfl
          | ok merchant => simp [Except.map, readvised, assessed', Except.toOption]

end Verdict

namespace Service

/-! ### Two runs side by side -/

/-- Two operations, each begun where the log of payments is the same but for advice, come to results
that a view does not tell apart and leave worlds that are the same but for advice again. -/
def SameButAdvice (view : α → γ) (op op' : Service b α) : Prop :=
  ∀ (w : World b) (rows : List b.records.Row),
    List.Forall₂ b.SameButAdvice w.store.records rows →
      ((op.runFrom w).1.map view = (op'.runFrom (w.relogged rows)).1.map view) ∧
      ∃ rows', (op'.runFrom (w.relogged rows)).2 = (op.runFrom w).2.relogged rows' ∧
        List.Forall₂ b.SameButAdvice (op.runFrom w).2.store.records rows'

theorem Aloof.sameButAdvice {op : Service b α} (aloof : Aloof op) (view : α → γ) :
    SameButAdvice view op op := by
  intro w rows alike
  rw [aloof w rows]
  exact ⟨rfl, rows, rfl, by rwa [aloof.records w]⟩

/-- What follows results that a view does not tell apart need not be the same either. -/
theorem SameButAdvice.bind {view : α → γ} {view' : β → δ} {op op' : Service b α}
    {next next' : α → Service b β} (first : SameButAdvice view op op')
    (rest : ∀ a a', view a = view a' → SameButAdvice view' (next a) (next' a')) :
    SameButAdvice view' (op >>= next) (op' >>= next') := by
  intro w rows alike
  obtain ⟨same, rows', world, alike⟩ := first w rows alike
  rw [runFrom_bind, runFrom_bind]
  rcases done : op.runFrom w with ⟨result, after⟩
  rcases done' : op'.runFrom (w.relogged rows) with ⟨result', after'⟩
  rw [done] at same world alike
  rw [done'] at same world
  obtain rfl : after' = after.relogged rows' := world
  cases result with
  | error failure =>
    cases result' with
    | error failure' =>
      obtain rfl : failure = failure' := Except.error.inj same
      exact ⟨rfl, rows', rfl, alike⟩
    | ok a' => cases same
  | ok a =>
    cases result' with
    | error failure' => cases same
    | ok a' => exact rest a a' (Except.ok.inj same) after rows' alike

/-- A result that is changed where a view does not look. -/
theorem Aloof.sameButAdvice_map {op op' : Service b α} (aloof : Aloof op) {view : α → γ}
    {change : α → α} (unseen : ∀ a, view (change a) = view a)
    (changed : ∀ w, op'.runFrom w = ((op.runFrom w).1.map change, (op.runFrom w).2)) :
    SameButAdvice view op op' := by
  intro w rows alike
  rw [changed, aloof w rows]
  refine ⟨?_, rows, rfl, by rwa [aloof.records w]⟩
  cases (op.runFrom w).1 with
  | error failure => rfl
  | ok a => exact congrArg Except.ok (unseen a).symm

theorem sameButAdvice_check {view : α → γ} {result result' : Except Failure α}
    (same : result.map view = result'.map view) :
    SameButAdvice view (check result : Service b α) (check result') :=
  fun _ rows alike => ⟨same, rows, rfl, alike⟩

theorem sameButAdvice_pure {view : α → γ} {a a' : α} (same : view a = view a') :
    SameButAdvice view (pure a : Service b α) (pure a') :=
  fun _ rows alike => ⟨congrArg Except.ok same, rows, rfl, alike⟩

/-- What goes on from a world goes on alike where it reads the log alike. -/
theorem sameButAdvice_get {view : α → γ} {next next' : World b → Service b α}
    (rest : ∀ w rows, List.Forall₂ b.SameButAdvice w.store.records rows →
      SameButAdvice view (next w) (next' (w.relogged rows))) :
    SameButAdvice view (get >>= next) (get >>= next') := by
  intro w rows alike
  rw [runFrom_get_bind, runFrom_get_bind]
  exact rest w rows alike w rows alike

theorem SameButAdvice.attempt {view : α → γ} {op op' : Service b α}
    (same : SameButAdvice view op op') :
    SameButAdvice (Except.map view) op.attempt op'.attempt := by
  intro w rows alike
  obtain ⟨same, world⟩ := same w rows alike
  rw [runFrom_attempt, runFrom_attempt]
  exact ⟨congrArg Except.ok same, world⟩

/-! ### The log of payments -/

theorem sameButAdvice_addRecord (separates : b.SeparatesAdvice) {r r' : TransactionRecord}
    (same : r.unadvised = r'.unadvised) :
    SameButAdvice id (addRecord r : Service b Unit) (addRecord r') := by
  refine sameButAdvice_get fun w rows _ =>
    ((aloof_modify fun _ _ => rfl).sameButAdvice id).bind fun _ _ _ =>
      sameButAdvice_get fun v _ _ => ?_
  change SameButAdvice id
    (if v.outage.records w.recordWrites = true then throw (.storeDown "transaction_add") else _)
    (if v.outage.records w.recordWrites = true then throw (.storeDown "transaction_add") else _)
  split
  · exact (aloof_throw _).sameButAdvice id
  · have rows := separates.write same
    cases written : b.records.write r with
    | error failure =>
      cases written' : b.records.write r' with
      | error failure' =>
        rw [written, written'] at rows
        obtain rfl : failure = failure' := Except.error.inj rows
        exact fun _ rows alike => ⟨rfl, rows, rfl, alike⟩
      | ok row' =>
        rw [written, written'] at rows
        cases rows
    | ok row =>
      cases written' : b.records.write r' with
      | error failure' =>
        rw [written, written'] at rows
        cases rows
      | ok row' =>
        intro w rows alike
        exact ⟨rfl, rows ++ [row'], rfl,
          List.rel_append alike (.cons (.inr ⟨r, r', same, written, written'⟩) .nil)⟩

theorem sameButAdvice_logPayment (separates : b.SeparatesAdvice) {r r' : TransactionRecord}
    (same : r.unadvised = r'.unadvised) :
    SameButAdvice id (logPayment r : Service b Unit) (logPayment r') := by
  have named : r.id = r'.id := (congrArg TransactionRecord.id same :)
  refine (sameButAdvice_addRecord separates same).attempt.bind fun result result' alike => ?_
  cases result with
  | ok done =>
    cases result' with
    | ok done' => exact (aloof_pure ()).sameButAdvice id
    | error failure' => cases alike
  | error failure =>
    cases result' with
    | ok done' => cases alike
    | error failure' => exact named ▸ (aloof_note _).sameButAdvice id

private theorem map_mapM {ε : Type} (read : α → Except ε β) (view : β → γ) (xs : List α) :
    (xs.mapM read).map (List.map view) = xs.mapM fun x => (read x).map view := by
  induction xs with
  | nil => rfl
  | cons x xs ih =>
    rw [List.mapM_cons, List.mapM_cons, ← ih]
    cases read x <;> cases xs.mapM read <;> rfl

private theorem mapM_congr_of_forall₂ {ε : Type} {f g : α → Except ε β} {xs ys : List α}
    (alike : List.Forall₂ (fun x y => f x = g y) xs ys) : xs.mapM f = ys.mapM g := by
  induction alike with
  | nil => rfl
  | cons same _ ih => rw [List.mapM_cons, List.mapM_cons, same, ih]

/-- What a user paid is told alike but for advice. -/
theorem sameButAdvice_history (separates : b.SeparatesAdvice) (user : String)
    (limit : Option Int) :
    SameButAdvice (List.map TransactionRecord.unadvised) (history user limit : Service b _)
      (history user limit) := by
  refine sameButAdvice_get fun w rows alike => (sameButAdvice_check ?_).bind fun records records'
    same => sameButAdvice_check (separates.latest limit same)
  have own : List.Forall₂ b.SameButAdvice
      (w.store.records.filter (b.records.user · == user))
      (rows.filter (b.records.user · == user)) :=
    List.rel_filter (fun row row' same => by simp only [separates.user same]) alike
  rw [Table.ofUser, Table.ofUser, map_mapM, map_mapM]
  exact mapM_congr_of_forall₂ (own.imp fun _ _ same => separates.read same)

end Service

/-- Figures are made of nothing that advice tells. -/
theorem SpendingSummary.of_unadvised (user : String) (records : List TransactionRecord)
    (intents : List Intent) (escrows : List Escrow) :
    SpendingSummary.of user (records.map TransactionRecord.unadvised) intents escrows =
      SpendingSummary.of user records intents escrows := by
  have spent (records : List TransactionRecord) (category : String) :
      spentIn (records.map TransactionRecord.unadvised) category = spentIn records category := by
    simp only [spentIn, List.filter_map, List.map_map]
    rfl
  simp only [SpendingSummary.of, List.filter_map, List.map_map, List.length_map, spent]
  rfl

namespace Service

variable {one other : RiskThresholds}

/-! ### Payments -/

/-- What a change of an intent tells differently, the updated intent tells differently. -/
theorem runFrom_updateIntent_map (intentId : String) (f : α → β)
    {change : Intent → Service b (α × Intent)} {change' : Intent → Service b (β × Intent)}
    (changed : ∀ i w, (change' i).runFrom w =
      (((change i).runFrom w).1.map (Prod.map f id), ((change i).runFrom w).2)) (w : World b) :
    (updateIntent intentId change').runFrom w =
      (((updateIntent intentId change).runFrom w).1.map f,
        ((updateIntent intentId change).runFrom w).2) := by
  simp only [updateIntent, runFrom_atomic, runFrom_get_bind]
  cases b.intents.find? intentId w.store.intents with
  | none => rfl
  | some row =>
    dsimp only
    cases b.intents.read row with
    | error failure => rfl
    | ok i =>
      simp only [runFrom_check_ok, runFrom_bind w (change' i), runFrom_bind w (change i), changed]
      rcases (change i).runFrom w with ⟨failure | ⟨x, j⟩, after⟩
      · rfl
      · simp only [Except.map, Prod.map, id]
        cases b.intents.update row j <;> rfl

theorem runFrom_settlePayment_thresholds (config : Config) (ordered : one.highValue.isNaN = false)
    (ordered' : other.highValue.isNaN = false) (p : Payment) (i : Intent) (w : World b) :
    (settlePayment { config with thresholds := other } p i).runFrom w =
      (((settlePayment { config with thresholds := one } p i).runFrom w).1.map
          (Prod.map (Prod.map (Verdict.readvised other p.merchant) id) id),
        ((settlePayment { config with thresholds := one } p i).runFrom w).2) := by
  simp only [settlePayment, judgePayment, Verdict.validate_thresholds ordered ordered']
  cases Verdict.validate one (some i) p.merchant (.decimal p.amount) p.context with
  | error failure => rfl
  | ok v =>
    simp only [Except.map, runFrom_check_ok, Verdict.bypass_readvised, Verdict.approved_readvised]
    by_cases bypass : v.bypass = true
    · simp only [bypass, ↓reduceIte]
      rfl
    · by_cases approved : v.approved = true
      · simp only [bypass, Bool.false_eq_true, approved, ↓reduceIte]
        cases i.spend (.decimal p.amount) <;> rfl
      · simp only [bypass, approved, Bool.false_eq_true, ↓reduceIte]
        cases i.recordViolation.expire p.context.requestedAt with
        | error failure => rfl
        | ok left =>
          simp only [runFrom_check_ok, runFrom_bind w (releaseRest i left.1)]
          rcases (releaseRest i left.1).runFrom w with ⟨failure | done, after⟩ <;> rfl

/-- Thresholds do not change what a payment commits. -/
theorem runFrom_commitPayment_thresholds (config : Config) (ordered : one.highValue.isNaN = false)
    (ordered' : other.highValue.isNaN = false) (p : Payment) (intentId : Option String)
    (w : World b) :
    (commitPayment { config with thresholds := other } p intentId).runFrom w =
      (((commitPayment { config with thresholds := one } p intentId).runFrom w).1.map
          (Prod.map (Verdict.readvised other p.merchant) id),
        ((commitPayment { config with thresholds := one } p intentId).runFrom w).2) := by
  cases intentId with
  | none =>
    simp only [commitPayment, judgePayment, Verdict.validate_thresholds ordered ordered']
    cases Verdict.validate one none p.merchant (.decimal p.amount) p.context <;> rfl
  | some intentId =>
    simp only [commitPayment, runFrom_bind w (updateIntent _ _)]
    rw [runFrom_updateIntent_map intentId (Prod.map (Verdict.readvised other p.merchant) id)
      (runFrom_settlePayment_thresholds config ordered ordered' p)]
    generalize updateIntent intentId (settlePayment { config with thresholds := one } p) = settling
    rcases settling.runFrom w with ⟨failure | paid, after⟩ <;> rfl

theorem sameButAdvice_payTo (separates : b.SeparatesAdvice) (config : Config)
    (ordered : one.highValue.isNaN = false) (ordered' : other.highValue.isNaN = false)
    (now : Time) (p : Payment) (intentId : Option String) :
    SameButAdvice PaymentResult.unadvised
      (payTo { config with thresholds := one } now p intentId : Service b _)
      (payTo { config with thresholds := other } now p intentId) := by
  have unseen (paid : Verdict × Option Intent) : Prod.map Verdict.unadvised id
      (Prod.map (Verdict.readvised other p.merchant) id paid) =
        Prod.map Verdict.unadvised id paid := rfl
  have committed : SameButAdvice (Prod.map Verdict.unadvised id)
      (commitPayment { config with thresholds := one } p intentId : Service b _)
      (commitPayment { config with thresholds := other } p intentId) :=
    (detached_commitPayment _ p intentId).aloof.sameButAdvice_map unseen
      (runFrom_commitPayment_thresholds config ordered ordered' p intentId)
  refine committed.bind ?_
  rintro ⟨v, i⟩ ⟨v', i'⟩ same
  obtain ⟨same, rfl⟩ := Prod.mk.inj same
  -- What is counted of a verdict and what follows it does not depend on the advice.
  obtain ⟨risk, rfl⟩ : ∃ risk, v' = { v with risk } := by
    cases v
    cases v'
    cases same
    exact ⟨_, rfl⟩
  have logged : SameButAdvice id
      (logPayment (.ofVerdict p.id p.user p.merchant intentId now p.amount v) : Service b Unit)
      (logPayment (.ofVerdict p.id p.user p.merchant intentId now p.amount { v with risk })) :=
    sameButAdvice_logPayment separates rfl
  refine logged.bind fun _ _ _ => ?_
  refine ((aloof_countPayment p intentId v).sameButAdvice id).bind fun _ _ _ => ?_
  refine ((aloof_rewardPayment config now p v).sameButAdvice id).bind fun _ _ _ => ?_
  exact sameButAdvice_pure rfl

theorem sameButAdvice_pay (separates : b.SeparatesAdvice) (config : Config)
    (ordered : one.highValue.isNaN = false) (ordered' : other.highValue.isNaN = false)
    (now : Time) (r : PaymentRequest) :
    SameButAdvice PaymentResult.unadvised
      (pay { config with thresholds := one } now r : Service b _)
      (pay { config with thresholds := other } now r) :=
  ((detached_beginPayment config r).aloof.sameButAdvice id).bind fun p _ => by
    rintro rfl
    refine ((detached_resolvePayment config p).aloof.sameButAdvice id).bind fun intentId _ => ?_
    rintro rfl
    exact sameButAdvice_payTo separates config ordered ordered' now p intentId

/-- Marks of the caller go into the context of a payment, and from there nowhere. -/
theorem pay_untraced (config : Config) (now : Time) (r : PaymentRequest) :
    (pay config now r.untraced : Service b PaymentResult) = pay config now r := by
  have begun_untraced (number : Nat) : begun config r.untraced number =
      (begun config r number).map fun p =>
        { p with context := { p.context with requestId := "" } } := by
    simp only [begun, PaymentRequest.untraced]
    cases r.amount.toAmount with
    | error failure => rfl
    | ok d => cases config.directory r.merchant <;> rfl
  funext w
  change (pay config now r.untraced).runFrom w = (pay config now r).runFrom w
  rw [pay_eq, pay_eq, runFrom_bind, runFrom_bind, runFrom_begun, runFrom_begun, begun_untraced]
  cases begun config r (w.ids.transactions + 1) with
  | error failure => rfl
  | ok p => rfl

/-! ### Commands and inquiries -/

theorem SameButAdvice.map {view : α → γ} {view' : β → δ} {op op' : Service b α} (f : α → β)
    (same : SameButAdvice view op op')
    (kept : ∀ a a', view a = view a' → view' (f a) = view' (f a')) :
    SameButAdvice view' (op >>= fun a => pure (f a)) (op' >>= fun a => pure (f a)) :=
  same.bind fun a a' alike => sameButAdvice_pure (kept a a' alike)

/-- Every command does the same under other thresholds, whatever marks it bears. -/
theorem sameButAdvice_run (separates : b.SeparatesAdvice) (config : Config)
    (ordered : one.highValue.isNaN = false) (ordered' : other.highValue.isNaN = false)
    (now : Time) {c c' : Command} (same : c.untraced = c'.untraced) :
    SameButAdvice Reply.unadvised (c.run { config with thresholds := one } now : Service b Reply)
      (c'.run { config with thresholds := other } now) := by
  by_cases paid : ∃ r, c = .pay r
  · obtain ⟨r, rfl⟩ := paid
    obtain ⟨r', rfl⟩ : ∃ r', c' = .pay r' := by
      cases c' with
      | pay r' => exact ⟨r', rfl⟩
      | _ => cases same
    have requests : r.untraced = r'.untraced := Command.pay.inj same
    change SameButAdvice Reply.unadvised
      (pay { config with thresholds := one } now r >>= fun paid => pure (.payment paid))
      (pay { config with thresholds := other } now r' >>= fun paid => pure (.payment paid))
    rw [← pay_untraced _ _ r, ← pay_untraced _ _ r', requests]
    exact (sameButAdvice_pay separates config ordered ordered' now r'.untraced).map Reply.payment
      fun paid paid' alike => congrArg Reply.payment alike
  · have unpaid : ∀ r, c ≠ .pay r := fun r is => paid ⟨r, is⟩
    obtain rfl : c = c' := by
      cases c with
      | pay r => exact absurd rfl (unpaid r)
      | _ =>
        cases c' with
        | pay r' => cases same
        | _ => exact same
    have unchanged : (c.run { config with thresholds := other } now : Service b Reply) =
        c.run { config with thresholds := one } now := by
      cases c with
      | pay r => exact absurd rfl (unpaid r)
      | _ => rfl
    rw [unchanged]
    exact (aloof_run _ now unpaid).sameButAdvice _

theorem sameButAdvice_summary (separates : b.SeparatesAdvice) (user : String) :
    SameButAdvice id (summary user : Service b SpendingSummary) (summary user) :=
  (sameButAdvice_history separates user none).bind fun records records' alike =>
    ((detached_listIntents user).aloof.sameButAdvice id).bind fun intents _ => by
      rintro rfl
      refine Aloof.sameButAdvice ?_ id |>.bind fun escrows _ => ?_
      · exact aloof_get (fun _ _ => rfl) fun _ => aloof_check _
      · rintro rfl
        rw [← SpendingSummary.of_unadvised, alike, SpendingSummary.of_unadvised]
        exact (aloof_check _).sameButAdvice id

/-- Every inquiry is answered the same under other thresholds. -/
theorem sameButAdvice_ask (separates : b.SeparatesAdvice) (config : Config) (q : Inquiry) :
    SameButAdvice Answer.unadvised (q.ask { config with thresholds := one } : Service b Answer)
      (q.ask { config with thresholds := other }) := by
  cases q with
  | payments user limit =>
    exact (sameButAdvice_history separates user limit).map Answer.payments
      fun records records' alike => congrArg Answer.payments alike
  | summary user =>
    exact (sameButAdvice_summary separates user).map Answer.summary fun _ _ alike =>
      congrArg (fun figures => (Answer.summary figures).unadvised) alike
  | _ =>
    refine (aloof_ask { config with thresholds := one } ?unlisted ?unsummed).sameButAdvice _
    case unlisted => exact fun _ _ => nofun
    case unsummed => exact fun _ => nofun

theorem sameButAdvice_operation (separates : b.SeparatesAdvice) (config : Config)
    (ordered : one.highValue.isNaN = false) (ordered' : other.highValue.isNaN = false)
    (now : Time) {op op' : Operation} (same : op.untraced = op'.untraced) :
    SameButAdvice Outcome.unadvised
      (op.run { config with thresholds := one } now : Service b Outcome)
      (op'.run { config with thresholds := other } now) := by
  cases op with
  | command c =>
    cases op' with
    | inquiry q' => cases same
    | command c' =>
      exact (sameButAdvice_run separates config ordered ordered' now
        (Operation.command.inj same)).map Outcome.reply fun _ _ alike =>
          congrArg Outcome.reply alike
  | inquiry q =>
    cases op' with
    | command c' => cases same
    | inquiry q' =>
      obtain rfl := Operation.inquiry.inj same
      exact (sameButAdvice_ask separates config q).map Outcome.answer fun _ _ alike =>
        congrArg Outcome.answer alike

end Service

/-! ### Runs -/

/-- Two runs of the same operations under different thresholds stay side by side. -/
theorem World.runs_sameButAdvice (separates : b.SeparatesAdvice) (config : Config)
    {one other : RiskThresholds} (ordered : one.highValue.isNaN = false)
    (ordered' : other.highValue.isNaN = false) {run run' : List (Time × Operation)}
    (same : run.map (Prod.map id Operation.untraced) = run'.map (Prod.map id Operation.untraced))
    (w : World b) (rows : List b.records.Row)
    (alike : List.Forall₂ b.SameButAdvice w.store.records rows) :
    (w.outcomes { config with thresholds := one } run).map (Except.map Outcome.unadvised) =
        ((w.relogged rows).outcomes { config with thresholds := other } run').map
          (Except.map Outcome.unadvised) ∧
      ∃ rows', (w.relogged rows).afterOperations { config with thresholds := other } run' =
          (w.afterOperations { config with thresholds := one } run).relogged rows' ∧
        List.Forall₂ b.SameButAdvice
          (w.afterOperations { config with thresholds := one } run).store.records rows' := by
  induction run generalizing run' w rows with
  | nil =>
    obtain rfl : run' = [] := List.map_eq_nil_iff.mp same.symm
    exact ⟨rfl, rows, rfl, alike⟩
  | cons entry rest ih =>
    obtain ⟨now, op⟩ := entry
    cases run' with
    | nil => cases same
    | cons entry' rest' =>
      obtain ⟨now', op'⟩ := entry'
      simp only [List.map_cons, List.cons.injEq, Prod.map, Prod.mk.injEq, id] at same
      obtain ⟨⟨rfl, first⟩, same⟩ := same
      obtain ⟨result, rows', world, alike⟩ :=
        Service.sameButAdvice_operation separates config ordered ordered' now first w rows alike
      obtain ⟨outcomes, later⟩ := ih same _ rows' alike
      rw [← world] at outcomes later
      exact ⟨congrArg₂ List.cons result outcomes, later⟩

/-! ### What is advised -/

/-- What an approval is advised of: a high risk if the merchant's score is above its threshold or
the merchant is mixed, else a medium one if the merchant is not certified or the amount is above its
threshold, and else a low one. -/
structure RiskAssessment.Advises (risk : RiskAssessment) (thresholds : RiskThresholds)
    (m : Merchant) (d : Decimal) : Prop where
  high : risk.level = .high ↔ thresholds.score.lt m.riskScore = true ∨ m.isMixed = true
  medium : risk.level = .medium ↔
    ¬(thresholds.score.lt m.riskScore = true ∨ m.isMixed = true) ∧
      (m.certified = false ∨ d.gt? thresholds.highValue = .ok true)
  low : risk.level = .low ↔
    ¬(thresholds.score.lt m.riskScore = true ∨ m.isMixed = true) ∧
      ¬(m.certified = false ∨ d.gt? thresholds.highValue = .ok true)

theorem RiskAssessment.advises_of_assess {thresholds : RiskThresholds} {m : Merchant} {d : Decimal}
    {risk : RiskAssessment} (assessed : assess thresholds m d = .ok risk) :
    risk.Advises thresholds m d := by
  obtain ⟨above, compared, made⟩ := bind_ok_iff.mp assessed
  have amount : d.gt? thresholds.highValue = .ok above := Failure.ofDecimal_ok_iff.mp compared
  cases made
  constructor <;> simp only [levelOf, amount] <;>
    cases thresholds.score.lt m.riskScore <;> cases m.isMixed <;> cases m.certified <;>
    cases above <;> simp

/-- Approvals, and nothing else, come with advice. -/
theorem Verdict.advises_of_validate {thresholds : RiskThresholds} {intent : Option Intent}
    {m : Merchant} {d : Decimal} {context : Context} {v : Verdict} (whole : d.IsAmount)
    (judged : validate thresholds intent m (.decimal d) context = .ok v) :
    v.risk.isSome = v.approved ∧ ∀ risk ∈ v.risk, risk.Advises thresholds m d := by
  have judged := judge_of_validate whole judged
  unfold judge at judged
  split at judged
  · simp only [override, bind_ok_iff] at judged
    obtain ⟨risk, assessed, merchant, -, judged⟩ := judged
    obtain ⟨high, medium, low⟩ := RiskAssessment.advises_of_assess assessed
    cases judged
    refine ⟨rfl, ?_⟩
    rintro _ ⟨⟩
    exact ⟨high, medium, low⟩
  · obtain ⟨checks, -, judged⟩ := bind_ok_iff.mp judged
    unfold ofChecks at judged
    split at judged
    · cases judged
      exact ⟨rfl, by simp⟩
    · simp only [bind_ok_iff] at judged
      obtain ⟨merchant, -, risk, assessed, judged⟩ := judged
      cases judged
      refine ⟨rfl, ?_⟩
      rintro _ ⟨⟩
      exact RiskAssessment.advises_of_assess assessed

/-- What a payment is advised of, and its record remembers of it. -/
structure PaymentResult.Advised (paid : PaymentResult) (thresholds : RiskThresholds) (m : Merchant)
    (d : Decimal) : Prop where
  approved : paid.verdict.risk.isSome = paid.verdict.approved
  advises : ∀ risk ∈ paid.verdict.risk, risk.Advises thresholds m d
  level : paid.record.riskLevel = paid.verdict.risk.map (·.level)

namespace Service

/-- What a change of an intent gives, the updated intent gives. -/
theorem yields_updateIntent {p : α → Prop} (intentId : String)
    {change : Intent → Service b (α × Intent)}
    (yields : ∀ i, Yields (fun changed => p changed.1) (change i)) :
    Yields p (updateIntent intentId change) := by
  intro w x after done
  have inner := ok_of_atomically done
  rw [runFrom_get_bind] at inner
  cases found : b.intents.find? intentId w.store.intents with
  | none =>
    rw [found] at inner
    cases inner
  | some row =>
    rw [found] at inner
    refine yields_of_last (fun i => (yields i).bind fun changed good => ?_) inner
    exact yields_of_last fun _ => yields_of_last fun _ => yields_pure good

/-- Whatever a payment goes to, its verdict is one that its merchant and its amount get. -/
theorem yields_commitPayment (config : Config) (p : Payment) (intentId : Option String) :
    Yields (fun committed => ∃ intent, Verdict.validate config.thresholds intent p.merchant
        (.decimal p.amount) p.context = .ok committed.1)
      (commitPayment config p intentId : Service b (Verdict × Option Intent)) := by
  cases intentId with
  | none => exact (yields_check _).bind fun v judged => yields_pure ⟨none, judged⟩
  | some id =>
    refine Yields.bind (yields_updateIntent (p := fun paid : Verdict × Intent => ∃ intent,
      Verdict.validate config.thresholds intent p.merchant (.decimal p.amount) p.context =
        .ok paid.1) id fun i => (yields_check _).bind fun v judged => ?_) fun paid judged =>
      yields_pure judged
    have given {j : Intent} := (⟨some i, judged⟩ : ∃ intent, Verdict.validate config.thresholds
      intent p.merchant (.decimal p.amount) p.context = .ok ((v, j), j).1.1)
    exact yields_ite (yields_pure given) <|
      yields_ite (yields_of_last fun _ => yields_pure given) <|
        yields_of_last fun _ => yields_of_last fun _ => yields_pure given

theorem yields_payTo (config : Config) (now : Time) {p : Payment} (whole : p.amount.IsAmount)
    (intentId : Option String) :
    Yields (fun paid => paid.Advised config.thresholds p.merchant p.amount)
      (payTo config now p intentId : Service b PaymentResult) := by
  refine (yields_commitPayment config p intentId).bind ?_
  rintro ⟨v, i⟩ ⟨intent, judged⟩
  obtain ⟨approved, advises⟩ := v.advises_of_validate whole judged
  exact yields_of_last fun _ => yields_of_last fun _ => yields_of_last fun _ =>
    yields_pure ⟨approved, advises, rfl⟩

theorem advised_of_pay {config : Config} {now : Time} {w after : World b} {r : PaymentRequest}
    {paid : PaymentResult} (done : (pay config now r).runFrom w = (.ok paid, after)) :
    ∃ m d, config.directory r.merchant = .ok m ∧ r.amount.toAmount = .ok d ∧
      paid.Advised config.thresholds m d := by
  rw [pay_eq, runFrom_bind, runFrom_begun] at done
  cases made : begun config r (w.ids.transactions + 1) with
  | error failure =>
    rw [made] at done
    cases done
  | ok p =>
    rw [made] at done
    simp only [begun, bind_ok_iff] at made
    obtain ⟨d, brought, m, known, made⟩ := made
    cases made
    have whole := isAmount_of_toAmount brought
    exact ⟨m, d, known, brought,
      yields_of_last (fun intentId => yields_payTo config now whole intentId) done⟩

end Service

/-- Advice decides nothing, and neither do marks of the caller. Two runs of the same operations from
one world, under thresholds that are numbers and may differ, with payments whose marks may differ,
have the same outcomes, results and failures alike, and leave the same world behind: stores, log of
payments, journal, tallies and ids, all but the levels of risk that verdicts tell and records keep.
A verdict advises of a risk where it approves, a high, a medium or a low one by the score, the
category and the certificate of the merchant and by the amount. -/
theorem World.advice_decides_nothing (separates : b.SeparatesAdvice) (config : Config)
    {one other : RiskThresholds} (ordered : one.highValue.isNaN = false)
    (ordered' : other.highValue.isNaN = false) (w : World b) {run run' : List (Time × Operation)}
    (same : run.map (Prod.map id Operation.untraced) = run'.map (Prod.map id Operation.untraced)) :
    (w.outcomes { config with thresholds := one } run).map (Except.map Outcome.unadvised) =
        (w.outcomes { config with thresholds := other } run').map
          (Except.map Outcome.unadvised) ∧
      (∃ rows, w.afterOperations { config with thresholds := other } run' =
          (w.afterOperations { config with thresholds := one } run).relogged rows ∧
        List.Forall₂ b.SameButAdvice
          (w.afterOperations { config with thresholds := one } run).store.records rows) ∧
      ∀ (v after : World b) (now : Time) (r : PaymentRequest) (paid : PaymentResult),
        (Service.pay { config with thresholds := one } now r).runFrom v = (.ok paid, after) →
          ∃ m d, config.directory r.merchant = .ok m ∧ r.amount.toAmount = .ok d ∧
            paid.Advised one m d := by
  have alike : List.Forall₂ b.SameButAdvice w.store.records w.store.records :=
    List.forall₂_same.mpr fun row _ => .inl rfl
  obtain ⟨outcomes, rows, world, alike⟩ :=
    World.runs_sameButAdvice separates config ordered ordered' same w _ alike
  exact ⟨outcomes, ⟨rows, world, alike⟩, fun _ _ _ _ _ done => Service.advised_of_pay done⟩

namespace Sample

/-- A purchase of 25.50 is a high one. -/
def cautious : RiskThresholds := { highValue := .ofCents 1000 }

/-- The payments, as operations that bear a mark. -/
def marked (mark : String) : List (Time × Operation) :=
  payments.map fun (now, c) =>
    (now, .command (match c with
      | .pay r => .pay { r with requestId := mark }
      | c => c))

end Sample

/-- A cautious reader is advised of a medium risk and buys all the same. -/
theorem World.advice_decides_nothing_purchase :
    ((Sample.start.outcomes Sample.config (Sample.marked "")).map (Except.map Outcome.unadvised) =
      (Sample.start.outcomes { Sample.config with thresholds := Sample.cautious }
        (Sample.marked "trace")).map (Except.map Outcome.unadvised)) ∧
    (Sample.start.afterOperations Sample.config (Sample.marked "")).records.map
      (·.riskLevel) = [some .low, none] ∧
    (Sample.start.afterOperations { Sample.config with thresholds := Sample.cautious }
      (Sample.marked "trace")).records.map (·.riskLevel) = [some .medium, none] := by
  have ordered : ({} : RiskThresholds).highValue.isNaN = false := rfl
  have ordered' : Sample.cautious.highValue.isNaN = false := rfl
  have same : (Sample.marked "").map (Prod.map id Operation.untraced) =
      (Sample.marked "trace").map (Prod.map id Operation.untraced) := rfl
  exact ⟨(World.advice_decides_nothing Backend.memory_separatesAdvice Sample.config ordered ordered'
    Sample.start same).1, by decide +kernel, by decide +kernel⟩

namespace Sample

/-- No amount compares with what is not a number. -/
def wayward : RiskThresholds := { highValue := .nan false false 0 }

end Sample

/-- Advice can stop a payment: a purchase that goes through under one threshold fails under another
one, which is not a number. -/
theorem World.advice_can_stop :
    ¬∀ (config : Config) (one other : RiskThresholds) (w : World .memory)
        (run : List (Time × Operation)),
      (w.outcomes { config with thresholds := one } run).map (Except.map Outcome.unadvised) =
        (w.outcomes { config with thresholds := other } run).map
          (Except.map Outcome.unadvised) := by
  intro same
  have same := congrArg (List.map Except.isOk)
    (same Sample.config {} Sample.wayward Sample.start (Sample.marked ""))
  revert same
  decide +kernel

end Earmark
