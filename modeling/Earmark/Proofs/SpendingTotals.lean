import Earmark.Proofs.Labels
import Earmark.Proofs.MonotoneSums
import Earmark.Proofs.Outcomes

/-!
What a payment does to the figures of its payer. A payment whose amount is not negative lowers
nothing that was spent or blocked, whatever is judged of it (`World.spending_grows`); only an
emergency is approved without a positive amount. The sign of an amount is looked at by one stage of
the pipeline alone, which an emergency passes over, so one with a negative amount is settled and
lowers what was spent (`World.spending_falls_refund`).
-/

namespace Earmark

namespace SpendingSummary

variable {user : String} {records : List TransactionRecord} {r : TransactionRecord}
  {intents intents' : List Intent} {escrows escrows' : List Escrow} {s later : SpendingSummary}
  {a b : Decimal}

/-- No total is lower in the later summary, and every category is still there. -/
structure GrowsTo (s later : SpendingSummary) : Prop where
  spent : s.spent.toRat ≤ later.spent.toRat
  blocked : s.blocked.toRat ≤ later.blocked.toRat
  categories : ∀ category total, (category, total) ∈ s.categorySpend →
    ∃ more, (category, more) ∈ later.categorySpend ∧ total.toRat ≤ more.toRat

/-- The totals are those of the records that are approved, and of those that are not. -/
theorem totals_of (made : of user records intents escrows = .ok s) :
    Decimal.sum ((records.filter (·.approved)).map (·.amount)) = .ok s.spent ∧
      Decimal.sum ((records.filter (!·.approved)).map (·.amount)) = .ok s.blocked := by
  simp only [of, bind_ok_iff, Failure.ofDecimal_ok_iff] at made
  obtain ⟨_, _, spent, approved, blocked, rejected, _, _, _, _, _, _, _, _, _, _, made⟩ := made
  cases made
  exact ⟨approved, rejected⟩

/-- A category is listed, with the total of its payments, if one of them is approved. -/
theorem mem_categorySpend_iff (made : of user records intents escrows = .ok s)
    {category : String} {total : Decimal} :
    (category, total) ∈ s.categorySpend ↔
      category ∈ (records.filter (·.approved)).map categoryOf ∧
        Decimal.sum ((records.filter fun r => categoryOf r == category && r.approved).map
          (·.amount)) = .ok total := by
  simp only [of, bind_ok_iff] at made
  obtain ⟨entries, listed, _, _, _, _, _, _, _, _, _, _, _, _, _, _, made⟩ := made
  cases made
  have summed (name : String) (entry : String × Decimal) :
      (do .ok (name, ← spentIn (records.filter (·.approved)) name)) = .ok entry ↔
        entry.1 = name ∧ Decimal.sum ((records.filter fun r =>
          categoryOf r == entry.1 && r.approved).map (·.amount)) = .ok entry.2 := by
    simp only [spentIn, List.filter_filter, bind_ok_iff, Failure.ofDecimal_ok_iff]
    constructor
    · rintro ⟨total, summed, same⟩
      cases same
      exact ⟨rfl, summed⟩
    · rintro ⟨rfl, summed⟩
      exact ⟨entry.2, summed, rfl⟩
  constructor
  · intro mem
    obtain ⟨name, known, entered⟩ := exists_of_mem_mapM listed mem
    obtain ⟨rfl, total⟩ := (summed name _).mp entered
    exact ⟨mem_sortedSet.mp known, total⟩
  · rintro ⟨known, total⟩
    obtain ⟨entry, mem, entered⟩ := exists_mem_of_mapM listed (mem_sortedSet.mpr known)
    obtain ⟨same, total'⟩ := (summed category entry).mp entered
    rw [same, total] at total'
    cases total'
    exact same ▸ mem

/-- The totals depend on the records alone. -/
theorem growsTo_of_same (made : of user records intents escrows = .ok s)
    (made' : of user records intents' escrows' = .ok later) :
    s.GrowsTo later ∧ later.spent = s.spent ∧ later.blocked = s.blocked := by
  obtain ⟨spent, blocked⟩ := totals_of made
  obtain ⟨spent', blocked'⟩ := totals_of made'
  have sameSpent : later.spent = s.spent := Except.ok.inj (spent'.symm.trans spent)
  have sameBlocked : later.blocked = s.blocked := Except.ok.inj (blocked'.symm.trans blocked)
  refine ⟨⟨(congrArg Decimal.toRat sameSpent).ge, (congrArg Decimal.toRat sameBlocked).ge,
    fun category total mem => ⟨total, ?_, le_rfl⟩⟩, sameSpent, sameBlocked⟩
  exact (mem_categorySpend_iff made').mpr ((mem_categorySpend_iff made).mp mem)

/-- One more record raises the total of those it counts among if its amount is positive, and lowers
it if it is negative. -/
private theorem sum_filter_cons (counted : TransactionRecord → Bool)
    (amounts : ∀ other ∈ r :: records, other.amount.IsAmount)
    (summed : Decimal.sum ((records.filter counted).map (·.amount)) = .ok a)
    (summed' : Decimal.sum (((r :: records).filter counted).map (·.amount)) = .ok b) :
    (0 ≤ r.amount.toRat → a.toRat ≤ b.toRat) ∧ (r.amount.toRat ≤ 0 → b.toRat ≤ a.toRat) := by
  cases counts : counted r with
  | false =>
    rw [List.filter_cons_of_neg (by simp [counts]), summed] at summed'
    cases summed'
    exact ⟨fun _ => le_rfl, fun _ => le_rfl⟩
  | true =>
    rw [List.filter_cons_of_pos counts, List.map_cons] at summed'
    refine Decimal.sum_cons_mono (amounts r (by simp)) (fun d mem => ?_) summed summed'
    obtain ⟨other, known, rfl⟩ := List.mem_map.mp mem
    exact amounts other (List.mem_cons_of_mem _ (List.mem_of_mem_filter known))

variable (amounts : ∀ other ∈ r :: records, other.amount.IsAmount)
  (made : of user records intents escrows = .ok s)
  (made' : of user (r :: records) intents' escrows' = .ok later)

include amounts made made'

/-- One more record of no negative amount lowers no total. -/
theorem growsTo_of_cons (nonneg : 0 ≤ r.amount.toRat) : s.GrowsTo later := by
  obtain ⟨spent, blocked⟩ := totals_of made
  obtain ⟨spent', blocked'⟩ := totals_of made'
  refine ⟨(sum_filter_cons _ amounts spent spent').1 nonneg,
    (sum_filter_cons _ amounts blocked blocked').1 nonneg, fun category total mem => ?_⟩
  obtain ⟨known, summed⟩ := (mem_categorySpend_iff made).mp mem
  have below : ∀ d ∈ ((r :: records).filter fun r =>
      categoryOf r == category && r.approved).map (·.amount), d.Below 26 := by
    intro d mem
    obtain ⟨other, known, rfl⟩ := List.mem_map.mp mem
    exact (amounts other (List.mem_of_mem_filter known)).below
  obtain ⟨more, summed', -⟩ := Decimal.exists_sum_of_below below (by decide) (by decide)
  have known' : category ∈ ((r :: records).filter (·.approved)).map categoryOf := by
    obtain ⟨other, approved, named⟩ := List.mem_map.mp known
    have kept : other ∈ (r :: records).filter (·.approved) :=
      ((List.sublist_cons_self r records).filter _).subset approved
    exact List.mem_map.mpr ⟨other, kept, named⟩
  exact ⟨more, (mem_categorySpend_iff made').mpr ⟨known', summed'⟩,
    (sum_filter_cons _ amounts summed summed').1 nonneg⟩

/-- One more record of no positive amount raises neither what was spent nor what was blocked. -/
theorem totals_le_of_cons (nonpos : r.amount.toRat ≤ 0) :
    later.spent.toRat ≤ s.spent.toRat ∧ later.blocked.toRat ≤ s.blocked.toRat := by
  obtain ⟨spent, blocked⟩ := totals_of made
  obtain ⟨spent', blocked'⟩ := totals_of made'
  exact ⟨(sum_filter_cons _ amounts spent spent').2 nonpos,
    (sum_filter_cons _ amounts blocked blocked').2 nonpos⟩

end SpendingSummary

/-! ### Payments -/

/-- A verdict gives a reference to what it approves, and to nothing else. -/
theorem Verdict.reference_isSome {thresholds : RiskThresholds} {intent : Option Intent}
    {m : Merchant} {amount : Decimal} {context : Context} {v : Verdict} (whole : amount.IsAmount)
    (judged : validate thresholds intent m (.decimal amount) context = .ok v) :
    v.reference.isSome = v.approved := by
  rw [reference_eq whole judged]
  cases v.approved <;> rfl

variable {config : Config} {now : Time} {w next : World .memory} {request : PaymentRequest}
  {result : PaymentResult} {run : List (Time × Command)}

/-- What a payment that is judged is logged as. -/
structure PaymentRequest.LoggedAs (request : PaymentRequest) (record : TransactionRecord) :
    Prop where
  user : record.user = request.user
  amount : request.amount.toAmount = .ok record.amount
  reference : record.reference.isSome = record.approved
  bypass : record.bypass = request.emergency
  overridden : request.emergency = true → record.approved = true
  approved : record.approved = true → request.emergency = false → 0 < record.amount.toRat

theorem Turn.loggedAs (turn : Turn config now w (.pay request) (.ok (.payment result)) next)
    (ledgers : Intent.Ledgers w.intents) : request.LoggedAs result.record := by
  cases turn with
  | aside aside => cases aside
  | payNowhere brought known begun target judged =>
    subst begun
    have amount := isAmount_of_toAmount brought
    have emergency := Verdict.bypass_eq amount judged
    refine ⟨rfl, brought, Verdict.reference_isSome amount judged, emergency, fun urgent =>
      Verdict.approved_of_bypass amount judged (emergency.trans urgent), fun approved calm => ?_⟩
    have bypass := Verdict.bypass_of_approved_without amount judged approved
    exact absurd (bypass.symm.trans (emergency.trans calm)) (by decide)
  | pay brought known begun target found judged settled =>
    subst begun
    have amount := isAmount_of_toAmount brought
    have emergency := Verdict.bypass_eq amount judged
    refine ⟨rfl, brought, Verdict.reference_isSome amount judged, emergency, fun urgent =>
      Verdict.approved_of_bypass amount judged (emergency.trans urgent), fun approved calm => ?_⟩
    have allows := Intent.Allows.of_validate (ledgers.sound_of_findIn found) amount judged
      (emergency.trans calm) approved
    exact amount.toRat_pos allows.positive

/-! ### Worlds that add up -/

theorem Intent.Moves.timed {intents after : List Intent} (moves : Moves now intents after)
    (aware : now.offset.isSome) (timed : ∀ i ∈ intents, i.Timed) : ∀ i ∈ after, i.Timed := by
  intro i mem
  cases moves with
  | same => exact timed i mem
  | opened built opened =>
    rcases List.mem_append.mp mem with known | new
    · exact timed i known
    · exact List.mem_singleton.mp new ▸ .of_opened built aware opened
  | changed found change =>
    rcases mem_replaceIn mem with rfl | ⟨known, -⟩
    · have before := timed _ (mem_of_findIn found)
      exact before.later change.precedes (change.sound before.sound)
    · exact timed i known

namespace World

/-- The figures of every user can be added up. -/
structure AddsUp (w : World .memory) : Prop where
  ledgers : Intent.Ledgers w.intents
  timed : ∀ i ∈ w.intents, i.Timed
  amounts : ∀ r ∈ w.records, r.amount.IsAmount
  vault : VaultOrderly w.vault

theorem AddsUp.of_empty (empty : w.store = {}) : w.AddsUp where
  ledgers := .of_empty empty
  timed i mem := absurd (intents_of_empty empty ▸ mem) List.not_mem_nil
  amounts r mem := absurd (records_of_empty empty ▸ mem) List.not_mem_nil
  vault e mem := by
    rw [World.vault, escrows, empty] at mem
    cases mem

theorem AddsUp.step (adds : w.AddsUp) {c : Command} (regular : c.Regular) (stated : c.StatesPart)
    (aware : now.offset.isSome) : (w.step config now c).2.AddsUp := by
  obtain ⟨next, turn, same⟩ := Service.step_turn config now w c
  exact
    { ledgers := same.intents ▸ adds.ledgers.turn regular turn
      timed := same.intents ▸ (turn.moves regular adds.ledgers).timed aware adds.timed
      amounts := same.records ▸ turn.amounts_logged adds.amounts
      vault := stated.vaultOrderly config aware adds.vault }

theorem AddsUp.after (adds : w.AddsUp)
    (allowed : ∀ entry ∈ run, entry.1.offset.isSome ∧ entry.2.Regular ∧ entry.2.StatesPart) :
    (w.after config run).AddsUp := by
  induction run generalizing w with
  | nil => exact adds
  | cons entry rest ih =>
    obtain ⟨aware, regular, stated⟩ := allowed entry (by simp)
    exact ih (adds.step regular stated aware) fun other mem => allowed other (by simp [mem])

theorem AddsUp.exists_summary (adds : w.AddsUp) (user : String) :
    ∃ intents escrows figures, (Service.summary user).runFrom w = (.ok figures, w) ∧
      SpendingSummary.of user (w.records.filter (·.user == user)).reverse intents escrows =
        .ok figures :=
  Service.exists_summary adds.timed adds.amounts adds.vault user

/-- In every state of every run from an empty store and for every payment that returns: its record
has the amount that was asked for, a reference exactly if it is approved, and is approved in an
emergency and otherwise only with a positive amount. The payer has a summary before and after it,
and if the amount is not negative, no total and no category of it is lower than before; if the
amount is not positive, neither what was spent nor what was blocked is higher. -/
theorem spending_grows {start : World .memory} (empty : start.store = {})
    (allowed : ∀ entry ∈ run, entry.1.offset.isSome ∧ entry.2.Regular ∧ entry.2.StatesPart)
    (reached : start.after config run = w) (aware : now.offset.isSome)
    (paid : w.step config now (.pay request) = (.ok (.payment result), next)) :
    request.LoggedAs result.record ∧
      (next.records = if w.outage.records w.recordWrites then w.records
        else w.records ++ [result.record]) ∧
      ∃ before later, (Service.summary request.user).runFrom w = (.ok before, w) ∧
        (Service.summary request.user).runFrom next = (.ok later, next) ∧
        (0 ≤ result.record.amount.toRat → before.GrowsTo later) ∧
        (result.record.amount.toRat ≤ 0 → later.spent.toRat ≤ before.spent.toRat ∧
          later.blocked.toRat ≤ before.blocked.toRat) := by
  have adds : w.AddsUp := reached ▸ (AddsUp.of_empty empty).after allowed
  have adds' : next.AddsUp := by
    have kept : (w.step config now (.pay request)).2.AddsUp := adds.step trivial trivial aware
    rwa [paid] at kept
  obtain ⟨middle, turn, same⟩ := Service.step_turn config now w (.pay request)
  rw [paid] at turn same
  have logged := turn.loggedAs adds.ledgers
  have logs : next.records = if w.outage.records w.recordWrites then w.records
      else w.records ++ [result.record] := by
    obtain ⟨-, ⟨-, failed⟩ | ⟨request', result', -, reply, -, logs⟩⟩ := turn.records_cases
    · obtain ⟨failure, failed⟩ := failed request rfl
      cases failed
    · cases reply
      exact same.records.trans logs
  obtain ⟨intents, escrows, before, shown, made⟩ := adds.exists_summary request.user
  obtain ⟨intents', escrows', later, shown', made'⟩ := adds'.exists_summary request.user
  refine ⟨logged, logs, before, later, shown, shown', ?_⟩
  rw [logs] at made'
  split at made'
  · obtain ⟨grows, spent, blocked⟩ := SpendingSummary.growsTo_of_same made made'
    exact ⟨fun _ => grows, fun _ => ⟨(congrArg Decimal.toRat spent).le,
      (congrArg Decimal.toRat blocked).le⟩⟩
  · have latest : ((w.records ++ [result.record]).filter (·.user == request.user)).reverse =
        result.record :: (w.records.filter (·.user == request.user)).reverse := by
      simp [logged.user]
    rw [latest] at made'
    have amounts : ∀ r ∈ result.record :: (w.records.filter (·.user == request.user)).reverse,
        r.amount.IsAmount := by
      intro r mem
      rcases List.mem_cons.mp mem with rfl | known
      · exact isAmount_of_toAmount logged.amount
      · exact adds.amounts r (List.mem_of_mem_filter (List.mem_reverse.mp known))
    exact ⟨SpendingSummary.growsTo_of_cons amounts made made',
      SpendingSummary.totals_le_of_cons amounts made made'⟩

end World

/-! ### A purchase and a refund -/

/-- The record of a payment that returned. -/
def Reply.record? : Except Failure Reply → Option TransactionRecord
  | .ok (.payment result) => some result.record
  | _ => none

theorem Reply.exists_of_record? {reply : Except Failure Reply} {record : TransactionRecord}
    (known : record? reply = some record) :
    ∃ result, reply = .ok (.payment result) ∧ result.record = record := by
  unfold record? at known
  split at known
  · exact ⟨_, rfl, Option.some.inj known⟩
  · cases known

namespace Sample

/-- A wallet of a hundred and an intent of sixty. -/
def funded : List (Time × Command) := payments.take 2

/-- A book for 25.50. -/
def purchase : PaymentRequest :=
  { user := "reader", merchant := "MRC001", amount := .decimal (.ofCents 2550)
    requestedAt := today }

/-- Fifty to be paid back, as an emergency. -/
def refund : PaymentRequest :=
  { purchase with amount := .decimal (.ofCents (-5000)), emergency := true }

/-- What a world shows as spent by the reader. -/
def spent (w : World .memory) : Option Decimal :=
  ((Service.summary "reader").runFrom w).1.toOption.map (·.spent)

theorem spent_eq {w : World .memory} {figures : SpendingSummary}
    (shown : (Service.summary "reader").runFrom w = (.ok figures, w)) :
    spent w = some figures.spent := by
  rw [spent, shown]
  rfl

end Sample

theorem World.spending_grows_purchase :
    ∃ before later : SpendingSummary, before.GrowsTo later ∧ before.spent = .ofCents 0 ∧
      later.spent = .ofCents 2550 := by
  have allowed : ∀ entry ∈ Sample.funded,
      entry.1.offset.isSome ∧ entry.2.Regular ∧ entry.2.StatesPart := by
    simp [Sample.funded, Sample.payments, Sample.today, Command.Regular, Command.StatesPart,
      Sample.policy_isBuilt]
  obtain ⟨record, known⟩ : ∃ record, Reply.record? ((Sample.start.after Sample.config
      Sample.funded).step Sample.config Sample.today (.pay Sample.purchase)).1 = some record :=
    Option.isSome_iff_exists.mp (by decide +kernel)
  obtain ⟨result, returned, -⟩ := Reply.exists_of_record? known
  obtain ⟨logged, -, before, later, shown, shown', grows, -⟩ :=
    World.spending_grows rfl allowed rfl rfl (Prod.ext returned rfl)
  have amount : result.record.amount = .ofCents 2550 := by
    have whole : (Decimal.ofCents 2550).IsAmount := ⟨rfl, by decide⟩
    have brought := logged.amount
    rw [Sample.purchase, Numeral.toAmount_decimal whole] at brought
    exact (Except.ok.inj brought).symm
  have nonneg : 0 ≤ result.record.amount.toRat := by
    rw [amount]
    norm_num [Decimal.ofCents, Decimal.toRat, Decimal.signed]
  exact ⟨before, later, grows nonneg,
    Option.some.inj ((Sample.spent_eq shown).symm.trans (by decide +kernel)),
    Option.some.inj ((Sample.spent_eq shown').symm.trans (by decide +kernel))⟩

/-- An emergency with a negative amount is approved and settled, and what was spent falls. -/
theorem World.spending_falls_refund :
    ∃ result before later,
      (Sample.start.step Sample.config Sample.today (.pay Sample.refund)).1 =
        .ok (.payment result) ∧
      result.record.approved = true ∧ result.record.reference.isSome = true ∧
      result.record.amount = .ofCents (-5000) ∧
      Sample.spent Sample.start = some before ∧
      Sample.spent (Sample.start.step Sample.config Sample.today (.pay Sample.refund)).2 =
        some later ∧
      later.toRat < before.toRat := by
  obtain ⟨record, known⟩ : ∃ record, Reply.record? (Sample.start.step Sample.config Sample.today
      (.pay Sample.refund)).1 = some record :=
    Option.isSome_iff_exists.mp (by decide +kernel)
  obtain ⟨result, returned, same⟩ := Reply.exists_of_record? known
  have figures : (Reply.record? (Sample.start.step Sample.config Sample.today
      (.pay Sample.refund)).1).map (fun r => (r.approved, r.reference.isSome, r.amount)) =
        some (true, true, .ofCents (-5000)) := by decide +kernel
  rw [known, ← same, Option.map_some, Option.some.injEq, Prod.mk.injEq, Prod.mk.injEq] at figures
  obtain ⟨approved, settled, amount⟩ := figures
  refine ⟨result, .ofCents 0, .ofCents (-5000), returned, approved, settled, amount,
    by decide +kernel, by decide +kernel, ?_⟩
  norm_num [Decimal.ofCents, Decimal.toRat, Decimal.signed]

end Earmark
