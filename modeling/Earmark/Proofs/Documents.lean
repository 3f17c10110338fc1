import Earmark.Proofs.Escrows
import Earmark.Proofs.Refusals

/-!
What is kept can be shown. Of an escrow whose amounts are amounts every figure exists, whatever its
size, and a release or a clawback of it is carried out or refused (`Escrow.Orderly`); documents of
intents, payments and escrows and the summary of a user's spending always exist.
-/

namespace Earmark

theorem Decimal.IsRate.below {rate : Decimal} (isRate : rate.IsRate) : rate.Below 1 := by
  obtain ⟨isFinite, nonneg, le⟩ := isRate
  have bound : |rate.toRat| ≤ (1 : Nat) := by
    rw [abs_of_nonneg nonneg, Nat.cast_one]
    exact le
  exact .of_abs_le isFinite bound (by rw [digitCount]; decide)

/-- A rate of a number is an amount, or is refused. -/
theorem onlyRefuses_applyRate {d rate : Decimal} (below : d.Below 66) (isRate : rate.IsRate) :
    OnlyRefuses (applyRate d rate) := by
  obtain ⟨product, multiplied, -⟩ := below.exists_mul isRate.below (by decide)
  simp only [applyRate, multiplied, Failure.ofDecimal_ok, ok_bind]
  exact onlyRefuses_toAmount product

theorem isAmount_of_applyRate {d rate part : Decimal} (taken : applyRate d rate = .ok part) :
    part.IsAmount := by
  obtain ⟨product, -, brought⟩ := bind_ok_iff.mp taken
  exact isAmount_of_toAmount (n := .decimal product) brought

/-! ### Escrows -/

/-- The receipt has amounts that can be subtracted. -/
def ClawbackReceipt.IsShowable (r : ClawbackReceipt) : Prop :=
  r.netReturned.Below 64 ∧ r.savings.Below 64

namespace Escrow

/-- The escrow was made at a time with an offset, and its amounts are amounts. -/
structure Orderly (e : Escrow) : Prop where
  createdAt : e.createdAt.offset.isSome
  amounts : ∀ m ∈ e.milestones, m.amount.IsAmount
  receipt : ∀ r ∈ e.clawback, r.IsShowable

variable {e next : Escrow} {now : Time}

namespace Orderly

theorem exists_sum (orderly : e.Orderly) (p : Milestone → Bool) :
    ∃ total, Decimal.sum ((e.milestones.filter p).map (·.amount)) = .ok total ∧
      total.Below 58 := by
  have below : ∀ d ∈ (e.milestones.filter p).map (·.amount), d.Below 26 := by
    intro d mem
    obtain ⟨m, known, rfl⟩ := List.mem_map.mp mem
    exact (orderly.amounts m (List.mem_of_mem_filter known)).below
  exact Decimal.exists_sum_of_below below (by decide) (by decide)

theorem exists_total (orderly : e.Orderly) : ∃ total, e.total = .ok total ∧ total.Below 58 := by
  obtain ⟨sum, summed, below⟩ := orderly.exists_sum fun _ => true
  rw [List.filter_true] at summed
  exact ⟨sum, by simp only [Escrow.total, summed, Failure.ofDecimal_ok], below⟩

theorem exists_released (orderly : e.Orderly) :
    ∃ released, e.released = .ok released ∧ released.Below 58 := by
  obtain ⟨released, summed, below⟩ := orderly.exists_sum (·.isCompleted)
  exact ⟨released, by simp only [Escrow.released, summed, Failure.ofDecimal_ok], below⟩

theorem exists_pending (orderly : e.Orderly) :
    ∃ pending, e.pending = .ok pending ∧ pending.Below 60 := by
  obtain ⟨total, totalled, belowTotal⟩ := orderly.exists_total
  obtain ⟨released, summed, belowReleased⟩ := orderly.exists_released
  obtain ⟨pending, subtracted, below⟩ := belowTotal.exists_sub belowReleased (by decide)
  exact ⟨pending, by
    simp only [Escrow.pending, totalled, summed, subtracted, Failure.ofDecimal_ok, ok_bind], below⟩

theorem exists_status (orderly : e.Orderly) : ∃ status, e.status = .ok status := by
  obtain ⟨pending, left, belowPending⟩ := orderly.exists_pending
  obtain ⟨released, summed, belowReleased⟩ := orderly.exists_released
  obtain ⟨begun, compared⟩ :=
    Decimal.exists_gt? (b := .ofNat 0) belowReleased.isFinite_eq rfl
  simp only [Escrow.status, left, summed, compared, ok_bind, Failure.ofDecimal_ok,
    Decimal.le?_finite (b := .ofNat 0) belowPending.isFinite_eq rfl]
  split_ifs <;> exact ⟨_, rfl⟩

theorem exists_isOpen (orderly : e.Orderly) : ∃ isOpen, e.isOpen = .ok isOpen := by
  obtain ⟨status, found⟩ := orderly.exists_status
  exact ⟨_, by simp only [isOpen, found, ok_bind]; rfl⟩

/-- Completing a milestone changes no amount. -/
theorem released (orderly : e.Orderly) {milestoneId : String} {proof merchantId : Option String}
    {done : Milestone} (released : e.release milestoneId proof now merchantId = .ok (done, next)) :
    next.Orderly := by
  obtain ⟨first, m, rest, -, place, -, -, terms, -, rfl⟩ := release_ok released
  refine ⟨orderly.createdAt, fun other mem => ?_, orderly.receipt⟩
  have same : done.amount = m.amount := by
    simp only [Milestone.terms, Prod.mk.injEq] at terms
    exact terms.2.2.1
  rcases List.mem_append.mp mem with before | later
  · exact orderly.amounts other (by simp [place, before])
  · rcases List.mem_cons.mp later with rfl | later
    · exact same ▸ orderly.amounts m (by simp [place])
    · exact orderly.amounts other (by simp [place, later])

theorem onlyRefuses_release (orderly : e.Orderly) (milestoneId : String)
    (proof : Option String) (now : Time) (merchantId : Option String) :
    OnlyRefuses (e.release milestoneId proof now merchantId) := by
  obtain ⟨status, found⟩ := orderly.exists_status
  simp only [release, found, ok_bind]
  refine onlyFails_ite (onlyFails_error ⟨409, rfl, by decide⟩) ?_
  split
  · exact onlyFails_error ⟨404, rfl, by decide⟩
  · exact onlyFails_ite (onlyFails_error ⟨409, rfl, by decide⟩)
      (onlyFails_ite (onlyFails_error ⟨409, rfl, by decide⟩) (onlyFails_ok _))

theorem onlyRefuses_releaseIn (orderly : e.Orderly) (milestoneId : String)
    (proof : Option String) (now : Time) (merchantId : Option String) :
    OnlyRefuses (Service.releaseIn milestoneId proof now merchantId e) := by
  refine onlyFails_bind (orderly.onlyRefuses_release milestoneId proof now merchantId)
    fun (done, after) released => ?_
  have orderly' := orderly.released released
  obtain ⟨total, summed, -⟩ := orderly'.exists_released
  obtain ⟨pending, left, -⟩ := orderly'.exists_pending
  obtain ⟨status, found⟩ := orderly'.exists_status
  simp only [summed, left, found, ok_bind]
  exact onlyFails_ok _

theorem releasedIn (orderly : e.Orderly) {milestoneId : String} {proof merchantId : Option String}
    {answer : ReleaseReceipt × String}
    (done : Service.releaseIn milestoneId proof now merchantId e = .ok (answer, next)) :
    next.Orderly := by
  simp only [Service.releaseIn, bind_ok_iff] at done
  obtain ⟨⟨completed, after⟩, released, done⟩ := done
  simp only [Except.ok.injEq, Prod.mk.injEq] at done
  obtain ⟨-, -, -, -, -, -, -, rfl⟩ := done
  exact orderly.released released

end Orderly

section

variable {reason : ClawbackReason} {rates : Rates} {pending amount : Decimal}

private theorem rate_of_reason (penaltyRate : rates.penalty.IsRate) :
    Decimal.IsRate (if reason = .misuse then rates.penalty else .zero) := by
  split
  · exact penaltyRate
  · exact Decimal.isRate_zero

/-- What is recovered can be divided, or it is refused. -/
private theorem onlyRefuses_recover (penaltyRate : rates.penalty.IsRate)
    (savingsRate : rates.savings.IsRate) (belowPending : pending.Below 60)
    (below : amount.Below 60) : OnlyRefuses (e.recover reason now rates pending amount) := by
  obtain ⟨beyond, compared⟩ := Decimal.exists_gt? below.isFinite_eq belowPending.isFinite_eq
  obtain ⟨unrecovered, remaining, -⟩ := belowPending.exists_sub below (by decide)
  simp only [recover, Decimal.le?_finite (b := .ofNat 0) below.isFinite_eq rfl, compared, remaining,
    Failure.ofDecimal_ok, ok_bind]
  refine onlyFails_ite (onlyFails_error ⟨422, rfl, by decide⟩) ?_
  refine onlyFails_bind (onlyRefuses_applyRate (below.mono (by decide))
    (rate_of_reason penaltyRate)) fun penalty penalised => ?_
  obtain ⟨net, returned, belowNet⟩ := below.exists_sub
    ((isAmount_of_applyRate penalised).below.mono (by decide)) (by decide)
  simp only [returned, Failure.ofDecimal_ok, ok_bind]
  exact onlyFails_bind (onlyRefuses_applyRate (belowNet.mono (by decide)) savingsRate)
    fun savings _ => onlyFails_ok _

private theorem recovered (orderly : e.Orderly) (below : amount.Below 60)
    {receipt : ClawbackReceipt}
    (done : e.recover reason now rates pending amount = .ok (receipt, next)) :
    next.Orderly ∧ receipt.IsShowable := by
  simp only [recover, bind_ok_iff] at done
  obtain ⟨empty, -, beyond, -, done⟩ := done
  split at done
  · cases done
  · simp only [bind_ok_iff, Failure.ofDecimal_ok_iff, Except.ok.injEq, Prod.mk.injEq] at done
    obtain ⟨penalty, penalised, net, returned, savings, saved, unrecovered, -, rfl, rfl⟩ := done
    obtain ⟨net', subtracted, belowNet⟩ := below.exists_sub
      ((isAmount_of_applyRate penalised).below.mono (by decide)) (by decide)
    obtain rfl : net' = net := by simpa [subtracted] using returned
    have showable : net'.Below 64 ∧ savings.Below 64 :=
      ⟨belowNet.mono (by decide), (isAmount_of_applyRate saved).below.mono (by decide)⟩
    refine ⟨⟨orderly.createdAt, orderly.amounts, fun r claimed => ?_⟩, showable⟩
    obtain rfl : _ = r := Option.some.inj claimed
    exact showable

namespace Orderly

variable {part : Option Decimal}

/-- What is asked for is a part, or else all that is pending. -/
private theorem asked_below (part : Option Decimal) (belowPending : pending.Below 60) :
    OnlyRefuses (asked pending (part.map .decimal)) ∧
      ∀ amount, asked pending (part.map .decimal) = .ok amount → amount.Below 60 := by
  cases part with
  | none =>
    refine ⟨onlyFails_ok pending, fun amount asks => ?_⟩
    cases asks
    exact belowPending
  | some d =>
    refine ⟨onlyRefuses_toAmount d, fun amount brought => ?_⟩
    have whole : amount.IsAmount := isAmount_of_toAmount (n := .decimal d) brought
    exact whole.below.mono (by decide)

theorem onlyRefuses_clawBack (orderly : e.Orderly) (penaltyRate : rates.penalty.IsRate)
    (savingsRate : rates.savings.IsRate) :
    OnlyRefuses (e.clawBack reason now (part.map .decimal) rates) := by
  obtain ⟨status, found⟩ := orderly.exists_status
  obtain ⟨pending, left, belowPending⟩ := orderly.exists_pending
  obtain ⟨asks, below⟩ := asked_below part belowPending
  simp only [clawBack_eq, found, left, ok_bind]
  exact onlyFails_ite (onlyFails_error ⟨409, rfl, by decide⟩)
    (onlyFails_bind asks fun amount brought =>
      onlyRefuses_recover penaltyRate savingsRate belowPending (below amount brought))

theorem clawedBack (orderly : e.Orderly) {receipt : ClawbackReceipt}
    (done : e.clawBack reason now (part.map .decimal) rates = .ok (receipt, next)) :
    next.Orderly ∧ receipt.IsShowable := by
  obtain ⟨status, found⟩ := orderly.exists_status
  obtain ⟨pending, left, belowPending⟩ := orderly.exists_pending
  simp only [clawBack_eq, found, left, ok_bind] at done
  split at done
  · cases done
  · obtain ⟨amount, brought, done⟩ := bind_ok_iff.mp done
    exact recovered orderly ((asked_below part belowPending).2 amount brought) done

end Orderly

end

end Escrow

/-! ### Documents -/

namespace Http.View

theorem exists_intent {i : Intent} (orderly : i.Orderly) :
    ∃ document, View.intent i = .ok document := by
  obtain ⟨rest, remaining, -⟩ := orderly.sound.exists_remaining
  obtain ⟨place, shown⟩ : ∃ place, i.policy.geo.mapM View.geo = .ok place := by
    refine exists_mapM fun geo restricted => ?_
    obtain ⟨radius, float⟩ := exists_mapM (orderly.radius geo restricted)
    exact ⟨_, by simp only [View.geo, float, ok_bind]; rfl⟩
  exact ⟨_, by simp only [View.intent, shown, remaining, ok_bind]; rfl⟩

theorem exists_payment {p : PaymentResult} (orderly : ∀ i ∈ p.intent, i.Orderly) :
    ∃ document, View.payment p = .ok document := by
  obtain ⟨shown, done⟩ := exists_mapM fun i known => exists_intent (orderly i known)
  exact ⟨_, by simp only [View.payment, done, ok_bind]; rfl⟩

theorem exists_clawback {r : ClawbackReceipt} (showable : r.IsShowable) :
    ∃ document, View.clawback r = .ok document := by
  obtain ⟨spendable, left, -⟩ := showable.1.exists_sub showable.2 (by decide)
  exact ⟨_, by
    simp only [View.clawback, ClawbackReceipt.toSpendable, left, Failure.ofDecimal_ok, ok_bind]
    rfl⟩

theorem exists_escrow {e : Escrow} (orderly : e.Orderly) :
    ∃ document, View.escrow e = .ok document := by
  obtain ⟨receipt, shown⟩ :=
    exists_mapM fun r claimed => exists_clawback (orderly.receipt r claimed)
  obtain ⟨status, found⟩ := orderly.exists_status
  obtain ⟨total, totalled, -⟩ := orderly.exists_total
  obtain ⟨released, summed, -⟩ := orderly.exists_released
  obtain ⟨pending, left, -⟩ := orderly.exists_pending
  exact ⟨_, by simp only [View.escrow, shown, found, totalled, summed, left, ok_bind]; rfl⟩

theorem exists_intents (user : String) {all : List Intent} (orderly : ∀ i ∈ all, i.Orderly) :
    ∃ document, View.intents user all = .ok document := by
  obtain ⟨shown, done⟩ := exists_mapM_list fun i mem => exists_intent (orderly i mem)
  exact ⟨_, by simp only [View.intents, done, ok_bind]; rfl⟩

theorem exists_escrows (user : String) {all : List Escrow} (orderly : ∀ e ∈ all, e.Orderly) :
    ∃ document, View.escrows user all = .ok document := by
  obtain ⟨shown, done⟩ := exists_mapM_list fun e mem => exists_escrow (orderly e mem)
  exact ⟨_, by simp only [View.escrows, done, ok_bind]; rfl⟩

end Http.View

/-- What comes of some items, each a number below the place, has a sum. -/
private theorem exists_mapM_sum {α : Type} {f : α → Except Failure Decimal} {items : List α}
    {place : Int} (each : ∀ a ∈ items, ∃ d, f a = .ok d ∧ d.Below place) (nonneg : 0 ≤ place)
    (far : place + 33 ≤ Decimal.lastPlace) :
    ∃ ds total, items.mapM f = .ok ds ∧ Decimal.sum ds = .ok total := by
  obtain ⟨ds, made⟩ := exists_mapM_list fun a mem => (each a mem).imp fun _ known => known.1
  have below : ∀ d ∈ ds, d.Below place := by
    intro d mem
    obtain ⟨a, known, done⟩ := exists_of_mem_mapM made mem
    obtain ⟨other, done', below⟩ := each a known
    obtain rfl : other = d := by simpa [done] using done'.symm
    exact below
  obtain ⟨total, summed, -⟩ := Decimal.exists_sum_of_below below nonneg far
  exact ⟨ds, total, made, summed⟩

/-- A user's payments and commitments always add up to a summary. -/
theorem SpendingSummary.exists_of (user : String) {records : List TransactionRecord}
    {intents : List Intent} {escrows : List Escrow} (amounts : ∀ r ∈ records, r.amount.IsAmount)
    (sound : ∀ i ∈ intents, i.Sound) (escrows_orderly : ∀ e ∈ escrows, e.Orderly) :
    ∃ summary, SpendingSummary.of user records intents escrows = .ok summary := by
  have exists_spent (p : TransactionRecord → Bool) :
      ∃ total, Decimal.sum ((records.filter p).map (·.amount)) = .ok total := by
    have below : ∀ d ∈ (records.filter p).map (·.amount), d.Below 26 := by
      intro d mem
      obtain ⟨r, known, rfl⟩ := List.mem_map.mp mem
      exact (amounts r (List.mem_of_mem_filter known)).below
    obtain ⟨total, summed, -⟩ := Decimal.exists_sum_of_below below (by decide) (by decide)
    exact ⟨total, summed⟩
  have exists_category (category : String) :
      ∃ entry, (do .ok (category, ← spentIn (records.filter (·.approved)) category)) =
        (.ok entry : Except Failure (String × Decimal)) := by
    obtain ⟨total, summed⟩ := exists_spent fun r => categoryOf r == category && r.approved
    exact ⟨(category, total), by
      simp only [spentIn, List.filter_filter, summed, Failure.ofDecimal_ok, ok_bind]⟩
  obtain ⟨spent, summedSpent⟩ := exists_spent (·.approved)
  obtain ⟨blocked, summedBlocked⟩ := exists_spent (!·.approved)
  obtain ⟨byCategory, categories⟩ := exists_mapM_list fun category
    (_ : category ∈ sortedSet ((records.filter (·.approved)).map categoryOf)) =>
      exists_category category
  have exists_rest : ∀ i ∈ intents.filter (·.isActive),
      ∃ rest, i.remaining = .ok rest ∧ rest.Below 26 := by
    intro i mem
    obtain ⟨rest, left, whole, -⟩ := (sound i (List.mem_of_mem_filter mem)).exists_remaining
    exact ⟨rest, left, whole.below⟩
  obtain ⟨rests, locked, remaining, summedLocked⟩ :=
    exists_mapM_sum exists_rest (by decide) (by decide)
  obtain ⟨opened, filtered⟩ := exists_filterM fun e mem => (escrows_orderly e mem).exists_isOpen
  obtain ⟨pendings, pendingTotal, pending, summedPending⟩ :=
    exists_mapM_sum (fun e mem =>
      (escrows_orderly e (mem_of_filterM filtered mem)).exists_pending) (by decide) (by decide)
  exact ⟨_, by
    simp only [SpendingSummary.of, categories, summedSpent, summedBlocked, remaining, summedLocked,
      filtered, pending, summedPending, Failure.ofDecimal_ok, ok_bind]
    rfl⟩

end Earmark
