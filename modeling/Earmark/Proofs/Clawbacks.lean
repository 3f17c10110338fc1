import Earmark.Proofs.Differences
import Earmark.Proofs.EscrowRuns

/-!
Clawbacks of escrows. Where what is pending is an amount, a clawback succeeds exactly when the
escrow was not clawed back and the amount that it asks for is within what is pending, and it then
accounts for every cent, whatever the rates (`clawBack_conserves`). Beyond the amounts, what is
pending may have as many digits as are kept and yet no place for the cents of its parts
(`clawBack_loses_cent`).
-/

namespace Earmark

/-- The failure says that an escrow was closed, that an amount was not within what is pending, or
that a number was no amount. -/
def Failure.RefusesClawback : Failure → Prop
  | .clawbackOfClosed .. | .clawbackAmount .. | .amount .. => True
  | _ => False

theorem refusesClawback_of_amountOf {shown : String} {d : Decimal} {failure : Failure}
    (failed : amountOf shown d = .error failure) : failure.RefusesClawback := by
  simp only [amountOf] at failed
  split at failed
  · cases failed
    trivial
  · split at failed
    · cases failed
    · cases failed
      trivial

/-- A number that is told at all is an amount or refused as none. -/
theorem refusesClawback_of_toAmount {n : Numeral} (told : n ≠ .absent) {failure : Failure}
    (failed : n.toAmount = .error failure) : failure.RefusesClawback := by
  cases n with
  | absent => exact absurd rfl told
  | float x =>
    simp only [Numeral.toAmount] at failed
    split at failed
    · exact refusesClawback_of_amountOf failed
    · cases failed
      trivial
  | text s =>
    simp only [Numeral.toAmount] at failed
    split at failed
    · exact refusesClawback_of_amountOf failed
    · cases failed
      trivial
  | whole k => exact refusesClawback_of_amountOf failed
  | flag b => exact refusesClawback_of_amountOf failed
  | decimal d => exact refusesClawback_of_amountOf failed

namespace Escrow

variable {e next : Escrow} {pending : Decimal} {reason : ClawbackReason} {now : Time}
  {part : Option Numeral} {rates : Rates} {failure : Failure} {receipt : ClawbackReceipt}

/-! ### Status -/

/-- An escrow that was not clawed back is open while something is pending. -/
theorem isOpen_of_pending (unclaimed : e.clawback = none) (left : e.pending = .ok pending)
    (whole : pending.IsAmount) (positive : 0 < pending.toRat) :
    ∃ status, e.status = .ok status ∧ status ≠ .released ∧ status ≠ .clawback := by
  have some_ : ¬pending.cents ≤ 0 := not_le.mpr (whole.cents_pos_iff.mpr positive)
  have parts := left
  simp only [Escrow.pending, bind_ok_iff, Failure.ofDecimal_ok_iff] at parts
  obtain ⟨total, -, released, summed, subtracted⟩ := parts
  have finite := (Decimal.isFinite_of_sub subtracted whole.isFinite_eq).2
  simp only [status, unclaimed, Option.isSome_none, Bool.false_eq_true, ↓reduceIte, left, ok_bind,
    whole.le?_zero, Failure.ofDecimal_ok, some_, decide_false, summed, Decimal.gt?,
    Decimal.lt?_finite (a := .ofNat 0) rfl finite]
  refine ⟨_, rfl, ?_, ?_⟩ <;> split <;> decide

/-- Of an escrow that was not clawed back, a clawback recovers what it asks for. -/
theorem clawBack_of_unclaimed (unclaimed : e.clawback = none) (left : e.pending = .ok pending)
    (whole : pending.IsAmount) (positive : 0 < pending.toRat) :
    e.clawBack reason now part rates =
      asked pending part >>= e.recover reason now rates pending := by
  obtain ⟨status, found, unreleased, open_⟩ := isOpen_of_pending unclaimed left whole positive
  simp only [clawBack_eq, found, ok_bind, unreleased, open_, or_self, ↓reduceIte, left]

theorem clawBack_of_claimed (claimed : e.clawback ≠ none) :
    e.clawBack reason now part rates = .error (.clawbackOfClosed e.id .clawback) := by
  have status : e.status = .ok .clawback := by
    simp [Escrow.status, Option.isSome_iff_ne_none.mpr claimed]
  simp only [clawBack, status, ok_bind, or_true, ↓reduceIte]

/-! ### Every cent -/

/-- A clawback accounts for what it asks for, or is refused since the escrow is closed or what it
asks for is not within what is pending. -/
theorem clawBack_cases (e : Escrow) (reason : ClawbackReason) (now : Time)
    (left : e.pending = .ok pending) (whole : pending.IsAmount) (positive : 0 < pending.toRat)
    (penaltyRate : rates.penalty.IsRate) (savingsRate : rates.savings.IsRate)
    (told : part ≠ some .absent) :
    (e.clawback = none ∧ ∃ receipt, e.clawBack reason now part rates =
        .ok (receipt, { e with clawback := some receipt }) ∧
      receipt.reason = reason ∧ asked pending part = .ok receipt.amount ∧
      receipt.Conserves pending.toRat) ∨
    ∃ failure, e.clawBack reason now part rates = .error failure ∧ failure.RefusesClawback ∧
      (e.clawback = none → ∀ amount, asked pending part = .ok amount →
        ¬(0 < amount.toRat ∧ amount.toRat ≤ pending.toRat)) := by
  by_cases unclaimed : e.clawback = none
  · rw [clawBack_of_unclaimed unclaimed left whole positive]
    cases asks : asked pending part with
    | error failure =>
      refine .inr ⟨failure, rfl, ?_, fun _ amount other => by cases other⟩
      cases part with
      | none => cases asks
      | some n =>
        have refused : n.toAmount = .error failure := asks
        have present : n ≠ .absent := by
          rintro rfl
          exact told rfl
        exact refusesClawback_of_toAmount present refused
    | ok amount =>
      have wholeAmount := isAmount_of_asked whole asks
      rw [ok_bind]
      by_cases within : 0 < amount.toRat ∧ amount.toRat ≤ pending.toRat
      · obtain ⟨receipt, recovered, named, rfl, conserves⟩ := exists_recover e reason now
          penaltyRate savingsRate whole wholeAmount within.1 within.2
        exact .inl ⟨unclaimed, receipt, recovered, named, rfl, conserves⟩
      · refine .inr ⟨_, recover_of_not_within whole wholeAmount within, trivial, ?_⟩
        rintro - other same
        cases same
        exact within
  · exact .inr ⟨_, clawBack_of_claimed unclaimed, trivial, fun none => absurd none unclaimed⟩

/-- What a clawback of an escrow comes to, of which so much is pending. -/
structure ClawsBack (e : Escrow) (pending : Decimal) (reason : ClawbackReason) (now : Time)
    (part : Option Numeral) (rates : Rates) : Prop where
  succeeds_iff : (∃ receipt next, e.clawBack reason now part rates = .ok (receipt, next)) ↔
    e.clawback = none ∧
      ∃ amount, asked pending part = .ok amount ∧ 0 < amount.toRat ∧ amount.toRat ≤ pending.toRat
  refuses : ∀ failure, e.clawBack reason now part rates = .error failure →
    failure.RefusesClawback ∧ e.step now (.clawBack reason part rates) = (.error failure, e)
  conserves : ∀ receipt next, e.clawBack reason now part rates = .ok (receipt, next) →
    next = { e with clawback := some receipt } ∧ receipt.reason = reason ∧
      asked pending part = .ok receipt.amount ∧ receipt.Conserves pending.toRat

/-- Where what is pending is an amount, a clawback accounts for every cent of it or leaves the
escrow as it is. Without a part all of it is asked for, so a part that is given is not absent. -/
theorem clawBack_conserves (left : e.pending = .ok pending) (whole : pending.IsAmount)
    (positive : 0 < pending.toRat) (penaltyRate : rates.penalty.IsRate)
    (savingsRate : rates.savings.IsRate) (told : part ≠ some .absent) :
    e.ClawsBack pending reason now part rates := by
  rcases clawBack_cases e reason now left whole positive penaltyRate savingsRate told with
    ⟨unclaimed, receipt, done, named, asks, conserves⟩ | ⟨failure, failed, refusal, outside⟩
  · constructor
    case succeeds_iff =>
      exact iff_of_true ⟨receipt, _, done⟩
        ⟨unclaimed, _, asks, conserves.amount_pos, conserves.amount_le⟩
    case refuses =>
      intro failure failed
      rw [done] at failed
      cases failed
    case conserves =>
      intro receipt' next done'
      rw [done] at done'
      cases done'
      exact ⟨rfl, named, asks, conserves⟩
  · constructor
    case succeeds_iff =>
      refine iff_of_false ?_ ?_
      · rintro ⟨receipt, next, done⟩
        rw [failed] at done
        cases done
      · rintro ⟨unclaimed, amount, asks, within⟩
        exact outside unclaimed amount asks within
    case refuses =>
      intro failure' failed'
      rw [failed] at failed'
      cases failed'
      exact ⟨refusal, step_of_error (by simp only [Call.run, failed, error_bind])⟩
    case conserves =>
      intro receipt next done
      rw [failed] at done
      cases done

/-- Five hundred of a thousand that are pending are clawed back. -/
theorem clawBack_conserves_half :
    Sample.escrow.ClawsBack (.ofCents 100000) .misuse Sample.today (some (.whole 500)) {} ∧
      ∃ receipt next, Sample.escrow.clawBack .misuse Sample.today (some (.whole 500)) {} =
        .ok (receipt, next) := by
  have left : Sample.escrow.pending = .ok (.ofCents 100000) := eq_ok_of_toOption (by decide +kernel)
  have whole : (Decimal.ofCents 100000).IsAmount := Decimal.isAmount_ofCents (by decide)
  have half : asked (.ofCents 100000) (some (.whole 500)) = .ok (.ofCents 50000) :=
    eq_ok_of_toOption (by decide +kernel)
  have wholeHalf := isAmount_of_asked whole half
  have exact : Sample.escrow.ClawsBack (.ofCents 100000) .misuse Sample.today
      (some (.whole 500)) {} :=
    clawBack_conserves left whole (whole.toRat_pos (by decide)) Rates.isRate_default.1
      Rates.isRate_default.2 (by simp)
  refine ⟨exact, exact.succeeds_iff.mpr ⟨rfl, _, half, wholeHalf.toRat_pos (by decide), ?_⟩⟩
  exact (wholeHalf.toRat_le_iff whole).mpr (by decide)

namespace Sample

/-- Two parts of ninety-nine septillion each, and some coins. -/
def vastSpecs : List MilestoneSpec :=
  [{ description := "A", amount := .text "99000000000000000000000000.10", proofKind := none },
   { description := "B", amount := .text "99000000000000000000000000.20", proofKind := none }]

def vast : Escrow :=
  { escrow with
    milestones :=
      [{ id := Ids.milestone 1, description := "A", amount := .ofCents 9900000000000000000000000010
         proofKind := none },
       { id := Ids.milestone 2, description := "B", amount := .ofCents 9900000000000000000000000020
         proofKind := none }] }

theorem build_vastSpecs : (build {} "reader" vastSpecs today none "School" 30).2 = .ok vast :=
  eq_ok_of_toOption (by decide +kernel)

end Sample

/-- What is pending of an escrow can be the exact total and have no place for cents: what a clawback
withholds of it and what it returns come to more than it took. -/
theorem clawBack_loses_cent :
    (build {} "reader" Sample.vastSpecs Sample.today none "School" 30).2 = .ok Sample.vast ∧
      ∃ pending receipt next, Sample.vast.pending = .ok pending ∧
        pending.toRat = Sample.vast.openTotal ∧
        Sample.vast.clawBack .misuse Sample.today none {} = .ok (receipt, next) ∧
        receipt.amount = pending ∧
        receipt.penalty.toRat + receipt.netReturned.toRat ≠ receipt.amount.toRat := by
  have left : Sample.vast.pending = .ok (.finite false 1980000000000000000000000003 (-1)) :=
    eq_ok_of_toOption (by decide +kernel)
  obtain ⟨receipt, next, done, figures⟩ : ∃ receipt next,
      Sample.vast.clawBack .misuse Sample.today none {} = .ok (receipt, next) ∧
        (receipt.amount, receipt.penalty, receipt.netReturned) =
          (.finite false 1980000000000000000000000003 (-1),
            .ofCents 396000000000000000000000001,
            .finite false 1940400000000000000000000003 (-1)) := by
    have computed : (Sample.vast.clawBack .misuse Sample.today none {}).toOption.map
        (fun r => (r.1.amount, r.1.penalty, r.1.netReturned)) =
          some (.finite false 1980000000000000000000000003 (-1),
            .ofCents 396000000000000000000000001,
            .finite false 1940400000000000000000000003 (-1)) := by decide +kernel
    obtain ⟨⟨receipt, next⟩, done, figures⟩ := Option.map_eq_some_iff.mp computed
    exact ⟨receipt, next, eq_ok_of_toOption done, figures⟩
  simp only [Prod.mk.injEq] at figures
  obtain ⟨amount, penalty, net⟩ := figures
  refine ⟨Sample.build_vastSpecs, _, receipt, next, left, ?_, done, amount, ?_⟩
  · have open_ : Sample.vast.milestones.filter (!·.isCompleted) = Sample.vast.milestones := rfl
    rw [openTotal, open_]
    norm_num [Sample.vast, Decimal.toRat, Decimal.signed, Decimal.ofCents]
  · rw [amount, penalty, net]
    norm_num [Decimal.toRat, Decimal.signed, Decimal.ofCents]

end Escrow

end Earmark
