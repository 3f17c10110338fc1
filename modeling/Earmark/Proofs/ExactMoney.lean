import Earmark.Proofs.ReckonedServices
import Earmark.Proofs.Responses

/-!
Money that is neither rounded nor too long for its column. Whatever requests a service handles from
its start, its columns hold what a ledger in whole cents says, with at most twelve digits before the
point, and the receipt of a clawback takes apart what that ledger says is pending
(`World.money_exact`).
-/

namespace Earmark

variable {b : Backend} {c : MoneyColumns b} {L : Reckoning} {config : Config} {now : Time}

namespace Reckoning

@[simp] theorem book_error (limit : Int) (command : Command) (failure : Failure) :
    L.book limit command (.error failure) = L := by
  cases command <;> rfl

theorem entered_book (limit : Int) (command : Command) (result : Except Failure Reply) :
    L.entered (fun reply L => L.book limit command (.ok reply)) result =
      L.book limit command result := by
  cases result <;> simp

end Reckoning

/-! ### Receipts -/

/-- What a clawback takes is what was asked for, or else all that is pending. -/
theorem Escrow.amount_of_clawBack {e next : Escrow} {reason : ClawbackReason}
    {part : Option Numeral} {rates : Rates} {receipt : ClawbackReceipt}
    (done : e.clawBack reason now part rates = .ok (receipt, next)) :
    (part.map Numeral.toAmount).getD e.pending = .ok receipt.amount := by
  rw [clawBack_eq] at done
  obtain ⟨status, -, done⟩ := bind_ok_iff.mp done
  split at done
  · cases done
  · obtain ⟨pending, left, done⟩ := bind_ok_iff.mp done
    obtain ⟨amount, asked, recovered⟩ := bind_ok_iff.mp done
    have same : receipt.amount = amount := by
      simp only [recover, bind_ok_iff] at recovered
      obtain ⟨empty, -, beyond, -, made⟩ := recovered
      split at made
      · cases made
      · simp only [bind_ok_iff, Except.ok.injEq, Prod.mk.injEq] at made
        obtain ⟨penalty, -, net, -, savings, -, unrecovered, -, rfl, -⟩ := made
        rfl
    rw [same, left]
    exact asked

/-- The receipt takes apart, without a remainder, what is pending of the parts, and takes the part
that was asked for. -/
structure ClawbackReceipt.Accounts (r : ClawbackReceipt) (parts : List Part)
    (part : Option Numeral) : Prop extends r.Divides (Part.pending parts / 100) where
  asked : r.amount.toRat = ((part.map Numeral.wholeCents).getD (Part.pending parts) : Int) / 100

theorem Escrow.Shows.accounts {e next : Escrow} {parts : List Part} (shows : e.Shows parts)
    (sound : Part.Sound parts) (few : parts.length ≤ 10 ^ (14 : Nat)) {rates : Escrow.Rates}
    (penaltyRate : rates.penalty.IsRate) (savingsRate : rates.savings.IsRate)
    {reason : ClawbackReason} {part : Option Numeral}
    (stated : ∀ n ∈ part, ∃ cents, 0 < cents ∧ n.States cents) {receipt : ClawbackReceipt}
    (done : e.clawBack reason now part rates = .ok (receipt, next)) :
    receipt.Accounts parts part := by
  have fine := shows.sound sound few
  have left : e.openTotal = Part.pending parts / 100 := Part.exactTotal_open shows
  have move := Escrow.clawBack_ok fine penaltyRate savingsRate done
  have amount := Escrow.amount_of_clawBack done
  cases move with
  | clawBack unclaimed unreleased divides =>
    rw [left] at divides
    refine ⟨divides, ?_⟩
    cases part with
    | none =>
      obtain ⟨pending, known, whole, value⟩ := fine.pending_eq
      obtain rfl : pending = receipt.amount := Except.ok.inj (known.symm.trans amount)
      rw [value, left]
      rfl
    | some n =>
      obtain ⟨cents, -, states⟩ := stated n rfl
      have holds := states.holds amount
      rw [holds.amount.toRat_eq, holds.value, ← states.wholeCents_eq]
      rfl

/-- A clawback that succeeds is one of the escrow that is stored. -/
theorem Service.exists_of_clawBack {w after : World b} {escrowId : String}
    {reason : ClawbackReason} {part : Option Numeral} {receipt : ClawbackReceipt}
    (done : (clawBack config now escrowId reason part : Service b _).runFrom w =
      (.ok receipt, after)) :
    ∃ row e next, b.escrows.find? escrowId w.store.escrows = some row ∧
      b.escrows.read row = .ok e ∧
      e.clawBack reason now part config.rates = .ok (receipt, next) := by
  rcases runFrom_updateEscrow_row w escrowId (clawBackIn reason part now config.rates) with
    ⟨failure, failed⟩ | ⟨row, e, x, next, changed, found, read, made, -, updated⟩
  · cases (runFrom_bind_error failed _).symm.trans done
  · obtain ⟨⟨taken, left⟩, recovered, told⟩ := bind_ok_iff.mp made
    cases told
    have same : Yields (· = taken) (do
        tally (.clawback reason)
        note (.escrowClawedBack escrowId reason taken.amount taken.penalty)
        if reason = .misuse && config.rewards then
          follow config now e.user .escrowClawbackMisuse
            ("Clawback initiated for misuse: " ++ taken.amount.toText)
        return taken : Service b ClawbackReceipt) :=
      yields_of_last fun _ => yields_of_last fun _ =>
        yields_ite (yields_of_last fun _ => yields_pure rfl) (yields_pure rfl)
    obtain rfl := same ((runFrom_bind_ok updated _).symm.trans done)
    exact ⟨row, e, _, found, read, recovered⟩

namespace Store.Reckoned

variable {w : World b}

/-- The receipt of a clawback accounts for what the ledger says is pending. -/
theorem accounts (faithful : c.Faithful) (reckoned : w.store.Reckoned c L)
    (penaltyRate : config.rates.penalty.IsRate) (savingsRate : config.rates.savings.IsRate)
    {escrowId : String} {reason : ClawbackReason} {part : Option Numeral}
    (few : (L.deposit escrowId).length ≤ 10 ^ (14 : Nat))
    (stated : ∀ n ∈ part, ∃ cents, 0 < cents ∧ n.States cents) {receipt : ClawbackReceipt}
    (done : (w.step config now (.clawBack escrowId reason part)).1 = .ok (.clawback receipt)) :
    receipt.Accounts (L.deposit escrowId) part := by
  have stepped := Service.runFrom_map w (Service.clawBack config now escrowId reason part)
    Reply.clawback
  rcases ran : (Service.clawBack config now escrowId reason part : Service b _).runFrom w with
    ⟨failure | taken, after⟩ <;> rw [ran] at stepped
  · cases (congrArg Prod.fst stepped).symm.trans done
  · cases (congrArg Prod.fst stepped).symm.trans done
    obtain ⟨row, e, next, found, read, recovered⟩ := Service.exists_of_clawBack ran
    have named : b.escrows.id row = escrowId := by simpa using List.find?_some found
    obtain ⟨carries, sound⟩ := reckoned.escrows row (List.mem_of_find?_eq_some found)
    rw [named] at carries sound
    obtain ⟨-, shows⟩ := faithful.escrow_read carries read
    exact shows.accounts sound few penaltyRate savingsRate stated recovered

/-- Handling a request keeps a store reckoned. -/
theorem handled (faithful : c.Faithful) (reckoned : w.store.Reckoned c L) (config : Config)
    (now : Time) (r : Http.Request) :
    ((Http.handle config now r).run w).2.store.Reckoned c (L.posted config w now r) := by
  rw [Http.after_handle]
  unfold Reckoning.posted
  cases command : Http.commandOf now r with
  | none => exact reckoned
  | some found =>
    have states := Http.statesMoney_of_commandOf command
    have booked := Service.books_run faithful config now states reckoned
    rwa [Reckoning.entered_book] at booked

theorem served (faithful : c.Faithful) (config : Config) (reckoned : w.store.Reckoned c L)
    (run : List (Time × Http.Request)) :
    (w.served config run).store.Reckoned c (w.reckoning config L run) := by
  induction run generalizing w L with
  | nil => exact reckoned
  | cons entry rest ih => exact ih (reckoned.handled faithful config entry.1 entry.2)

end Store.Reckoned

/-- After any requests, whatever the backend and whichever of its writes fail, the columns of the
store hold what a ledger in whole cents says, each with at most twelve digits before the point. The
receipt of a clawback that is then asked for divides what the ledger says is pending, without a
remainder; for this the rates must be rates, and the escrow must have at most ten to the 14 parts,
whose total has then no more digits than arithmetic keeps. -/
theorem World.money_exact (faithful : c.Faithful) (config : Config) {start : World b}
    (empty : start.store = {}) (run : List (Time × Http.Request)) :
    (start.served config run).store.Reckoned c (start.reckoning config {} run) ∧
    (config.rates.penalty.IsRate → config.rates.savings.IsRate →
      ∀ now r escrowId reason part receipt,
        Http.commandOf now r = some (.clawBack escrowId reason part) →
        ((start.served config run).step config now (.clawBack escrowId reason part)).1 =
          .ok (.clawback receipt) →
        ((start.reckoning config {} run).deposit escrowId).length ≤ 10 ^ (14 : Nat) →
        receipt.Accounts ((start.reckoning config {} run).deposit escrowId) part) := by
  have begins : start.store.Reckoned c {} := empty ▸ .of_empty c
  have reckoned := begins.served faithful config run
  refine ⟨reckoned, fun penaltyRate savingsRate now r escrowId reason part receipt command done few
    => ?_⟩
  have stated := Http.statesMoney_of_commandOf command
  exact reckoned.accounts faithful penaltyRate savingsRate few stated done

/-! ### A household that takes money back -/

/-- What a call claws back, where it states a part in digits. -/
def Command.reclaims? : Option Command → Option (String × ClawbackReason × Decimal)
  | some (.clawBack escrowId reason (some (.decimal d))) => some (escrowId, reason, d)
  | _ => none

theorem Command.eq_of_reclaims? {command : Option Command} {escrowId : String}
    {reason : ClawbackReason} {d : Decimal}
    (known : reclaims? command = some (escrowId, reason, d)) :
    command = some (.clawBack escrowId reason (some (.decimal d))) := by
  unfold reclaims? at known
  split at known
  · cases known
    rfl
  · cases known

/-- The receipt of a clawback that returned. -/
def Reply.receipt? : Except Failure Reply → Option ClawbackReceipt
  | .ok (.clawback receipt) => some receipt
  | _ => none

theorem Reply.eq_of_receipt? {reply : Except Failure Reply} {receipt : ClawbackReceipt}
    (known : receipt? reply = some receipt) : reply = .ok (.clawback receipt) := by
  unfold receipt? at known
  split at known
  · cases known
    rfl
  · cases known

namespace Sample

open Http

/-- A request with a document. -/
def posting (path : String) (fields : List (String × Json)) : Request :=
  { method := .post, path, content := some (.document (.object fields)) }

/-- A wallet of 1000, an intent of 500 of which 120.50 is spent, and an escrow of 100.10 and 250.25
whose first part is released. -/
def household : List (Time × Request) :=
  [(today, opening),
   (today, posting "/v1/intents"
     [("user_id", .text "reader"), ("source_text", .text "Books for school"),
      ("policy", .object
        [("amount_limit", .text "500.00"), ("allowed_categories", .array [.text "books"])])]),
   (today, posting "/v1/transactions/validate"
     [("user_id", .text "reader"), ("merchant_id", .text "MRC001"), ("amount", .text "120.5")]),
   (today, posting "/v1/escrows"
     [("user_id", .text "reader"), ("milestones", .array
       [.object [("description", .text "Term 1"), ("amount", .text "100.10")],
        .object [("description", .text "Term 2"), ("amount", .text "250.250")]])]),
   (today, { method := .post, path :=
     "/v1/escrows/" ++ Ids.escrow 1 ++ "/milestones/" ++ Ids.milestone 1 ++ "/release" })]

/-- Asks for 200 of what is left, for misuse. -/
def reclaiming : Request :=
  posting ("/v1/escrows/" ++ Ids.escrow 1 ++ "/clawback")
    [("reason", .text "misuse"), ("partial_amount", .text "200")]

/-- What a database holds after these, and what a ledger says of them. -/
def housed : World .relational := World.served Sample.config {} household

def housekeeping : Reckoning := ({} : World .relational).reckoning Sample.config {} household

/-- Of the 250.25 that are left, 200 are recovered, and 2 of them withheld. -/
def reclaimed : ClawbackReceipt :=
  { escrowId := Ids.escrow 1, reason := .misuse, amount := .ofCents 20000
    penalty := .ofCents 400, netReturned := .ofCents 19600, savings := .ofCents 5880
    unrecovered := .ofCents 5025, time := today }

theorem commandOf_reclaiming : commandOf today reclaiming =
    some (.clawBack (Ids.escrow 1) .misuse (some (.decimal (.finite false 200 0)))) :=
  Command.eq_of_reclaims? (by decide +kernel)

theorem step_reclaiming : (housed.step Sample.config today
    (.clawBack (Ids.escrow 1) .misuse (some (.decimal (.finite false 200 0))))).1 =
      .ok (.clawback reclaimed) :=
  Reply.eq_of_receipt? (by decide +kernel)

end Sample

theorem World.money_exact_household :
    (Sample.housekeeping.balance "reader", Sample.housekeeping.locked "reader") =
        (100000, 50000) ∧
      (Sample.housekeeping.tab (Ids.intent 1)).used = 12050 ∧
      Part.pending (Sample.housekeeping.deposit (Ids.escrow 1)) = 25025 ∧
      Sample.housed.store.Reckoned Backend.relationalColumns Sample.housekeeping ∧
      Sample.reclaimed.Accounts (Sample.housekeeping.deposit (Ids.escrow 1))
        (some (.decimal (.finite false 200 0))) := by
  obtain ⟨reckoned, receipts⟩ := World.money_exact Backend.relationalColumns_faithful
    Sample.config (rfl : ({} : World .relational).store = {}) Sample.household
  refine ⟨by decide +kernel, by decide +kernel, by decide +kernel, reckoned, ?_⟩
  exact receipts Config.isRegular_catalog.penalty Config.isRegular_catalog.savings
    Sample.today Sample.reclaiming _ _ _ _ Sample.commandOf_reclaiming Sample.step_reclaiming
    (by decide +kernel)

end Earmark
