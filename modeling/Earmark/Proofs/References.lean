import Earmark.Proofs.Numerals
import Earmark.Proofs.Sequels
import Earmark.Proofs.Verdicts

/-!
References are given once. A reference is the mark of its kind and the digits of a name, and the
name says whole what is settled (`Settlement.eq_of_name`). A run settles nothing twice: a payment is
named by a number that no other one has, and a milestone that is released was pending before
(`World.Settled.step`). So as long as different names have different digits, no reference is given
twice (`World.references_nodup`).
-/

namespace Earmark

/-! ### Texts without a colon -/

namespace Text

/-- A sign splits a text that holds it at one place if it does not stand before that place. -/
theorem eq_of_append_cons {c : Char} {first first' rest rest' : List Char} (clean : c ∉ first)
    (clean' : c ∉ first') (same : first ++ c :: rest = first' ++ c :: rest') :
    first = first' ∧ rest = rest' := by
  rcases List.append_eq_append_iff.mp same with ⟨more, rfl, tail⟩ | ⟨more, rfl, tail⟩
  · cases more with
    | nil => exact ⟨(List.append_nil _).symm, (List.cons.inj tail).2⟩
    | cons x more =>
      obtain rfl := (List.cons.inj tail).1
      exact absurd (by simp) clean'
  · cases more with
    | nil => exact ⟨List.append_nil _, (List.cons.inj tail).2.symm⟩
    | cons x more =>
      obtain rfl := (List.cons.inj tail).1
      exact absurd (by simp) clean

theorem colon_not_mem_toDigits (n : Nat) : ':' ∉ Nat.toDigits 10 n :=
  fun mem => absurd (isDigit_of_mem_toDigits ':' mem) (by decide)

end Text

theorem Ids.colon_not_mem_text {mark : String} (clean : ':' ∉ mark.toList) (n : Nat) :
    ':' ∉ (text mark n).toList := by
  simp [text, Time.padded, clean, Text.colon_not_mem_toDigits n]

theorem Decimal.colon_not_mem_unsignedText (coeff : Nat) (exp : Int) :
    ':' ∉ (unsignedText coeff exp).toList := by
  have digits := Text.colon_not_mem_toDigits coeff
  have taken (n : Nat) : ':' ∉ (Nat.toDigits 10 coeff).take n :=
    fun mem => digits (List.mem_of_mem_take mem)
  have dropped (n : Nat) : ':' ∉ (Nat.toDigits 10 coeff).drop n :=
    fun mem => digits (List.mem_of_mem_drop mem)
  have behind : ':' ∉ (Nat.toDigits 10 coeff).tail := fun mem => digits (List.mem_of_mem_tail mem)
  have power (n : Nat) := Text.colon_not_mem_toDigits n
  simp only [unsignedText]
  split_ifs <;> simp [zeros, digits, taken, dropped, behind, power]

theorem Decimal.colon_not_mem_toText (d : Decimal) : ':' ∉ d.toText.toList := by
  cases d with
  | finite neg coeff exp => cases neg <;> simp [toText, colon_not_mem_unsignedText]
  | infinity neg => cases neg <;> decide
  | nan neg signalling payload =>
    have digits := Text.colon_not_mem_toDigits payload
    simp only [toText]
    split_ifs <;> simp [digits]

/-! ### What is settled -/

inductive SettlementKind
  | payment
  | emergency
  | release
  deriving DecidableEq, Repr

namespace SettlementKind

/-- What references of a kind begin with. -/
def mark : SettlementKind → String
  | .payment => "SETL-"
  | .emergency => "SETL-EMER-"
  | .release => "SETL-ESC-"

/-- The space that names of a kind are in. -/
def space : SettlementKind → List UInt8
  | .payment | .emergency => Reference.settlements
  | .release => Reference.locators

/-- No two marks have the same length. -/
theorem eq_of_length_mark {kind kind' : SettlementKind}
    (same : kind.mark.length = kind'.mark.length) : kind = kind' := by
  cases kind <;> cases kind' <;> first | rfl | exact absurd same (by decide)

end SettlementKind

/-- What a reference is given for: a payment, which may be an emergency, or a milestone. -/
inductive Settlement
  | payment (emergency : Bool) (transaction merchant amount : String)
  | release (escrow milestone : String)
  deriving DecidableEq, Repr

namespace Settlement

open Reference (digits paymentName releaseName)

def kind : Settlement → SettlementKind
  | .payment emergency _ _ _ => if emergency then .emergency else .payment
  | .release .. => .release

/-- What the digits are taken of. -/
def name : Settlement → String
  | .payment _ transaction merchant amount => paymentName transaction merchant amount
  | .release escrow milestone => releaseName escrow milestone

def reference : Settlement → String
  | .payment emergency transaction merchant amount =>
    (if emergency then Reference.emergency else Reference.payment) transaction merchant amount
  | .release escrow milestone => Reference.release escrow milestone

/-- Whatever the merchant, the ids behind which a name goes on and the amount have no colon. -/
def IsPlain : Settlement → Prop
  | .payment _ transaction _ amount => ':' ∉ transaction.toList ∧ ':' ∉ amount.toList
  | .release escrow _ => ':' ∉ escrow.toList

/-- Of the names that are hashed in a space, different ones have different digits. -/
def Apart (settled : List Settlement) : Prop :=
  ∀ s ∈ settled, ∀ s' ∈ settled, s.kind.space = s'.kind.space → s.name ≠ s'.name →
    digits s.kind.space s.name ≠ digits s'.kind.space s'.name

instance (settled : List Settlement) : Decidable (Apart settled) :=
  inferInstanceAs (Decidable (∀ s ∈ settled, ∀ s' ∈ settled,
    s.kind.space = s'.kind.space → s.name ≠ s'.name →
    digits s.kind.space s.name ≠ digits s'.kind.space s'.name))

theorem reference_eq (s : Settlement) :
    s.reference = s.kind.mark ++ digits s.kind.space s.name := by
  cases s with
  | payment emergency => cases emergency <;> rfl
  | release => rfl

end Settlement

namespace Reference

open Digest

@[simp] theorem length_bigEndian (count n : Nat) : (bigEndian count n).length = count := by
  simp [bigEndian]

theorem length_sha1 (message : List UInt8) : (sha1 message).length = 20 := by
  simp [sha1]

theorem length_hexDigits_byte (byte : UInt8) : (Text.hexDigits 2 byte.toNat).length = 2 := by
  have short : (Nat.toDigits 16 byte.toNat).length ≤ 2 :=
    (Nat.length_toDigits_le_iff (by decide) (by decide)).mpr byte.toNat_lt
  simp only [Text.hexDigits, List.length_append, List.length_replicate]
  omega

/-- A reference has sixteen digits. -/
theorem length_digits (space : List UInt8) (name : String) :
    (digits space name).length = 16 := by
  have bytes : (identifierHead space name).length = 8 := by
    simp [identifierHead, length_sha1]
  simp [digits, hexOfBytes, List.length_flatMap, length_hexDigits_byte, bytes]

theorem toList_paymentName (transaction merchant amount : String) :
    (paymentName transaction merchant amount).toList =
      transaction.toList ++ ':' :: (merchant.toList ++ ':' :: amount.toList) := by
  simp [paymentName]

theorem toList_releaseName (escrow milestone : String) :
    (releaseName escrow milestone).toList =
      "escrow:".toList ++ (escrow.toList ++ ':' :: milestone.toList) := by
  simp [releaseName]

/-- A name of a payment says of which transaction, to whom and how much, whatever is in the id of the
merchant. -/
theorem paymentName_inj {transaction transaction' merchant merchant' amount amount' : String}
    (clean : ':' ∉ transaction.toList) (clean' : ':' ∉ transaction'.toList)
    (plain : ':' ∉ amount.toList) (plain' : ':' ∉ amount'.toList)
    (same : paymentName transaction merchant amount = paymentName transaction' merchant' amount') :
    transaction = transaction' ∧ merchant = merchant' ∧ amount = amount' := by
  have chars := congrArg String.toList same
  rw [toList_paymentName, toList_paymentName] at chars
  obtain ⟨transactions, rest⟩ := Text.eq_of_append_cons clean clean' chars
  -- the merchant may have colons, so the amount is split off from behind
  have reversed := congrArg List.reverse rest
  simp only [List.reverse_append, List.reverse_cons, List.append_assoc, List.singleton_append]
    at reversed
  obtain ⟨amounts, merchants⟩ :=
    Text.eq_of_append_cons (by simpa using plain) (by simpa using plain') reversed
  exact ⟨String.toList_inj.mp transactions, String.toList_inj.mp (List.reverse_inj.mp merchants),
    String.toList_inj.mp (List.reverse_inj.mp amounts)⟩

theorem releaseName_inj {escrow escrow' milestone milestone' : String} (clean : ':' ∉ escrow.toList)
    (clean' : ':' ∉ escrow'.toList)
    (same : releaseName escrow milestone = releaseName escrow' milestone') :
    escrow = escrow' ∧ milestone = milestone' := by
  have chars := congrArg String.toList same
  rw [toList_releaseName, toList_releaseName, List.append_cancel_left_eq] at chars
  obtain ⟨escrows, milestones⟩ := Text.eq_of_append_cons clean clean' chars
  exact ⟨String.toList_inj.mp escrows, String.toList_inj.mp milestones⟩

end Reference

namespace Settlement

variable {s s' : Settlement}

/-- References of different kinds have different lengths. -/
theorem kind_eq_of_reference (same : s.reference = s'.reference) : s.kind = s'.kind := by
  have lengths := congrArg String.length same
  simp only [reference_eq, String.length_append, Reference.length_digits,
    Nat.add_right_cancel_iff] at lengths
  exact SettlementKind.eq_of_length_mark lengths

/-- What is settled is told from its kind and its name. -/
theorem eq_of_name (plain : s.IsPlain) (plain' : s'.IsPlain) (kind : s.kind = s'.kind)
    (same : s.name = s'.name) : s = s' := by
  cases s with
  | payment emergency transaction merchant amount =>
    cases s' with
    | payment emergency' transaction' merchant' amount' =>
      obtain ⟨rfl, rfl, rfl⟩ := Reference.paymentName_inj plain.1 plain'.1 plain.2 plain'.2 same
      cases emergency <;> cases emergency' <;> first | rfl | cases kind
    | release => cases emergency <;> cases kind
  | release escrow milestone =>
    cases s' with
    | payment emergency => cases emergency <;> cases kind
    | release escrow' milestone' =>
      obtain ⟨rfl, rfl⟩ := Reference.releaseName_inj plain plain' same
      rfl

/-- As long as the names have digits of their own, so has what is settled a reference of its own. -/
theorem Apart.nodup_references {settled : List Settlement} (apart : Apart settled)
    (plain : ∀ s ∈ settled, s.IsPlain) (once : settled.Nodup) :
    (settled.map reference).Nodup := by
  refine once.map_on fun s mem s' mem' same => ?_
  have kind := kind_eq_of_reference same
  rw [reference_eq, reference_eq, ← kind, String.append_right_inj] at same
  have name : s.name = s'.name := by
    by_contra other
    exact apart s mem s' mem' (congrArg _ kind) other (kind ▸ same)
  exact eq_of_name (plain s mem) (plain s' mem') kind name

end Settlement

/-! ### What commands settle -/

/-- What the payment of a record settled. -/
def TransactionRecord.settlement? (r : TransactionRecord) : Option Settlement :=
  if r.approved then some (.payment r.bypass r.id r.merchantId.shown r.amount.toText) else none

section

variable (p : Payment) (now : Time) (target : Option String) (v : Verdict)

theorem Payment.reference_record : (p.record now target v).reference = v.reference := rfl

theorem Payment.settlement?_record : (p.record now target v).settlement? =
    if v.approved then some (.payment v.bypass p.id p.merchant.id.shown p.amount.toText)
    else none := rfl

end

namespace Command

/-- The references that a command, answered so, gives out. -/
def references : Command → Except Failure Reply → List String
  | .pay _, .ok (.payment result) => result.record.reference.toList
  | .releaseMilestone .., .ok (.release receipt) => [receipt.reference]
  | _, _ => []

/-- What a command, answered so, settles. -/
def settles : Command → Except Failure Reply → List Settlement
  | .pay _, .ok (.payment result) => result.record.settlement?.toList
  | .releaseMilestone .., .ok (.release receipt) => [.release receipt.escrowId receipt.milestoneId]
  | _, _ => []

@[simp] theorem references_error (c : Command) (failure : Failure) :
    c.references (.error failure) = [] := by cases c <;> rfl

@[simp] theorem settles_error (c : Command) (failure : Failure) :
    c.settles (.error failure) = [] := by cases c <;> rfl

end Command

/-- What the commands of a run give, one after the other. -/
def World.collected {b : Backend} {α : Type} (what : Command → Except Failure Reply → List α)
    (config : Config) (w : World b) : List (Time × Command) → List α
  | [] => []
  | (now, c) :: rest =>
    let (reply, next) := w.step config now c
    what c reply ++ next.collected what config rest

section

variable {config : Config} {now : Time} {w : World .memory} {c : Command}
  {reply : Except Failure Reply} {escrows : List Escrow} {marks : List Mark}

theorem Escrow.names_of_releaseIn {e next : Escrow} {milestoneId : String}
    {proof merchantId : Option String} {receipt : ReleaseReceipt} {owner : String}
    (done : Service.releaseIn milestoneId proof now merchantId e = .ok ((receipt, owner), next)) :
    receipt.escrowId = e.id ∧
      receipt.reference = Reference.release receipt.escrowId receipt.milestoneId := by
  simp only [Service.releaseIn, bind_ok_iff, Except.ok.injEq] at done
  obtain ⟨_, -, released, -, pending, -, status, -, made⟩ := done
  cases made
  exact ⟨rfl, rfl⟩

/-- The references that are given out are those of what is settled. -/
theorem Sequel.references_eq (sequel : Sequel config now w c reply escrows marks) :
    c.references reply = (c.settles reply).map Settlement.reference := by
  cases sequel with
  | failed => simp
  | books books => cases c <;> first | rfl | cases books
  | createIntent => rfl
  | @pay request d m p v target judged after brought known begun validated =>
    subst begun
    have given : v.reference = _ :=
      Verdict.reference_eq (isAmount_of_toAmount brought) validated
    rw [Command.references, Command.settles, Payment.reference_record, given,
      Payment.settlement?_record]
    cases v.approved <;> cases v.bypass <;> rfl
  | createEscrow => rfl
  | releaseMilestone found released =>
    obtain ⟨-, reference⟩ := Escrow.names_of_releaseIn released
    exact congrArg (fun reference => [reference]) reference
  | clawBack => rfl
  | recordEvent => rfl

/-- What was settled is there to be seen: the number of a payment is taken, and a milestone is
completed. -/
def Settlement.Stands (w : World .memory) : Settlement → Prop
  | .payment _ transaction _ amount =>
    (∃ n ≤ w.ids.transactions, transaction = Ids.transaction n) ∧ ':' ∉ amount.toList
  | .release escrow milestone =>
    ∃ e ∈ w.escrows, e.id = escrow ∧ ∃ m ∈ e.milestones, m.isCompleted ∧ m.id = milestone

/-- What was settled is not undone. -/
theorem Settlement.Stands.after {s : Settlement} (stands : s.Stands w)
    (vaults : Escrow.Vaults w.escrows) : s.Stands (w.step config now c).2 := by
  obtain ⟨escrows, marks, -, proceeds⟩ := Service.step_sequel config now w c
  have numbers : w.ids.transactions ≤ (w.step config now c).2.ids.transactions := by
    rw [proceeds.transactions]
    exact Nat.le_add_right _ _
  cases s with
  | payment =>
    obtain ⟨⟨n, le, named⟩, plain⟩ := stands
    exact ⟨⟨n, le.trans numbers, named⟩, plain⟩
  | release =>
    obtain ⟨e, mem, rfl, m, among, completed, rfl⟩ := stands
    obtain ⟨later, mem', precedes⟩ :=
      (World.moves_step config w now c).exists_later vaults.unique mem
    exact ⟨later, mem', precedes.id, m, precedes.completed m among completed, completed, rfl⟩

/-- A command settles at most one thing, which did not stand before and stands then. -/
theorem Sequel.settles (sequel : Sequel config now w c reply escrows marks)
    (vaults : Escrow.Vaults w.escrows) :
    c.settles reply = [] ∨ ∃ s, c.settles reply = [s] ∧ ¬ s.Stands w ∧
      ∀ after : World .memory, after.escrows = escrows →
        after.ids.transactions = w.ids.transactions + c.payments → s.Stands after := by
  cases sequel with
  | failed => exact .inl (Command.settles_error _ _)
  | books books => exact .inl (by cases c <;> first | rfl | cases books)
  | createIntent => exact .inl rfl
  | @pay request d m p v target judged after brought known begun validated =>
    rw [Command.settles, Payment.settlement?_record]
    have new : ¬ ∃ n ≤ w.ids.transactions, p.id = Ids.transaction n := by
      rintro ⟨n, le, named⟩
      rw [begun] at named
      have same := Ids.text_injective "TXN" named
      omega
    cases v.approved with
    | false => exact .inl rfl
    | true =>
      refine .inr ⟨_, rfl, fun stands => new stands.1, fun after _ taken => ?_⟩
      exact ⟨⟨_, taken.ge, by rw [begun]; rfl⟩, Decimal.colon_not_mem_toText _⟩
  | createEscrow => exact .inl rfl
  | @releaseMilestone escrowId milestoneId proof merchantId e next receipt owner found released =>
    have mem := Escrow.mem_of_findIn found
    obtain ⟨named, -⟩ := Escrow.names_of_releaseIn released
    obtain ⟨⟨m, among, wasPending, sameId⟩, done, among', completed, sameId'⟩ :=
      (Escrow.releaseIn_ok released).exists_pending rfl
    refine .inr ⟨_, rfl, ?_, fun after became _ => ?_⟩
    · rintro ⟨e', mem', at_, m', known, wasCompleted, other⟩
      obtain rfl := List.inj_on_of_nodup_map vaults.unique mem' mem (at_.trans named)
      have unique := (vaults.shaped e' mem).unique
      obtain rfl := List.inj_on_of_nodup_map unique known among (other.trans sameId.symm)
      rw [wasPending] at wasCompleted
      cases wasCompleted
    · rw [Settlement.Stands, became]
      refine ⟨next, List.mem_map.mpr ⟨e, mem, by simp [Escrow.id_of_findIn found]⟩, ?_, done, among',
        completed, sameId'⟩
      exact (Escrow.precedes_of_releaseIn released).id.trans named.symm
  | clawBack => exact .inl rfl
  | recordEvent => exact .inl rfl

/-! ### Runs -/

/-- What some commands settled, each once, stands, and the escrows can be told apart. -/
structure World.Settled (w : World .memory) (settled : List Settlement) : Prop where
  vaults : Escrow.Vaults w.escrows
  stands : ∀ s ∈ settled, s.Stands w
  once : settled.Nodup

theorem World.Settled.step {settled : List Settlement} (kept : w.Settled settled)
    (config : Config) (now : Time) (c : Command) :
    (w.step config now c).2.Settled (settled ++ c.settles (w.step config now c).1) := by
  obtain ⟨escrows, marks, sequel, proceeds⟩ := Service.step_sequel config now w c
  have vaults := kept.vaults.moves (World.moves_step config w now c)
  have stands (s : Settlement) (mem : s ∈ settled) : s.Stands (w.step config now c).2 :=
    (kept.stands s mem).after kept.vaults
  rcases sequel.settles kept.vaults with nothing | ⟨s, one, new, stood⟩
  · rw [nothing, List.append_nil]
    exact ⟨vaults, stands, kept.once⟩
  · rw [one]
    have fresh : s ∉ settled := fun mem => new (kept.stands s mem)
    refine ⟨vaults, List.forall_mem_append.mpr ⟨stands, ?_⟩, ?_⟩
    · exact List.forall_mem_singleton.mpr (stood _ proceeds.escrows proceeds.transactions)
    · rw [← List.concat_eq_append]
      exact kept.once.concat fresh

theorem World.Settled.after {settled : List Settlement} (kept : w.Settled settled)
    (config : Config) (run : List (Time × Command)) :
    (w.after config run).Settled (settled ++ w.collected Command.settles config run) := by
  induction run generalizing w settled with
  | nil => simpa [collected] using kept
  | cons entry rest ih =>
    obtain ⟨now, c⟩ := entry
    have later := ih (kept.step config now c)
    rwa [List.append_assoc] at later

theorem World.collected_references (run : List (Time × Command)) :
    w.collected Command.references config run =
      (w.collected Command.settles config run).map Settlement.reference := by
  induction run generalizing w with
  | nil => rfl
  | cons entry rest ih =>
    obtain ⟨now, c⟩ := entry
    obtain ⟨escrows, marks, sequel, -⟩ := Service.step_sequel config now w c
    simp only [collected, sequel.references_eq, ih, List.map_append]

theorem Settlement.Stands.isPlain {s : Settlement} (stands : s.Stands w)
    (vaults : Escrow.Vaults w.escrows) : s.IsPlain := by
  cases s with
  | payment =>
    obtain ⟨⟨n, -, rfl⟩, plain⟩ := stands
    exact ⟨Ids.colon_not_mem_text (by decide) n, plain⟩
  | release =>
    obtain ⟨e, mem, rfl, -⟩ := stands
    obtain ⟨n, named⟩ := (vaults.shaped e mem).named
    rw [IsPlain, named]
    exact Ids.colon_not_mem_text (by decide) n

/-- Whatever is run from an empty store, as long as the different names that are hashed have different
digits: no reference is given out twice, for payments, emergencies and milestones together. No
milestone is released twice; the name of a payment tells the transaction, the merchant and the amount,
whatever is in the id of the merchant; and references of different kinds differ. -/
theorem World.references_nodup {start : World .memory} (empty : start.store = {})
    {run : List (Time × Command)}
    (apart : Settlement.Apart (start.collected Command.settles config run)) :
    (start.collected Command.references config run).Nodup ∧
      (∀ escrow milestone,
        (start.collected Command.settles config run).count (.release escrow milestone) ≤ 1) ∧
      (∀ transaction transaction' merchant merchant' : String, ∀ d d' : Decimal,
        ':' ∉ transaction.toList → ':' ∉ transaction'.toList → d.IsAmount → d'.IsAmount →
        Reference.paymentName transaction merchant d.toText =
          Reference.paymentName transaction' merchant' d'.toText →
        transaction = transaction' ∧ merchant = merchant' ∧ d = d') ∧
      ∀ s s' : Settlement, s.reference = s'.reference → s.kind = s'.kind := by
  have begun : start.Settled [] := ⟨.of_empty empty, by simp, List.nodup_nil⟩
  have settled := begun.after config run
  rw [List.nil_append] at settled
  refine ⟨?_, fun _ _ => List.nodup_iff_count_le_one.mp settled.once _, ?_,
    fun _ _ => Settlement.kind_eq_of_reference⟩
  · rw [collected_references]
    exact apart.nodup_references
      (fun s mem => (settled.stands s mem).isPlain settled.vaults) settled.once
  · intro transaction transaction' merchant merchant' d d' clean clean' whole whole' same
    obtain ⟨transactions, merchants, amounts⟩ := Reference.paymentName_inj clean clean'
      d.colon_not_mem_toText d'.colon_not_mem_toText same
    refine ⟨transactions, merchants, Option.some.inj ?_⟩
    rw [← Decimal.ofText?_toText whole.isWritten, amounts, Decimal.ofText?_toText whole'.isWritten]

/-- Two payments, of which one is an emergency, and a milestone, released once. -/
theorem World.references_nodup_schooling :
    (Sample.start.collected Command.references Sample.config Sample.schooling).Nodup ∧
      (Sample.start.collected Command.settles Sample.config Sample.schooling).map
          Settlement.kind = [.payment, .emergency, .release] := by
  refine ⟨(World.references_nodup rfl ?_).1, by decide +kernel⟩
  decide +kernel

end

end Earmark
