import Earmark.Proofs.MoneyColumns
import Earmark.Proofs.Wallets

/-!
Stores beside a ledger in whole cents. A store is reckoned by a ledger when its columns hold what
the ledger says (`Store.Reckoned`), and each write of a service keeps it so as the ledger books what
was written.
-/

namespace Earmark

variable {b : Backend} {α β : Type}

namespace Intent.Shows

variable {i : Intent} {t : Tab}

theorem metered (shows : i.Shows t) (sound : t.Sound) : i.Metered :=
  ⟨shows.limit.amount, shows.used.amount, shows.used.value ▸ sound.nonneg,
    shows.used.value ▸ shows.limit.value ▸ sound.within⟩

/-- What remains of an intent is the rest of its tab. -/
theorem holds_remaining (shows : i.Shows t) (sound : t.Sound) {rest : Decimal}
    (remaining : i.remaining = .ok rest) : 0 ≤ t.rest ∧ rest.Holds t.rest := by
  obtain ⟨amount, value⟩ := (shows.metered sound).remaining_cents remaining
  rw [shows.limit.value, shows.used.value] at value
  have nonneg := sound.nonneg
  have within := sound.within
  have fits := shows.limit.fits
  simp only [Tab.rest]
  exact ⟨by omega, amount, value, by omega⟩

/-- Spending from an intent is spending from its tab. -/
theorem spent (shows : i.Shows t) (sound : t.Sound) {d : Decimal} {cents : Int}
    (holds : d.Holds cents) {j : Intent} (spent : i.spend (.decimal d) = .ok j) :
    j.id = i.id ∧ j.Shows (t.spend cents) ∧ (t.spend cents).Sound := by
  obtain ⟨d', brought, active, positive, within, used, added, rfl⟩ :=
    (shows.metered sound).spend_ok_iff.mp spent
  obtain rfl : d = d' := by simpa [Numeral.toAmount_decimal holds.amount] using brought
  rw [holds.value] at positive
  rw [shows.used.value, holds.value, shows.limit.value] at within
  have nonneg := sound.nonneg
  have fits := shows.limit.fits
  obtain ⟨sum, added', amount, value⟩ := shows.used.amount.exists_add holds.amount (by
    rw [shows.used.value, holds.value]
    simp only [Decimal.precision]
    omega)
  obtain rfl : sum = used := Except.ok.inj (added'.symm.trans added)
  rw [shows.used.value, holds.value] at value
  refine ⟨rfl, ⟨shows.owner, shows.limit, ⟨amount, value, ?_⟩, ?_⟩, ?_⟩
  · simp only [Tab.spend]
    omega
  · simp only [Intent.spending, Tab.spend, value, shows.limit.value, shows.status]
  · exact sound.spend positive (by simp only [Tab.rest]; omega)

end Intent.Shows

/-! ### Escrows -/

namespace Part

/-- Milestones are built with the amounts that their specifications state. -/
theorem shows_of_build {last after : Nat} {specs : List MilestoneSpec} {built : List Milestone}
    (stated : ∀ spec ∈ specs, ∃ cents, 0 < cents ∧ spec.amount.States cents)
    (done : Milestone.build last specs = (after, .ok built)) :
    List.Forall₂ Portion.Shows (built.map Milestone.portion) (Reckoning.partsOf specs built) := by
  induction specs generalizing last after built with
  | nil =>
    cases done
    exact .nil
  | cons spec rest ih =>
    obtain ⟨amount, milestones, checked, later, rfl⟩ := Milestone.build_cons_ok done
    obtain ⟨cents, -, states⟩ := stated spec (by simp)
    have holds : amount.Holds spec.amount.wholeCents :=
      states.wholeCents_eq ▸ states.holds (Milestone.toAmount_of_checked checked)
    exact .cons ⟨rfl, holds, rfl⟩ (ih (fun spec mem => stated spec (by simp [mem])) later)

/-- What is left of milestones that the parts tell of. -/
theorem exactTotal_open {milestones : List Milestone} {parts : List Part}
    (shows : List.Forall₂ Portion.Shows (milestones.map Milestone.portion) parts) :
    Milestone.exactTotal (milestones.filter (!·.isCompleted)) = pending parts / 100 := by
  induction milestones generalizing parts with
  | nil =>
    cases shows
    simp
  | cons m rest ih =>
    cases shows with
    | @cons _ p _ parts shown others =>
      have completed : m.isCompleted = p.released := shown.completed
      have holds : m.amount.Holds p.cents := shown.amount
      have value : m.amount.toRat = p.cents / 100 := by rw [holds.amount.toRat_eq, holds.value]
      have rest := ih others
      cases released : p.released with
      | true => simpa [completed, released] using rest
      | false =>
        simp only [List.filter_cons, completed, released, Bool.not_false, ↓reduceIte,
          Milestone.exactTotal_cons, value, rest, pending_cons, Bool.false_eq_true]
        push_cast
        ring

end Part

namespace Escrow

variable {e next : Escrow} {parts : List Part}

theorem replace_eq_map {ms : List Milestone} (unique : (ms.map (·.id)).Nodup) (done : Milestone) :
    replace done ms = ms.map fun m => if m.id = done.id then done else m := by
  induction ms with
  | nil => rfl
  | cons m rest ih =>
    obtain ⟨apart, unique⟩ := List.nodup_cons.mp unique
    by_cases same : m.id = done.id
    · have others : ∀ k ∈ rest, (if k.id = done.id then done else k) = k := fun k mem => by
        have other : k.id ≠ done.id := by
          intro equal
          exact apart (List.mem_map.mpr ⟨k, mem, equal.trans same.symm⟩)
        simp [other]
      simp [replace, same, List.map_congr_left others]
    · simp [replace, same, ih unique]

/-- A release completes the milestone of an id and leaves the others. -/
theorem portions_of_releaseIn {milestoneId : String} {proof merchantId : Option String}
    {now : Time} {answer : ReleaseReceipt × String} (unique : (e.milestones.map (·.id)).Nodup)
    (done : Service.releaseIn milestoneId proof now merchantId e = .ok (answer, next)) :
    next.milestones.map Milestone.portion = (e.milestones.map Milestone.portion).map fun k =>
      if k.id = milestoneId then { k with completed := true } else k := by
  simp only [Service.releaseIn, bind_ok_iff] at done
  obtain ⟨⟨completed, after⟩, released, total, -, pending, -, state, -, made⟩ := done
  obtain rfl : after = next := congrArg Prod.snd (Except.ok.inj made)
  simp only [release, bind_ok_iff] at released
  obtain ⟨status, -, released⟩ := released
  split at released
  · cases released
  · split at released
    · cases released
    · rename_i m found
      have named : m.id = milestoneId := by simpa using List.find?_some found
      split at released
      · cases released
      · split at released
        · cases released
        · cases released
          rw [replace_eq_map unique, List.map_map, List.map_map]
          refine List.map_congr_left fun k mem => ?_
          simp only [Function.comp_apply, Milestone.portion, named]
          by_cases at_ : k.id = milestoneId
          · have only : k = m := List.inj_on_of_nodup_map unique mem
              (List.mem_of_find?_eq_some found) (at_.trans named.symm)
            subst only
            simp [at_, Milestone.isCompleted]
          · simp [at_]

theorem Shows.released (shows : e.Shows parts) (sound : Part.Sound parts) {milestoneId : String}
    {proof merchantId : Option String} {now : Time} {answer : ReleaseReceipt × String}
    (done : Service.releaseIn milestoneId proof now merchantId e = .ok (answer, next)) :
    next.Shows (Part.release milestoneId parts) := by
  rw [Shows, portions_of_releaseIn (shows.ids ▸ sound.ids) done, Part.release,
    List.forall₂_map_left_iff, List.forall₂_map_right_iff]
  refine List.Forall₂.imp (fun k p shown => ?_) shows
  by_cases at_ : p.id = milestoneId
  · have completed : Portion.Shows { k with completed := true } { p with released := true } :=
      ⟨shown.id, shown.amount, rfl⟩
    simpa [shown.id, at_] using completed
  · simpa [shown.id, at_] using shown

theorem Shows.exists_part (shows : e.Shows parts) {m : Milestone} (mem : m ∈ e.milestones) :
    ∃ p ∈ parts, m.portion.Shows p := by
  obtain ⟨n, lt, rfl⟩ := List.getElem_of_mem mem
  have same : n < parts.length := by simpa [← shows.length_eq] using lt
  have shown := shows.get (by simpa using lt) same
  exact ⟨parts[n], List.getElem_mem same, by simpa using shown⟩

theorem Shows.cents (shows : e.Shows parts) :
    e.milestones.map (·.amount.cents) = parts.map (·.cents) := by
  have cents : (e.milestones.map Milestone.portion).map (·.amount.cents) = parts.map (·.cents) :=
    List.forall₂_eq_eq_eq ▸ List.forall₂_map_left_iff.mpr
      (List.forall₂_map_right_iff.mpr (shows.imp fun _ _ shown => shown.amount.value))
  simpa [Function.comp_def, Milestone.portion] using cents

/-- A built escrow is kept as its specifications ask. -/
theorem shows_of_build {ids : Ids} {user title : String} {specs : List MilestoneSpec} {now : Time}
    {intentId : Option String} {days : Int}
    (stated : ∀ spec ∈ specs, ∃ cents, 0 < cents ∧ spec.amount.States cents)
    (built : (build ids user specs now intentId title days).2 = .ok e) :
    e.Shows (Reckoning.partsOf specs e.milestones) ∧
      Part.Sound (Reckoning.partsOf specs e.milestones) := by
  have shows : e.Shows (Reckoning.partsOf specs e.milestones) := by
    obtain ⟨-, last, milestones, expiresAt, made, -, rfl⟩ := build_ok built
    exact Part.shows_of_build stated made
  obtain ⟨-, some_milestone, unique, fresh⟩ := milestones_of_build built
  refine ⟨shows, ?_, shows.ids ▸ unique, fun p mem => ?_⟩
  · intro none
    have ids := shows.ids
    rw [none, List.map_nil, List.map_eq_nil_iff] at ids
    exact some_milestone ids
  · obtain ⟨m, known, same⟩ := List.mem_map.mp (shows.cents ▸ List.mem_map_of_mem mem)
    exact same ▸ (fresh m known).2.2

/-- An escrow that is kept as at most ten to the 14 parts say has a total that is an amount. -/
theorem Shows.sound (shows : e.Shows parts) (sound : Part.Sound parts)
    (few : parts.length ≤ 10 ^ (14 : Nat)) : e.Sound where
  some_milestone none := by
    have ids := shows.ids
    rw [none, List.map_nil, eq_comm, List.map_eq_nil_iff] at ids
    exact sound.some_part ids
  ids := shows.ids ▸ sound.ids
  amounts m mem := by
    obtain ⟨p, known, shown⟩ := shows.exists_part mem
    exact ⟨shown.amount.amount, shown.amount.value.symm ▸ sound.positive p known⟩
  fits := by
    have most : ∀ x ∈ e.milestones.map (·.amount.toRat), x ≤ (10 ^ (14 : Nat) - 1) / 100 := by
      intro x mem
      obtain ⟨m, known, rfl⟩ := List.mem_map.mp mem
      obtain ⟨p, -, shown⟩ := shows.exists_part known
      have holds : m.amount.Holds p.cents := shown.amount
      have fits := holds.fits
      have least : p.cents ≤ 10 ^ (14 : Nat) - 1 := by omega
      rw [holds.amount.toRat_eq, holds.value]
      exact div_le_div_of_nonneg_right (by exact_mod_cast least) (by norm_num)
    have count : (e.milestones.length : ℚ) ≤ 10 ^ (14 : Nat) := by
      have same : e.milestones.length = parts.length := by
        simpa using congrArg List.length shows.ids
      exact_mod_cast same ▸ few
    calc Milestone.exactTotal e.milestones
        ≤ e.milestones.length * ((10 ^ (14 : Nat) - 1) / 100) := by
          simpa [Milestone.exactTotal] using List.sum_le_card_nsmul _ _ most
      _ ≤ 10 ^ (14 : Nat) * ((10 ^ (14 : Nat) - 1) / 100) :=
          mul_le_mul_of_nonneg_right count (by norm_num)
      _ < 10 ^ 26 := by norm_num

end Escrow

/-- The wallet is kept as a ledger says, and no more is locked of it than there is. -/
structure Wallet.Shows (wallet : Wallet) (balance locked : Int) : Prop where
  nonneg : 0 ≤ locked
  within : locked ≤ balance
  balance : wallet.balance.Holds balance
  locked : wallet.locked.Holds locked

/-- The columns of a store hold what a ledger says. Payments may be missing from the log, which is
otherwise in the order in which they were booked. -/
structure Store.Reckoned (c : MoneyColumns b) (s : Store b) (L : Reckoning) : Prop where
  wallets : ∀ wallet ∈ s.wallets, wallet.Shows (L.balance wallet.user) (L.locked wallet.user)
  intents : ∀ row ∈ s.intents,
    c.Shows row (L.tab (b.intents.id row)) ∧ (L.tab (b.intents.id row)).Sound
  escrows : ∀ row ∈ s.escrows,
    c.Carries row (L.deposit (b.escrows.id row)) ∧ Part.Sound (L.deposit (b.escrows.id row))
  records : List.SublistForall₂ Decimal.Holds (s.records.map c.logged) L.logged

namespace Store.Reckoned

variable {c : MoneyColumns b} {s : Store b} {L : Reckoning}

theorem of_empty (c : MoneyColumns b) : Store.Reckoned c {} {} :=
  ⟨nofun, nofun, nofun, .nil⟩

/-! ### Writes -/

theorem opened (reckoned : s.Reckoned c L) {user : String} {d : Decimal} {cents : Int}
    (fresh : ∀ wallet ∈ s.wallets, wallet.user ≠ user) (holds : d.Holds cents)
    (nonneg : 0 ≤ cents) :
    Store.Reckoned c { s with wallets := s.wallets ++ [{ user, balance := d }] }
      (L.opened user cents) where
  wallets := by
    refine List.forall_mem_append.mpr ⟨fun wallet mem => ?_, List.forall_mem_singleton.mpr ?_⟩
    · have other := fresh wallet mem
      simpa [Reckoning.opened, Function.update_of_ne other] using reckoned.wallets wallet mem
    · have nothing : Decimal.zero.Holds 0 := ⟨Decimal.isAmount_zero, rfl, by norm_num⟩
      have shown : Wallet.Shows { user, balance := d } cents 0 := ⟨le_rfl, nonneg, holds, nothing⟩
      simpa [Reckoning.opened] using shown
  intents := reckoned.intents
  escrows := reckoned.escrows
  records := reckoned.records

theorem relocked (reckoned : s.Reckoned c L) {user : String} {locked : Decimal} {cents : Int}
    (holds : locked.Holds (L.locked user + cents)) (nonneg : 0 ≤ L.locked user + cents)
    (within : L.locked user + cents ≤ L.balance user) :
    Store.Reckoned c { s with wallets := Wallet.relock s.wallets user locked }
      (L.locking user cents) where
  wallets wallet mem := by
    rcases Wallet.mem_relock mem with ⟨known, other⟩ | ⟨old, known, rfl, rfl⟩
    · simpa [Reckoning.locking, Function.update_of_ne other] using reckoned.wallets wallet known
    · have shows := reckoned.wallets old known
      have shown : Wallet.Shows { old with locked } (L.balance old.user)
          (L.locked old.user + cents) := ⟨nonneg, within, shows.balance, holds⟩
      simpa [Reckoning.locking] using shown
  intents := reckoned.intents
  escrows := reckoned.escrows
  records := reckoned.records

theorem added (reckoned : s.Reckoned c L) {row : b.intents.Row} {id : String} {t : Tab}
    (fresh : b.intents.find? id s.intents = none) (named : b.intents.id row = id)
    (shows : c.Shows row t) (sound : t.Sound) :
    Store.Reckoned c { s with intents := s.intents ++ [row] } (L.noting id t) where
  wallets := reckoned.wallets
  intents := by
    refine List.forall_mem_append.mpr ⟨fun old mem => ?_, List.forall_mem_singleton.mpr ?_⟩
    · have other : b.intents.id old ≠ id := by simpa using List.find?_eq_none.mp fresh old mem
      simpa [Reckoning.noting, Function.update_of_ne other] using reckoned.intents old mem
    · simpa [Reckoning.noting, named] using And.intro shows sound
  escrows := reckoned.escrows
  records := reckoned.records

theorem noted (reckoned : s.Reckoned c L) {changed : b.intents.Row} {id : String} {t : Tab}
    (named : b.intents.id changed = id) (shows : c.Shows changed t) (sound : t.Sound) :
    Store.Reckoned c { s with intents := b.intents.replace id changed s.intents }
      (L.noting id t) where
  wallets := reckoned.wallets
  intents row mem := by
    obtain ⟨old, known, rfl⟩ := List.mem_map.mp mem
    by_cases same : b.intents.id old = id
    · simpa [Reckoning.noting, same, named] using And.intro shows sound
    · simpa [Reckoning.noting, same] using reckoned.intents old known
  escrows := reckoned.escrows
  records := reckoned.records

theorem deposited (reckoned : s.Reckoned c L) {row : b.escrows.Row} {id : String}
    {parts : List Part} (fresh : b.escrows.find? id s.escrows = none)
    (named : b.escrows.id row = id) (carries : c.Carries row parts) (sound : Part.Sound parts) :
    Store.Reckoned c { s with escrows := s.escrows ++ [row] } (L.depositing id parts) where
  wallets := reckoned.wallets
  intents := reckoned.intents
  escrows := by
    refine List.forall_mem_append.mpr ⟨fun old mem => ?_, List.forall_mem_singleton.mpr ?_⟩
    · have other : b.escrows.id old ≠ id := by simpa using List.find?_eq_none.mp fresh old mem
      simpa [Reckoning.depositing, Function.update_of_ne other] using reckoned.escrows old mem
    · simpa [Reckoning.depositing, named] using And.intro carries sound
  records := reckoned.records

theorem redeposited (reckoned : s.Reckoned c L) {changed : b.escrows.Row} {id : String}
    {parts : List Part} (named : b.escrows.id changed = id) (carries : c.Carries changed parts)
    (sound : Part.Sound parts) :
    Store.Reckoned c { s with escrows := b.escrows.replace id changed s.escrows }
      (L.depositing id parts) where
  wallets := reckoned.wallets
  intents := reckoned.intents
  escrows row mem := by
    obtain ⟨old, known, rfl⟩ := List.mem_map.mp mem
    by_cases same : b.escrows.id old = id
    · simpa [Reckoning.depositing, same, named] using And.intro carries sound
    · simpa [Reckoning.depositing, same] using reckoned.escrows old known
  records := reckoned.records

/-- A payment is booked, whether or not it is logged. -/
theorem booked (reckoned : s.Reckoned c L) (cents : Int) : s.Reckoned c (L.logging cents) where
  wallets := reckoned.wallets
  intents := reckoned.intents
  escrows := reckoned.escrows
  records := by
    obtain ⟨amounts, holds, among⟩ := List.sublistForall₂_iff.mp reckoned.records
    exact List.sublistForall₂_iff.mpr
      ⟨amounts, holds, among.trans (List.sublist_append_left _ _)⟩

theorem recorded (reckoned : s.Reckoned c L) {row : b.records.Row} {cents : Int}
    (holds : (c.logged row).Holds cents) :
    Store.Reckoned c { s with records := s.records ++ [row] } (L.logging cents) where
  wallets := reckoned.wallets
  intents := reckoned.intents
  escrows := reckoned.escrows
  records := by
    obtain ⟨amounts, known, among⟩ := List.sublistForall₂_iff.mp reckoned.records
    rw [List.map_append]
    exact List.sublistForall₂_iff.mpr
      ⟨amounts ++ [cents], List.rel_append known (.cons holds .nil),
        among.append (List.Sublist.refl _)⟩

end Store.Reckoned

end Earmark
