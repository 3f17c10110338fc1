import Earmark.Proofs.Runs

/-!
Wallets beside intents. A wallet has locked exactly what its owner's intents hold, at most its
balance; opening wallets, making intents, spending and closing them keep this (`Wallet.Covers`), so
what a closed intent leaves is always there to be unlocked.
-/

namespace Earmark

namespace Wallet

variable {wallets : List Wallet} {user : String} {wallet : Wallet}

theorem user_of_findIn (found : findIn wallets user = some wallet) : wallet.user = user := by
  simpa using List.find?_some found

theorem mem_of_findIn (found : findIn wallets user = some wallet) : wallet ∈ wallets :=
  List.mem_of_find?_eq_some found

theorem findIn_of_mem (unique : (wallets.map Wallet.user).Nodup) (mem : wallet ∈ wallets) :
    findIn wallets wallet.user = some wallet := find?_key_of_mem unique mem

theorem findIn_eq_none_iff : findIn wallets user = none ↔ user ∉ wallets.map Wallet.user := by
  simp [findIn]

theorem exists_findIn (known : user ∈ wallets.map Wallet.user) :
    ∃ wallet, findIn wallets user = some wallet := by
  cases found : findIn wallets user with
  | some wallet => exact ⟨wallet, rfl⟩
  | none => exact absurd known (findIn_eq_none_iff.mp found)

@[simp] theorem map_user_relock (locked : Decimal) :
    (relock wallets user locked).map Wallet.user = wallets.map Wallet.user := by
  simp only [relock, List.map_map]
  refine List.map_congr_left fun wallet _ => ?_
  by_cases at_ : wallet.user = user
  · simp [at_]
  · simp [at_]

theorem mem_relock {locked : Decimal} (mem : wallet ∈ relock wallets user locked) :
    (wallet ∈ wallets ∧ wallet.user ≠ user) ∨
      ∃ old ∈ wallets, old.user = user ∧ wallet = { old with locked } := by
  obtain ⟨old, known, rfl⟩ := List.mem_map.mp mem
  by_cases at_ : old.user = user
  · exact .inr ⟨old, known, at_, by simp [at_]⟩
  · exact .inl ⟨by simpa [at_] using known, by simp [at_]⟩

/-- Locking and unlocking keep each wallet with its balance. -/
theorem exists_mem_relock (user : String) (locked : Decimal) (mem : wallet ∈ wallets) :
    ∃ later ∈ relock wallets user locked, later.user = wallet.user ∧
      later.balance = wallet.balance := by
  refine ⟨_, List.mem_map_of_mem mem, ?_⟩
  by_cases at_ : wallet.user = user
  · simp [at_]
  · simp [at_]

theorem released_ok {amount : Numeral} {left : List Wallet}
    (done : released wallets user amount = .ok left) :
    ∃ locked, left = relock wallets user locked := by
  simp only [released, bind_ok_iff] at done
  obtain ⟨d, -, wallet, -, beyond, -, done⟩ := done
  cases beyond with
  | true => cases done
  | false =>
    obtain ⟨locked, -, done⟩ := bind_ok_iff.mp done
    exact ⟨locked, by simpa using done.symm⟩

theorem releasedRest_ok {i : Intent} {rest : Decimal} {left : List Wallet}
    (done : releasedRest wallets i rest = .ok left) :
    left = wallets ∨ ∃ locked, left = relock wallets i.user locked := by
  simp only [releasedRest, bind_ok_iff] at done
  obtain ⟨owed, -, done⟩ := done
  cases owed with
  | true => exact .inr (released_ok done)
  | false => exact .inl (by simpa using done.symm)

/-- An amount that is locked can be unlocked. -/
theorem released_of_le {rest : Decimal} (found : findIn wallets user = some wallet)
    (locked : wallet.locked.IsAmount) (amount : rest.IsAmount) (nonneg : 0 ≤ rest.cents)
    (le : rest.cents ≤ wallet.locked.cents) :
    ∃ left, released wallets user (.decimal rest) = .ok (relock wallets user left) ∧
      left.IsAmount ∧ left.cents = wallet.locked.cents - rest.cents := by
  have small := locked.natAbs_lt
  obtain ⟨left, subtracted, whole, value⟩ := locked.exists_sub amount (by omega)
  refine ⟨left, ?_, whole, value⟩
  simp [released, Numeral.toAmount_decimal amount, found, Failure.require, amount.gt?_eq locked,
    not_lt.mpr le, subtracted]

/-- What can be locked is within the balance less what is locked already. -/
theorem lockable_ok {amount : Numeral} {d : Decimal}
    (balance : ∀ wallet ∈ wallets, wallet.balance.IsAmount ∧ wallet.locked.IsAmount)
    (covered : ∀ wallet ∈ wallets, 0 ≤ wallet.locked.cents ∧
      wallet.locked.cents ≤ max wallet.balance.cents 0)
    (done : lockable wallets user amount = .ok (wallet, d)) :
    findIn wallets user = some wallet ∧ amount.toAmount = .ok d ∧
      wallet.locked.cents + d.cents ≤ wallet.balance.cents := by
  simp only [lockable, bind_ok_iff, Failure.require_ok_iff] at done
  obtain ⟨amount', brought, wallet', found, free, remains, short, compared, done⟩ := done
  cases short with
  | true => cases done
  | false =>
    cases done
    have mem := mem_of_findIn found
    obtain ⟨balanceAmount, lockedAmount⟩ := balance wallet mem
    obtain ⟨nonneg, le⟩ := covered wallet mem
    have small := balanceAmount.natAbs_lt
    obtain ⟨difference, subtracted, whole, value⟩ :=
      balanceAmount.exists_sub lockedAmount (by omega)
    rw [subtracted, Failure.ofDecimal_ok, Except.ok.injEq] at remains
    subst remains
    rw [(isAmount_of_toAmount brought).gt?_eq whole, Failure.ofDecimal_ok, Except.ok.injEq,
      decide_eq_false_iff_not, not_lt] at compared
    exact ⟨found, brought, by omega⟩

end Wallet

namespace Intent

/-- What an intent keeps locked, in cents: its limit while it is active, then what was used. -/
def heldCents (i : Intent) : ℤ := if i.status = .active then i.limit.cents else i.used.cents

theorem Sound.heldCents_nonneg {i : Intent} (sound : i.Sound) : 0 ≤ i.heldCents := by
  unfold heldCents
  split
  · exact sound.limit_pos.le
  · exact sound.used_nonneg

/-- Spending changes nothing of what is held. -/
theorem Spent.heldCents_eq {i j : Intent} {d : Decimal} (spent : i.Spent d j) :
    j.heldCents = i.heldCents := by
  have limit : j.limit = i.limit := congrArg Policy.limit spent.later.policy
  rcases spent.status with active | exhausted
  · simp only [heldCents, active, spent.active, ↓reduceIte, limit]
  · have full := spent.sound.exhausted_iff.mp exhausted
    simp only [heldCents, exhausted, spent.active, ↓reduceIte, reduceCtorEq, full, limit]

/-- Closing an intent leaves held what is not to be unlocked. -/
theorem Closed.heldCents_eq {i j : Intent} {rest : Decimal} (closed : i.Closed rest j) :
    j.heldCents = i.heldCents - rest.cents := by
  have value := closed.rest
  have inactive : j.status ≠ .active := by
    intro active
    simpa [active] using closed.status
  simp only [heldCents, closed.active, ↓reduceIte, inactive, closed.used]
  omega

theorem le_sumBy_user {intents : List Intent} {i : Intent} {f : Intent → ℤ}
    (nonneg : ∀ i ∈ intents, 0 ≤ f i) (mem : i ∈ intents) :
    f i ≤ sumBy Intent.user intents i.user f := by
  have terms : ∀ x ∈ intents.map (fun j => if j.user = i.user then f j else 0), 0 ≤ x := by
    intro x mem
    obtain ⟨j, known, rfl⟩ := List.mem_map.mp mem
    split
    · exact nonneg j known
    · exact le_rfl
  have single := List.single_le_sum terms _ (List.mem_map_of_mem mem)
  simpa only [sumBy, ↓reduceIte] using single

theorem sumBy_user_nonneg {intents : List Intent} {f : Intent → ℤ} (nonneg : ∀ i ∈ intents, 0 ≤ f i)
    (user : String) : 0 ≤ sumBy Intent.user intents user f := by
  refine List.sum_nonneg fun x mem => ?_
  obtain ⟨j, known, rfl⟩ := List.mem_map.mp mem
  split
  · exact nonneg j known
  · exact le_rfl

end Intent

namespace Wallet

open Intent (sumBy heldCents)

/-- The wallets have locked exactly what their owners' intents hold, within their balances. -/
structure Covers (wallets : List Wallet) (intents : List Intent) : Prop where
  unique : (wallets.map Wallet.user).Nodup
  amounts : ∀ wallet ∈ wallets, wallet.balance.IsAmount ∧ wallet.locked.IsAmount
  held : ∀ wallet ∈ wallets, wallet.locked.cents = sumBy Intent.user intents wallet.user heldCents
  covered : ∀ wallet ∈ wallets, wallet.locked.cents ≤ max wallet.balance.cents 0
  owned : ∀ i ∈ intents, i.user ∈ wallets.map Wallet.user

variable {wallets : List Wallet} {intents : List Intent} {id : String} {i j : Intent}

/-- One wallet changes its lock by what its owner's intents change what they hold. -/
theorem Covers.relock {after : List Intent} {user : String} {wallet : Wallet} {locked : Decimal}
    (covers : Covers wallets intents) (found : findIn wallets user = some wallet)
    (amount : locked.IsAmount) (le : locked.cents ≤ max wallet.balance.cents 0)
    (held : ∀ owner, sumBy Intent.user after owner heldCents =
      sumBy Intent.user intents owner heldCents +
        if user = owner then locked.cents - wallet.locked.cents else 0)
    (owned : ∀ i ∈ after, i.user ∈ wallets.map Wallet.user) :
    Covers (relock wallets user locked) after := by
  have at_ := user_of_findIn found
  have mem_wallet := mem_of_findIn found
  -- the bound is on the wallet found, and every relocked one is that wallet
  have only {old : Wallet} (mem : old ∈ wallets) (same : old.user = user) : old = wallet := by
    have same_found := findIn_of_mem covers.unique mem
    rw [same, found] at same_found
    simpa using same_found.symm
  refine ⟨by simpa using covers.unique, fun changed mem => ?_, fun changed mem => ?_,
    fun changed mem => ?_, by simpa using owned⟩
  · rcases mem_relock mem with ⟨known, -⟩ | ⟨old, known, -, rfl⟩
    · exact covers.amounts changed known
    · exact ⟨(covers.amounts old known).1, amount⟩
  · rcases mem_relock mem with ⟨known, other⟩ | ⟨old, known, same, rfl⟩
    · rw [held, covers.held changed known]
      simp [Ne.symm other]
    · have before := covers.held wallet mem_wallet
      rw [at_] at before
      simp only [held, same, ↓reduceIte]
      omega
  · rcases mem_relock mem with ⟨known, -⟩ | ⟨old, known, same, rfl⟩
    · exact covers.covered changed known
    · rw [only known same]
      exact le

theorem Covers.replaced (covers : Covers wallets intents) (unique : (intents.map Intent.id).Nodup)
    (found : Intent.findIn intents id = some i) (user : j.user = i.user)
    (held : j.heldCents = i.heldCents) : Covers wallets (Intent.replaceIn intents id j) := by
  have same (owner : String) : sumBy Intent.user (Intent.replaceIn intents id j) owner heldCents =
      sumBy Intent.user intents owner heldCents := by
    rw [Intent.sumBy_replaceIn unique found user, held]
    simp
  refine ⟨covers.unique, covers.amounts, fun wallet mem => ?_, covers.covered, fun k mem => ?_⟩
  · rw [same, covers.held wallet mem]
  · rcases Intent.mem_replaceIn mem with rfl | ⟨mem, -⟩
    · exact user ▸ covers.owned i (Intent.mem_of_findIn found)
    · exact covers.owned k mem

theorem Covers.nonneg (covers : Covers wallets intents) (sound : ∀ i ∈ intents, i.Sound)
    {wallet : Wallet} (mem : wallet ∈ wallets) : 0 ≤ wallet.locked.cents := by
  rw [covers.held wallet mem]
  exact Intent.sumBy_user_nonneg (fun i mem => (sound i mem).heldCents_nonneg) wallet.user

/-- What an intent holds is locked, so any part of it can be unlocked. -/
theorem Covers.exists_released (covers : Covers wallets intents) (sound : ∀ i ∈ intents, i.Sound)
    (mem : i ∈ intents) {rest : Decimal} (amount : rest.IsAmount) (nonneg : 0 ≤ rest.cents)
    (le : rest.cents ≤ i.heldCents) :
    ∃ wallet left, findIn wallets i.user = some wallet ∧
      released wallets i.user (.decimal rest) = .ok (Wallet.relock wallets i.user left) ∧
      left.IsAmount ∧ left.cents = wallet.locked.cents - rest.cents := by
  obtain ⟨wallet, found⟩ := exists_findIn (covers.owned i mem)
  have held := covers.held wallet (mem_of_findIn found)
  have part := Intent.le_sumBy_user (fun i mem => (sound i mem).heldCents_nonneg) mem
  rw [user_of_findIn found] at held
  obtain ⟨left, released, whole, value⟩ := released_of_le found
    (covers.amounts wallet (mem_of_findIn found)).2 amount nonneg (by omega)
  exact ⟨wallet, left, found, released, whole, value⟩

/-- Closing an intent and unlocking what it leaves keeps the wallets and intents in step. -/
theorem Covers.closed {before : Intent} {rest : Decimal} {left : List Wallet}
    (covers : Covers wallets intents) (ledgers : Intent.Ledgers intents)
    (found : Intent.findIn intents id = some i) (closed : before.Closed rest j)
    (user : before.user = i.user) (held : before.heldCents = i.heldCents)
    (done : released wallets i.user (.decimal rest) = .ok left) :
    Covers left (Intent.replaceIn intents id j) := by
  have mem := Intent.mem_of_findIn found
  have positive := closed.positive
  have after := closed.heldCents_eq
  have kept := closed.sound.heldCents_nonneg
  obtain ⟨wallet, locked, foundWallet, released, whole, value⟩ :=
    covers.exists_released ledgers.sound mem closed.amount positive.le (by omega)
  obtain rfl : Wallet.relock wallets i.user locked = left := by simpa [released] using done
  have bound := covers.covered wallet (mem_of_findIn foundWallet)
  refine covers.relock foundWallet whole (by omega) (fun owner => ?_) (fun k mem => ?_)
  · rw [Intent.sumBy_replaceIn ledgers.unique found (closed.later.user.trans user)]
    split <;> omega
  · rcases Intent.mem_replaceIn mem with rfl | ⟨mem, -⟩
    · exact (closed.later.user.trans user) ▸ covers.owned i (Intent.mem_of_findIn found)
    · exact covers.owned k mem

theorem covers_nil : Covers [] [] := ⟨by simp, by simp, by simp, by simp, by simp⟩

theorem Covers.of_empty {w : World .memory} (empty : w.store = {}) :
    Covers w.wallets w.intents := by
  rw [World.wallets_of_empty empty, World.intents_of_empty empty]
  exact covers_nil

theorem Covers.opened {user : String} {d : Decimal} (covers : Covers wallets intents)
    (fresh : findIn wallets user = none) (amount : d.IsAmount) :
    Covers (wallets ++ [{ user, balance := d }]) intents := by
  have apart := findIn_eq_none_iff.mp fresh
  have none_of : ∀ i ∈ intents, i.user ≠ user := by
    rintro i mem rfl
    exact apart (covers.owned i mem)
  refine ⟨?_, fun wallet mem => ?_, fun wallet mem => ?_, fun wallet mem => ?_, fun i mem => ?_⟩
  · rw [List.map_append, List.nodup_append]
    refine ⟨covers.unique, by simp, ?_⟩
    rintro known mem new new_mem rfl
    obtain rfl : known = user := by simpa using new_mem
    exact apart mem
  · rcases List.mem_append.mp mem with mem | mem
    · exact covers.amounts wallet mem
    · obtain rfl := List.mem_singleton.mp mem
      exact ⟨amount, Decimal.isAmount_zero⟩
  · rcases List.mem_append.mp mem with mem | mem
    · exact covers.held wallet mem
    · obtain rfl := List.mem_singleton.mp mem
      simp [Intent.sumBy_eq_zero none_of]
  · rcases List.mem_append.mp mem with mem | mem
    · exact covers.covered wallet mem
    · obtain rfl := List.mem_singleton.mp mem
      simp
  · simp [covers.owned i mem]

/-- Making an intent locks all of it, which a wallet that can lock it can hold. -/
theorem Covers.exists_locked {wallet : Wallet} {d : Decimal} (covers : Covers wallets intents)
    (sound : ∀ i ∈ intents, i.Sound) (new : i.Sound) (active : i.status = .active)
    (lockable : Wallet.lockable wallets i.user (.decimal i.limit) = .ok (wallet, d)) :
    ∃ locked, wallet.locked.add d = .ok locked ∧
      Covers (Wallet.relock wallets i.user locked) (intents ++ [i]) := by
  obtain ⟨found, brought, within⟩ := lockable_ok covers.amounts
    (fun wallet mem => ⟨covers.nonneg sound mem, covers.covered wallet mem⟩) lockable
  obtain rfl : i.limit = d := by simpa [Numeral.toAmount_decimal new.limit] using brought
  have mem := mem_of_findIn found
  have positive := new.limit_pos
  have nonneg := covers.nonneg sound mem
  have small := (covers.amounts wallet mem).1.natAbs_lt
  obtain ⟨locked, added, whole, value⟩ :=
    (covers.amounts wallet mem).2.exists_add new.limit (by omega)
  refine ⟨locked, added, covers.relock found whole (by omega) (fun owner => ?_) (fun k mem => ?_)⟩
  · rw [Intent.sumBy_append, heldCents, if_pos active, value]
    congr 2
    omega
  · rcases List.mem_append.mp mem with mem | mem
    · exact covers.owned k mem
    · obtain rfl := List.mem_singleton.mp mem
      exact user_of_findIn found ▸ List.mem_map_of_mem (mem_of_findIn found)

end Wallet

end Earmark
