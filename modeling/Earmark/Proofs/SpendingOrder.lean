import Earmark.Proofs.Judgements
import Earmark.Proofs.WholeCents

/-!
Spending an intent in turn. Of amounts that are asked for one after the other, each is accepted that
is no more than what is left at its turn, and the others are skipped. Whatever was accepted is what
the ledger gained, and where everything fits the order does not matter
(`Intent.spends_in_turn`).
-/

namespace Earmark

/-! ### Sums that are amounts -/

namespace Decimal

variable {a b d r : Decimal} {c : Int}

/-- With more digits than are kept, cents are rounded away. -/
private theorem not_isAmount_of_round {neg : Bool} {coeff : Nat} (many : 10 ^ precision ≤ coeff)
    (rounded : round neg coeff (-2) = .ok r) : ¬r.IsAmount := by
  intro whole
  have nonzero : coeff ≠ 0 := by
    have positive : 0 < 10 ^ precision := by positivity
    omega
  have digits : ¬digitCount coeff ≤ precision := by
    intro few
    have small := (digitCount_le_iff coeff precision (by decide)).mp few
    omega
  have above : ¬max (-2 + (digitCount coeff : Int) - precision) minExponent ≤ -2 := by omega
  simp only [round, nonzero, ↓reduceIte, above] at rounded
  split_ifs at rounded
  all_goals
    cases rounded
    have place := whole.1
    omega

/-- Where a sum of amounts is an amount, nothing was rounded. -/
theorem IsAmount.natAbs_add_lt (amountA : a.IsAmount) (amountB : b.IsAmount)
    (added : a.add b = .ok r) (whole : r.IsAmount) :
    (a.cents + b.cents).natAbs < 10 ^ precision := by
  by_contra many
  obtain ⟨na, ca, rfl, smallA⟩ := amountA.exists_finite
  obtain ⟨nb, cb, rfl, smallB⟩ := amountB.exists_finite
  simp only [cents] at many
  have nonzeroA : ca ≠ 0 := by
    rintro rfl
    have alone : (signed na 0 + signed nb cb).natAbs = cb := by
      cases na <;> cases nb <;> simp [signed]
    omega
  have nonzeroB : cb ≠ 0 := by
    rintro rfl
    have alone : (signed na ca + signed nb 0).natAbs = ca := by
      cases na <;> cases nb <;> simp [signed]
    omega
  have countA := digitCount_pos ca
  have countB := digitCount_pos cb
  have near : ¬((digitCount cb : Int) + -2 - 1 <
      -2 + min (-1) ((digitCount ca : Int) - precision - 2)) := by
    have few := (digitCount_le_iff ca precision (by decide)).mpr smallA
    omega
  simp only [add, isNaN, Bool.or_self, Bool.false_eq_true, ↓reduceIte, addFinite, nonzeroA,
    nonzeroB, and_self, le_refl, addAligned, near, sub_self, Int.toNat_zero, pow_zero, mul_one]
    at added
  exact not_isAmount_of_round (not_lt.mp many) added whole

theorem IsAmount.natAbs_sub_lt (amountA : a.IsAmount) (amountB : b.IsAmount)
    (left : a.sub b = .ok r) (whole : r.IsAmount) :
    (a.cents - b.cents).natAbs < 10 ^ precision := by
  obtain ⟨negated, opposite⟩ := amountB.negate
  rw [sub, amountA.isNaN_eq, amountB.isNaN_eq, Bool.or_self, if_neg Bool.false_ne_true] at left
  rw [sub_eq_add_neg, ← opposite]
  exact amountA.natAbs_add_lt negated left whole

/-- Whole cents are summed in cents. -/
theorem sum_toRat_eq {ds : List Decimal} (worth : ∀ d ∈ ds, ∃ c, d.IsCents c) :
    (ds.map toRat).sum = ((ds.map wholeCents).sum : ℤ) / 100 := by
  induction ds with
  | nil => simp
  | cons d rest ih =>
    obtain ⟨c, cents⟩ := worth d (by simp)
    have tail := ih fun other mem => worth other (by simp [mem])
    simp only [List.map_cons, List.sum_cons, tail, cents.value, cents.wholeCents_eq, Int.cast_add]
    ring

end Decimal

namespace Intent

variable {i j : Intent} {d : Decimal} {c : Int} {amounts : List Decimal}

/-! ### Asking in turn -/

/-- The amounts that are spent of an intent when they are asked for in turn and what is refused is
skipped. -/
def accepted (i : Intent) : List Decimal → List Decimal
  | [] => []
  | d :: rest =>
    match i.spend (.decimal d) with
    | .ok j => d :: j.accepted rest
    | .error _ => i.accepted rest

/-- The intent once amounts were asked for in turn. -/
def spendAll (i : Intent) : List Decimal → Intent
  | [] => i
  | d :: rest =>
    match i.spend (.decimal d) with
    | .ok j => j.spendAll rest
    | .error _ => i.spendAll rest

/-- The intent after so many amounts were spent of it, which come to so many cents. -/
def drawn (i : Intent) (count : Nat) (total : Int) : Intent :=
  if count = 0 then i
  else
    { i with
      used := .ofCents (i.used.cents + total)
      approvals := i.approvals + count
      status := if i.used.cents + total = i.limit.cents then .exhausted else .active }

@[simp] theorem drawn_zero (i : Intent) (total : Int) : i.drawn 0 total = i := rfl

theorem drawn_of_ne_zero {count : Nat} (some_ : count ≠ 0) (i : Intent) (total : Int) :
    i.drawn count total =
      { i with
        used := .ofCents (i.used.cents + total)
        approvals := i.approvals + count
        status := if i.used.cents + total = i.limit.cents then .exhausted else .active } :=
  if_neg some_

@[simp] theorem drawn_limit (i : Intent) (count : Nat) (total : Int) :
    (i.drawn count total).limit = i.limit := by
  rcases Nat.eq_zero_or_pos count with rfl | some_
  · rfl
  · rw [drawn_of_ne_zero some_.ne']
    rfl

theorem drawn_used {count : Nat} {total : Int} (nothing : count = 0 → total = 0) :
    (i.drawn count total).used.cents = i.used.cents + total := by
  rcases Nat.eq_zero_or_pos count with rfl | some_
  · rw [drawn_zero, nothing rfl, add_zero]
  · rw [drawn_of_ne_zero some_.ne']
    exact Decimal.cents_ofCents _

@[simp] theorem drawn_one_used (i : Intent) (c : Int) :
    (i.drawn 1 c).used.cents = i.used.cents + c := drawn_used (by simp)

@[simp] theorem drawn_approvals (i : Intent) (count : Nat) (total : Int) :
    (i.drawn count total).approvals = i.approvals + count := by
  rcases Nat.eq_zero_or_pos count with rfl | some_
  · simp
  · rw [drawn_of_ne_zero some_.ne']

/-- An intent whose ledger is told in whole cents is active while something is left, and exhausted
from then on. -/
structure Spendable (i : Intent) : Prop extends Counted i where
  status : i.status = if i.used.cents = i.limit.cents then .exhausted else .active

/-! ### One amount -/

/-- An amount within what is left is spent. -/
theorem Spendable.spend_eq (spendable : i.Spendable) (worth : d.IsCents c) (positive : 0 < c)
    (within : i.used.cents + c ≤ i.limit.cents) :
    i.spend (.decimal d) = .ok (i.drawn 1 c) := by
  have fits := spendable.fits
  have usedSmall := spendable.used.natAbs_lt
  have limitSmall := spendable.limit.natAbs_lt
  obtain ⟨amount, brought, whole, value⟩ := worth.exists_toAmount (by omega)
  have open_ : i.used.cents ≠ i.limit.cents := by omega
  have active : i.status = .active := by rw [spendable.status, if_neg open_]
  have added := spendable.used.add_eq_ofCents whole (by omega) (by omega)
  rw [value] at added
  refine spendable.spend_ok_iff.mpr
    ⟨amount, brought, active, by omega, by omega, _, added, ?_⟩
  simp [drawn, spending, active]

/-- An amount beyond what is left is refused. -/
theorem Spendable.exists_refusal (spendable : i.Spendable) (worth : d.IsCents c)
    (beyond : i.limit.cents < i.used.cents + c) :
    ∃ failure, i.spend (.decimal d) = .error failure := by
  cases spent : i.spend (.decimal d) with
  | error failure => exact ⟨failure, rfl⟩
  | ok j =>
    obtain ⟨amount, brought, -, -, within, -⟩ := spendable.spend_ok_iff.mp spent
    have value := worth.of_toAmount brought
    omega

theorem Spendable.exists_spend_iff (spendable : i.Spendable) (worth : d.IsCents c)
    (positive : 0 < c) :
    (∃ j, i.spend (.decimal d) = .ok j) ↔ i.used.cents + c ≤ i.limit.cents := by
  by_cases within : i.used.cents + c ≤ i.limit.cents
  · exact iff_of_true ⟨_, spendable.spend_eq worth positive within⟩ within
  · obtain ⟨failure, refused⟩ := spendable.exists_refusal worth (not_le.mp within)
    refine iff_of_false ?_ within
    rintro ⟨j, spent⟩
    rw [refused] at spent
    cases spent

theorem Spendable.drawn_one (spendable : i.Spendable) (positive : 0 < c)
    (within : i.used.cents + c ≤ i.limit.cents) : (i.drawn 1 c).Spendable := by
  have usedSmall := spendable.used.natAbs_lt
  have limitSmall := spendable.limit.natAbs_lt
  have fits := spendable.fits
  refine ⟨⟨spendable.limit, Decimal.isAmount_ofCents (by omega), ?_, ?_⟩, ?_⟩
  · rw [drawn_limit, drawn_one_used]
    exact within
  · rw [drawn_limit, drawn_one_used]
    omega
  · rw [drawn_limit, drawn_one_used]
    rfl

/-- Spending one amount and then others is spending as many more, which come to as much more. -/
theorem drawn_drawn (i : Intent) (c : Int) {count : Nat} {total : Int}
    (nothing : count = 0 → total = 0) :
    (i.drawn 1 c).drawn count total = i.drawn (count + 1) (c + total) := by
  by_cases none : count = 0
  · obtain rfl := nothing none
    subst none
    simp [drawn]
  · have used : (i.drawn 1 c).used.cents + total = i.used.cents + (c + total) := by
      simp [drawn, add_assoc]
    have limit : (i.drawn 1 c).limit = i.limit := rfl
    have approvals : (i.drawn 1 c).approvals + count = i.approvals + ((count + 1 : Nat) : Int) := by
      rw [drawn_approvals]
      push_cast
      ring
    simp only [drawn_of_ne_zero none (i.drawn 1 c), used, drawn_limit, approvals, drawn_of_ne_zero count.succ_ne_zero i]
    rfl

/-! ### Amounts in turn -/

/-- Each amount is a positive number of whole cents. -/
def Priced (amounts : List Decimal) : Prop := ∀ d ∈ amounts, ∃ c : Int, 0 < c ∧ d.IsCents c

theorem Priced.head (priced : Priced (d :: amounts)) : ∃ c : Int, 0 < c ∧ d.IsCents c :=
  priced d (by simp)

theorem Priced.tail (priced : Priced (d :: amounts)) : Priced amounts :=
  fun other mem => priced other (by simp [mem])

theorem accepted_of_spend (spent : i.spend (.decimal d) = .ok j) :
    i.accepted (d :: amounts) = d :: j.accepted amounts := by
  simp only [accepted, spent]

theorem spendAll_of_spend (spent : i.spend (.decimal d) = .ok j) :
    i.spendAll (d :: amounts) = j.spendAll amounts := by
  simp only [spendAll, spent]

theorem accepted_of_refusal {failure : Failure} (refused : i.spend (.decimal d) = .error failure) :
    i.accepted (d :: amounts) = i.accepted amounts := by
  simp only [accepted, refused]

theorem spendAll_of_refusal {failure : Failure} (refused : i.spend (.decimal d) = .error failure) :
    i.spendAll (d :: amounts) = i.spendAll amounts := by
  simp only [spendAll, refused]

theorem accepted_subset (i : Intent) (amounts : List Decimal) : i.accepted amounts ⊆ amounts := by
  induction amounts generalizing i with
  | nil => simp [accepted]
  | cons d rest ih =>
    cases spent : i.spend (.decimal d) with
    | ok j =>
      rw [accepted_of_spend spent]
      exact List.cons_subset_cons d (ih j)
    | error failure =>
      rw [accepted_of_refusal spent]
      exact List.subset_cons_of_subset d (ih i)

theorem Priced.sum_nonneg (priced : Priced amounts) : 0 ≤ (amounts.map Decimal.wholeCents).sum := by
  refine List.sum_nonneg fun value mem => ?_
  obtain ⟨d, known, rfl⟩ := List.mem_map.mp mem
  obtain ⟨c, positive, worth⟩ := priced d known
  rw [worth.wholeCents_eq]
  exact positive.le

/-- Asking for amounts in turn spends those that are accepted. -/
theorem Spendable.spendAll_eq (spendable : i.Spendable) (priced : Priced amounts) :
    i.spendAll amounts = i.drawn (i.accepted amounts).length
        ((i.accepted amounts).map Decimal.wholeCents).sum ∧
      (i.spendAll amounts).Spendable := by
  induction amounts generalizing i with
  | nil => exact ⟨rfl, spendable⟩
  | cons d rest ih =>
    obtain ⟨c, positive, worth⟩ := priced.head
    by_cases within : i.used.cents + c ≤ i.limit.cents
    · have spent := spendable.spend_eq worth positive within
      obtain ⟨later, kept⟩ := ih (spendable.drawn_one positive within) priced.tail
      rw [spendAll_of_spend spent, accepted_of_spend spent]
      refine ⟨later.trans ?_, kept⟩
      rw [drawn_drawn i c (by simp +contextual), List.length_cons, List.map_cons, List.sum_cons,
        worth.wholeCents_eq]
    · obtain ⟨failure, refused⟩ := spendable.exists_refusal worth (not_le.mp within)
      rw [spendAll_of_refusal refused, accepted_of_refusal refused]
      exact ih spendable priced.tail

/-- Where everything fits, everything is accepted. -/
theorem Spendable.accepted_eq_self (spendable : i.Spendable) (priced : Priced amounts)
    (fits : i.used.cents + (amounts.map Decimal.wholeCents).sum ≤ i.limit.cents) :
    i.accepted amounts = amounts := by
  induction amounts generalizing i with
  | nil => rfl
  | cons d rest ih =>
    obtain ⟨c, positive, worth⟩ := priced.head
    have others := priced.tail.sum_nonneg
    rw [List.map_cons, List.sum_cons, worth.wholeCents_eq] at fits
    have within : i.used.cents + c ≤ i.limit.cents := by omega
    rw [accepted_of_spend (spendable.spend_eq worth positive within)]
    refine congrArg (d :: ·) (ih (spendable.drawn_one positive within) priced.tail ?_)
    rw [drawn_limit, drawn_one_used]
    omega

/-- Of equal amounts, as many are accepted as go into what is left. -/
theorem Spendable.length_accepted (spendable : i.Spendable) (positive : 0 < c)
    (same : ∀ d ∈ amounts, d.IsCents c) :
    ((i.accepted amounts).length : Int) =
      min (amounts.length : Int) ((i.limit.cents - i.used.cents) / c) := by
  induction amounts generalizing i with
  | nil =>
    have within := spendable.used_le
    have whole : 0 ≤ (i.limit.cents - i.used.cents) / c := Int.ediv_nonneg (by omega) positive.le
    simp [accepted, whole]
  | cons d rest ih =>
    have worth := same d (by simp)
    have same' : ∀ other ∈ rest, other.IsCents c := fun other mem => same other (by simp [mem])
    by_cases within : i.used.cents + c ≤ i.limit.cents
    · have later := ih (spendable.drawn_one positive within) same'
      have one_less : (i.limit.cents - (i.used.cents + c)) / c =
          (i.limit.cents - i.used.cents) / c - 1 := by
        rw [← sub_sub, Int.sub_ediv_of_dvd _ (dvd_refl c), Int.ediv_self positive.ne']
      rw [drawn_limit, drawn_one_used, one_less] at later
      rw [accepted_of_spend (spendable.spend_eq worth positive within), List.length_cons,
        List.length_cons]
      omega
    · obtain ⟨failure, refused⟩ := spendable.exists_refusal worth (not_le.mp within)
      have nothing : (i.limit.cents - i.used.cents) / c = 0 := by
        have held := spendable.used_le
        exact Int.ediv_eq_zero_of_lt (by omega) (by omega)
      have later := ih spendable same'
      rw [nothing] at later ⊢
      rw [accepted_of_refusal refused, List.length_cons]
      omega

/-- Of an intent, an amount is accepted that is no more than what is left. -/
theorem Spendable.exists_remaining_accepts (spendable : i.Spendable) (worth : d.IsCents c)
    (positive : 0 < c) :
    ∃ rest, i.remaining = .ok rest ∧
      ((∃ j, i.spend (.decimal d) = .ok j) ↔ d.toRat ≤ rest.toRat) := by
  obtain ⟨rest, remaining, whole, value⟩ := spendable.exists_remaining
  refine ⟨rest, remaining, ?_⟩
  have order : (c : ℚ) / 100 ≤ rest.cents / 100 ↔ c ≤ rest.cents := by
    rw [div_le_div_iff_of_pos_right (by norm_num)]
    exact_mod_cast Iff.rfl
  rw [spendable.exists_spend_iff worth positive, worth.value, whole.toRat_eq, order]
  omega

/-- Where the amounts are equal, so are their numbers of cents. -/
theorem Priced.exists_cents {price : ℚ} (priced : Priced (d :: amounts))
    (same : ∀ other ∈ d :: amounts, other.toRat = price) :
    ∃ c : Int, 0 < c ∧ price = c / 100 ∧ ∀ other ∈ d :: amounts, other.IsCents c := by
  obtain ⟨c, positive, worth⟩ := priced.head
  have value : price = c / 100 := (same d (by simp)).symm.trans worth.value
  refine ⟨c, positive, value, fun other mem => ?_⟩
  obtain ⟨_, -, worth'⟩ := priced other mem
  exact ⟨worth'.isFinite, (same other mem).trans value⟩

/-- Where everything fits, the order in which it is asked for does not matter. -/
theorem Spendable.spendAll_of_perm (spendable : i.Spendable) (priced : Priced amounts)
    (fits : i.used.cents + (amounts.map Decimal.wholeCents).sum ≤ i.limit.cents)
    {order : List Decimal} (perm : order.Perm amounts) :
    i.accepted order = order ∧
      i.spendAll order = i.drawn amounts.length (amounts.map Decimal.wholeCents).sum := by
  have priced' : Priced order := fun d mem => priced d (perm.mem_iff.mp mem)
  have sum := (perm.map Decimal.wholeCents).sum_eq
  have accepted := spendable.accepted_eq_self priced' (sum ▸ fits)
  refine ⟨accepted, ?_⟩
  rw [(spendable.spendAll_eq priced').1, accepted, perm.length_eq, sum]

/-- Of equal amounts, as many are accepted as the price goes into what is left. -/
theorem Spendable.length_accepted_eq_floor (spendable : i.Spendable) (priced : Priced amounts)
    {price : ℚ} (same : ∀ d ∈ amounts, d.toRat = price) :
    (i.accepted amounts).length =
      min amounts.length ⌊((i.limit.cents - i.used.cents : ℤ) : ℚ) / 100 / price⌋₊ := by
  cases amounts with
  | nil => simp [accepted]
  | cons d rest =>
    obtain ⟨c, positive, rfl, same'⟩ := priced.exists_cents same
    have count := spendable.length_accepted positive same'
    obtain ⟨m, left⟩ := Int.eq_ofNat_of_zero_le (sub_nonneg.mpr spendable.used_le)
    obtain ⟨n, rfl⟩ := Int.eq_ofNat_of_zero_le positive.le
    rw [div_div_div_cancel_right₀ (by norm_num), left, Int.cast_natCast, Int.cast_natCast,
      Nat.floor_div_eq_div]
    rw [left] at count
    exact_mod_cast count

/-- What asking for amounts in turn comes to, the refused ones being skipped. -/
structure SpendsInTurn (i : Intent) (left : Decimal) (amounts : List Decimal) : Prop where
  accepts_iff : ∀ before d after, amounts = before ++ d :: after →
    ∃ rest, (i.spendAll before).remaining = .ok rest ∧
      ((∃ j, (i.spendAll before).spend (.decimal d) = .ok j) ↔ d.toRat ≤ rest.toRat)
  used : (i.spendAll amounts).used.toRat =
    i.used.toRat + ((i.accepted amounts).map Decimal.toRat).sum
  approvals : (i.spendAll amounts).approvals = i.approvals + (i.accepted amounts).length
  status : (i.spendAll amounts).status =
    if ((i.accepted amounts).map Decimal.toRat).sum = left.toRat then .exhausted else .active
  any_order : (amounts.map Decimal.toRat).sum ≤ left.toRat → ∀ order, order.Perm amounts →
    i.accepted order = order ∧ i.spendAll order = i.spendAll amounts
  equal : ∀ price, (∀ d ∈ amounts, d.toRat = price) →
    (i.accepted amounts).length = min amounts.length ⌊left.toRat / price⌋₊

/-- The balance that is left and the ledger agree in cents. -/
theorem Spendable.of_remaining {left : Decimal} (active : i.status = .active)
    (limit : i.limit.IsAmount) (used : i.used.IsAmount) (remaining : i.remaining = .ok left)
    (whole : left.IsAmount) (positive : 0 < left.toRat) :
    i.Spendable ∧ left.cents = i.limit.cents - i.used.cents := by
  have subtracted := Failure.ofDecimal_ok_iff.mp remaining
  have fits := limit.natAbs_sub_lt used subtracted whole
  obtain ⟨rest, subtracted', -, value⟩ := limit.exists_sub used fits
  obtain rfl := Except.ok.inj (subtracted.symm.trans subtracted')
  have some_ : 0 < left.cents := by
    rw [whole.toRat_eq] at positive
    have scaled : (0 : ℚ) < left.cents := by linarith
    exact_mod_cast scaled
  refine ⟨⟨⟨limit, used, by omega, fits⟩, ?_⟩, value⟩
  have open_ : i.used.cents ≠ i.limit.cents := by omega
  rw [active, if_neg open_]

/-- Amounts that are asked for in turn, of an active intent whose ledger is told in whole cents, are
accepted as far as what is left at their turn allows. -/
theorem spends_in_turn {left : Decimal} (active : i.status = .active) (limit : i.limit.IsAmount)
    (used : i.used.IsAmount) (remaining : i.remaining = .ok left) (whole : left.IsAmount)
    (positive : 0 < left.toRat) (priced : Priced amounts) : i.SpendsInTurn left amounts := by
  obtain ⟨spendable, value⟩ := Spendable.of_remaining active limit used remaining whole positive
  obtain ⟨drawn, later⟩ := spendable.spendAll_eq priced
  have taken : Priced (i.accepted amounts) := fun d mem => priced d (accepted_subset i amounts mem)
  have sum := Decimal.sum_toRat_eq fun d mem => (taken d mem).imp fun _ => And.right
  have leftover : left.toRat = (i.limit.cents - i.used.cents : ℤ) / 100 := by
    rw [whole.toRat_eq, value]
  have cents : (i.spendAll amounts).used.cents =
      i.used.cents + ((i.accepted amounts).map Decimal.wholeCents).sum := by
    rw [drawn]
    exact drawn_used (by simp +contextual)
  constructor
  case accepts_iff =>
    rintro before d after rfl
    obtain ⟨c, positive, worth⟩ := priced d (by simp)
    have priced' : Priced before := fun other mem => priced other (by simp [mem])
    exact (spendable.spendAll_eq priced').2.exists_remaining_accepts worth positive
  case used =>
    rw [later.used.toRat_eq, cents, used.toRat_eq, sum]
    push_cast
    ring
  case approvals => rw [drawn, drawn_approvals]
  case status =>
    have limit' : (i.spendAll amounts).limit = i.limit := by rw [drawn, drawn_limit]
    have full : ((i.accepted amounts).map Decimal.toRat).sum = left.toRat ↔
        (i.spendAll amounts).used.cents = i.limit.cents := by
      rw [sum, leftover, cents, div_left_inj' (by norm_num), Int.cast_inj]
      omega
    rw [later.status, limit']
    exact if_congr full.symm rfl rfl
  case any_order =>
    intro fits order perm
    have worth := Decimal.sum_toRat_eq fun d mem => (priced d mem).imp fun _ => And.right
    rw [worth, leftover, div_le_div_iff_of_pos_right (by norm_num), Int.cast_le] at fits
    have fits' : i.used.cents + (amounts.map Decimal.wholeCents).sum ≤ i.limit.cents := by omega
    obtain ⟨all, ends⟩ := spendable.spendAll_of_perm priced fits' perm
    obtain ⟨-, ends'⟩ := spendable.spendAll_of_perm priced fits' (.refl amounts)
    exact ⟨all, ends.trans ends'.symm⟩
  case equal =>
    intro price same
    rw [leftover]
    exact spendable.length_accepted_eq_floor priced same

/-- Of forty, thirty and twenty that are asked of sixty, the thirty is refused and the rest is
spent. -/
theorem spends_in_turn_skipping :
    Sample.localIntent.SpendsInTurn (.ofCents 6000) [.ofCents 4000, .ofCents 3000, .ofCents 2000] ∧
      Sample.localIntent.accepted [.ofCents 4000, .ofCents 3000, .ofCents 2000] =
        [.ofCents 4000, .ofCents 2000] := by
  have sixty : (Decimal.ofCents 6000).IsAmount := Decimal.isAmount_ofCents (by decide)
  have left : Sample.localIntent.remaining = .ok (.ofCents 6000) :=
    eq_ok_of_toOption (by decide +kernel)
  have price : ∀ c : Int, 0 < c → c.natAbs < 10 ^ Decimal.precision →
      ∃ c' : Int, 0 < c' ∧ (Decimal.ofCents c).IsCents c' := by
    intro c positive small
    have worth := (Decimal.isAmount_ofCents small).isCents
    rw [Decimal.cents_ofCents] at worth
    exact ⟨c, positive, worth⟩
  have priced : Priced [.ofCents 4000, .ofCents 3000, .ofCents 2000] := by
    simp only [Priced, List.forall_mem_cons, List.not_mem_nil, false_implies, implies_true, and_true]
    exact ⟨price _ (by decide) (by decide), price _ (by decide) (by decide),
      price _ (by decide) (by decide)⟩
  exact ⟨spends_in_turn rfl ⟨rfl, by decide⟩ Decimal.isAmount_zero left sixty
    (sixty.toRat_pos (by decide)) priced, by decide +kernel⟩

end Intent

end Earmark
