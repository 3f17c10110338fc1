import Earmark.Proofs.Calendar
import Earmark.Proofs.Columns
import Earmark.Proofs.Normal
import Earmark.Proofs.Runs

/-!
Intents as rows. The row of an intent whose policy was accepted reads back as that intent, and
copying the ledger after a change makes it the row of the changed intent: nothing else ever changes
(`IntentRow.follow_ok`, `IntentRow.exists_follow`).
-/

namespace Earmark

open scoped Earmark.Whole

/-- Items are read one by one from what is kept of them. -/
theorem mapM_map_eq {ε α β γ : Type} {read : β → Except ε γ} {keep : α → β} {view : α → γ}
    {xs : List α} (each : ∀ a ∈ xs, read (keep a) = .ok (view a)) :
    (xs.map keep).mapM read = .ok (xs.map view) := by
  induction xs with
  | nil => rfl
  | cons a rest ih =>
    have first := each a (by simp)
    have later := ih fun b mem => each b (by simp [mem])
    rw [List.map_cons, List.mapM_cons, first, later]
    rfl

theorem mapM_map_ok {ε α β : Type} {read : β → Except ε α} {keep : α → β} {xs : List α}
    (each : ∀ a ∈ xs, read (keep a) = .ok a) : (xs.map keep).mapM read = .ok xs := by
  have back : ∀ a ∈ xs, read (keep a) = .ok (id a) := each
  rw [mapM_map_eq back, List.map_id]

/-! ### Columns -/

theorem Decimal.unsignedZero_eq {d : Decimal} (nonzero : d.cents ≠ 0) : d.unsignedZero = d := by
  cases d with
  | finite neg coeff exp =>
    have some_ : coeff ≠ 0 := by
      rintro rfl
      cases neg <;> exact nonzero rfl
    rw [unsignedZero, bne_iff_ne.mpr some_, Bool.and_true]
  | infinity neg => rfl
  | nan neg signalling payload => rfl

namespace Column

variable {d : Decimal}

theorem Keeps.toAmount (keeps : Keeps d) (amount : d.IsAmount) :
    (toMoney (ofMoney d)).toAmount = .ok d.unsignedZero := by
  obtain ⟨neg, coeff, rfl, small⟩ := amount.exists_finite
  have whole : (Decimal.finite (neg && coeff != 0) coeff (-2)).IsAmount := ⟨rfl, small⟩
  rw [keeps]
  exact whole.toAmount_eq

theorem Keeps.toAmount_eq (keeps : Keeps d) (amount : d.IsAmount)
    (unsigned : d.unsignedZero = d) : (toMoney (ofMoney d)).toAmount = .ok d := by
  rw [keeps.toAmount amount, unsigned]

theorem Keeps.isNaN_eq (keeps : Keeps d) (amount : d.IsAmount) : (ofMoney d).isNaN = false := by
  obtain ⟨neg, coeff, rfl, -⟩ := amount.exists_finite
  unfold Keeps at keeps
  cases column : ofMoney (.finite neg coeff (-2)) with
  | finite neg m e => rfl
  | infinity neg => rfl
  | nan => rw [column] at keeps; cases keeps

theorem writeMoney_eq (amount : d.IsAmount) : writeMoney d = .ok (ofMoney d) := by
  obtain ⟨neg, coeff, rfl, -⟩ := amount.exists_finite
  rfl

theorem ofWhole_eq {n : Int} (nonneg : 0 ≤ n) (fits : n < 2 ^ (63 : Nat)) : ofWhole n = .ok n :=
  if_pos ⟨by omega, fits⟩

theorem ofWhole_ok {n kept : Int} (kept_ok : ofWhole n = .ok kept) : n = kept := by
  rw [ofWhole] at kept_ok
  split at kept_ok
  · exact Except.ok.inj kept_ok
  · cases kept_ok

@[simp] theorem toText?_ofText? (s : Option String) : toText? (ofText? s) = s := by
  cases s <;> rfl

theorem toTime_ofTime {t : Time} (universal : t.offset = some 0) : toTime (ofTime t) = t := by
  rw [toTime, ofTime, ← universal]

end Column

/-! ### Documents of a policy -/

/-- The policy and its parts went through the checks. -/
structure Policy.IsAccepted (policy : Policy) : Prop where
  built : policy.IsBuilt
  geo : ∀ g ∈ policy.geo, ∃ city region radius, GeoRestriction.build city region radius = .ok g
  split : ∀ s ∈ policy.split, ∃ spend save, SplitRule.build spend save = .ok s

theorem GeoRestriction.build_ok {city region : Option String} {radius : Option Measure}
    {g : GeoRestriction} (built : build city region radius = .ok g) :
    build g.city g.region g.radius = .ok g := by
  have same : g = { city, region, radius } := by
    rw [build] at built
    split at built
    · cases built
    · split at built
      · cases built
      · exact (Except.ok.inj built).symm
  rw [same] at built ⊢
  exact built

private theorem isNaN_eq_of_lt? {a b : Decimal} {less : Bool} (compared : a.lt? b = .ok less) :
    a.isNaN = false := by
  cases number : a.isNaN with
  | false => rfl
  | true => simp [Decimal.lt?, Decimal.compare?, number] at compared

private theorem isFinite_of_add {a b total : Decimal} (numberA : a.isNaN = false)
    (numberB : b.isNaN = false) (added : a.add b = .ok total)
    (one : total.eq? (.ofNat 1) = .ok true) : a.isFinite ∧ b.isFinite := by
  have known (neg : Bool) : (Decimal.infinity neg).eq? (.ofNat 1) = .ok false := by
    cases neg <;> rfl
  cases a with
  | nan neg signalling payload => cases numberA
  | infinity neg =>
    have same : total = .infinity neg := by
      cases b with
      | nan neg signalling payload => cases numberB
      | finite nb cb eb => exact (Except.ok.inj added).symm
      | infinity nb =>
        simp only [Decimal.add, numberA, numberB, Bool.or_self, Bool.false_eq_true,
          ↓reduceIte] at added
        split at added
        · exact (Except.ok.inj added).symm
        · cases added
    rw [same, known] at one
    cases one
  | finite na ca ea =>
    cases b with
    | nan neg signalling payload => cases numberB
    | finite nb cb eb => exact ⟨rfl, rfl⟩
    | infinity nb =>
      have same : total = .infinity nb := (Except.ok.inj added).symm
      rw [same, known] at one
      cases one

/-- What the checks on a rule let through: finite parts, for an infinity is no part of one. -/
theorem SplitRule.ofParts_ok {spend save : Decimal} {s : SplitRule}
    (built : ofParts spend save = .ok s) :
    s = { spend, save } ∧ spend.isFinite ∧ save.isFinite := by
  simp only [ofParts, bind_ok_iff, Failure.ofDecimal_ok_iff] at built
  obtain ⟨spendNegative, first, built⟩ := built
  cases spendNegative with
  | true => cases built
  | false =>
    simp only [Bool.false_eq_true, ↓reduceIte, bind_ok_iff, Failure.ofDecimal_ok_iff] at built
    obtain ⟨saveNegative, second, built⟩ := built
    cases saveNegative with
    | true => cases built
    | false =>
      simp only [Bool.false_eq_true, ↓reduceIte, bind_ok_iff, Failure.ofDecimal_ok_iff] at built
      obtain ⟨total, added, whole, one, built⟩ := built
      cases whole with
      | false => cases built
      | true =>
        exact ⟨(Except.ok.inj built).symm,
          isFinite_of_add (isNaN_eq_of_lt? first) (isNaN_eq_of_lt? second) added one⟩

/-- An accepted rule is accepted again from the texts of its parts. -/
theorem SplitRule.build_toText {spend save : Numeral} {s : SplitRule}
    (built : build spend save = .ok s) :
    build (.text s.spend.toText) (.text s.save.toText) = .ok s := by
  simp only [build, Numeral.written, bind_ok_iff, Failure.require_ok_iff] at built
  obtain ⟨first, readFirst, second, readSecond, parts⟩ := built
  obtain ⟨same, finiteFirst, finiteSecond⟩ := SplitRule.ofParts_ok parts
  have writtenFirst := Decimal.isWritten_of_ofText? readFirst finiteFirst
  have writtenSecond := Decimal.isWritten_of_ofText? readSecond finiteSecond
  rw [same] at parts ⊢
  simp only [build, Numeral.written, Numeral.shown, Decimal.ofText?_toText writtenFirst,
    Decimal.ofText?_toText writtenSecond, Failure.require, ok_bind, parts]

namespace IntentRow

theorem readGeo_geoDocument {geo : Option GeoRestriction}
    (accepted : ∀ g ∈ geo, ∃ city region radius, GeoRestriction.build city region radius = .ok g) :
    readGeo (geoDocument geo) = .ok geo := by
  cases geo with
  | none => rfl
  | some g =>
    obtain ⟨city, region, radius, built⟩ := accepted g rfl
    have kept : Measure.ofJson? ((g.radius.map Measure.toJson).getD .null) = g.radius := by
      cases g.radius with
      | none => rfl
      | some r => exact Measure.ofJson?_toJson r
    have read : readGeo (geoDocument (some g)) =
        some <$> GeoRestriction.build (Column.toText? (Column.ofText? g.city))
          (Column.toText? (Column.ofText? g.region))
          (Measure.ofJson? ((g.radius.map Measure.toJson).getD .null)) := rfl
    rw [read, Column.toText?_ofText?, Column.toText?_ofText?, kept,
      GeoRestriction.build_ok built]
    rfl

theorem readSplit_splitDocument {split : Option SplitRule}
    (accepted : ∀ s ∈ split, ∃ spend save, SplitRule.build spend save = .ok s) :
    readSplit (splitDocument split) = .ok split := by
  cases split with
  | none => rfl
  | some s =>
    obtain ⟨spend, save, built⟩ := accepted s rfl
    have read : readSplit (splitDocument (some s)) =
        some <$> SplitRule.build (.text s.spend.toText) (.text s.save.toText) := rfl
    rw [read, SplitRule.build_toText built]
    rfl

end IntentRow

/-! ### Changes of an intent -/

namespace Intent

inductive Change
  | spend (amount : Numeral)
  | recordViolation
  | cancel
  | expire (now : Time)

def change (i : Intent) : Change → Except Failure Intent
  | .spend amount => i.spend amount
  | .recordViolation => .ok i.recordViolation
  | .cancel => (·.2) <$> i.cancel
  | .expire now => (·.2) <$> i.expire now

/-- The intent after some changes; one that fails leaves it as it is. -/
def changed (i : Intent) : List Change → Intent
  | [] => i
  | c :: rest =>
    match i.change c with
    | .ok next => next.changed rest
    | .error _ => i.changed rest

theorem Sound.changes {i j : Intent} (sound : i.Sound) {c : Change} (done : i.change c = .ok j) :
    i.Changes j := by
  cases c with
  | spend amount =>
    obtain ⟨d, -, spent⟩ := sound.spent done
    exact .spent spent
  | recordViolation =>
    cases done
    exact .violated
  | cancel =>
    obtain ⟨⟨rest, after⟩, cancelled, rfl⟩ := map_ok_iff.mp done
    exact .closed (sound.closed_of_cancel cancelled).1
  | expire now =>
    obtain ⟨⟨rest, after⟩, expired, rfl⟩ := map_ok_iff.mp done
    rcases sound.stays_or_closed_of_expire expired with ⟨-, rfl, -⟩ | ⟨closed, -, -⟩
    · exact .same
    · exact .closed closed

/-- A change counts at most one more violation and one more approval. -/
theorem Changes.counts {i j : Intent} (change : i.Changes j) :
    j.violations ≤ i.violations + 1 ∧ j.approvals ≤ i.approvals + 1 := by
  cases change with
  | same => simp
  | spent spent => simp [spent.violations, spent.approvals]
  | violated => simp [recordViolation]
  | closed closed => simp [closed.violations, closed.approvals]
  | lapsed closed => simp [closed.violations, closed.approvals, recordViolation]

/-- What is used stays, or becomes positive. -/
theorem Changes.used {i j : Intent} (change : i.Changes j) (sound : i.Sound) :
    j.used = i.used ∨ 0 < j.used.cents := by
  cases change with
  | same => exact .inl rfl
  | spent spent =>
    have nonneg := sound.used_nonneg
    have positive := spent.positive
    have used := spent.used
    exact .inr (by omega)
  | violated => exact .inl rfl
  | closed closed => exact .inl closed.used
  | lapsed closed => exact .inl closed.used

end Intent

namespace IntentRow

/-- The row of an intent, updated after each of some changes that succeeds. -/
def follow (row : IntentRow) (i : Intent) : List Intent.Change → Except Failure IntentRow
  | [] => .ok row
  | c :: rest =>
    match i.change c with
    | .ok next => do (← row.update next).follow next rest
    | .error _ => row.follow i rest

end IntentRow

namespace Intent

/-- What an intent needs for its row to say all of it. -/
structure Storable (i : Intent) : Prop where
  sound : i.Sound
  accepted : i.policy.IsAccepted
  limit_lt : i.limit.cents < 10 ^ (15 : Nat)
  unsigned : i.used.unsignedZero = i.used
  createdAt : i.createdAt.offset = some 0
  expiresAt : i.expiresAt.offset = some 0

/-- The whole numbers of an intent fit their columns, also after some more changes. -/
structure Fits (i : Intent) (changes : Nat) : Prop where
  validity : i.policy.validityDays < 2 ^ (63 : Nat)
  violations_nonneg : 0 ≤ i.violations
  violations_lt : i.violations + changes < 2 ^ (63 : Nat)
  approvals_lt : i.approvals + changes < 2 ^ (63 : Nat)

variable {i j : Intent} {changes : Nat}

theorem Fits.mono {fewer : Nat} (fits : i.Fits changes) (fewer_le : fewer ≤ changes) :
    i.Fits fewer := by
  obtain ⟨validity, nonneg, violations, approvals⟩ := fits
  exact ⟨validity, nonneg, by omega, by omega⟩

theorem Fits.change (fits : i.Fits (changes + 1)) (change : i.Changes j) : j.Fits changes := by
  have later := change.precedes
  obtain ⟨moreViolations, moreApprovals⟩ := change.counts
  obtain ⟨validity, nonneg, violations, approvals⟩ := fits
  push_cast at violations approvals
  exact ⟨later.policy ▸ validity, nonneg.trans later.violations, by omega, by omega⟩

namespace Storable

theorem change (storable : i.Storable) (change : i.Changes j) : j.Storable := by
  have later := change.precedes
  obtain ⟨sound, accepted, limit, unsigned, createdAt, expiresAt⟩ := storable
  refine ⟨change.sound sound, later.policy ▸ accepted, ?_, ?_, later.createdAt ▸ createdAt,
    later.expiresAt ▸ expiresAt⟩
  · rw [Intent.limit, later.policy]
    exact limit
  · rcases change.used sound with same | positive
    · rw [same, unsigned]
    · exact Decimal.unsignedZero_eq positive.ne'

theorem keeps_limit (storable : i.Storable) : Column.Keeps i.limit := by
  have positive := storable.sound.limit_pos
  have small := storable.limit_lt
  exact Column.keeps_of_small storable.sound.limit (by omega)

theorem keeps_used (storable : i.Storable) : Column.Keeps i.used := by
  have nonneg := storable.sound.used_nonneg
  have within := storable.sound.used_le
  have small := storable.limit_lt
  exact Column.keeps_of_small storable.sound.used (by omega)

end Storable

end Intent

namespace IntentRow

variable {i j : Intent} {changes : Nat} {row : IntentRow}

/-- The row of an intent that has one. -/
def plain (i : Intent) : IntentRow :=
  { id := i.id, user := i.user, text := i.text, limit := Column.ofMoney i.policy.limit
    used := Column.ofMoney i.used, categories := i.policy.categories, codes := i.policy.codes
    validityDays := i.policy.validityDays, geo := geoDocument i.policy.geo
    proofRequired := i.policy.proofRequired, tier := i.policy.tier
    split := splitDocument i.policy.split, escrowEnabled := i.policy.escrowEnabled
    currency := i.policy.currency, status := i.status.word, violations := i.violations
    approvals := i.approvals, createdAt := Column.ofTime i.createdAt
    expiresAt := Column.ofTime i.expiresAt }

/-- Only a whole number that does not fit its column keeps an intent from having a row. -/
theorem ofIntent_ok_iff (storable : i.Storable) :
    ofIntent i = .ok row ↔
      (Column.ofWhole i.policy.validityDays = .ok i.policy.validityDays ∧
        Column.ofWhole i.violations = .ok i.violations ∧
        Column.ofWhole i.approvals = .ok i.approvals) ∧ row = plain i := by
  simp only [ofIntent, Column.writeMoney_eq storable.sound.used, ok_bind, bind_ok_iff,
    storable.keeps_used.isNaN_eq storable.sound.used]
  constructor
  · rintro ⟨validity, hasValidity, violations, hasViolations, approvals, hasApprovals, rest⟩
    obtain rfl := Column.ofWhole_ok hasValidity
    obtain rfl := Column.ofWhole_ok hasViolations
    obtain rfl := Column.ofWhole_ok hasApprovals
    cases rest
    exact ⟨⟨hasValidity, hasViolations, hasApprovals⟩, rfl⟩
  · rintro ⟨⟨hasValidity, hasViolations, hasApprovals⟩, rfl⟩
    exact ⟨_, hasValidity, _, hasViolations, _, hasApprovals, rfl⟩

theorem ofIntent_eq (storable : i.Storable) (fits : i.Fits changes) :
    ofIntent i = .ok (plain i) := by
  obtain ⟨terms, accepted⟩ := storable.accepted.built
  obtain ⟨limit, -, -, -, positive, same⟩ := Policy.build_ok_iff.mp accepted
  have validity : 0 < i.policy.validityDays := by rwa [same]
  have violations := fits.violations_lt
  have approvals := fits.approvals_lt
  exact (ofIntent_ok_iff storable).mpr ⟨⟨Column.ofWhole_eq validity.le fits.validity,
    Column.ofWhole_eq fits.violations_nonneg (by omega),
    Column.ofWhole_eq storable.sound.approvals_nonneg (by omega)⟩, rfl⟩

/-- The row of an intent reads back as that intent. -/
theorem toIntent_plain (storable : i.Storable) : (plain i).toIntent = .ok i := by
  have limit : Column.toMoney (Column.ofMoney i.policy.limit) = i.policy.limit :=
    Eq.trans storable.keeps_limit (Decimal.unsignedZero_eq storable.sound.limit_pos.ne')
  have used := storable.keeps_used.toAmount_eq storable.sound.used storable.unsigned
  have built := storable.accepted.built.build_terms
  simp only [Policy.terms] at built
  simp only [toIntent, plain, readGeo_geoDocument storable.accepted.geo,
    readSplit_splitDocument storable.accepted.split, limit, built, Json.toWord,
    IntentStatus.ofWord?_word, Failure.require, used, ok_bind,
    Column.toTime_ofTime storable.createdAt, Column.toTime_ofTime storable.expiresAt]

/-- Copying the ledger into the row of an intent makes the row of a later state of it, unless a
count does not fit its column. -/
theorem update_ok_iff (later : i.Precedes j) :
    (plain i).update j = .ok row ↔
      (Column.ofWhole j.violations = .ok j.violations ∧
        Column.ofWhole j.approvals = .ok j.approvals) ∧ row = plain j := by
  simp only [update, plain, bind_ok_iff, later.id, later.user, later.text, later.policy,
    later.createdAt, later.expiresAt]
  constructor
  · rintro ⟨violations, hasViolations, approvals, hasApprovals, rest⟩
    obtain rfl := Column.ofWhole_ok hasViolations
    obtain rfl := Column.ofWhole_ok hasApprovals
    exact ⟨⟨hasViolations, hasApprovals⟩, (Except.ok.inj rest).symm⟩
  · rintro ⟨⟨hasViolations, hasApprovals⟩, rfl⟩
    exact ⟨_, hasViolations, _, hasApprovals, rfl⟩

theorem update_plain (later : i.Precedes j) (sound : j.Sound) (fits : j.Fits changes) :
    (plain i).update j = .ok (plain j) := by
  have violations := fits.violations_lt
  have approvals := fits.approvals_lt
  exact (update_ok_iff later).mpr ⟨⟨Column.ofWhole_eq fits.violations_nonneg (by omega),
    Column.ofWhole_eq sound.approvals_nonneg (by omega)⟩, rfl⟩

/-- After any changes the row that followed them is the one that the changed intent would be given,
and reads back as that intent. -/
theorem follow_ok {cs : List Intent.Change} (storable : i.Storable)
    (written : ofIntent i = .ok (plain i)) (followed : (plain i).follow i cs = .ok row) :
    ofIntent (i.changed cs) = .ok row ∧ row.toIntent = .ok (i.changed cs) := by
  induction cs generalizing i with
  | nil =>
    cases followed
    exact ⟨written, toIntent_plain storable⟩
  | cons c rest ih =>
    rw [follow] at followed
    rw [Intent.changed]
    cases done : i.change c with
    | error failure =>
      rw [done] at followed
      exact ih storable written followed
    | ok next =>
      rw [done] at followed
      obtain ⟨updated, copied, followed⟩ := bind_ok_iff.mp followed
      have changes := storable.sound.changes done
      obtain ⟨counts, rfl⟩ := (update_ok_iff changes.precedes).mp copied
      have validity := ((ofIntent_ok_iff storable).mp written).1.1
      refine ih (storable.change changes) ?_ followed
      refine (ofIntent_ok_iff (storable.change changes)).mpr ⟨⟨?_, counts⟩, rfl⟩
      rwa [changes.precedes.policy]

/-- While the counts fit their columns every change can be followed. -/
theorem exists_follow {cs : List Intent.Change} (sound : i.Sound) (fits : i.Fits cs.length) :
    ∃ row, (plain i).follow i cs = .ok row := by
  induction cs generalizing i with
  | nil => exact ⟨_, rfl⟩
  | cons c rest ih =>
    rw [follow]
    cases done : i.change c with
    | error failure => exact ih sound (fits.mono (Nat.le_succ _))
    | ok next =>
      have changes := sound.changes done
      have later := changes.sound sound
      simp only [update_plain changes.precedes later (fits.change changes), ok_bind]
      exact ih later (fits.change changes)

end IntentRow

end Earmark
