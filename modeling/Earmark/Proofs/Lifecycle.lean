import Earmark.Proofs.Selection
import Earmark.Proofs.Verdicts

/-!
The life of an intent. What was used and what remains always make its limit, it is exhausted exactly
when nothing remains, and it leaves the active status once. What remains of it is unlocked in the
one step that cancels it or lets it expire.
-/

namespace Earmark

namespace Intent

/-- What was used and what remains make the limit, in whole cents. -/
structure Balanced (i : Intent) : Prop where
  used : i.used.IsAmount
  nonneg : 0 ≤ i.used.toRat
  le : i.used.toRat ≤ i.limit.toRat
  rest : ∃ rest, i.remaining = .ok rest ∧ rest.IsAmount ∧
    i.used.toRat + rest.toRat = i.limit.toRat ∧ (i.status = .exhausted ↔ rest.toRat = 0)
  approvals : 0 < i.approvals ↔ 0 < i.used.toRat

theorem Sound.balanced {i : Intent} (sound : i.Sound) : i.Balanced := by
  obtain ⟨rest, remaining, amount, value⟩ := sound.exists_remaining
  have nonneg : (0 : ℚ) ≤ i.used.cents := by exact_mod_cast sound.used_nonneg
  have le : (i.used.cents : ℚ) ≤ i.limit.cents := by exact_mod_cast sound.used_le
  have left : (rest.cents : ℚ) = i.limit.cents - i.used.cents := by exact_mod_cast value
  refine ⟨sound.used, ?_, ?_, ⟨rest, remaining, amount, ?_, ?_⟩, ?_⟩
  · rw [sound.used.toRat_eq]
    positivity
  · rw [sound.used.toRat_eq, sound.limit.toRat_eq]
    linarith
  · rw [sound.used.toRat_eq, amount.toRat_eq, sound.limit.toRat_eq, left]
    ring
  · have zero : rest.toRat = 0 ↔ rest.cents = 0 := by
      rw [amount.toRat_eq]
      simp
    rw [sound.exhausted_iff, zero, value]
    omega
  · have positive : 0 < i.used.toRat ↔ 0 < i.used.cents := by
      rw [sound.used.toRat_eq, div_pos_iff_of_pos_right (by norm_num), Int.cast_pos]
    rw [positive]
    exact sound.approvals_iff

/-- A step moves an intent from active to expired or cancelled. -/
structure Closes (i j : Intent) : Prop where
  same : j.id = i.id
  active : i.status = .active
  closed : j.status = .expired ∨ j.status = .cancelled

theorem Closes.ne {i j : Intent} (closes : i.Closes j) : j ≠ i := by
  rintro rfl
  simpa [closes.active] using closes.closed

theorem Spent.not_closes {i j : Intent} {d : Decimal} (spent : i.Spent d j) : ¬i.Closes j := by
  intro closes
  rcases spent.status with status | status
  · simpa [status] using closes.closed
  · simpa [status] using closes.closed

theorem not_closes_recordViolation (i : Intent) : ¬i.Closes i.recordViolation := by
  intro closes
  simpa [recordViolation, closes.active] using closes.closed

theorem not_closes_of_mem {intents : List Intent} (unique : (intents.map Intent.id).Nodup) :
    ∀ i ∈ intents, ∀ j ∈ intents, ¬i.Closes j :=
  fun _ mem _ mem' closes => closes.ne (eq_of_id unique mem mem' closes.same)

theorem not_closes_of_append {intents : List Intent} {new : Intent}
    (unique : (intents.map Intent.id).Nodup) (fresh : findIn intents new.id = none) :
    ∀ i ∈ intents, ∀ j ∈ intents ++ [new], ¬i.Closes j := by
  intro i mem j mem' closes
  rcases List.mem_append.mp mem' with known | added
  · exact not_closes_of_mem unique i mem j known closes
  · obtain rfl := List.mem_singleton.mp added
    exact findIn_eq_none_iff.mp fresh (closes.same ▸ List.mem_map_of_mem mem)

/-- Where one intent is replaced only that one can be closed. -/
theorem eq_of_closes_replaceIn {intents : List Intent} {id : String} {old new i j : Intent}
    (unique : (intents.map Intent.id).Nodup) (found : findIn intents id = some old)
    (same : new.id = old.id) (mem : i ∈ intents) (mem' : j ∈ replaceIn intents id new)
    (closes : i.Closes j) : i = old ∧ j = new := by
  rcases mem_replaceIn mem' with rfl | ⟨known, -⟩
  · exact ⟨eq_of_id unique (mem_of_findIn found) mem (closes.same.symm.trans same), rfl⟩
  · exact absurd closes (not_closes_of_mem unique i mem j known)

theorem not_closes_of_replaceIn {intents : List Intent} {id : String} {old new : Intent}
    (unique : (intents.map Intent.id).Nodup) (found : findIn intents id = some old)
    (same : new.id = old.id) (unclosed : ¬old.Closes new) :
    ∀ i ∈ intents, ∀ j ∈ replaceIn intents id new, ¬i.Closes j := by
  intro i mem j mem' closes
  obtain ⟨rfl, rfl⟩ := eq_of_closes_replaceIn unique found same mem mem' closes
  exact unclosed closes

end Intent

/-- Whether a command opens a wallet, or locks or unlocks funds but by closing an intent. -/
def Command.fundsDirectly : Command → Bool
  | .openWallet .. | .lockFunds .. | .releaseFunds .. | .createIntent .. => true
  | _ => false

variable {config : Config} {now : Time} {w next : World .memory} {c : Command}
  {reply : Except Failure Reply} {run : List (Time × Command)}

/-- The intent that a step closes, what that leaves and what becomes of it. -/
structure World.Closing (w next : World .memory) (i : Intent) (rest : Decimal) (j : Intent) :
    Prop where
  mem : i ∈ w.intents
  closes : i.Closes j
  amount : rest.IsAmount
  positive : 0 < rest.cents
  total : j.used.cents + rest.cents = j.limit.cents
  released : Wallet.released w.wallets i.user (.decimal rest) = .ok next.wallets
  replaced : next.intents = Intent.replaceIn w.intents i.id j

theorem World.Closing.of_closed {id : String} {i before j : Intent} {rest : Decimal}
    {left : List Wallet} (found : Intent.findIn w.intents id = some i)
    (closed : before.Closed rest j) (same : before.id = i.id) (active : before.status = i.status)
    (released : Wallet.released w.wallets i.user (.decimal rest) = .ok left)
    (wallets : next.wallets = left) (intents : next.intents = Intent.replaceIn w.intents id j) :
    w.Closing next i rest j where
  mem := Intent.mem_of_findIn found
  closes := ⟨closed.later.id.trans same, active.symm.trans closed.active, closed.status⟩
  amount := closed.amount
  positive := closed.positive
  total := by
    have limit : j.limit = before.limit := congrArg Policy.limit closed.later.policy
    rw [closed.used, limit, closed.rest]
  released := wallets ▸ released
  replaced := by rw [intents, Intent.id_of_findIn found]

/-- A turn closes no intent, and then leaves the wallets unless it is a command of theirs, or it
closes one and unlocks what that leaves. -/
theorem Turn.closing_cases (turn : Turn config now w c reply next) (regular : c.Regular)
    (ledgers : Intent.Ledgers w.intents) :
    ((∀ i ∈ w.intents, ∀ j ∈ next.intents, ¬i.Closes j) ∧
        (c.fundsDirectly = false → next.wallets = w.wallets)) ∨
      ∃ i rest j, w.Closing next i rest j := by
  have unique := ledgers.unique
  have stays := Intent.not_closes_of_mem unique
  cases turn with
  | failed => exact .inl ⟨stays, fun _ => rfl⟩
  | aside => exact .inl ⟨stays, fun _ => rfl⟩
  | openWallet => exact .inl ⟨stays, fun direct => by cases direct⟩
  | lockFunds => exact .inl ⟨stays, fun direct => by cases direct⟩
  | releaseFunds => exact .inl ⟨stays, fun direct => by cases direct⟩
  | createIntent opened fresh =>
    exact .inl ⟨Intent.not_closes_of_append unique fresh, fun direct => by cases direct⟩
  | createUnlocked opened fresh =>
    exact .inl ⟨Intent.not_closes_of_append unique fresh, fun direct => by cases direct⟩
  | addIntent => exact regular.elim
  | useIntent found spent =>
    obtain ⟨d, -, spent⟩ := (ledgers.sound_of_findIn found).spent spent
    exact .inl ⟨Intent.not_closes_of_replaceIn unique found spent.later.id spent.not_closes,
      fun _ => rfl⟩
  | @violateIntent id i found =>
    exact .inl ⟨Intent.not_closes_of_replaceIn unique found rfl i.not_closes_recordViolation,
      fun _ => rfl⟩
  | @cancelIntent id i j rest left found cancelled released =>
    obtain ⟨closed, -⟩ := (ledgers.sound_of_findIn found).closed_of_cancel cancelled
    rw [Wallet.releasedRest_of_pos _ _ closed.amount closed.positive] at released
    exact .inr ⟨i, rest, j, .of_closed found closed rfl rfl released rfl rfl⟩
  | payNowhere =>
    rw [World.intents_logging, World.wallets_logging]
    exact .inl ⟨stays, fun _ => rfl⟩
  | @pay request number d m p v id i j left brought known begun target found judged settled =>
    have amount : p.amount.IsAmount := by
      subst begun
      exact isAmount_of_toAmount brought
    rw [World.intents_logging, World.wallets_logging]
    cases (ledgers.sound_of_findIn found).settled amount settled with
    | bypass =>
      exact .inl ⟨Intent.not_closes_of_replaceIn unique found rfl fun closes => closes.ne rfl,
        fun _ => rfl⟩
    | approved bypass approved spent =>
      exact .inl ⟨Intent.not_closes_of_replaceIn unique found spent.later.id spent.not_closes,
        fun _ => rfl⟩
    | rejected =>
      exact .inl ⟨Intent.not_closes_of_replaceIn unique found rfl i.not_closes_recordViolation,
        fun _ => rfl⟩
    | lapsed bypass approved closed expired released =>
      exact .inr ⟨i, _, j, .of_closed found closed rfl rfl released (World.wallets_logging _ _)
        (World.intents_logging _ _)⟩

/-- What a step makes of the funds of the intents that it closes: it closes one at most, and unlocks
what remains of that; else it unlocks nothing by itself. -/
structure World.Releases (w : World .memory) (c : Command) (next : World .memory) : Prop where
  closing : ∀ i ∈ w.intents, ∀ j ∈ next.intents, i.Closes j → ∃ rest : Decimal,
    0 < rest.toRat ∧ j.used.toRat + rest.toRat = j.limit.toRat ∧
    ((Service.releaseFunds i.user (.decimal rest)).runFrom w).1 = .ok () ∧
    next.wallets = ((Service.releaseFunds i.user (.decimal rest)).runFrom w).2.wallets
  single : ∀ i ∈ w.intents, ∀ j ∈ next.intents, ∀ k ∈ w.intents, ∀ l ∈ next.intents,
    i.Closes j → k.Closes l → k = i
  otherwise : (∀ i ∈ w.intents, ∀ j ∈ next.intents, ¬i.Closes j) → c.fundsDirectly = false →
    next.wallets = w.wallets

theorem World.Releases.same {after : World .memory} (releases : w.Releases c next)
    (same : next.SameBooks after) : w.Releases c after := by
  obtain ⟨closing, single, otherwise⟩ := releases
  refine ⟨?_, ?_, ?_⟩
  · rwa [same.intents, same.wallets]
  · rwa [same.intents]
  · rwa [same.intents, same.wallets]

theorem Turn.releases (turn : Turn config now w c reply next) (regular : c.Regular)
    (ledgers : Intent.Ledgers w.intents) : w.Releases c next := by
  rcases turn.closing_cases regular ledgers with
    ⟨stays, kept⟩ | ⟨i, rest, j, mem, closes, amount, positive, total, released, replaced⟩
  · refine ⟨fun i mem j later closes => ?_, fun i mem j later _ _ _ _ closes _ => ?_, fun _ => kept⟩
    · exact absurd closes (stays i mem j later)
    · exact absurd closes (stays i mem j later)
  have found := Intent.findIn_of_mem ledgers.unique mem
  have made : j ∈ next.intents := replaced ▸ Intent.mem_replaceIn_self found
  have only {k l : Intent} (known : k ∈ w.intents) (later : l ∈ next.intents)
      (closed : k.Closes l) : k = i ∧ l = j :=
    Intent.eq_of_closes_replaceIn ledgers.unique found closes.same known (replaced ▸ later) closed
  refine ⟨fun k known l later closed => ?_, fun k known l later m met n last closed closed' => ?_,
    fun stays => absurd closes (stays i mem j made)⟩
  · obtain ⟨rfl, rfl⟩ := only known later closed
    have sound := (ledgers.turn regular turn).sound l later
    have ran := Service.runFrom_releaseFunds w k.user (.decimal rest)
    rw [released] at ran
    refine ⟨rest, amount.toRat_pos positive, ?_, by rw [ran], by rw [ran]; rfl⟩
    rw [sound.used.toRat_eq, amount.toRat_eq, sound.limit.toRat_eq, ← add_div]
    exact_mod_cast congrArg (fun x : ℤ => (x : ℚ) / 100) total
  · exact (only met last closed').1.trans (only known later closed).1.symm

/-- After a payment that is no emergency, the intent it is addressed to is not overdue. -/
theorem Turn.not_overdue {request : PaymentRequest} {result : PaymentResult}
    (turn : Turn config now w (.pay request) (.ok (.payment result)) next)
    (ledgers : Intent.Ledgers w.intents) (calm : request.emergency = false) {j : Intent}
    (mem : j ∈ next.intents)
    (addressed : request.intentId = some j.id ∨ result.record.intentId = some j.id) :
    ¬(j.status = .active ∧ j.expiresAt.instant < request.requestedAt.instant) := by
  rintro ⟨active, overdue⟩
  cases turn with
  | aside aside => cases aside
  | payNowhere brought known begun target judged =>
    subst begun
    rcases addressed with named | recorded
    · have unnamed := Payment.named_of_target_none target
      rw [show request.intentId = none from unnamed] at named
      cases named
    · cases recorded
  | @pay _ number d m p v id i k left brought known begun target found judged settled =>
    subst begun
    have amount := isAmount_of_toAmount brought
    have sound := ledgers.sound_of_findIn found
    have settled := sound.settled amount settled
    have goal : j.id = id := by
      obtain ⟨_, -, -, -, named⟩ := Payment.exists_of_target target
      rcases addressed with given | recorded
      · exact named j.id given
      · exact (by simpa using recorded.symm)
    rw [World.intents_logging] at mem
    rcases Intent.mem_replaceIn mem with rfl | ⟨-, other⟩
    · have bypass := (Verdict.bypass_eq amount judged).trans calm
      cases settled with
      | bypass bypassed => simp [bypass] at bypassed
      | approved _ approved spent =>
        have allows := Intent.Allows.of_validate sound amount judged bypass approved
        have within := (Time.after_eq_false_iff.mp allows.unexpired).2
        rw [spent.later.expiresAt] at overdue
        exact absurd overdue (not_lt.mpr within)
      | rejected _ _ stays =>
        have within := (Time.after_eq_false_iff.mp (stays active)).2
        exact absurd overdue (not_lt.mpr within)
      | lapsed _ _ closed expired =>
        rw [active] at expired
        cases expired
    · exact other goal

/-- The step of a run behind a part of it closes the intent of an id. -/
def World.ClosesAt (start : World .memory) (config : Config) (run first : List (Time × Command))
    (id : String) : Prop :=
  ∃ now c rest, run = first ++ (now, c) :: rest ∧ ∃ i ∈ (start.after config first).intents,
    ∃ j ∈ ((start.after config first).step config now c).2.intents, i.id = id ∧ i.Closes j

/-- Once an intent is closed no later step closes it again. -/
theorem World.ClosesAt.not_later {start : World .memory} (ledgers : Intent.Ledgers start.intents)
    (regular : ∀ entry ∈ run, entry.2.Regular) {first second : List (Time × Command)} {id : String}
    (closes : start.ClosesAt config run first id) (closes' : start.ClosesAt config run second id) :
    ¬first.length < second.length := by
  obtain ⟨now, c, rest, rfl, i, mem, j, after_mem, at_, closes⟩ := closes
  obtain ⟨now', c', rest', split, i', mem', j', -, at_', closes'⟩ := closes'
  intro less
  -- the later state has the intent as the first step left it, which the second step cannot close
  rcases List.append_eq_append_iff.mp split with ⟨between, rfl, joined⟩ | ⟨beyond, rfl, -⟩
  · cases between with
    | nil => simp at less
    | cons entry more =>
      obtain rfl : (now, c) = entry := by simpa using List.head_eq_of_cons_eq joined
      have parts : first ++ (now, c) :: rest =
          (first ++ [(now, c)]) ++ more ++ (now', c') :: rest' := by
        simpa using split
      rw [parts] at regular
      have before : ∀ entry ∈ first ++ [(now, c)], entry.2.Regular := fun entry mem =>
        regular entry (List.mem_append_left _ (List.mem_append_left _ mem))
      have during : ∀ entry ∈ more, entry.2.Regular := fun entry mem =>
        regular entry (List.mem_append_left _ (List.mem_append_right _ mem))
      have kept := ledgers.after config before
      rw [after_append, after_cons, after_nil] at kept
      obtain ⟨k, later, precedes⟩ := kept.exists_later_after config during after_mem
      have unique := (kept.after config during).unique
      rw [after_append, after_cons] at mem'
      have ids : i'.id = k.id := by rw [at_', ← at_, precedes.id, closes.same]
      obtain rfl := Intent.eq_of_id unique later mem' ids
      have inactive : j.status ≠ .active := by
        intro active
        simpa [active] using closes.closed
      exact inactive ((precedes.closed inactive).1.symm.trans closes'.active)
  · simp at less

/-- In every state of every run from an empty store: what was used of an intent and what remains
make its limit, and it is exhausted when nothing remains; it is there in every later state, with
nothing that it counts taken back and, once it is not active, with the same status and ledger; what
remains of it is unlocked by the step that cancels it or lets it expire, by no other, and there is
one such step at most; and no payment but an emergency leaves it active past its time. -/
theorem World.intents_live {start : World .memory} (empty : start.store = {})
    (regular : ∀ entry ∈ run, entry.2.Regular) (reached : start.after config run = w) :
    (∀ i ∈ w.intents, i.Balanced ∧ ∀ more, (∀ entry ∈ more, entry.2.Regular) →
      (∃ j ∈ (start.after config (run ++ more)).intents, j.id = i.id) ∧
        ∀ j ∈ (start.after config (run ++ more)).intents, j.id = i.id → i.Precedes j) ∧
      (∀ now c, c.Regular → w.Releases c (w.step config now c).2) ∧
      (∀ first second id, start.ClosesAt config run first id →
        start.ClosesAt config run second id → first = second) ∧
      ∀ now request result, request.emergency = false →
        (w.step config now (.pay request)).1 = .ok (.payment result) →
        ∀ j ∈ (w.step config now (.pay request)).2.intents,
          request.intentId = some j.id ∨ result.record.intentId = some j.id →
          ¬(j.status = .active ∧ j.expiresAt.instant < request.requestedAt.instant) := by
  have begun : Intent.Ledgers start.intents := .of_empty empty
  have ledgers : Intent.Ledgers w.intents := reached ▸ begun.after config regular
  refine ⟨fun i mem => ⟨(ledgers.sound i mem).balanced, fun more allowed => ?_⟩,
    fun now c allowed => ?_, fun first second id closes closes' => ?_,
    fun now request result calm done j mem addressed => ?_⟩
  · obtain ⟨j, later, precedes⟩ := ledgers.exists_later_after config allowed mem
    rw [after_append, reached]
    refine ⟨⟨j, later, precedes.id⟩, fun k known same => ?_⟩
    have unique := (ledgers.after config allowed).unique
    rwa [Intent.eq_of_id unique later known (same.trans precedes.id.symm)]
  · obtain ⟨next, turn, same⟩ := Service.step_turn config now w c
    exact (turn.releases allowed ledgers).same same
  · have earlier := closes.not_later begun regular closes'
    have later := closes'.not_later begun regular closes
    obtain ⟨now, c, rest, split, -⟩ := closes
    obtain ⟨now', c', rest', split', -⟩ := closes'
    exact (List.append_inj (split.symm.trans split') (by omega)).1
  · obtain ⟨next, turn, same⟩ := Service.step_turn config now w (.pay request)
    rw [done] at turn
    exact turn.not_overdue ledgers calm (same.intents ▸ mem) addressed

theorem World.intents_live_cancelled :
    ∃ i ∈ (Sample.start.after Sample.config Sample.cancelled).intents,
      i.Balanced ∧ i.status = .cancelled ∧ i.used = .ofCents 2550 := by
  have ledger : ∃ i ∈ (Sample.start.after Sample.config Sample.cancelled).intents,
      i.status = .cancelled ∧ i.used = .ofCents 2550 := by decide +kernel
  have regular : ∀ entry ∈ Sample.cancelled, entry.2.Regular := by
    simp [Sample.cancelled, Sample.payments, Command.Regular, Sample.policy_isBuilt]
  have empty : Sample.start.store = {} := rfl
  obtain ⟨i, mem, figures⟩ := ledger
  exact ⟨i, mem, ((World.intents_live empty regular rfl).1 i mem).1, figures⟩

end Earmark
