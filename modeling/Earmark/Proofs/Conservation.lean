import Earmark.Proofs.Wallets

/-!
Conservation of funds. What is locked of a wallet is, in every state, what was used of its owner's
intents with what remains of the active ones, and no more than the balance. An intent that is closed
therefore always finds what it leaves locked.
-/

namespace Earmark

/-- Whether a command locks or unlocks funds by itself, for no intent. -/
def Command.locksDirectly : Command → Bool
  | .lockFunds .. | .releaseFunds .. => true
  | _ => false

variable {config : Config} {now : Time} {w next : World .memory} {c : Command}
  {reply : Except Failure Reply}

/-- A payment that is settled keeps the wallets in step with the intents. -/
theorem Wallet.Covers.settled {wallets left : List Wallet} {intents : List Intent} {id : String}
    {i j : Intent} {p : Payment} {v : Verdict} (covers : Covers wallets intents)
    (ledgers : Intent.Ledgers intents) (found : Intent.findIn intents id = some i)
    (settled : Settled p wallets i v left j) : Covers left (Intent.replaceIn intents id j) := by
  cases settled with
  | bypass => exact covers.replaced ledgers.unique found rfl rfl
  | approved bypass approved spent =>
    exact covers.replaced ledgers.unique found spent.later.user spent.heldCents_eq
  | rejected => exact covers.replaced ledgers.unique found rfl rfl
  | lapsed bypass approved closed expired released =>
    exact covers.closed ledgers found closed rfl rfl released

/-- Every turn but a lock or an unlock for no intent keeps the wallets in step with the intents. -/
theorem Wallet.Covers.turn (regular : c.Regular) (served : c.locksDirectly = false)
    (turn : Turn config now w c reply next) (ledgers : Intent.Ledgers w.intents)
    (covers : Covers w.wallets w.intents) : Covers next.wallets next.intents := by
  cases turn with
  | failed => exact covers
  | aside => exact covers
  | openWallet fresh brought => exact covers.opened fresh (isAmount_of_toAmount brought)
  | lockFunds => cases served
  | releaseFunds => cases served
  | createIntent opened fresh lockable added =>
    have new := Intent.Sound.of_opened regular opened
    obtain ⟨expiresAt, -, rfl⟩ := Intent.opened_iff.mp opened
    obtain ⟨locked, added', covers'⟩ := covers.exists_locked ledgers.sound new rfl lockable
    rw [added', Except.ok.injEq] at added
    exact added ▸ covers'
  | createUnlocked opened fresh lockable refused =>
    have new := Intent.Sound.of_opened regular opened
    obtain ⟨expiresAt, -, rfl⟩ := Intent.opened_iff.mp opened
    obtain ⟨locked, added, -⟩ := covers.exists_locked ledgers.sound new rfl lockable
    rw [added] at refused
    cases refused
  | addIntent => exact regular.elim
  | useIntent found spent =>
    obtain ⟨d, -, spent⟩ := (ledgers.sound_of_findIn found).spent spent
    exact covers.replaced ledgers.unique found spent.later.user spent.heldCents_eq
  | violateIntent found => exact covers.replaced ledgers.unique found rfl rfl
  | cancelIntent found cancelled released =>
    obtain ⟨closed, -⟩ := (ledgers.sound_of_findIn found).closed_of_cancel cancelled
    rw [Wallet.releasedRest_of_pos _ _ closed.amount closed.positive] at released
    exact covers.closed ledgers found closed rfl rfl released
  | payNowhere =>
    rw [World.wallets_logging, World.intents_logging]
    exact covers
  | pay brought known begun target found judged settled =>
    have amount : Decimal.IsAmount _ := isAmount_of_toAmount brought
    subst begun
    rw [World.wallets_logging, World.intents_logging]
    exact covers.settled ledgers found ((ledgers.sound_of_findIn found).settled amount settled)

/-! ### What was committed -/

/-- The amounts that a command, answered so, spent of a user's intents. -/
def Command.committed (user : String) : Command → Except Failure Reply → List Decimal
  | .useIntent _ amount, .ok (.intent i) =>
    if i.user = user then amount.toAmount.toOption.toList else []
  | .pay _, .ok (.payment result) =>
    if result.record.approved && !result.record.bypass && result.intent.any (·.user == user) then
      [result.record.amount]
    else []
  | _, _ => []

/-- The amounts that a run spends of a user's intents. -/
def World.committed {b : Backend} (config : Config) (user : String) (w : World b) :
    List (Time × Command) → List Decimal
  | [] => []
  | (now, c) :: rest =>
    let (reply, next) := w.step config now c
    c.committed user reply ++ next.committed config user rest

theorem Command.committed_error (c : Command) (user : String) (failure : Failure) :
    c.committed user (.error failure) = [] := by
  cases c <;> rfl

theorem Command.committed_aside {c : Command} (aside : c.touchesFunds = false) (user : String)
    (reply : Except Failure Reply) : c.committed user reply = [] := by
  cases c <;> first | rfl | cases aside

/-- What is used of a user's intents grows by amounts. -/
structure Intent.Spends (intents after : List Intent) (user : String) (amounts : List Decimal) :
    Prop where
  whole : ∀ d ∈ amounts, d.IsAmount
  used : sumBy Intent.user after user (·.used.cents) =
    sumBy Intent.user intents user (·.used.cents) + (amounts.map Decimal.cents).sum

namespace Intent.Spends

variable {intents : List Intent} {user id : String} {i j : Intent}

theorem same : Spends intents intents user [] := ⟨by simp, by simp⟩

theorem trans {after last : List Intent} {amounts more : List Decimal}
    (spends : Spends intents after user amounts) (spends' : Spends after last user more) :
    Spends intents last user (amounts ++ more) := by
  refine ⟨fun d mem => ?_, ?_⟩
  · rcases List.mem_append.mp mem with mem | mem
    · exact spends.whole d mem
    · exact spends'.whole d mem
  · rw [spends'.used, spends.used, List.map_append, List.sum_append, add_assoc]

theorem opened {text : String} {policy : Policy} {now : Time} {owner : String}
    (opened : Intent.opened id owner text policy now = .ok i) :
    Spends intents (intents ++ [i]) user [] := by
  obtain ⟨expiresAt, -, rfl⟩ := Intent.opened_iff.mp opened
  exact ⟨by simp, by simp [sumBy_append]⟩

theorem kept (unique : (intents.map Intent.id).Nodup) (found : findIn intents id = some i)
    (owner : j.user = i.user) (used : j.used = i.used) :
    Spends intents (replaceIn intents id j) user [] := by
  refine ⟨by simp, ?_⟩
  rw [sumBy_replaceIn unique found owner]
  simp [used]

theorem spent (unique : (intents.map Intent.id).Nodup) (found : findIn intents id = some i)
    {d : Decimal} (spent : i.Spent d j) (amount : d.IsAmount) :
    Spends intents (replaceIn intents id j) user (if i.user = user then [d] else []) := by
  have step : sumBy Intent.user (replaceIn intents id j) user (·.used.cents) =
      sumBy Intent.user intents user (·.used.cents) +
        if i.user = user then j.used.cents - i.used.cents else 0 :=
    sumBy_replaceIn unique found spent.later.user
  rw [spent.used] at step
  by_cases own : i.user = user
  · simp only [own, ↓reduceIte] at step ⊢
    exact ⟨by simpa using amount, by simpa using step⟩
  · simp only [own, ↓reduceIte] at step ⊢
    exact ⟨by simp, by simpa using step⟩

end Intent.Spends

/-- A turn adds to what is used of a user's intents the amounts that it commits. -/
theorem Turn.spends (turn : Turn config now w c reply next) (regular : c.Regular)
    (ledgers : Intent.Ledgers w.intents) (user : String) :
    Intent.Spends w.intents next.intents user (c.committed user reply) := by
  cases turn with
  | failed =>
    rw [Command.committed_error]
    exact .same
  | aside aside =>
    rw [Command.committed_aside aside]
    exact .same
  | openWallet => exact .same
  | lockFunds => exact .same
  | releaseFunds => exact .same
  | createIntent opened => exact .opened opened
  | createUnlocked opened => exact .opened opened
  | addIntent => exact regular.elim
  | @useIntent id amount i j found spent =>
    obtain ⟨d, brought, spent⟩ := (ledgers.sound_of_findIn found).spent spent
    have used : Command.committed user (.useIntent id amount) (.ok (.intent j)) =
        if i.user = user then [d] else [] := by
      simp [Command.committed, spent.later.user, brought, Except.toOption]
    rw [used]
    exact .spent ledgers.unique found spent (isAmount_of_toAmount brought)
  | violateIntent found => exact .kept ledgers.unique found rfl rfl
  | cancelIntent found cancelled =>
    obtain ⟨closed, -⟩ := (ledgers.sound_of_findIn found).closed_of_cancel cancelled
    exact .kept ledgers.unique found closed.later.user closed.used
  | payNowhere =>
    rw [World.intents_logging]
    simpa [Command.committed] using Intent.Spends.same
  | @pay request number d m p v id i j left brought known begun target found judged settled =>
    have amount : Decimal.IsAmount p.amount := by
      subst begun
      exact isAmount_of_toAmount brought
    rw [World.intents_logging]
    cases (ledgers.sound_of_findIn found).settled amount settled with
    | bypass bypass =>
      simpa [Command.committed, bypass] using Intent.Spends.kept ledgers.unique found rfl rfl
    | approved bypass approved spent =>
      have paid : Command.committed user (.pay request)
          (.ok (.payment { record := p.record now (some id) v, verdict := v, intent := some j })) =
          if i.user = user then [p.amount] else [] := by
        simp [Command.committed, bypass, approved, spent.later.user]
      rw [paid]
      exact .spent ledgers.unique found spent amount
    | rejected bypass approved =>
      have blamed : Intent.Spends w.intents
          (Intent.replaceIn w.intents id i.recordViolation) user [] :=
        .kept ledgers.unique found rfl rfl
      simpa [Command.committed, approved] using blamed
    | lapsed bypass approved closed =>
      simpa [Command.committed, approved] using
        Intent.Spends.kept ledgers.unique found closed.later.user closed.used

variable {run : List (Time × Command)}

theorem World.spends_after (config : Config) (regular : ∀ entry ∈ run, entry.2.Regular)
    (ledgers : Intent.Ledgers w.intents) (user : String) :
    Intent.Spends w.intents (w.after config run).intents user (w.committed config user run) := by
  induction run generalizing w with
  | nil => exact .same
  | cons entry rest ih =>
    obtain ⟨now, c⟩ := entry
    have allowed : c.Regular := regular (now, c) (by simp)
    obtain ⟨next, turn, same⟩ := Service.step_turn config now w c
    have step := turn.spends allowed ledgers user
    have ledgers' := ledgers.turn allowed turn
    rw [← same.intents] at step ledgers'
    exact step.trans (ih (fun other mem => regular other (by simp [mem])) ledgers')

/-! ### Funds through runs -/

theorem Wallet.Covers.after
    (allowed : ∀ entry ∈ run, entry.2.Regular ∧ entry.2.locksDirectly = false)
    (ledgers : Intent.Ledgers w.intents) (covers : Covers w.wallets w.intents) :
    Covers (w.after config run).wallets (w.after config run).intents := by
  refine (World.after_keeps (fun c => c.Regular ∧ c.locksDirectly = false)
    (fun w => Intent.Ledgers w.intents ∧ Covers w.wallets w.intents) ?_ ?_
    ⟨ledgers, covers⟩ allowed).2
  · rintro w after same ⟨ledgers, covers⟩
    exact ⟨same.intents ▸ ledgers, same.wallets ▸ same.intents ▸ covers⟩
  · rintro now w next c reply ⟨regular, served⟩ turn ⟨ledgers, covers⟩
    exact ⟨ledgers.turn regular turn, covers.turn regular served turn ledgers⟩

/-- A turn leaves the wallets, changes one lock, or opens a wallet. -/
theorem Turn.wallets_cases (turn : Turn config now w c reply next) :
    next.wallets = w.wallets ∨
      (∃ user locked, next.wallets = Wallet.relock w.wallets user locked) ∨
      ∃ user amount d, c = .openWallet user amount ∧ amount.toAmount = .ok d ∧
        next.wallets = w.wallets ++ [{ user, balance := d }] := by
  have rests {i : Intent} {rest : Decimal} {left : List Wallet}
      (released : Wallet.releasedRest w.wallets i rest = .ok left) :
      left = w.wallets ∨ (∃ user locked, left = Wallet.relock w.wallets user locked) := by
    rcases Wallet.releasedRest_ok released with same | ⟨locked, relocked⟩
    · exact .inl same
    · exact .inr ⟨i.user, locked, relocked⟩
  cases turn with
  | failed => exact .inl rfl
  | aside => exact .inl rfl
  | openWallet fresh brought => exact .inr (.inr ⟨_, _, _, rfl, brought, rfl⟩)
  | lockFunds => exact .inr (.inl ⟨_, _, rfl⟩)
  | releaseFunds released =>
    obtain ⟨locked, relocked⟩ := Wallet.released_ok released
    exact .inr (.inl ⟨_, locked, relocked⟩)
  | createIntent => exact .inr (.inl ⟨_, _, rfl⟩)
  | createUnlocked => exact .inl rfl
  | addIntent => exact .inl rfl
  | useIntent => exact .inl rfl
  | violateIntent => exact .inl rfl
  | cancelIntent found cancelled released => exact (rests released).imp_right .inl
  | payNowhere => exact .inl (World.wallets_logging _ _)
  | pay brought known begun target found judged settled =>
    rw [World.wallets_logging]
    cases settled with
    | bypass => exact .inl rfl
    | approved => exact .inl rfl
    | rejected bypass approved expired released => exact (rests released).imp_right .inl

/-- Every wallet keeps its balance through every run. -/
theorem World.exists_wallet_after {wallet : Wallet} (mem : wallet ∈ w.wallets) :
    ∃ later ∈ (w.after config run).wallets,
      later.user = wallet.user ∧ later.balance = wallet.balance := by
  refine after_keeps (fun _ => True) (fun w => ∃ later ∈ w.wallets,
    later.user = wallet.user ∧ later.balance = wallet.balance) ?_ ?_ ⟨wallet, mem, rfl, rfl⟩
    (fun _ _ => trivial)
  · exact fun same kept => same.wallets ▸ kept
  · rintro now w next c reply - turn ⟨later, mem, user, balance⟩
    rcases turn.wallets_cases with same | ⟨user', locked, same⟩ | ⟨_, _, _, -, -, same⟩
    · exact ⟨later, same ▸ mem, user, balance⟩
    · obtain ⟨last, mem, lastUser, lastBalance⟩ := Wallet.exists_mem_relock user' locked mem
      exact ⟨last, same ▸ mem, lastUser.trans user, lastBalance.trans balance⟩
    · exact ⟨later, by simp [same, mem], user, balance⟩

/-- In an empty store every wallet comes from a command of the run that opens it. -/
theorem World.wallet_opened (empty : w.store = {}) :
    ∀ wallet ∈ (w.after config run).wallets, ∃ now amount,
      (now, .openWallet wallet.user amount) ∈ run ∧ amount.toAmount = .ok wallet.balance := by
  refine after_keeps (fun c => ∃ now, (now, c) ∈ run)
    (fun w => ∀ wallet ∈ w.wallets, ∃ now amount,
      (now, .openWallet wallet.user amount) ∈ run ∧ amount.toAmount = .ok wallet.balance) ?_ ?_
    (fun wallet mem => absurd (wallets_of_empty empty ▸ mem) List.not_mem_nil)
    (fun entry mem => ⟨entry.1, mem⟩)
  · exact fun same kept => same.wallets ▸ kept
  · rintro now w next c reply ⟨at_, given⟩ turn kept wallet mem
    rcases turn.wallets_cases with
      same | ⟨user', locked, same⟩ | ⟨user, amount, d, rfl, brought, same⟩
    · exact kept wallet (same ▸ mem)
    · rcases Wallet.mem_relock (same ▸ mem) with ⟨known, -⟩ | ⟨old, known, -, rfl⟩
      · exact kept wallet known
      · exact kept old known
    · rcases List.mem_append.mp (same ▸ mem) with known | new
      · exact kept wallet known
      · obtain rfl := List.mem_singleton.mp new
        exact ⟨at_, amount, given, brought⟩

/-! ### In the amounts themselves -/

namespace Intent

/-- What active intents have left adds up to what their limits have beyond what was used. -/
theorem exists_rests (intents : List Intent) (sound : ∀ i ∈ intents, i.Sound) :
    ∃ rests, intents.mapM remaining = .ok rests ∧ (∀ d ∈ rests, d.IsAmount) ∧
      (rests.map Decimal.cents).sum = (intents.map fun i => i.limit.cents - i.used.cents).sum := by
  induction intents with
  | nil => exact ⟨[], rfl, by simp, rfl⟩
  | cons i rest ih =>
    obtain ⟨left, remaining, whole, value⟩ := (sound i (by simp)).exists_remaining
    obtain ⟨rests, mapped, amounts, total⟩ := ih fun other mem => sound other (by simp [mem])
    refine ⟨left :: rests, ?_, ?_, ?_⟩
    · simp only [List.mapM_cons, remaining, mapped, ok_bind]
      rfl
    · simpa using ⟨whole, amounts⟩
    · simp [total, value]

/-- What a user's intents hold is what was used of them and what remains of the active ones. -/
theorem sumBy_heldCents (intents : List Intent) (user : String) :
    sumBy Intent.user intents user heldCents = sumBy Intent.user intents user (·.used.cents) +
      ((intents.filter fun i => i.user == user && i.isActive).map
        fun i => i.limit.cents - i.used.cents).sum := by
  unfold sumBy
  induction intents with
  | nil => rfl
  | cons i rest ih =>
    by_cases own : i.user = user
    · by_cases active : i.status = .active
      · simp [own, active, isActive, heldCents] at ih ⊢
        omega
      · simp [own, active, isActive, heldCents] at ih ⊢
        omega
    · simpa [own] using ih

theorem sumBy_used_le {intents : List Intent} (sound : ∀ i ∈ intents, i.Sound) (user : String) :
    sumBy Intent.user intents user (·.used.cents) ≤ sumBy Intent.user intents user heldCents := by
  have left : 0 ≤ ((intents.filter fun i => i.user == user && i.isActive).map
      fun i => i.limit.cents - i.used.cents).sum := by
    refine List.sum_nonneg fun x mem => ?_
    obtain ⟨i, known, rfl⟩ := List.mem_map.mp mem
    exact sub_nonneg.mpr (sound i (List.mem_filter.mp known).1).used_le
  rw [sumBy_heldCents]
  omega

end Intent

/-- A wallet has locked, to the cent, what was used of its owner's intents and what remains of the
active ones, and no more than its balance. -/
structure World.Conserves (w : World .memory) (wallet : Wallet) : Prop where
  exact : ∃ rests,
    (w.intents.filter fun i => i.user == wallet.user && i.isActive).mapM Intent.remaining =
      .ok rests ∧
    wallet.locked.toRat =
      ((w.intents.filter (·.user == wallet.user)).map (·.used.toRat)).sum +
        (rests.map Decimal.toRat).sum
  cents : wallet.locked.IsAmount
  nonneg : 0 ≤ wallet.locked.toRat
  covered : wallet.locked.toRat ≤ max wallet.balance.toRat 0

/-- What an intent leaves when it is cancelled or expires is unlocked without failure. -/
def World.Unlocks (w : World .memory) : Prop :=
  ∀ i ∈ w.intents, ∀ rest j,
    (i.cancel = .ok (rest, j) ∨ ∃ now, i.recordViolation.expire now = .ok (rest, j)) →
    ∀ after, w.SameBooks after → ((Service.releaseRest i rest).runFrom after).1 = .ok ()

theorem Wallet.Covers.conserves (ledgers : Intent.Ledgers w.intents)
    (covers : Covers w.wallets w.intents) {wallet : Wallet} (mem : wallet ∈ w.wallets) :
    w.Conserves wallet := by
  have locked := (covers.amounts wallet mem).2
  have value := covers.held wallet mem
  obtain ⟨rests, mapped, amounts, total⟩ := Intent.exists_rests
    (w.intents.filter fun i => i.user == wallet.user && i.isActive)
    fun i mem => ledgers.sound i (List.mem_filter.mp mem).1
  refine ⟨⟨rests, mapped, ?_⟩, locked, ?_, ?_⟩
  · have used : ∀ d ∈ (w.intents.filter (·.user == wallet.user)).map Intent.used, d.IsAmount := by
      intro d mem
      obtain ⟨i, known, rfl⟩ := List.mem_map.mp mem
      exact (ledgers.sound i (List.mem_filter.mp known).1).used
    have sum_used := Decimal.sum_toRat used
    rw [List.map_map, List.map_map] at sum_used
    rw [Intent.sumBy_heldCents, Intent.sumBy_eq_filter, ← total] at value
    rw [locked.toRat_eq, Decimal.sum_toRat amounts, value, Int.cast_add, add_div]
    exact congrArg (· + _) sum_used.symm
  · rw [locked.toRat_eq]
    have nonneg := covers.nonneg ledgers.sound mem
    positivity
  · rw [locked.toRat_eq]
    exact (covers.amounts wallet mem).1.le_max_zero (covers.covered wallet mem)

theorem Wallet.Covers.unlocks (ledgers : Intent.Ledgers w.intents)
    (covers : Covers w.wallets w.intents) : w.Unlocks := by
  intro i mem rest j leaves after same
  have sound := ledgers.sound i mem
  obtain ⟨before, held, closed | rfl⟩ : ∃ before : Intent, before.heldCents = i.heldCents ∧
      (before.Closed rest j ∨ rest = .zero) := by
    rcases leaves with cancelled | ⟨now, expired⟩
    · exact ⟨i, rfl, .inl (sound.closed_of_cancel cancelled).1⟩
    · rcases sound.recordViolation.stays_or_closed_of_expire expired with
        ⟨zero, -⟩ | ⟨closed, -⟩
      · exact ⟨i.recordViolation, rfl, .inr zero⟩
      · exact ⟨i.recordViolation, rfl, .inl closed⟩
  · have positive := closed.positive
    have kept := closed.heldCents_eq
    have nonneg := closed.sound.heldCents_nonneg
    obtain ⟨wallet, left, -, released, -⟩ :=
      covers.exists_released ledgers.sound mem closed.amount positive.le (by omega)
    rw [Service.runFrom_releaseRest, same.wallets,
      Wallet.releasedRest_of_pos _ _ closed.amount positive, released]
  · rw [Service.runFrom_releaseRest, Wallet.releasedRest_zero]

/-- In every state of every run from an empty store that locks funds for intents alone: each wallet
has locked, to the cent, what was used of its owner's intents and what remains of the active ones,
at most its balance, which is what it was opened with and stays; what was ever spent of its owner's
intents is at most that balance too; and unlocking what a closed intent leaves never fails. -/
theorem World.funds_conserved {start : World .memory} (empty : start.store = {})
    (allowed : ∀ entry ∈ run, entry.2.Regular ∧ entry.2.locksDirectly = false)
    (reached : start.after config run = w) :
    (w.wallets.map Wallet.user).Nodup ∧
      (∀ wallet ∈ w.wallets,
        w.Conserves wallet ∧
        ((start.committed config wallet.user run).map Decimal.toRat).sum ≤
          max wallet.balance.toRat 0 ∧
        (∃ now amount, (now, .openWallet wallet.user amount) ∈ run ∧
          amount.toAmount = .ok wallet.balance) ∧
        ∀ more, ∃ later ∈ (start.after config (run ++ more)).wallets,
          later.user = wallet.user ∧ later.balance = wallet.balance) ∧
      w.Unlocks := by
  have regular : ∀ entry ∈ run, entry.2.Regular := fun entry mem => (allowed entry mem).1
  have begun : Intent.Ledgers start.intents := .of_empty empty
  have covered : Wallet.Covers start.wallets start.intents := by
    rw [intents_of_empty empty, wallets_of_empty empty]
    exact ⟨by simp, by simp, by simp, by simp, by simp⟩
  have ledgers : Intent.Ledgers w.intents := reached ▸ begun.after config regular
  have covers : Wallet.Covers w.wallets w.intents := reached ▸ covered.after allowed begun
  refine ⟨covers.unique, fun wallet mem => ⟨covers.conserves ledgers mem, ?_, ?_, fun more => ?_⟩,
    covers.unlocks ledgers⟩
  · obtain ⟨amounts, used⟩ := spends_after config regular begun wallet.user
    have unused : Intent.sumBy Intent.user start.intents wallet.user (·.used.cents) = 0 := by
      rw [intents_of_empty empty]
      rfl
    have value := covers.held wallet mem
    have bound := covers.covered wallet mem
    have held := Intent.sumBy_used_le ledgers.sound wallet.user
    rw [reached] at used
    rw [Decimal.sum_toRat amounts]
    exact (covers.amounts wallet mem).1.le_max_zero (by omega)
  · exact wallet_opened empty wallet (reached ▸ mem)
  · rw [after_append, reached]
    exact exists_wallet_after mem

theorem World.funds_conserved_cancelled :
    ∃ wallet ∈ (Sample.start.after Sample.config Sample.cancelled).wallets,
      (Sample.start.after Sample.config Sample.cancelled).Conserves wallet ∧
      wallet.locked = .ofCents 2550 := by
  have wallets : (Sample.start.after Sample.config Sample.cancelled).wallets =
      [{ user := "reader", balance := .ofCents 10000, locked := .ofCents 2550 }] := by
    decide +kernel
  have allowed : ∀ entry ∈ Sample.cancelled,
      entry.2.Regular ∧ entry.2.locksDirectly = false := by
    simp [Sample.cancelled, Sample.payments, Command.Regular, Command.locksDirectly,
      Sample.policy_isBuilt]
  have mem : _ ∈ (Sample.start.after Sample.config Sample.cancelled).wallets :=
    wallets ▸ List.mem_singleton_self _
  exact ⟨_, mem, ((World.funds_conserved rfl allowed rfl).2.1 _ mem).1, rfl⟩

end Earmark
