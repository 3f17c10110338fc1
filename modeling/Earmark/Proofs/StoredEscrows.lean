import Earmark.Proofs.Atomicity
import Earmark.Proofs.Documents

/-!
The escrows that a service keeps. Operations on wallets and intents leave everything but the books
alone (`World.background`), and those that write events leave the escrows (`World.vault`); making,
releasing and clawing back keep these orderly, each with a number of its own
(`vaultOrderly_createEscrow`).
-/

namespace Earmark

/-! ### The escrows of a world -/

def Escrow.findIn (escrows : List Escrow) (id : String) : Option Escrow :=
  escrows.find? (·.id == id)

def Escrow.replaceIn (escrows : List Escrow) (id : String) (changed : Escrow) : List Escrow :=
  escrows.map fun old => if old.id == id then changed else old

theorem Escrow.mem_of_findIn {escrows : List Escrow} {id : String} {e : Escrow}
    (found : findIn escrows id = some e) : e ∈ escrows := List.mem_of_find?_eq_some found

theorem Escrow.mem_replaceIn {escrows : List Escrow} {id : String} {changed other : Escrow}
    (mem : other ∈ replaceIn escrows id changed) : other = changed ∨ other ∈ escrows := by
  obtain ⟨old, known, rfl⟩ := List.mem_map.mp mem
  split
  · exact .inl rfl
  · exact .inr known

namespace World

def escrows (w : World .memory) : List Escrow := w.store.escrows

def withEscrows (w : World .memory) (escrows : List Escrow) : World .memory :=
  { w with store := { w.store with escrows } }

/-- The escrows and the number of the last one. -/
def vault (w : World .memory) : List Escrow × Nat := (w.escrows, w.ids.escrows)

/-- The escrows, the events, the numbers given to all but intents, and which writes fail: what
neither wallets nor intents nor the log of payments nor the journal have to do with. -/
def background (w : World .memory) : List Escrow × List ReputationEvent × Ids × Outage :=
  (w.escrows, w.store.events, { w.ids with intents := 0 }, w.outage)

end World

/-- Every escrow is orderly and has one of the numbers given so far. -/
def VaultOrderly (vault : List Escrow × Nat) : Prop :=
  ∀ e ∈ vault.1, e.Orderly ∧ ∃ n ≤ vault.2, e.id = Ids.escrow n

namespace VaultOrderly

variable {escrows : List Escrow} {number later : Nat}

theorem mono (orderly : VaultOrderly (escrows, number)) (le : number ≤ later) :
    VaultOrderly (escrows, later) := by
  intro e mem
  obtain ⟨kept, n, least, id⟩ := orderly e mem
  exact ⟨kept, n, least.trans le, id⟩

theorem add (orderly : VaultOrderly (escrows, number)) {e : Escrow} (new : e.Orderly)
    (id : e.id = Ids.escrow (number + 1)) : VaultOrderly (escrows ++ [e], number + 1) := by
  intro other mem
  rcases List.mem_append.mp mem with known | new'
  · exact orderly.mono (Nat.le_succ number) other known
  · obtain rfl : other = e := by simpa using new'
    exact ⟨new, number + 1, le_rfl, id⟩

theorem replace (orderly : VaultOrderly (escrows, number)) {id : String} {e changed : Escrow}
    (found : Escrow.findIn escrows id = some e) (kept : changed.Orderly)
    (same : changed.id = e.id) : VaultOrderly (Escrow.replaceIn escrows id changed, number) := by
  intro other mem
  rcases Escrow.mem_replaceIn mem with rfl | known
  · obtain ⟨-, numbered⟩ := orderly e (Escrow.mem_of_findIn found)
    exact ⟨kept, same ▸ numbered⟩
  · exact orderly other known

/-- The next number is no escrow's. -/
theorem findIn_next (orderly : VaultOrderly (escrows, number)) :
    Escrow.findIn escrows (Ids.escrow (number + 1)) = none := by
  refine List.find?_eq_none.mpr fun e mem same => ?_
  exact Ids.next_ne (orderly e mem).2 (eq_of_beq same)

end VaultOrderly

/-! ### Building -/

namespace Milestone

theorem onlyRefuses_build (last : Nat) {specs : List MilestoneSpec}
    (decimals : ∀ spec ∈ specs, ∃ d, spec.amount = .decimal d) :
    OnlyRefuses (build last specs).2 := by
  induction specs generalizing last with
  | nil => exact onlyFails_ok []
  | cons spec rest ih =>
    obtain ⟨d, stated⟩ := decimals spec (by simp)
    have checks : OnlyRefuses spec.checkedAmount := by
      rw [MilestoneSpec.checkedAmount, stated]
      refine onlyFails_bind (onlyRefuses_toAmount d) fun amount brought => ?_
      simp only [(isAmount_of_toAmount brought).le?_zero, Failure.ofDecimal_ok, ok_bind]
      exact onlyFails_ite (onlyFails_error ⟨422, rfl, by decide⟩) (onlyFails_ok _)
    have later := ih (last + 1) fun spec mem => decimals spec (by simp [mem])
    simp only [build]
    split
    · rename_i failure failed
      exact onlyFails_error (checks failure failed)
    · rcases built : build (last + 1) rest with ⟨after, failure | milestones⟩
      · rw [built] at later
        exact onlyFails_error (later failure rfl)
      · exact onlyFails_ok _

end Milestone

namespace Escrow

variable {ids : Ids} {user title : String} {specs : List MilestoneSpec} {now : Time}
  {intentId : Option String} {days : Int} {e : Escrow}

theorem onlyRefuses_build (decimals : ∀ spec ∈ specs, ∃ d, spec.amount = .decimal d)
    (dated : (now.addDays? days).isSome) :
    OnlyRefuses (build ids user specs now intentId title days).2 := by
  obtain ⟨expiresAt, later⟩ := Option.isSome_iff_exists.mp dated
  have parts := Milestone.onlyRefuses_build ids.milestones decimals
  unfold build
  split
  · exact onlyFails_error ⟨422, rfl, by decide⟩
  · rcases built : Milestone.build ids.milestones specs with ⟨last, failure | milestones⟩
    · rw [built] at parts
      exact onlyFails_error (parts failure rfl)
    · simp only [later, Failure.require, ok_bind]
      exact onlyFails_ok _

/-- An escrow that is built has the next number, and one that is not leaves it to the next. -/
theorem build_number (ids : Ids) (user : String) (specs : List MilestoneSpec) (now : Time)
    (intentId : Option String) (title : String) (days : Int) :
    ids.escrows ≤ (build ids user specs now intentId title days).1.escrows ∧
      ∀ e, (build ids user specs now intentId title days).2 = .ok e →
        (build ids user specs now intentId title days).1.escrows = ids.escrows + 1 ∧
          e.id = Ids.escrow (ids.escrows + 1) ∧ e.user = user ∧ e.createdAt = now := by
  unfold build
  split
  · exact ⟨le_rfl, fun e built => by cases built⟩
  · rcases Milestone.build ids.milestones specs with ⟨last, failure | milestones⟩
    · exact ⟨le_rfl, fun e built => by cases built⟩
    · refine ⟨Nat.le_succ _, fun e built => ?_⟩
      obtain ⟨expiresAt, -, made⟩ := bind_ok_iff.mp built
      cases made
      exact ⟨rfl, rfl, rfl, rfl⟩

/-- Building takes numbers of escrows and of milestones alone. -/
theorem ids_build (ids : Ids) (user : String) (specs : List MilestoneSpec) (now : Time)
    (intentId : Option String) (title : String) (days : Int) :
    { (build ids user specs now intentId title days).1 with escrows := 0, milestones := 0 } =
      { ids with escrows := 0, milestones := 0 } := by
  unfold build
  split
  · rfl
  · rcases Milestone.build ids.milestones specs with ⟨last, failure | milestones⟩ <;> rfl

theorem milestones_named_of_build
    (built : (build ids user specs now intentId title days).2 = .ok e) :
    ∀ id ∈ e.milestones.map (·.id), ∃ n, id = Ids.milestone n := by
  obtain ⟨-, last, milestones, expiresAt, made, -, rfl⟩ := build_ok built
  intro id mem
  rw [(Milestone.build_ok made).2.1] at mem
  obtain ⟨n, -, named⟩ := List.mem_map.mp mem
  exact ⟨n, named.symm⟩

/-- A release goes to the owner of the escrow, and leaves it the owner's. -/
theorem owner_of_releaseIn {milestoneId : String} {proof merchantId : Option String}
    {answer : ReleaseReceipt × String} {next : Escrow}
    (done : Service.releaseIn milestoneId proof now merchantId e = .ok (answer, next)) :
    next.id = e.id ∧ next.user = e.user ∧ answer.2 = e.user := by
  have kept : next.id = e.id ∧ next.user = e.user := by
    cases Escrow.releaseIn_ok done
    exact ⟨rfl, rfl⟩
  simp only [Service.releaseIn, bind_ok_iff, Except.ok.injEq] at done
  obtain ⟨_, -, released, -, pending, -, status, -, made⟩ := done
  cases made
  exact ⟨kept.1, kept.2, rfl⟩

/-- A clawback leaves its receipt on an escrow that had none. -/
theorem claimed_of_clawBack {reason : ClawbackReason} {part : Option Numeral} {rates : Rates}
    {receipt : ClawbackReceipt} {next : Escrow}
    (done : e.clawBack reason now part rates = .ok (receipt, next)) :
    e.clawback = none ∧ receipt.reason = reason ∧ next = { e with clawback := some receipt } := by
  have unclaimed : e.clawback = none := by
    cases claimed : e.clawback with
    | none => rfl
    | some earlier =>
      obtain ⟨failure, failed⟩ :=
        run_of_clawback (by rw [claimed]; rfl) now (.clawBack reason part rates)
      simp [Call.run, done] at failed
  simp only [clawBack_eq, recover, bind_ok_iff] at done
  obtain ⟨status, -, done⟩ := done
  split at done
  · cases done
  · simp only [bind_ok_iff] at done
    obtain ⟨pending, -, amount, -, empty, -, beyond, -, done⟩ := done
    split at done
    · cases done
    · simp only [bind_ok_iff, Except.ok.injEq, Prod.mk.injEq] at done
      obtain ⟨penalty, -, net, -, savings, -, unrecovered, -, rfl, rfl⟩ := done
      exact ⟨unclaimed, rfl, rfl⟩

theorem owner_of_clawBack {reason : ClawbackReason} {part : Option Numeral} {rates : Rates}
    {receipt : ClawbackReceipt} {next : Escrow}
    (done : e.clawBack reason now part rates = .ok (receipt, next)) :
    next.id = e.id ∧ next.user = e.user := by
  obtain ⟨-, -, rfl⟩ := claimed_of_clawBack done
  exact ⟨rfl, rfl⟩

theorem orderly_of_build (aware : now.offset.isSome)
    (built : (build ids user specs now intentId title days).2 = .ok e) : e.Orderly := by
  obtain ⟨unclaimed, -, -, fresh⟩ := milestones_of_build built
  obtain ⟨-, -, -, made⟩ := (build_number ids user specs now intentId title days).2 e built
  refine ⟨made ▸ aware, fun m mem => (fresh m mem).2.1, fun r claimed => ?_⟩
  rw [unclaimed] at claimed
  cases claimed

end Escrow

namespace Service

variable {α : Type}

/-! ### Operations that leave escrows alone -/

section

variable {γ : Type} {seen : World .memory → γ}

theorem keeps_ite {condition : Prop} [Decidable condition] {op other : Service .memory α}
    (first : Keeps seen op) (second : Keeps seen other) :
    Keeps seen (if condition then op else other) := by
  split
  · exact first
  · exact second

theorem keeps_atomically {op : Service .memory α} (kept : Keeps seen op) :
    Keeps seen (atomically op) := by
  intro w
  rw [runFrom_atomically]
  exact kept w

theorem keeps_attempt {op : Service .memory α} (kept : Keeps seen op) : Keeps seen (attempt op) :=
  kept

/-- What is seen after an operation is still seen after what keeps it. -/
theorem seen_bind {β : Type} (seen : World .memory → γ) (op : Service .memory α)
    {next : α → Service .memory β} (rest : ∀ a, Keeps seen (next a)) (w : World .memory) :
    seen ((op >>= next).runFrom w).2 = seen (op.runFrom w).2 := by
  cases done : op.runFrom w with
  | mk result after =>
    cases result with
    | error failure => rw [runFrom_bind_error done]
    | ok a => rw [runFrom_bind_ok done, rest a after]

end

theorem Keeps.vault {op : Service .memory α} (kept : Keeps World.background op) :
    Keeps World.vault op :=
  fun w => congrArg (fun behind => (behind.1, behind.2.2.1.escrows)) (kept w)

theorem keepsBackground_note (entry : LogEntry) : Keeps World.background (note entry) :=
  fun _ => rfl

theorem keepsBackground_tally (t : Tally) : Keeps World.background (tally t) := fun _ => rfl

theorem keepsBackground_openWallet (user : String) (balance : Numeral) :
    Keeps World.background (openWallet user balance : Service .memory Unit) := by
  intro w
  rw [runFrom_openWallet]
  split
  · rfl
  · split <;> rfl

theorem keepsBackground_releaseFunds (user : String) (amount : Numeral) :
    Keeps World.background (releaseFunds user amount : Service .memory Unit) := by
  intro w
  rw [runFrom_releaseFunds]
  split <;> rfl

theorem keepsBackground_addIntent (i : Intent) :
    Keeps World.background (addIntent i : Service .memory Unit) := by
  intro w
  rw [runFrom_addIntent]
  split
  · rfl
  · split <;> rfl

theorem keepsBackground_releaseRest (i : Intent) (rest : Decimal) :
    Keeps World.background (releaseRest i rest : Service .memory Unit) :=
  keeps_bind (keeps_check _) fun _ =>
    keeps_ite (keepsBackground_releaseFunds _ _) (keeps_pure _)

theorem keepsBackground_lockFunds (user : String) (amount : Numeral) {op : Service .memory α}
    (kept : Keeps World.background op) : Keeps World.background (lockFunds user amount op) := by
  intro w
  have same := kept w
  rw [runFrom_lockFunds]
  split
  · rfl
  · split
    · rename_i ran
      rwa [ran] at same
    · rename_i ran
      rw [ran] at same
      split
      · exact same
      · exact same

theorem keepsBackground_updateIntent (id : String)
    {change : Intent → Service .memory (α × Intent)}
    (kept : ∀ i, Keeps World.background (change i)) :
    Keeps World.background (updateIntent id change) := by
  intro w
  rw [runFrom_updateIntent]
  split
  · rfl
  · rename_i i found
    have same := kept i w
    split
    · rename_i ran
      rwa [ran] at same
    · rename_i ran
      rwa [ran] at same

theorem keepsBackground_openIntent (user text : String) (policy : Policy) (now : Time) :
    Keeps World.background (openIntent user text policy now : Service .memory Intent) :=
  keeps_bind keeps_get fun _ => keeps_bind (keeps_modify fun _ => rfl) fun _ => keeps_check _

theorem keepsBackground_useIntent (id : String) (amount : Numeral) :
    Keeps World.background (useIntent id amount : Service .memory Intent) :=
  keepsBackground_updateIntent id fun _ => keeps_bind (keeps_check _) fun _ => keeps_pure _

theorem keepsBackground_violateIntent (id : String) :
    Keeps World.background (violateIntent id : Service .memory Intent) :=
  keepsBackground_updateIntent id fun _ => keeps_pure _

theorem keepsBackground_cancelIntent (id : String) :
    Keeps World.background (cancelIntent id : Service .memory Decimal) :=
  keeps_bind (keepsBackground_updateIntent id fun _ => keeps_bind (keeps_check _) fun _ =>
    keeps_bind (keepsBackground_releaseRest _ _) fun _ => keeps_pure _) fun _ =>
    keeps_bind (keepsBackground_note _) fun _ => keeps_pure _

/-! ### The steps of a payment that leave all but the books alone -/

theorem keepsBackground_commitPayment (config : Config) (p : Payment) (target : Option String) :
    Keeps World.background (commitPayment config p target) := by
  cases target with
  | none => exact keeps_bind (keeps_check _) fun _ => keeps_pure _
  | some id =>
    refine keeps_bind (keepsBackground_updateIntent id fun i => ?_) fun _ => keeps_pure _
    exact keeps_bind (keeps_check _) fun _ => keeps_ite (keeps_pure _)
      (keeps_ite (keeps_bind (keeps_check _) fun _ => keeps_pure _)
        (keeps_bind (keeps_check _) fun _ =>
          keeps_bind (keepsBackground_releaseRest _ _) fun _ => keeps_pure _))

theorem keepsBackground_logPayment (record : TransactionRecord) :
    Keeps World.background (logPayment record : Service .memory Unit) := by
  refine keeps_bind (keeps_attempt (keeps_bind keeps_get fun _ =>
    keeps_bind (keeps_modify fun _ => rfl) fun _ => keeps_bind keeps_get fun _ =>
    keeps_ite (keeps_throw _) (keeps_bind (keeps_check _) fun _ =>
      keeps_modify fun _ => rfl))) fun result => ?_
  cases result with
  | ok done => exact keeps_pure _
  | error failure => exact keepsBackground_note _

theorem keepsBackground_countPayment (p : Payment) (target : Option String) (v : Verdict) :
    Keeps World.background (countPayment p target v : Service .memory Unit) := by
  have closing : Keeps World.background (do tally .latency; note (.validated p.id p.user target
      p.merchant.id v.approved v.failedAt)) :=
    keeps_bind (keepsBackground_tally _) fun _ => keepsBackground_note _
  unfold countPayment
  dsimp only
  refine keeps_ite (keeps_bind (keepsBackground_tally _) fun _ => ?counting) ?counting
  refine keeps_bind (keepsBackground_tally _) fun _ => ?_
  split
  · exact keeps_bind (keepsBackground_tally _) fun _ => closing
  · exact closing

/-! ### Events leave escrows alone -/

theorem keepsVault_recordEvent (config : Config) (now : Time) (user : String) (kind : EventKind)
    (description : String) :
    Keeps World.vault (recordEvent config now user kind description : Service .memory _) :=
  keeps_bind keeps_get fun _ => keeps_bind (keeps_modify fun _ => rfl) fun _ =>
    keeps_bind keeps_get fun _ => keeps_ite (keeps_throw _)
      (keeps_bind (keeps_bind keeps_get fun _ => keeps_pure _) fun _ =>
        keeps_bind keeps_get fun _ => keeps_bind (keeps_modify fun _ => rfl) fun _ =>
        keeps_bind (keeps_atomically (keeps_bind (keeps_check _) fun _ =>
          keeps_modify fun _ => rfl)) fun _ =>
        keeps_bind (keepsBackground_tally _).vault fun _ => keeps_pure _)

theorem keepsVault_follow (config : Config) (now : Time) (user : String) (kind : EventKind)
    (description : String) :
    Keeps World.vault (follow config now user kind description : Service .memory Unit) := by
  refine keeps_bind (keeps_attempt (keepsVault_recordEvent _ _ _ _ _)) fun result => ?_
  cases result with
  | ok event => exact keeps_pure _
  | error failure =>
    exact keeps_bind (keepsBackground_tally _).vault fun _ => (keepsBackground_note _).vault

theorem keepsVault_createIntent (config : Config) (now : Time) (user text : String)
    (policy : Policy) :
    Keeps World.vault (createIntent config now user text policy : Service .memory Intent) := by
  refine keeps_bind (keepsBackground_openIntent user text policy now).vault fun i =>
    keeps_bind (keeps_attempt (keepsBackground_lockFunds _ _
      (keepsBackground_addIntent i)).vault) fun result => ?_
  cases result with
  | error failure => exact keeps_throw _
  | ok done =>
    exact keeps_bind (keepsBackground_note _).vault fun _ => keeps_ite
      (keeps_bind (keepsVault_follow _ _ _ _ _) fun _ => keeps_pure _) (keeps_pure _)

private theorem keepsVault_rewardPayment (config : Config) (now : Time) (p : Payment)
    (v : Verdict) : Keeps World.vault (rewardPayment config now p v : Service .memory Unit) :=
  keeps_ite (keeps_bind (keepsBackground_note _).vault fun _ => keepsVault_follow _ _ _ _ _)
    (keeps_ite (keeps_bind (keepsVault_follow _ _ _ _ _) fun _ =>
      keeps_ite (keepsVault_follow _ _ _ _ _) (keeps_pure _)) (keepsVault_follow _ _ _ _ _))

theorem keepsVault_beginPayment (config : Config) (r : PaymentRequest) :
    Keeps World.vault (beginPayment config r : Service .memory Payment) :=
  keeps_bind keeps_get fun _ => keeps_bind (keeps_modify fun _ => rfl) fun _ =>
    keeps_bind (keeps_check _) fun _ => keeps_bind (keeps_check _) fun _ => keeps_pure _

theorem keepsVault_pay (config : Config) (now : Time) (r : PaymentRequest) :
    Keeps World.vault (pay config now r : Service .memory PaymentResult) :=
  keeps_bind (keepsVault_beginPayment config r) fun p =>
    keeps_bind (fun w => by rw [runFrom_resolvePayment]) fun target =>
    keeps_bind (keepsBackground_commitPayment config p target).vault fun _ =>
    keeps_bind (keepsBackground_logPayment _).vault fun _ =>
    keeps_bind (keepsBackground_countPayment _ _ _).vault fun _ =>
    keeps_bind (keepsVault_rewardPayment _ _ _ _) fun _ => keeps_pure _

/-! ### Operations on escrows -/

theorem runFrom_updateEscrow (w : World .memory) (id : String)
    (change : Escrow → Except Failure (α × Escrow)) :
    (updateEscrow id change).runFrom w =
      match Escrow.findIn w.escrows id with
      | none => (.error (.escrowNotFound id .byKey), w)
      | some e =>
        match change e with
        | .ok (result, changed) =>
          (.ok result, w.withEscrows (Escrow.replaceIn w.escrows id changed))
        | .error failure => (.error failure, w) := by
  simp only [updateEscrow, runFrom_atomically, runFrom_get_bind]
  cases found : Backend.memory.escrows.find? id w.store.escrows with
  | none =>
    have missing : Escrow.findIn w.escrows id = none := found
    rw [missing]
    rfl
  | some e =>
    have known : Escrow.findIn w.escrows id = some e := found
    rw [known]
    dsimp only
    change (check (change e) >>= _).runFrom w = _
    cases change e with
    | error failure => rfl
    | ok changed => rfl

theorem runFrom_addEscrow (w : World .memory) (e : Escrow) :
    (addEscrow e).runFrom w =
      if (Escrow.findIn w.escrows e.id).isSome then (.error (.duplicateId e.id), w)
      else (.ok (), w.withEscrows (w.escrows ++ [e])) := by
  simp only [addEscrow, runFrom_atomically, runFrom_get_bind]
  change Service.runFrom w (if (Escrow.findIn w.escrows e.id).isSome = true then _ else _) = _
  cases (Escrow.findIn w.escrows e.id).isSome <;> rfl

theorem runFrom_getEscrow (w : World .memory) (id : String) :
    (getEscrow id).runFrom w =
      (Failure.require (.escrowNotFound id .byId) (Escrow.findIn w.escrows id), w) := by
  have read : (Backend.memory.escrows.find? id w.store.escrows).mapM Backend.memory.escrows.read =
      .ok (Escrow.findIn w.escrows id) := by
    change (Escrow.findIn w.escrows id).mapM (fun e => (.ok e : Except Failure Escrow)) = _
    cases Escrow.findIn w.escrows id <;> rfl
  simp only [getEscrow, runFrom_get_bind, read, runFrom_check_ok, runFrom_check]

/-- What follows a change of an escrow leaves the escrows as the change left them. -/
theorem vaultOrderly_updateEscrow {w : World .memory} (orderly : VaultOrderly w.vault) (id : String)
    {change : Escrow → Except Failure (α × Escrow)}
    (kept : ∀ e a changed, e.Orderly → change e = .ok (a, changed) →
      changed.Orderly ∧ changed.id = e.id) :
    VaultOrderly ((updateEscrow id change : Service .memory α).runFrom w).2.vault := by
  rw [runFrom_updateEscrow]
  cases found : Escrow.findIn w.escrows id with
  | none => exact orderly
  | some e =>
    have known : e.Orderly := (orderly e (List.mem_of_find?_eq_some found)).1
    dsimp only
    cases done : change e with
    | error failure => exact orderly
    | ok result =>
      obtain ⟨a, changed⟩ := result
      obtain ⟨kept, same⟩ := kept e a changed known done
      exact orderly.replace found kept same

theorem vaultOrderly_releaseMilestone {w : World .memory} (orderly : VaultOrderly w.vault)
    (config : Config) (now : Time) (escrowId milestoneId : String)
    (proof merchantId : Option String) :
    VaultOrderly ((releaseMilestone config now escrowId milestoneId proof merchantId :
      Service .memory _).runFrom w).2.vault := by
  rw [releaseMilestone, seen_bind World.vault]
  · refine vaultOrderly_updateEscrow orderly escrowId fun e answer next known done => ?_
    exact ⟨known.releasedIn done, (Escrow.owner_of_releaseIn done).1⟩
  · exact fun _ => keeps_bind (keepsBackground_tally _).vault fun _ =>
      keeps_bind (keepsBackground_note _).vault fun _ =>
      keeps_ite (keeps_bind (keepsVault_follow _ _ _ _ _) fun _ => keeps_pure _) (keeps_pure _)

theorem vaultOrderly_clawBack {w : World .memory} (orderly : VaultOrderly w.vault)
    (config : Config) (now : Time) (escrowId : String) (reason : ClawbackReason)
    (part : Option Decimal) :
    VaultOrderly ((clawBack config now escrowId reason (part.map .decimal) :
      Service .memory _).runFrom w).2.vault := by
  rw [clawBack, seen_bind World.vault]
  · refine vaultOrderly_updateEscrow orderly escrowId fun e answer next known done => ?_
    obtain ⟨⟨receipt, after⟩, clawedBack, made⟩ := bind_ok_iff.mp done
    cases made
    exact ⟨(known.clawedBack clawedBack).1, (Escrow.owner_of_clawBack clawedBack).1⟩
  · exact fun _ => keeps_bind (keepsBackground_tally _).vault fun _ =>
      keeps_bind (keepsBackground_note _).vault fun _ =>
      keeps_ite (keeps_bind (keepsVault_follow _ _ _ _ _) fun _ => keeps_pure _) (keeps_pure _)

section

variable {w : World .memory} {config : Config} {now : Time} {user title : String}
  {specs : List MilestoneSpec} {intentId : Option String} {ids : Ids} {e : Escrow}

theorem runFrom_createEscrow_error {failure : Failure}
    (failed : Escrow.build w.ids user specs now intentId title config.expiryDays =
      (ids, .error failure)) :
    (createEscrow config now user specs title intentId).runFrom w =
      (.error failure, { w with ids }) := by
  simp only [createEscrow, runFrom_get_bind, failed, runFrom_modify_bind, runFrom_check_error]

/-- An escrow that is built is stored unless its id is taken. -/
theorem runFrom_createEscrow_ok
    (built : Escrow.build w.ids user specs now intentId title config.expiryDays = (ids, .ok e)) :
    ∃ journal, (createEscrow config now user specs title intentId).runFrom w =
      if (Escrow.findIn w.escrows e.id).isSome then (.error (.duplicateId e.id), { w with ids })
      else (.ok e, { World.withEscrows { w with ids } (w.escrows ++ [e]) with journal }) := by
  obtain ⟨total, summed⟩ := Escrow.exists_total_of_build (congrArg Prod.snd built)
  simp only [createEscrow, runFrom_get_bind, built, runFrom_modify_bind, runFrom_check_ok]
  have added := runFrom_addEscrow { w with ids } e
  have stored : World.escrows { w with ids } = w.escrows := rfl
  rw [stored] at added
  refine ⟨.escrowCreated e.id user total :: w.journal, ?_⟩
  split at added
  · rename_i taken
    rw [runFrom_bind_error added, if_pos taken]
  · rename_i fresh
    rw [runFrom_bind_ok added, if_neg fresh, summed, runFrom_check_ok]
    rfl

end

/-- An escrow that is built is stored under its number, which no other one has. -/
theorem runFrom_createEscrow {w : World .memory} (orderly : VaultOrderly w.vault) (config : Config)
    (now : Time) (user : String) (specs : List MilestoneSpec) (title : String)
    (intentId : Option String) :
    (∃ failure,
      (Escrow.build w.ids user specs now intentId title config.expiryDays).2 = .error failure ∧
      (createEscrow config now user specs title intentId).runFrom w = (.error failure,
        { w with ids := (Escrow.build w.ids user specs now intentId title config.expiryDays).1 })) ∨
    ∃ e after,
      (Escrow.build w.ids user specs now intentId title config.expiryDays).2 = .ok e ∧
      (createEscrow config now user specs title intentId).runFrom w = (.ok e, after) ∧
      after.vault = (w.escrows ++ [e], w.ids.escrows + 1) := by
  have number := (Escrow.build_number w.ids user specs now intentId title config.expiryDays).2
  rcases built : Escrow.build w.ids user specs now intentId title config.expiryDays with
    ⟨ids, failure | e⟩
  · exact .inl ⟨failure, rfl, runFrom_createEscrow_error built⟩
  · rw [built] at number
    obtain ⟨next, id, -⟩ := number e rfl
    have fresh : Escrow.findIn w.escrows e.id = none := id ▸ orderly.findIn_next
    obtain ⟨journal, ran⟩ := runFrom_createEscrow_ok built
    rw [fresh] at ran
    exact .inr ⟨e, _, rfl, ran, Prod.ext rfl next⟩

theorem vaultOrderly_createEscrow {w : World .memory} (orderly : VaultOrderly w.vault)
    (config : Config) {now : Time} (aware : now.offset.isSome) (user : String)
    (specs : List MilestoneSpec) (title : String) (intentId : Option String) :
    VaultOrderly ((createEscrow config now user specs title intentId :
      Service .memory _).runFrom w).2.vault := by
  obtain ⟨least, number⟩ :=
    Escrow.build_number w.ids user specs now intentId title config.expiryDays
  rcases runFrom_createEscrow orderly config now user specs title intentId with
    ⟨failure, -, ran⟩ | ⟨e, after, built, ran, vault⟩
  · rw [ran]
    exact orderly.mono least
  · rw [ran, vault]
    exact orderly.add (Escrow.orderly_of_build aware built) (number e built).2.1

end Service

end Earmark
