import Earmark.Proofs.Enforcement
import Earmark.Proofs.StoredEscrows

/-!
Orderly worlds. Where ledgers are sound, wallets cover them, times have offsets and amounts are
amounts, whatever is served keeps it so (`World.Orderly.step`) and is carried out or refused.
-/

namespace Earmark

/-- A directory that knows its merchants by name and finds no others, and figures that are
numbers. -/
structure Config.IsRegular (config : Config) : Prop where
  unknown : ∀ id failure, config.directory id = .error failure → failure = .merchantNotFound id
  named : ∀ id m, config.directory id = .ok m → m.IsNamed
  highValue : config.thresholds.highValue.isFinite
  penalty : config.rates.penalty.IsRate
  savings : config.rates.savings.IsRate

/-- The catalog is a regular directory. -/
theorem Config.isRegular_catalog :
    ({ directory := .ofList Directory.catalog } : Config).IsRegular where
  unknown id failure failed := by
    obtain ⟨known, listed⟩ : ∃ known, Directory.entries Directory.catalog = .ok known :=
      ⟨_, if_pos (by decide +kernel)⟩
    simp only [Directory.ofList, Directory.lookUp, listed, ok_bind, Directory.isKey,
      ↓reduceIte] at failed
    cases looked : known.find? fun m => Directory.sameId m.id (.text id) with
    | none =>
      rw [looked] at failed
      cases failed
      rfl
    | some m =>
      rw [looked] at failed
      cases failed
  named id m found := by
    have listed := Directory.mem_of_ofList found
    simp only [Directory.catalog, List.mem_cons, List.not_mem_nil, or_false] at listed
    rcases listed with rfl | rfl | rfl | rfl | rfl | rfl | rfl | rfl <;>
      exact ⟨⟨_, rfl⟩, ⟨_, rfl⟩, fun _ unpaired => by cases unpaired⟩
  highValue := rfl
  penalty := by norm_num [Decimal.IsRate, Decimal.toRat, Decimal.signed, Decimal.isFinite]
  savings := by norm_num [Decimal.IsRate, Decimal.toRat, Decimal.signed, Decimal.isFinite]

/-- Whether the service carries out the command when it is asked for by a request. -/
def Command.IsServed : Command → Prop
  | .createIntent _ _ policy => policy.IsBuilt ∧ policy.HasFloatRadius
  | .clawBack _ _ part => ∃ d : Option Decimal, part = d.map .decimal
  | .openWallet .. | .cancelIntent _ | .pay _ | .createEscrow .. | .releaseMilestone ..
  | .recordEvent .. => True
  | .lockFunds .. | .releaseFunds .. | .addIntent _ | .useIntent .. | .violateIntent _ => False

/-- What is kept adds up, compares and can be shown, and the log of events can be written to. -/
structure World.Orderly (w : World .memory) : Prop where
  ledgers : Intent.Ledgers w.intents
  covers : Wallet.Covers w.wallets w.intents
  intents : ∀ i ∈ w.intents, i.Orderly
  records : ∀ r ∈ w.records, r.amount.IsAmount
  vault : VaultOrderly w.vault
  working : ∀ n, w.outage.events n = false

theorem World.Orderly.of_same {w after : World .memory} (orderly : w.Orderly)
    (same : w.SameBooks after) (vault : after.vault = w.vault) : after.Orderly where
  ledgers := same.intents ▸ orderly.ledgers
  covers := same.wallets ▸ same.intents ▸ orderly.covers
  intents := same.intents ▸ orderly.intents
  records := same.records ▸ orderly.records
  vault := vault ▸ orderly.vault
  working := same.outage ▸ orderly.working

/-! ### What is served keeps a world orderly -/

namespace Command.IsServed

variable {c : Command}

theorem regular (served : c.IsServed) : c.Regular := by
  cases c with
  | createIntent user text policy => exact served.1
  | addIntent i => exact served
  | _ => trivial

theorem locksDirectly (served : c.IsServed) : c.locksDirectly = false := by
  cases c with
  | lockFunds => exact served.elim
  | releaseFunds => exact served.elim
  | _ => rfl

end Command.IsServed

namespace Intent

theorem Timed.of_opened {id user text : String} {policy : Policy} {now : Time} {i : Intent}
    (built : policy.IsBuilt) (aware : now.offset.isSome)
    (opened : opened id user text policy now = .ok i) : i.Timed := by
  have sound := Sound.of_opened built opened
  obtain ⟨expiresAt, added, rfl⟩ := opened_iff.mp opened
  exact ⟨sound, aware, by rwa [Time.offset_addDays added]⟩

theorem orderly_of_opened {id user text : String} {policy : Policy} {now : Time} {i : Intent}
    (built : policy.IsBuilt) (radius : policy.HasFloatRadius) (aware : now.offset.isSome)
    (opened : opened id user text policy now = .ok i) : i.Orderly := by
  have timed := Timed.of_opened built aware opened
  obtain ⟨expiresAt, -, rfl⟩ := opened_iff.mp opened
  exact ⟨timed.sound, timed.createdAt, timed.expiresAt, radius⟩

theorem orderly_replaceIn {intents : List Intent} {id : String} {i j : Intent}
    (orderly : ∀ i ∈ intents, i.Orderly) (found : findIn intents id = some i)
    (change : i.Changes j) : ∀ k ∈ replaceIn intents id j, k.Orderly := by
  intro k mem
  rcases mem_replaceIn mem with rfl | ⟨known, -⟩
  · have before := orderly i (mem_of_findIn found)
    exact before.later change.precedes (change.sound before.sound)
  · exact orderly k known

end Intent

section

variable {config : Config} {now : Time} {w next : World .memory} {c : Command}
  {reply : Except Failure Reply}

theorem Turn.intents_orderly (turn : Turn config now w c reply next) (served : c.IsServed)
    (aware : now.offset.isSome) (orderly : ∀ i ∈ w.intents, i.Orderly) :
    ∀ i ∈ next.intents, i.Orderly := by
  have added {i : Intent} (new : i.Orderly) : ∀ j ∈ w.intents ++ [i], j.Orderly := by
    intro j mem
    rcases List.mem_append.mp mem with known | new'
    · exact orderly j known
    · obtain rfl : j = i := by simpa using new'
      exact new
  cases turn with
  | failed => exact orderly
  | aside => exact orderly
  | openWallet => exact orderly
  | lockFunds => exact orderly
  | releaseFunds => exact orderly
  | createIntent opened => exact added (Intent.orderly_of_opened served.1 served.2 aware opened)
  | createUnlocked opened => exact added (Intent.orderly_of_opened served.1 served.2 aware opened)
  | addIntent => exact served.elim
  | useIntent => exact served.elim
  | violateIntent => exact served.elim
  | cancelIntent found cancelled =>
    have sound := (orderly _ (Intent.mem_of_findIn found)).sound
    exact Intent.orderly_replaceIn orderly found (.closed (sound.closed_of_cancel cancelled).1)
  | payNowhere =>
    rw [World.intents_logging]
    exact orderly
  | pay brought known begun target found judged settled =>
    subst begun
    have sound := (orderly _ (Intent.mem_of_findIn found)).sound
    have settled := sound.settled (isAmount_of_toAmount brought) settled
    rw [World.intents_logging]
    exact Intent.orderly_replaceIn orderly found settled.changes

/-- Whether what a command asks to recover, if it asks for a part, is stated as a decimal. -/
def Command.StatesPart : Command → Prop
  | .clawBack _ _ part => ∃ d : Option Decimal, part = d.map .decimal
  | _ => True

theorem Command.IsServed.statesPart (served : c.IsServed) : c.StatesPart := by
  cases c with
  | clawBack => exact served
  | _ => trivial

/-- Whatever a command does, it keeps the escrows orderly. -/
theorem Command.StatesPart.vaultOrderly (stated : c.StatesPart) (config : Config)
    (aware : now.offset.isSome) (orderly : VaultOrderly w.vault) :
    VaultOrderly (w.step config now c).2.vault := by
  have replying {α : Type} (f : α → Reply) {op : Service .memory α}
      (kept : VaultOrderly (op.runFrom w).2.vault) :
      VaultOrderly ((op >>= fun a => pure (f a)).runFrom w).2.vault := by
    rwa [Service.seen_bind World.vault op (fun a => Service.keeps_pure (f a))]
  have same {α : Type} {op : Service .memory α} (kept : Service.Keeps World.vault op) :
      VaultOrderly (op.runFrom w).2.vault := by
    rwa [kept w]
  cases c with
  | openWallet user balance =>
    exact replying (fun _ => .done) (same (Service.keepsBackground_openWallet user balance).vault)
  | createIntent user text policy =>
    exact replying .intent (same (Service.keepsVault_createIntent config now user text policy))
  | cancelIntent id => exact replying .amount (same (Service.keepsBackground_cancelIntent id).vault)
  | pay request => exact replying .payment (same (Service.keepsVault_pay config now request))
  | createEscrow user specs title intentId =>
    exact replying .escrow
      (Service.vaultOrderly_createEscrow orderly config aware user specs title intentId)
  | releaseMilestone escrowId milestoneId proof merchantId =>
    exact replying .release (Service.vaultOrderly_releaseMilestone orderly config now escrowId
      milestoneId proof merchantId)
  | clawBack escrowId reason part =>
    obtain ⟨d, rfl⟩ := stated
    exact replying .clawback
      (Service.vaultOrderly_clawBack orderly config now escrowId reason d)
  | recordEvent user kind description =>
    exact replying .event
      (same (Service.keepsVault_recordEvent config now user kind description))
  | lockFunds user amount fails =>
    refine replying (fun _ => .done) (same (Service.keepsBackground_lockFunds user amount ?_).vault)
    cases fails with
    | true => exact Service.keeps_throw _
    | false => exact Service.keeps_pure _
  | releaseFunds user amount =>
    exact replying (fun _ => .done) (same (Service.keepsBackground_releaseFunds user amount).vault)
  | addIntent i =>
    exact replying (fun _ => .done) (same (Service.keepsBackground_addIntent i).vault)
  | useIntent id amount =>
    exact replying .intent (same (Service.keepsBackground_useIntent id amount).vault)
  | violateIntent id =>
    exact replying .intent (same (Service.keepsBackground_violateIntent id).vault)

/-- Whatever is served keeps a world orderly, whether it succeeds or fails. -/
theorem World.Orderly.step (orderly : w.Orderly) (served : c.IsServed)
    (aware : now.offset.isSome) : (w.step config now c).2.Orderly := by
  obtain ⟨next, turn, same⟩ := Service.step_turn config now w c
  have regular := served.regular
  constructor
  case ledgers => exact same.intents ▸ orderly.ledgers.turn regular turn
  case covers =>
    exact same.wallets ▸ same.intents ▸
      orderly.covers.turn regular served.locksDirectly turn orderly.ledgers
  case intents => exact same.intents ▸ turn.intents_orderly served aware orderly.intents
  case records => exact same.records ▸ turn.amounts_logged orderly.records
  case vault => exact served.statesPart.vaultOrderly config aware orderly.vault
  case working =>
    intro n
    rw [same.outage, turn.records_cases.1]
    exact orderly.working n

end

end Earmark
