import Earmark.Proofs.Ledger
import Earmark.Proofs.Turns

/-!
Runs of commands. What every turn keeps holds after every run (`World.after_keeps`). In a run whose
intents come from built policies no two intents share an id, every ledger is sound, and the intents
only ever move to later states of themselves (`Ledgers.after`, `exists_later_after`).
-/

namespace Earmark

namespace World

variable {b : Backend}

@[simp] theorem after_nil (config : Config) (w : World b) : w.after config [] = w := rfl

@[simp] theorem after_cons (config : Config) (w : World b) (now : Time) (c : Command)
    (rest : List (Time × Command)) :
    w.after config ((now, c) :: rest) = (w.step config now c).2.after config rest := rfl

theorem after_append (config : Config) (w : World b) (first rest : List (Time × Command)) :
    w.after config (first ++ rest) = (w.after config first).after config rest := by
  induction first generalizing w with
  | nil => rfl
  | cons entry first ih => exact ih _

/-- What depends on the books alone and is kept by every turn of an allowed command holds after
every run of them. -/
theorem after_keeps {config : Config} (Allowed : Command → Prop) (Kept : World .memory → Prop)
    (same : ∀ {w after : World .memory}, w.SameBooks after → Kept w → Kept after)
    (turn : ∀ {now : Time} {w next : World .memory} {c : Command} {reply : Except Failure Reply},
      Allowed c → Turn config now w c reply next → Kept w → Kept next)
    {w : World .memory} (kept : Kept w) {run : List (Time × Command)}
    (allowed : ∀ entry ∈ run, Allowed entry.2) : Kept (w.after config run) := by
  induction run generalizing w with
  | nil => exact kept
  | cons entry rest ih =>
    obtain ⟨next, taken, books⟩ := Service.step_turn config entry.1 w entry.2
    have kept' := same books (turn (allowed entry (by simp)) taken kept)
    exact ih kept' fun other mem => allowed other (by simp [mem])

end World

/-- Where no two items share a key, an item is the one found under its own. -/
theorem find?_key_of_mem {α : Type} {key : α → String} {xs : List α} {x : α}
    (unique : (xs.map key).Nodup) (mem : x ∈ xs) :
    xs.find? (key · == key x) = some x := by
  induction xs with
  | nil => simp at mem
  | cons first rest ih =>
    obtain ⟨fresh, unique⟩ := List.nodup_cons.mp unique
    rcases List.mem_cons.mp mem with rfl | mem
    · simp
    · have other : key first ≠ key x := fun same => fresh (same ▸ List.mem_map_of_mem mem)
      simpa [other] using ih unique mem

/-- Where no two items share a key, a sum of the items exchanges what it has of one of them for what
it has of the other that takes its place. -/
theorem sum_replaced {α M : Type} [AddCommMonoid M] {key : α → String} (f : α → M) {xs : List α}
    {x y : α} {k : String} (unique : (xs.map key).Nodup) (found : xs.find? (key · == k) = some x) :
    ((xs.map fun old => if key old == k then y else old).map f).sum + f x =
      (xs.map f).sum + f y := by
  induction xs with
  | nil => simp at found
  | cons first rest ih =>
    obtain ⟨fresh, unique⟩ := List.nodup_cons.mp unique
    by_cases at_ : key first = k
    · obtain rfl : first = x := by simpa [at_] using found
      have rest_same : (rest.map fun old => if key old == k then y else old) = rest := by
        refine (List.map_congr_left fun old mem => ?_).trans rest.map_id
        have other : key old ≠ k := fun same => fresh (at_ ▸ same ▸ List.mem_map_of_mem mem)
        simp [other]
      rw [List.map_cons, if_pos (by simpa using at_), rest_same, List.map_cons, List.map_cons,
        List.sum_cons, List.sum_cons]
      abel
    · have found' : rest.find? (key · == k) = some x := by simpa [at_] using found
      rw [List.map_cons, if_neg (by simpa using at_), List.map_cons, List.map_cons, List.sum_cons,
        List.sum_cons, add_assoc, ih unique found', add_assoc]

namespace Intent

variable {intents : List Intent} {id : String} {i j : Intent}

theorem id_of_findIn (found : findIn intents id = some i) : i.id = id := by
  simpa using List.find?_some found

theorem mem_of_findIn (found : findIn intents id = some i) : i ∈ intents :=
  List.mem_of_find?_eq_some found

theorem findIn_of_mem (unique : (intents.map Intent.id).Nodup) (mem : i ∈ intents) :
    findIn intents i.id = some i := find?_key_of_mem unique mem

theorem eq_of_id (unique : (intents.map Intent.id).Nodup)
    (mem : i ∈ intents) (mem' : j ∈ intents) (same : j.id = i.id) : j = i := by
  have first := findIn_of_mem unique mem
  rw [← same, findIn_of_mem unique mem'] at first
  simpa using first

theorem findIn_eq_none_iff : findIn intents id = none ↔ id ∉ intents.map Intent.id := by
  simp [findIn]

theorem map_id_replaceIn (same : j.id = id) :
    (replaceIn intents id j).map Intent.id = intents.map Intent.id := by
  simp only [replaceIn, List.map_map]
  refine List.map_congr_left fun old _ => ?_
  by_cases at_ : old.id = id
  · simp [at_, same]
  · simp [at_]

theorem mem_replaceIn {k : Intent} (mem : k ∈ replaceIn intents id j) :
    k = j ∨ (k ∈ intents ∧ k.id ≠ id) := by
  obtain ⟨old, known, rfl⟩ := List.mem_map.mp mem
  by_cases at_ : old.id = id
  · simp [at_]
  · simp [at_, known]

theorem mem_replaceIn_of_ne {k : Intent} (mem : k ∈ intents) (other : k.id ≠ id) :
    k ∈ replaceIn intents id j :=
  List.mem_map.mpr ⟨k, mem, by simp [other]⟩

theorem mem_replaceIn_self (found : findIn intents id = some i) : j ∈ replaceIn intents id j :=
  List.mem_map.mpr ⟨i, mem_of_findIn found, by simp [id_of_findIn found]⟩

/-- A sum of the intents changes by what it changes of the one that is replaced. -/
theorem sum_replaceIn (f : Intent → ℤ) (unique : (intents.map Intent.id).Nodup)
    (found : findIn intents id = some i) :
    ((replaceIn intents id j).map f).sum = (intents.map f).sum - f i + f j := by
  have exchanged : ((replaceIn intents id j).map f).sum + f i = (intents.map f).sum + f j :=
    sum_replaced f unique found
  omega

/-- A sum over the intents of one key. -/
def sumBy (key : Intent → String) (intents : List Intent) (k : String) (f : Intent → ℤ) : ℤ :=
  (intents.map fun i => if key i = k then f i else 0).sum

section

variable {key : Intent → String} {k : String} {f : Intent → ℤ}

theorem sumBy_append (intents : List Intent) (i : Intent) :
    sumBy key (intents ++ [i]) k f = sumBy key intents k f + if key i = k then f i else 0 := by
  simp [sumBy]

theorem sumBy_replaceIn (unique : (intents.map Intent.id).Nodup)
    (found : findIn intents id = some i) (same : key j = key i) :
    sumBy key (replaceIn intents id j) k f =
      sumBy key intents k f + if key i = k then f j - f i else 0 := by
  unfold sumBy
  rw [sum_replaceIn _ unique found, same]
  split <;> omega

theorem sumBy_eq_zero (none_of : ∀ i ∈ intents, key i ≠ k) : sumBy key intents k f = 0 := by
  refine List.sum_eq_zero fun x mem => ?_
  obtain ⟨j, known, rfl⟩ := List.mem_map.mp mem
  simp [none_of j known]

theorem sumBy_eq_filter (intents : List Intent) :
    sumBy key intents k f = ((intents.filter (key · == k)).map f).sum := by
  induction intents with
  | nil => rfl
  | cons i rest ih =>
    by_cases at_ : key i = k
    · simpa [sumBy, at_] using ih
    · simpa [sumBy, at_] using ih

/-- An id is that of one intent. -/
theorem sumBy_id_of_mem (unique : (intents.map Intent.id).Nodup) (mem : i ∈ intents) :
    sumBy Intent.id intents i.id f = f i := by
  induction intents with
  | nil => simp at mem
  | cons first rest ih =>
    obtain ⟨fresh, unique⟩ := List.nodup_cons.mp unique
    rcases List.mem_cons.mp mem with rfl | mem
    · have others : sumBy Intent.id rest i.id f = 0 :=
        sumBy_eq_zero fun other known same => fresh (same ▸ List.mem_map_of_mem known)
      simpa [sumBy] using others
    · have other : first.id ≠ i.id := fun same => fresh (same ▸ List.mem_map_of_mem mem)
      simpa [sumBy, other] using ih unique mem

end

/-- No two intents share an id, and every ledger is sound. -/
structure Ledgers (intents : List Intent) : Prop where
  unique : (intents.map Intent.id).Nodup
  sound : ∀ i ∈ intents, i.Sound

theorem Ledgers.sound_of_findIn (ledgers : Ledgers intents) (found : findIn intents id = some i) :
    i.Sound := ledgers.sound i (mem_of_findIn found)

/-- What a turn makes of the intent that it changes. -/
inductive Changes (i : Intent) : Intent → Prop
  | same : Changes i i
  | spent {d : Decimal} {j : Intent} (spent : i.Spent d j) : Changes i j
  | violated : Changes i i.recordViolation
  | closed {rest : Decimal} {j : Intent} (closed : i.Closed rest j) : Changes i j
  | lapsed {rest : Decimal} {j : Intent} (closed : i.recordViolation.Closed rest j) : Changes i j

theorem Changes.precedes (change : i.Changes j) : i.Precedes j := by
  cases change with
  | same => exact .refl i
  | spent spent => exact spent.later
  | violated => exact precedes_recordViolation i
  | closed closed => exact closed.later
  | lapsed closed => exact (precedes_recordViolation i).trans closed.later

theorem Changes.sound (change : i.Changes j) (sound : i.Sound) : j.Sound := by
  cases change with
  | same => exact sound
  | spent spent => exact spent.sound
  | violated => exact sound.recordViolation
  | closed closed => exact closed.sound
  | lapsed closed => exact closed.sound

/-- What a turn makes of the intents. -/
inductive Moves (now : Time) (intents : List Intent) : List Intent → Prop
  | same : Moves now intents intents
  | opened {number : Nat} {user text : String} {policy : Policy} {i : Intent}
      (built : policy.IsBuilt)
      (opened : Intent.opened (Ids.intent number) user text policy now = .ok i)
      (fresh : findIn intents i.id = none) : Moves now intents (intents ++ [i])
  | changed {id : String} {i j : Intent} (found : findIn intents id = some i)
      (change : i.Changes j) : Moves now intents (replaceIn intents id j)

theorem Ledgers.moves {now : Time} {after : List Intent} (ledgers : Ledgers intents)
    (moves : Moves now intents after) : Ledgers after := by
  cases moves with
  | same => exact ledgers
  | @opened number user text policy i built opened fresh =>
    refine ⟨?_, ?_⟩
    · have apart := findIn_eq_none_iff.mp fresh
      rw [List.map_append, List.nodup_append]
      refine ⟨ledgers.unique, by simp, ?_⟩
      rintro known mem new new_mem rfl
      obtain rfl : known = i.id := by simpa using new_mem
      exact apart mem
    · intro k mem
      rcases List.mem_append.mp mem with mem | mem
      · exact ledgers.sound k mem
      · obtain rfl : k = i := by simpa using mem
        exact .of_opened built opened
  | @changed id i j found change =>
    have at_ := id_of_findIn found
    refine ⟨?_, ?_⟩
    · rw [map_id_replaceIn (change.precedes.id.trans at_)]
      exact ledgers.unique
    · intro k mem
      rcases mem_replaceIn mem with rfl | ⟨mem, -⟩
      · exact change.sound (ledgers.sound_of_findIn found)
      · exact ledgers.sound k mem

/-- Every intent is still there after a turn, in a later state. -/
theorem Moves.exists_later {now : Time} {after : List Intent} (moves : Moves now intents after)
    (unique : (intents.map Intent.id).Nodup) (mem : i ∈ intents) : ∃ j ∈ after, i.Precedes j := by
  cases moves with
  | same => exact ⟨i, mem, .refl i⟩
  | opened built opened fresh => exact ⟨i, by simp [mem], .refl i⟩
  | @changed id old new found change =>
    by_cases at_ : i.id = id
    · have same := findIn_of_mem unique mem
      rw [at_, found] at same
      obtain rfl : old = i := by simpa using same
      exact ⟨new, mem_replaceIn_self found, change.precedes⟩
    · exact ⟨i, mem_replaceIn_of_ne mem at_, .refl i⟩

end Intent

/-! ### Wallets and payments of sound intents -/

theorem Wallet.releasedRest_zero (wallets : List Wallet) (i : Intent) :
    Wallet.releasedRest wallets i .zero = .ok wallets := by
  have none_owed := Decimal.isAmount_zero.gt?_zero
  simp only [Decimal.cents_zero, lt_self_iff_false, decide_false] at none_owed
  simp [releasedRest, none_owed]

theorem Wallet.releasedRest_of_pos (wallets : List Wallet) (i : Intent) {rest : Decimal}
    (amount : rest.IsAmount) (positive : 0 < rest.cents) :
    Wallet.releasedRest wallets i rest = Wallet.released wallets i.user (.decimal rest) := by
  simp [releasedRest, amount.gt?_zero, positive]

/-- How a judged payment changes the wallets and a sound intent. -/
inductive Settled (p : Payment) (wallets : List Wallet) (i : Intent) (v : Verdict) :
    List Wallet → Intent → Prop
  | bypass (bypass : v.bypass = true) : Settled p wallets i v wallets i
  | approved {j : Intent} (bypass : v.bypass = false) (approved : v.approved = true)
      (spent : i.Spent p.amount j) : Settled p wallets i v wallets j
  | rejected (bypass : v.bypass = false) (approved : v.approved = false)
      (stays : i.status = .active → p.context.requestedAt.after i.expiresAt = .ok false) :
      Settled p wallets i v wallets i.recordViolation
  | lapsed {rest : Decimal} {j : Intent} {left : List Wallet} (bypass : v.bypass = false)
      (approved : v.approved = false) (closed : i.recordViolation.Closed rest j)
      (expired : j.status = .expired)
      (released : Wallet.released wallets i.user (.decimal rest) = .ok left) :
      Settled p wallets i v left j

namespace Intent

variable {i j : Intent} {p : Payment} {v : Verdict} {wallets left : List Wallet}

theorem Sound.settled (sound : i.Sound) (amount : p.amount.IsAmount)
    (settles : Settles p wallets i v left j) : Settled p wallets i v left j := by
  cases settles with
  | bypass bypass => exact .bypass bypass
  | approved bypass approved spent =>
    obtain ⟨d, brought, spent⟩ := sound.spent spent
    obtain rfl : p.amount = d := by simpa [Numeral.toAmount_decimal amount] using brought
    exact .approved bypass approved spent
  | rejected bypass approved expired released =>
    rcases sound.recordViolation.stays_or_closed_of_expire expired with
      ⟨rfl, rfl, stays⟩ | ⟨closed, status, -⟩
    · obtain rfl : wallets = left := by simpa [Wallet.releasedRest_zero] using released
      exact .rejected bypass approved stays
    · rw [Wallet.releasedRest_of_pos wallets i closed.amount closed.positive] at released
      exact .lapsed bypass approved closed status released

end Intent

theorem Settled.changes {p : Payment} {v : Verdict} {wallets left : List Wallet} {i j : Intent}
    (settled : Settled p wallets i v left j) : i.Changes j := by
  cases settled with
  | bypass => exact .same
  | approved bypass approved spent => exact .spent spent
  | rejected => exact .violated
  | lapsed bypass approved closed => exact .lapsed closed

/-! ### Intents through runs -/

/-- Whether a command makes intents only of built policies, and by the service. -/
def Command.Regular : Command → Prop
  | .createIntent _ _ policy => policy.IsBuilt
  | .addIntent _ => False
  | _ => True

@[simp] theorem World.intents_logging (w : World .memory) (record : TransactionRecord) :
    (w.logging record).intents = w.intents := by
  unfold World.logging
  split <;> rfl

@[simp] theorem World.wallets_logging (w : World .memory) (record : TransactionRecord) :
    (w.logging record).wallets = w.wallets := by
  unfold World.logging
  split <;> rfl

section

variable {config : Config} {now : Time} {w next : World .memory} {c : Command}
  {reply : Except Failure Reply}

theorem Turn.moves (turn : Turn config now w c reply next) (regular : c.Regular)
    (ledgers : Intent.Ledgers w.intents) : Intent.Moves now w.intents next.intents := by
  cases turn with
  | failed => exact .same
  | aside => exact .same
  | openWallet => exact .same
  | lockFunds => exact .same
  | releaseFunds => exact .same
  | createIntent opened fresh => exact .opened regular opened fresh
  | createUnlocked opened fresh => exact .opened regular opened fresh
  | addIntent => exact regular.elim
  | useIntent found spent =>
    obtain ⟨d, -, spent⟩ := (ledgers.sound_of_findIn found).spent spent
    exact .changed found (.spent spent)
  | violateIntent found => exact .changed found .violated
  | cancelIntent found cancelled =>
    have closed := (ledgers.sound_of_findIn found).closed_of_cancel cancelled
    exact .changed found (.closed closed.1)
  | payNowhere =>
    rw [World.intents_logging]
    exact .same
  | pay brought known begun target found judged settled =>
    have amount : Decimal.IsAmount _ := isAmount_of_toAmount brought
    subst begun
    have settled := (ledgers.sound_of_findIn found).settled amount settled
    rw [World.intents_logging]
    exact .changed found settled.changes

theorem Intent.Ledgers.turn (regular : c.Regular) (turn : Turn config now w c reply next)
    (ledgers : Ledgers w.intents) : Ledgers next.intents :=
  ledgers.moves (turn.moves regular ledgers)

/-- An intent that is made is stored as it is returned. -/
theorem Turn.created {user text : String} {policy : Policy} {i : Intent}
    (turn : Turn config now w (.createIntent user text policy) (.ok (.intent i)) next) :
    i ∈ next.intents ∧ i.user = user ∧ i.policy = policy ∧ i.createdAt = now := by
  cases turn with
  | aside aside => cases aside
  | createIntent opened =>
    obtain ⟨expiresAt, -, rfl⟩ := Intent.opened_iff.mp opened
    exact ⟨by simp, rfl, rfl, rfl⟩

variable {run : List (Time × Command)}

theorem Intent.Ledgers.after (config : Config) (regular : ∀ entry ∈ run, entry.2.Regular)
    (ledgers : Ledgers w.intents) : Ledgers (w.after config run).intents :=
  World.after_keeps Command.Regular (fun w => Ledgers w.intents)
    (fun same ledgers => same.intents ▸ ledgers) (fun regular turn => .turn regular turn) ledgers
    regular

theorem World.intents_of_empty (empty : w.store = {}) : w.intents = [] := by
  rw [intents, empty]
  rfl

theorem World.wallets_of_empty (empty : w.store = {}) : w.wallets = [] := by rw [wallets, empty]

theorem World.records_of_empty (empty : w.store = {}) : w.records = [] := by
  rw [records, empty]
  rfl

theorem Intent.Ledgers.of_empty (empty : w.store = {}) : Ledgers w.intents := by
  rw [World.intents_of_empty empty]
  exact ⟨by simp, by simp⟩

/-- Every intent is there after every run, in a later state. -/
theorem Intent.Ledgers.exists_later_after {i : Intent} (config : Config)
    (ledgers : Ledgers w.intents)
    (regular : ∀ entry ∈ run, entry.2.Regular) (mem : i ∈ w.intents) :
    ∃ j ∈ (w.after config run).intents, i.Precedes j := by
  refine (World.after_keeps Command.Regular
    (fun w => Ledgers w.intents ∧ ∃ j ∈ w.intents, i.Precedes j) ?_ ?_
    ⟨ledgers, i, mem, .refl i⟩ regular).2
  · exact fun same kept => same.intents ▸ kept
  · rintro now w next c reply regular turn ⟨ledgers, j, mem, later⟩
    have moves := turn.moves regular ledgers
    obtain ⟨k, mem, later'⟩ := moves.exists_later ledgers.unique mem
    exact ⟨ledgers.moves moves, k, mem, later.trans later'⟩

end

/-! ### A run -/

namespace Sample

/-- Sixty for books. -/
def terms : PolicyTerms := { limit := .whole 60, categories := ["books"] }

def policy : Policy :=
  { limit := .ofCents 6000, categories := ["books"], codes := [], validityDays := 30, geo := none
    proofRequired := false, tier := 1, split := none, escrowEnabled := false, currency := "INR" }

theorem build_terms : Policy.build terms = .ok policy := eq_ok_of_toOption (by decide +kernel)

theorem policy_isBuilt : policy.IsBuilt := ⟨terms, build_terms⟩

def config : Config := { directory := .ofList Directory.catalog }

def start : World .memory := {}

def today : Time := { micros := 63876420000000000, offset := some 0 }

/-- A wallet of a hundred, an intent of sixty, a purchase of 25.50 for it and a refused one. -/
def payments : List (Time × Command) :=
  [(today, .openWallet "reader" (.whole 100)), (today, .createIntent "reader" "books" policy),
   (today, .pay
     { user := "reader", merchant := "MRC001", amount := .decimal (.ofCents 2550)
       requestedAt := today }),
   (today, .pay
     { user := "reader", merchant := "MRC002", amount := .whole 10, requestedAt := today })]

/-- The payments, after which the rest is unlocked. -/
def cancelled : List (Time × Command) := payments ++ [(today, .cancelIntent (Ids.intent 1))]

end Sample

end Earmark
