import Earmark.Proofs.StatedMoney

/-!
A ledger in whole cents, kept beside a service: what it books for a request is told by what the
request states and by what the service answers, in sums and differences of integers
(`Reckoning.book`). It stands for what the service ought to hold of wallets, intents, escrows and
logged payments.
-/

namespace Earmark

/-- An intent in whole cents. -/
structure Tab where
  owner : String := ""
  limit : Int := 0
  used : Int := 0
  status : IntentStatus := .active

namespace Tab

/-- What is used lies within the limit. -/
structure Sound (t : Tab) : Prop where
  nonneg : 0 ≤ t.used
  within : t.used ≤ t.limit

def rest (t : Tab) : Int := t.limit - t.used

/-- The tab with more cents used, which is exhausted when nothing is left. -/
def spend (t : Tab) (cents : Int) : Tab :=
  { t with
    used := t.used + cents
    status := if t.used + cents = t.limit then .exhausted else t.status }

theorem Sound.spend {t : Tab} (sound : t.Sound) {cents : Int} (positive : 0 < cents)
    (within : cents ≤ t.rest) : (t.spend cents).Sound := by
  have nonneg := sound.nonneg
  simp only [rest] at within
  exact ⟨by simp only [Tab.spend]; omega, by simp only [Tab.spend]; omega⟩

end Tab

/-- A milestone in whole cents. -/
structure Part where
  id : String
  cents : Int
  released : Bool := false

namespace Part

/-- The parts once those with an id are released. -/
def release (milestoneId : String) (parts : List Part) : List Part :=
  parts.map fun p => if p.id = milestoneId then { p with released := true } else p

/-- What is not released. -/
def pending (parts : List Part) : Int := ((parts.filter (!·.released)).map (·.cents)).sum

@[simp] theorem pending_nil : pending [] = 0 := rfl

@[simp] theorem pending_cons (p : Part) (parts : List Part) :
    pending (p :: parts) = (if p.released then 0 else p.cents) + pending parts := by
  cases released : p.released <;> simp [pending, released]

/-- The parts of an escrow can be told apart and are positive. -/
structure Sound (parts : List Part) : Prop where
  some_part : parts ≠ []
  ids : (parts.map (·.id)).Nodup
  positive : ∀ p ∈ parts, 0 < p.cents

theorem Sound.release {parts : List Part} (sound : Sound parts) (milestoneId : String) :
    Sound (release milestoneId parts) := by
  have ids : (Part.release milestoneId parts).map (·.id) = parts.map (·.id) := by
    rw [Part.release, List.map_map]
    refine List.map_congr_left fun p _ => ?_
    rw [Function.comp_apply]
    split <;> rfl
  refine ⟨by simpa [Part.release] using sound.some_part, ids ▸ sound.ids, fun p mem => ?_⟩
  obtain ⟨old, known, rfl⟩ := List.mem_map.mp mem
  have positive := sound.positive old known
  split <;> exact positive

end Part

/-- What a service ought to hold, in whole cents: by user, by intent, by escrow, and the amounts of
all payments that came to a verdict. -/
structure Reckoning where
  balance : String → Int := fun _ => 0
  locked : String → Int := fun _ => 0
  tab : String → Tab := fun _ => {}
  deposit : String → List Part := fun _ => []
  logged : List Int := []

namespace Reckoning

def opened (L : Reckoning) (user : String) (cents : Int) : Reckoning :=
  { L with
    balance := Function.update L.balance user cents
    locked := Function.update L.locked user 0 }

/-- Adds to what is locked of a user's wallet. -/
def locking (L : Reckoning) (user : String) (cents : Int) : Reckoning :=
  { L with locked := Function.update L.locked user (L.locked user + cents) }

def noting (L : Reckoning) (id : String) (t : Tab) : Reckoning :=
  { L with tab := Function.update L.tab id t }

def depositing (L : Reckoning) (id : String) (parts : List Part) : Reckoning :=
  { L with deposit := Function.update L.deposit id parts }

def logging (L : Reckoning) (cents : Int) : Reckoning := { L with logged := L.logged ++ [cents] }

/-- Closes an intent, if it is active, and unlocks what it leaves. -/
def closed (L : Reckoning) (id : String) (status : IntentStatus) : Reckoning :=
  let t := L.tab id
  if t.status = .active then (L.locking t.owner (-t.rest)).noting id { t with status } else L

/-- What a verdict does to the intent that was judged. -/
def settled (L : Reckoning) (cents : Int) (v : Verdict) : Option Intent → Reckoning
  | none => L
  | some i =>
    if v.bypass then L
    else if v.approved then L.noting i.id ((L.tab i.id).spend cents)
    else if i.status = .expired then L.closed i.id .expired
    else L

/-- The parts that specifications ask for, as milestones are named. -/
def partsOf (specs : List MilestoneSpec) (milestones : List Milestone) : List Part :=
  List.zipWith (fun spec m => { id := m.id, cents := spec.amount.wholeCents }) specs milestones

/-- Books a command that was answered; `limit` is what the request states for an intent. -/
def book (L : Reckoning) (limit : Int) : Command → Except Failure Reply → Reckoning
  | .openWallet user balance, .ok _ => L.opened user balance.wholeCents
  | .createIntent user _ _, .ok (.intent i) =>
    (L.noting i.id { owner := user, limit }).locking user limit
  | .cancelIntent id, .ok _ => L.closed id .cancelled
  | .pay request, .ok (.payment paid) =>
    (L.settled request.amount.wholeCents paid.verdict paid.intent).logging
      request.amount.wholeCents
  | .createEscrow _ specs _ _, .ok (.escrow e) => L.depositing e.id (partsOf specs e.milestones)
  | .releaseMilestone escrowId milestoneId _ _, .ok _ =>
    L.depositing escrowId (Part.release milestoneId (L.deposit escrowId))
  | _, _ => L

/-- Books a request that a service handles. -/
def posted {b : Backend} (config : Config) (L : Reckoning) (w : World b) (now : Time)
    (r : Http.Request) : Reckoning :=
  match Http.commandOf now r with
  | some c => L.book (Http.statedLimit r) c (w.step config now c).1
  | none => L

end Reckoning

namespace World

variable {b : Backend}

/-- The world after some requests, each at its time. -/
def served (config : Config) (w : World b) : List (Time × Http.Request) → World b
  | [] => w
  | (now, r) :: rest => ((Http.handle config now r).run w).2.served config rest

/-- What the ledger comes to when some requests are served. -/
def reckoning (config : Config) (w : World b) (L : Reckoning) :
    List (Time × Http.Request) → Reckoning
  | [] => L
  | (now, r) :: rest =>
    ((Http.handle config now r).run w).2.reckoning config (L.posted config w now r) rest

end World

end Earmark
