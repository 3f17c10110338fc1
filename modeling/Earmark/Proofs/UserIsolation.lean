import Earmark.Proofs.ConfinedServices
import Earmark.Proofs.Inquiries

/-!
Users are isolated. Each call acts for one user: it leaves alone what is kept of others and depends
on what is kept of that user alone. A payment that names an intent of another user goes as if there
were none (`World.users_isolated`).
-/

namespace Earmark

variable {b : Backend} {u : String}

/-! ### Owners -/

namespace Table

variable {α : Type} {t : Table α} {user id : String} {rows other : List t.Row}

/-- Whose row has an id. -/
def owner (t : Table α) (id : String) (rows : List t.Row) : Option String :=
  (t.find? id rows).map t.user

theorem belongs_of_mem (unique : (rows.map t.id).Nodup) {row : t.Row} (mem : row ∈ rows) :
    t.Belongs (t.user row) (t.id row) rows := fun _ known same =>
  congrArg t.user (List.inj_on_of_nodup_map unique known mem same)

/-- What a user has, the user has in any other table that keeps the same of the user. -/
theorem belongs_of_same (unique : (other.map t.id).Nodup) {row : t.Row} (mem : row ∈ rows)
    (same : rows.filter (t.user · == t.user row) = other.filter (t.user · == t.user row)) :
    t.Belongs (t.user row) (t.id row) other := by
  have kept : row ∈ other.filter (t.user · == t.user row) :=
    same ▸ List.mem_filter.mpr ⟨mem, by simp⟩
  exact belongs_of_mem unique (List.mem_filter.mp kept).1

theorem exists_of_owner (owned : t.owner id rows = some user) :
    ∃ row ∈ rows, t.id row = id ∧ t.user row = user := by
  obtain ⟨row, found, rfl⟩ := Option.map_eq_some_iff.mp owned
  exact ⟨row, List.mem_of_find?_eq_some found, by simpa using List.find?_some found, rfl⟩

end Table

namespace World

theorem Agrees.refl (u : String) (w : World b) : World.Agrees u w w := ⟨rfl, rfl, rfl, rfl, rfl⟩

/-- No two intents and no two escrows have one id. -/
structure Distinct (w : World b) : Prop where
  intents : (w.store.intents.map b.intents.id).Nodup
  escrows : (w.store.escrows.map b.escrows.id).Nodup

/-- Every intent can be read. -/
def Legible (w : World b) : Prop :=
  ∀ row ∈ w.store.intents, ∃ i, b.intents.read row = .ok i

theorem legible_memory (w : World .memory) : w.Legible := fun row _ => ⟨row, rfl⟩

end World

/-- The user that a command acts for, who is named or has what is named. -/
def Command.actsFor (w : World b) : Command → Option String
  | .openWallet user _ | .lockFunds user _ _ | .releaseFunds user _ | .createIntent user _ _
  | .createEscrow user _ _ _ | .recordEvent user _ _ => some user
  | .addIntent i => some i.user
  | .pay r => some r.user
  | .useIntent id _ | .violateIntent id | .cancelIntent id => b.intents.owner id w.store.intents
  | .releaseMilestone id _ _ _ | .clawBack id _ _ => b.escrows.owner id w.store.escrows

/-- The ids that a command gives are not those of another user. -/
def Command.GivesOwn (w : World b) : Command → Prop
  | .createIntent user _ _ =>
    b.intents.Belongs user (Ids.intent (w.ids.intents + 1)) w.store.intents
  | .addIntent i => b.intents.Belongs i.user i.id w.store.intents
  | .createEscrow user _ _ _ =>
    b.escrows.Belongs user (Ids.escrow (w.ids.escrows + 1)) w.store.escrows
  | _ => True

def Inquiry.actsFor (w : World b) : Inquiry → Option String
  | .available user | .locked user | .intents user | .payments user _ | .escrows user
  | .reputation user | .summary user => some user
  | .intent id => b.intents.owner id w.store.intents
  | .escrow id => b.escrows.owner id w.store.escrows

namespace Service

/-- The operation leaves alone what is kept of those that it does not act for; what it gives and
does to what is kept of the one it acts for is the same wherever the same is kept of that one; and
if there is no one to act for, it fails and does nothing. -/
structure Private {α : Type} (op : Service b α) (actor : World b → Option String)
    (givesOwn : World b → Prop) (w : World b) : Prop where
  others : ∀ v, actor w ≠ some v → (op.runFrom w).2.store.only v = w.store.only v
  own : ∀ u, actor w = some u → givesOwn w → w.Legible → ∀ w' : World b, w'.Distinct →
    w'.Legible → givesOwn w' → World.Agrees u w w' →
      (op.runFrom w).1 = (op.runFrom w').1 ∧ World.Agrees u (op.runFrom w).2 (op.runFrom w').2
  nobody : actor w = none → ∃ failure, op.runFrom w = (.error failure, w)

variable {α : Type} {op : Service b α} {w : World b} {givesOwn : World b → Prop}

/-- What names its user is private. -/
theorem private_of_named (user : String) (confined : Confined { user } op) :
    Private op (fun _ => some user) givesOwn w where
  others v apart := confined.others ⟨nofun, nofun⟩ v fun same => apart (same ▸ rfl)
  own u acts _ _ w' _ _ _ agrees := by
    obtain rfl := Option.some.inj acts
    exact confined.own ⟨nofun, nofun⟩ ⟨nofun, nofun⟩ ⟨nofun, nofun⟩ ⟨nofun, nofun⟩ agrees
  nobody acts := by cases acts

/-- What goes to something is private to whoever has it. -/
theorem private_of_owner {owner : World b → Option String} {scope : String → Scope}
    (confined : ∀ user, Confined (scope user) op) (acts : ∀ user, (scope user).user = user)
    (gives : ∀ user (w : World b), (scope user).Gives w)
    (owns : ∀ user (w w' : World b), w'.Distinct → owner w = some user → World.Agrees user w w' →
      (scope user).Owns w')
    (distinct : w.Distinct)
    (missing : owner w = none → ∃ failure, op.runFrom w = (.error failure, w)) :
    Private op owner givesOwn w where
  others v apart := by
    cases owned : owner w with
    | none =>
      obtain ⟨failure, failed⟩ := missing owned
      rw [failed]
    | some user =>
      refine (confined user).others (owns user w w distinct owned (.refl user w)) v fun same => ?_
      rw [acts] at same
      exact apart (owned.trans (congrArg some same.symm))
  own u owned _ _ w' distinct' _ _ agrees := by
    have same := (confined u).own (owns u w w distinct owned (.refl u w))
      (owns u w w' distinct' owned agrees) (gives u w) (gives u w')
    rw [acts] at same
    exact same agrees
  nobody := missing

theorem private_of_intent {id : String} (distinct : w.Distinct)
    (confined : ∀ user, Confined { user, intents := [id] } op)
    (missing : b.intents.find? id w.store.intents = none →
      ∃ failure, op.runFrom w = (.error failure, w)) :
    Private op (fun w => b.intents.owner id w.store.intents) givesOwn w := by
  refine private_of_owner confined (fun _ => rfl) (fun _ _ => ⟨nofun, nofun⟩)
    (fun user w w' distinct' owned agrees => ⟨?_, nofun⟩) distinct
    fun lost => missing (Option.map_eq_none_iff.mp lost)
  obtain ⟨row, mem, rfl, rfl⟩ := Table.exists_of_owner owned
  simpa using Table.belongs_of_same distinct'.intents mem (congrArg Store.intents agrees.store)

theorem private_of_escrow {id : String} (distinct : w.Distinct)
    (confined : ∀ user, Confined { user, escrows := [id] } op)
    (missing : b.escrows.find? id w.store.escrows = none →
      ∃ failure, op.runFrom w = (.error failure, w)) :
    Private op (fun w => b.escrows.owner id w.store.escrows) givesOwn w := by
  refine private_of_owner confined (fun _ => rfl) (fun _ _ => ⟨nofun, nofun⟩)
    (fun user w w' distinct' owned agrees => ⟨nofun, ?_⟩) distinct
    fun lost => missing (Option.map_eq_none_iff.mp lost)
  obtain ⟨row, mem, rfl, rfl⟩ := Table.exists_of_owner owned
  simpa using Table.belongs_of_same distinct'.escrows mem (congrArg Store.escrows agrees.store)

/-- An operation of which a confined one is left, once it has taken numbers that agree. -/
theorem private_of_numbered {user : String} (scope : World b → Scope)
    (rest : World b → Service b α) (ids : World b → Ids)
    (runs : ∀ w, op.runFrom w = (rest w).runFrom { w with ids := ids w })
    (confined : ∀ w, Confined (scope w) (rest w)) (acts : ∀ w, (scope w).user = user)
    (owns : ∀ w, (scope w).Owns w) (gives : ∀ w, givesOwn w → (scope w).Gives w)
    (agree : ∀ w w', World.Agrees user w w' →
      scope w = scope w' ∧ rest w = rest w' ∧ ids w = ids w') :
    Private op (fun _ => some user) givesOwn w where
  others v apart := by
    have owns : (scope w).Owns { w with ids := ids w } := owns w
    rw [runs]
    exact (confined w).others owns v fun same =>
      apart (congrArg some ((acts w).symm.trans same.symm))
  own u actor given _ w' _ _ given' agrees := by
    obtain rfl := Option.some.inj actor
    obtain ⟨sameScope, sameRest, sameIds⟩ := agree w w' agrees
    have numbered : World.Agrees (scope w).user { w with ids := ids w } { w' with ids := ids w' } :=
      acts w ▸ { agrees with ids := sameIds }
    have owns₁ : (scope w).Owns { w with ids := ids w } := owns w
    have owns₂ : (scope w).Owns { w' with ids := ids w' } := sameScope ▸ owns w'
    have same := (confined w).own owns₁ owns₂ (gives w given) (sameScope ▸ gives w' given') numbered
    rw [runs, runs, ← sameRest]
    rwa [acts] at same
  nobody actor := by cases actor

theorem Private.reply {β : Type} {actor : World b → Option String}
    (priv : Private op actor givesOwn w) (f : α → β) :
    Private (op >>= fun x => pure (f x)) actor givesOwn w where
  others v apart := by
    have kept := priv.others v apart
    rw [runFrom_bind]
    rcases ran : op.runFrom w with ⟨failure | x, after⟩ <;> rwa [ran] at kept
  own u acts given legible w' distinct' legible' given' agrees := by
    obtain ⟨same, after⟩ := priv.own u acts given legible w' distinct' legible' given' agrees
    rw [runFrom_bind, runFrom_bind]
    rcases ran : op.runFrom w with ⟨result, middle⟩
    rcases ran' : op.runFrom w' with ⟨result', middle'⟩
    rw [ran, ran'] at same after
    obtain rfl : result = result' := same
    cases result <;> exact ⟨rfl, after⟩
  nobody acts := by
    obtain ⟨failure, failed⟩ := priv.nobody acts
    exact ⟨failure, runFrom_bind_error failed _⟩

/-! ### Making intents and escrows -/

/-- What follows once an intent is opened. -/
def fundIntent (config : Config) (now : Time) (user text : String) (policy : Policy)
    (intent : Intent) : Service b Intent := do
  match ← attempt (lockFunds user (.decimal policy.limit) (addIntent intent)) with
  | .error failure =>
    throw (if failure.isDomain then failure else .creationRejected failure)
  | .ok () =>
    note (.intentCreated intent.id user policy.limit)
    if config.rewards then
      follow config now user .intentCreated ("Created intent: \"" ++ shorten 50 text ++ "\"")
    return intent

/-- What follows once an escrow is built. -/
def keepEscrow (user : String) (escrow : Escrow) : Service b Escrow := do
  addEscrow escrow
  note (.escrowCreated escrow.id user (← check escrow.total))
  return escrow

section

variable (owners : b.KeepsOwners)
include owners

theorem confined_fundIntent (config : Config) (now : Time) {user : String} (text : String)
    (policy : Policy) {i : Intent} (mine : i.user = user) :
    Confined { user, newIntents := [i.id] }
      (fundIntent config now user text policy i : Service b Intent) := by
  have locked : Confined { user, newIntents := [i.id] }
      (lockFunds user (.decimal policy.limit) (addIntent i) : Service b Unit) :=
    confined_lockFunds _ (confined_addIntent owners mine (List.mem_singleton.mpr rfl))
  refine locked.attempt.bind fun outcome => ?_
  cases outcome with
  | error failure => exact confined_throw _
  | ok done =>
    exact (confined_note _).bind fun _ => confined_ite
      ((confined_follow owners _ _ _ _).bind fun _ => confined_pure _) (confined_pure _)

theorem confined_keepEscrow {user : String} {e : Escrow} (mine : e.user = user) :
    Confined { user, newEscrows := [e.id] } (keepEscrow user e : Service b Escrow) :=
  (confined_addEscrow owners mine (List.mem_singleton.mpr rfl)).bind fun _ =>
    (confined_check _).bind fun _ => (confined_note _).bind fun _ => confined_pure _

theorem private_createIntent (config : Config) (now : Time) (user text : String)
    (policy : Policy) :
    Private (createIntent config now user text policy : Service b Intent) (fun _ => some user)
      (Command.GivesOwn · (.createIntent user text policy)) w := by
  let name (w : World b) := Ids.intent (w.ids.intents + 1)
  refine private_of_numbered (fun w => { user, newIntents := [name w] })
    (fun w => check (Intent.opened (name w) user text policy now) >>=
      fundIntent config now user text policy)
    (fun w => { w.ids with intents := w.ids.intents + 1 })
    (fun w => ?_) (fun w => confined_check_bind fun i opened => ?_) (fun _ => rfl)
    (fun _ => ⟨nofun, nofun⟩) (fun w given => ⟨?_, nofun⟩) fun w w' agrees => ?_
  · have parts : (createIntent config now user text policy : Service b Intent) =
        openIntent user text policy now >>= fundIntent config now user text policy := rfl
    simp only [parts, openIntent, bind_assoc, runFrom_get_bind, runFrom_modify_bind, name]
  · obtain ⟨expiresAt, -, made⟩ := bind_ok_iff.mp opened
    have named : i.id = name w := by rw [← Except.ok.inj made]
    rw [← named]
    exact confined_fundIntent owners config now text policy (by rw [← Except.ok.inj made])
  · rintro _ (_ | ⟨_, ⟨⟩⟩)
    exact given
  · simp only [name, agrees.ids, and_self]

theorem private_createEscrow (config : Config) (now : Time) (user : String)
    (specs : List MilestoneSpec) (title : String) (intentId : Option String) :
    Private (createEscrow config now user specs title intentId : Service b Escrow)
      (fun _ => some user) (Command.GivesOwn · (.createEscrow user specs title intentId)) w := by
  let built (w : World b) := Escrow.build w.ids user specs now intentId title config.expiryDays
  refine private_of_numbered
    (fun w => { user, newEscrows := [Ids.escrow (w.ids.escrows + 1)] })
    (fun w => check (built w).2 >>= keepEscrow user) (fun w => (built w).1)
    (fun w => ?_) (fun w => confined_check_bind fun e made => ?_) (fun _ => rfl)
    (fun _ => ⟨nofun, nofun⟩) (fun w given => ⟨nofun, ?_⟩) fun w w' agrees => ?_
  · rfl
  · obtain ⟨-, id, mine, -⟩ := (Escrow.build_number w.ids user specs now intentId title
      config.expiryDays).2 e made
    rw [← id]
    exact confined_keepEscrow owners mine
  · rintro _ (_ | ⟨_, ⟨⟩⟩)
    exact given
  · simp only [built, agrees.ids, and_self]

end

/-! ### Payments -/

/-- The payment that a request becomes under a number, if its amount and its merchant are known. -/
def begun (config : Config) (r : PaymentRequest) (number : Nat) : Except Failure Payment := do
  let d ← r.amount.toAmount
  let m ← config.directory r.merchant
  .ok (.ofRequest r number d m)

theorem of_begun {config : Config} {r : PaymentRequest} {number : Nat} {p : Payment}
    (made : begun config r number = .ok p) : p.user = r.user ∧ p.named = r.intentId := by
  simp only [begun, bind_ok_iff] at made
  obtain ⟨d, -, m, -, made⟩ := made
  rw [← Except.ok.inj made]
  exact ⟨rfl, rfl⟩

theorem runFrom_begun (config : Config) (r : PaymentRequest) (w : World b) :
    (beginPayment config r).runFrom w = (begun config r (w.ids.transactions + 1),
      { w with ids := { w.ids with transactions := w.ids.transactions + 1 } }) := by
  simp only [beginPayment, begun, runFrom_get_bind, runFrom_modify_bind]
  cases r.amount.toAmount with
  | error failure => rfl
  | ok d =>
    cases merchant : config.directory r.merchant with
    | error failure => simp only [runFrom_check_ok, runFrom_check_error, ok_bind, error_bind]
    | ok m => rfl

theorem confined_resolvePayment (config : Config) {a : Scope} {p : Payment}
    (mine : p.user = a.user) (known : ∀ id ∈ p.named, id ∈ a.intents) :
    Confined a (resolvePayment config p : Service b _) := by
  unfold resolvePayment
  cases named : p.named with
  | some id =>
    refine (confined_findIntent? (known id named)).bind fun found => ?_
    cases found with
    | none => exact confined_throw _
    | some i => exact confined_ite (confined_pure _) (confined_throw _)
  | none =>
    refine confined_ite (confined_pure _) ?_
    rw [mine]
    exact confined_listIntents.bind fun _ => (confined_check _).bind fun _ => confined_pure _

/-- A payment that names an intent of another user is told that there is none. -/
theorem runFrom_resolvePayment_foreign (owners : b.KeepsOwners) (config : Config) {p : Payment}
    {id : String} (named : p.named = some id) (legible : w.Legible)
    (foreign : ∀ row ∈ w.store.intents, b.intents.id row = id → b.intents.user row ≠ p.user) :
    (resolvePayment config p).runFrom w = (.error (.intentNotFound id (.forUser p.user)), w) := by
  simp only [resolvePayment, named, findIntent?, bind_assoc, runFrom_get_bind]
  cases found : b.intents.find? id w.store.intents with
  | none => rfl
  | some row =>
    have mem := List.mem_of_find?_eq_some found
    obtain ⟨i, read⟩ := legible row mem
    have same : b.intents.id row = id := by simpa using List.find?_some found
    have apart : i.user ≠ p.user := (owners.intents.read read).2 ▸ foreign row mem same
    have looked : (some row).mapM b.intents.read = .ok (some i) := by
      simp [Option.mapM_some, read]
    simp only [looked, runFrom_check_ok, apart, ↓reduceIte, runFrom_throw]

/-- A payment goes to an intent that no one but the payer has. -/
theorem belongs_of_resolvePayment (owners : b.KeepsOwners) (config : Config) {p : Payment}
    {id : String} {after : World b} (distinct : w.Distinct)
    (done : (resolvePayment config p).runFrom w = (.ok (some id), after)) :
    b.intents.Belongs p.user id w.store.intents := by
  have of_read {row : b.intents.Row} {i : Intent} (mem : row ∈ w.store.intents)
      (read : b.intents.read row = .ok i) (mine : i.user = p.user) :
      b.intents.Belongs p.user i.id w.store.intents := by
    obtain ⟨sameId, sameUser⟩ := owners.intents.read read
    rw [sameId, ← mine, sameUser]
    exact Table.belongs_of_mem distinct.intents mem
  unfold resolvePayment at done
  cases named : p.named with
  | some given =>
    simp only [named, findIntent?, bind_assoc, runFrom_get_bind] at done
    cases found : b.intents.find? given w.store.intents with
    | none =>
      rw [found] at done
      cases done
    | some row =>
      rw [found] at done
      cases read : b.intents.read row with
      | error failure =>
        have looked : (some row).mapM b.intents.read = .error failure := by
          simp [Option.mapM_some, read]
        rw [looked, runFrom_check_error] at done
        cases done
      | ok i =>
        have looked : (some row).mapM b.intents.read = .ok (some i) := by
          simp [Option.mapM_some, read]
        rw [looked, runFrom_check_ok] at done
        by_cases mine : i.user = p.user
        · simp only [mine, ↓reduceIte, runFrom_pure] at done
          cases done
          exact of_read (List.mem_of_find?_eq_some found) read mine
        · simp [mine] at done
  | none =>
    cases emergency : p.context.emergency with
    | true =>
      simp [named, emergency] at done
    | false =>
      simp only [named, emergency, Bool.false_eq_true, ↓reduceIte, listIntents, bind_assoc,
        runFrom_get_bind] at done
      cases listed : (b.intents.ofUser p.user w.store.intents >>= sortByTime Intent.createdAt) with
      | error failure =>
        rw [listed, runFrom_check_error] at done
        cases done
      | ok own =>
        rw [listed, runFrom_check_ok] at done
        cases chose : config.strategy.choose own (.decimal p.amount) p.context.requestedAt with
        | error failure =>
          rw [chose, runFrom_check_error] at done
          cases done
        | ok chosen =>
          rw [chose, runFrom_check_ok, runFrom_pure] at done
          obtain ⟨i, rfl, rfl⟩ := Option.map_eq_some_iff.mp (Except.ok.inj (congrArg Prod.fst done))
          obtain ⟨intents, read, sorted⟩ := bind_ok_iff.mp listed
          obtain ⟨row, kept, readRow⟩ :=
            exists_of_mem_mapM read (mem_of_sortByTime sorted (Strategy.mem_of_choose chose))
          obtain ⟨mem, own⟩ := List.mem_filter.mp kept
          exact of_read mem readRow
            ((owners.intents.read readRow).2.trans (by simpa using own))

/-- What a payment goes to depends on what the payer has. -/
theorem resolvePayment_same (owners : b.KeepsOwners) (config : Config) {p : Payment}
    {w' : World b} (distinct : w.Distinct) (distinct' : w'.Distinct) (legible : w.Legible)
    (legible' : w'.Legible) (agrees : World.Agrees p.user w w') :
    ((resolvePayment config p).runFrom w).1 = ((resolvePayment config p).runFrom w').1 := by
  cases named : p.named with
  | none =>
    have known : ∀ id ∈ p.named, id ∈ ({ user := p.user } : Scope).intents := by simp [named]
    exact ((confined_resolvePayment config rfl known).own ⟨nofun, nofun⟩ ⟨nofun, nofun⟩
      ⟨nofun, nofun⟩ ⟨nofun, nofun⟩ agrees).1
  | some id =>
    have kept : w.store.intents.filter (b.intents.user · == p.user) =
        w'.store.intents.filter (b.intents.user · == p.user) := congrArg Store.intents agrees.store
    by_cases has : ∃ row ∈ w.store.intents, b.intents.id row = id ∧ b.intents.user row = p.user
    · obtain ⟨row, mem, rfl, mine⟩ := has
      rw [← mine] at kept
      have belongs := mine ▸ Table.belongs_of_mem distinct.intents mem
      have belongs' := mine ▸ Table.belongs_of_same distinct'.intents mem kept
      have known : ∀ other ∈ p.named, other ∈ [b.intents.id row] := by simp [named]
      exact ((confined_resolvePayment (a := { user := p.user, intents := [b.intents.id row] })
        config rfl known).own ⟨by simpa using belongs, nofun⟩ ⟨by simpa using belongs', nofun⟩
          ⟨nofun, nofun⟩ ⟨nofun, nofun⟩ agrees).1
    · have foreign : ∀ row ∈ w.store.intents, b.intents.id row = id →
          b.intents.user row ≠ p.user := fun row mem same mine => has ⟨row, mem, same, mine⟩
      have foreign' : ∀ row ∈ w'.store.intents, b.intents.id row = id →
          b.intents.user row ≠ p.user := fun row mem same mine => by
        have known : row ∈ w.store.intents.filter (b.intents.user · == p.user) :=
          kept ▸ List.mem_filter.mpr ⟨mem, by simpa using mine⟩
        exact foreign row (List.mem_filter.mp known).1 same mine
      rw [runFrom_resolvePayment_foreign owners config named legible foreign,
        runFrom_resolvePayment_foreign owners config named legible' foreign']

/-- A payment once it is begun. -/
def payBegun (config : Config) (now : Time) (p : Payment) : Service b PaymentResult :=
  resolvePayment config p >>= payTo config now p

theorem pay_eq (config : Config) (now : Time) (r : PaymentRequest) :
    (pay config now r : Service b PaymentResult) = beginPayment config r >>= payBegun config now :=
  rfl

theorem runFrom_payBegun (config : Config) (now : Time) (p : Payment) (w : World b) :
    (payBegun config now p).runFrom w =
      (check ((resolvePayment config p).runFrom w).1 >>= payTo config now p).runFrom w := by
  have still := readsOnly_resolvePayment config p w
  rw [payBegun, runFrom_bind, runFrom_bind, runFrom_check]
  rcases ran : (resolvePayment config p).runFrom w with ⟨result, after⟩
  rw [ran] at still
  obtain rfl : after = w := still
  rfl

/-- A payment that is begun acts for the payer. -/
theorem private_payBegun (owners : b.KeepsOwners) (config : Config) (now : Time) (p : Payment)
    (distinct : w.Distinct) :
    Private (payBegun config now p : Service b PaymentResult) (fun _ => some p.user) givesOwn
      w := by
  have paid (target : Option String) : Confined { user := p.user, intents := target.toList }
      (payTo config now p target : Service b PaymentResult) :=
    confined_payTo owners config now rfl fun _ known => Option.mem_toList.mpr known
  have owns {w : World b} (distinct : w.Distinct) {target : Option String}
      (resolved : ((resolvePayment config p).runFrom w).1 = .ok target) :
      ({ user := p.user, intents := target.toList } : Scope).Owns w := by
    refine ⟨fun id known => ?_, nofun⟩
    obtain rfl : target = some id := Option.mem_toList.mp known
    exact belongs_of_resolvePayment owners config distinct (Prod.ext resolved rfl)
  constructor
  · intro v apart
    rw [runFrom_payBegun]
    cases resolved : ((resolvePayment config p).runFrom w).1 with
    | error failure => rfl
    | ok target =>
      rw [runFrom_check_ok]
      exact (paid target).others (owns distinct resolved) v fun same => apart (same ▸ rfl)
  · intro u acts _ legible w' distinct' legible' _ agrees
    obtain rfl := Option.some.inj acts
    have same := resolvePayment_same owners config distinct distinct' legible legible' agrees
    rw [runFrom_payBegun, runFrom_payBegun, ← same]
    cases resolved : ((resolvePayment config p).runFrom w).1 with
    | error failure => exact ⟨rfl, agrees⟩
    | ok target =>
      rw [runFrom_check_ok, runFrom_check_ok]
      exact (paid target).own (owns distinct resolved) (owns distinct' (same.symm.trans resolved))
        ⟨nofun, nofun⟩ ⟨nofun, nofun⟩ agrees
  · nofun

theorem private_pay (owners : b.KeepsOwners) (config : Config) (now : Time) (r : PaymentRequest)
    (distinct : w.Distinct) :
    Private (pay config now r : Service b PaymentResult) (fun _ => some r.user) givesOwn w := by
  let numbered (w : World b) : World b :=
    { w with ids := { w.ids with transactions := w.ids.transactions + 1 } }
  let payment (w : World b) := begun config r (w.ids.transactions + 1)
  have runs (w : World b) : (pay config now r).runFrom w =
      (check (payment w) >>= payBegun config now).runFrom (numbered w) := by
    rw [pay_eq, runFrom_bind, runFrom_begun, runFrom_bind]
    rfl
  have acts {w : World b} (distinct : w.Distinct) {p : Payment} (made : payment w = .ok p) :
      Private (payBegun config now p : Service b PaymentResult) (fun _ => some r.user)
        (fun _ => True) (numbered w) :=
    (of_begun made).1 ▸ private_payBegun owners config now p ⟨distinct.intents, distinct.escrows⟩
  constructor
  · intro v apart
    rw [runs]
    cases made : payment w with
    | error failure => rfl
    | ok p =>
      rw [runFrom_check_ok]
      exact (acts distinct made).others v apart
  · intro u actor given legible w' distinct' legible' given' agrees
    obtain rfl := Option.some.inj actor
    have same : payment w = payment w' := by simp only [payment, agrees.ids]
    have agrees : World.Agrees r.user (numbered w) (numbered w') :=
      { agrees with ids := by simp only [numbered, agrees.ids] }
    rw [runs, runs, ← same]
    cases made : payment w with
    | error failure => exact ⟨rfl, agrees⟩
    | ok p =>
      rw [runFrom_check_ok, runFrom_check_ok]
      exact (acts distinct made).own r.user rfl trivial legible (numbered w')
        ⟨distinct'.intents, distinct'.escrows⟩ legible' trivial agrees
  · nofun

/-! ### Commands and inquiries -/

theorem updateIntent_missing {id : String} (lost : b.intents.find? id w.store.intents = none)
    (change : Intent → Service b (α × Intent)) :
    (updateIntent id change).runFrom w = (.error (.intentNotFound id b.lookup), w) := by
  rw [updateIntent, runFrom_atomic, runFrom_get_bind, lost]
  simp only [runFrom_throw, ite_self]

theorem updateEscrow_missing {id : String} (lost : b.escrows.find? id w.store.escrows = none)
    (change : Escrow → Except Failure (α × Escrow)) :
    (updateEscrow id change).runFrom w = (.error (.escrowNotFound id b.lookup), w) := by
  rw [updateEscrow, runFrom_atomic, runFrom_get_bind, lost]
  simp only [runFrom_throw, ite_self]

theorem private_run (owners : b.KeepsOwners) (config : Config) (now : Time) (c : Command)
    (distinct : w.Distinct) :
    Private (c.run config now : Service b Reply) c.actsFor c.GivesOwn w := by
  cases c with
  | openWallet user balance =>
    exact (private_of_named user (confined_openWallet balance)).reply _
  | lockFunds user amount fails =>
    refine (private_of_named user (confined_lockFunds amount ?_)).reply _
    exact confined_ite (confined_throw _) (confined_pure _)
  | releaseFunds user amount =>
    exact (private_of_named user (confined_releaseFunds amount)).reply _
  | createIntent user text policy =>
    exact (private_createIntent owners config now user text policy).reply _
  | addIntent i =>
    have added : Confined { user := i.user, newIntents := [i.id] } (addIntent i : Service b Unit) :=
      confined_addIntent owners rfl (List.mem_singleton.mpr rfl)
    refine (private_of_numbered (fun _ => { user := i.user, newIntents := [i.id] })
      (fun _ => addIntent i) World.ids (fun _ => rfl) (fun _ => added) (fun _ => rfl)
      (fun _ => ⟨nofun, nofun⟩) (fun w given => ⟨?_, nofun⟩)
      fun _ _ agrees => ⟨rfl, rfl, agrees.ids⟩).reply _
    rintro _ (_ | ⟨_, ⟨⟩⟩)
    exact given
  | useIntent id amount =>
    exact (private_of_intent distinct
      (fun _ => confined_useIntent owners (List.mem_singleton.mpr rfl) amount)
      fun lost => ⟨_, updateIntent_missing lost _⟩).reply _
  | violateIntent id =>
    exact (private_of_intent distinct
      (fun _ => confined_violateIntent owners (List.mem_singleton.mpr rfl))
      fun lost => ⟨_, updateIntent_missing lost _⟩).reply _
  | cancelIntent id =>
    exact (private_of_intent distinct
      (fun _ => confined_cancelIntent owners (List.mem_singleton.mpr rfl))
      fun lost => ⟨_, runFrom_bind_error (updateIntent_missing lost _) _⟩).reply _
  | pay r => exact (private_pay owners config now r distinct).reply _
  | createEscrow user specs title intentId =>
    exact (private_createEscrow owners config now user specs title intentId).reply _
  | releaseMilestone escrowId milestoneId proof merchantId =>
    exact (private_of_escrow distinct
      (fun _ => confined_releaseMilestone owners config now (List.mem_singleton.mpr rfl) milestoneId
        proof merchantId)
      fun lost => ⟨_, runFrom_bind_error (updateEscrow_missing lost _) _⟩).reply _
  | clawBack escrowId reason part =>
    exact (private_of_escrow distinct
      (fun _ => confined_clawBack owners config now (List.mem_singleton.mpr rfl) reason part)
      fun lost => ⟨_, runFrom_bind_error (updateEscrow_missing lost _) _⟩).reply _
  | recordEvent user kind description =>
    exact (private_of_named user
      (confined_recordEvent owners config now kind description)).reply _

theorem private_ask (config : Config) (q : Inquiry) (distinct : w.Distinct) :
    Private (q.ask config : Service b Answer) q.actsFor (fun _ => True) w := by
  cases q with
  | available user =>
    exact (private_of_named user (confined_findWallet.bind confined_availableIn)).reply _
  | locked user =>
    exact (private_of_named user (confined_findWallet.bind fun _ => confined_check _)).reply _
  | intent id =>
    refine (private_of_intent distinct (fun _ => (confined_findIntent?
      (List.mem_singleton.mpr rfl)).bind fun _ => confined_check _)
      fun lost => ⟨.intentNotFound id .byId, ?_⟩).reply _
    simp only [findIntent?, bind_assoc, runFrom_get_bind, lost]
    rfl
  | intents user => exact (private_of_named user confined_listIntents).reply _
  | payments user limit => exact (private_of_named user (confined_history limit)).reply _
  | escrow id =>
    refine (private_of_escrow distinct (fun _ => confined_getEscrow (List.mem_singleton.mpr rfl))
      fun lost => ⟨.escrowNotFound id .byId, ?_⟩).reply _
    simp only [getEscrow, runFrom_get_bind, lost]
    rfl
  | escrows user => exact (private_of_named user confined_listEscrows).reply _
  | reputation user =>
    refine (private_of_named user ?_).reply _
    exact (confined_get (fun _ _ _ _ agrees => by rw [agrees.ofEvents]) fun _ _ =>
      confined_check _).bind fun _ =>
        Confined.bind (confined_get (fun _ _ _ _ agrees => by rw [agrees.lookupScore]) fun _ _ =>
          confined_pure _) fun _ => confined_pure _
  | summary user =>
    exact (private_of_named user ((confined_history none).bind fun _ =>
      confined_listIntents.bind fun _ => confined_listEscrows.bind fun _ =>
        confined_check _)).reply _

end Service

/-- Every command and every inquiry acts for one user: it leaves alone all that is kept of others,
and it gives the same and does the same to what is kept of that user wherever the same is kept of
that user. A payment that names an intent the payer does not have, be there one of another user or
none, goes no further than to take its number and check its amount and its merchant; that it is an
emergency changes nothing. -/
theorem World.users_isolated (owners : b.KeepsOwners) (config : Config) {w : World b}
    (distinct : w.Distinct) :
    (∀ now (c : Command), Service.Private (c.run config now) c.actsFor c.GivesOwn w) ∧
      (∀ q : Inquiry, Service.Private (q.ask config) q.actsFor (fun _ => True) w ∧
        ((q.ask config).runFrom w).2 = w) ∧
      ∀ now (r : PaymentRequest) id, r.intentId = some id → w.Legible →
        (∀ row ∈ w.store.intents, b.intents.id row = id → b.intents.user row ≠ r.user) →
          (Service.pay config now r).runFrom w =
            (Service.beginPayment config r >>= fun _ =>
              throw (.intentNotFound id (.forUser r.user))).runFrom w := by
  refine ⟨fun now c => Service.private_run owners config now c distinct, fun q =>
    ⟨Service.private_ask config q distinct, Service.readsOnly_ask config q w⟩, ?_⟩
  intro now r id named legible foreign
  rw [Service.pay_eq, Service.runFrom_bind, Service.runFrom_bind, Service.runFrom_begun]
  cases made : Service.begun config r (w.ids.transactions + 1) with
  | error failure => rfl
  | ok p =>
    obtain ⟨payer, same⟩ := Service.of_begun made
    have resolved := Service.runFrom_resolvePayment_foreign owners config (same.trans named)
      (w := { w with ids := { w.ids with transactions := w.ids.transactions + 1 } }) legible
      (payer ▸ foreign)
    dsimp only
    rw [Service.runFrom_payBegun, resolved, payer]
    rfl

namespace Sample

/-- Another user's emergency, for which the reader's intent is named. -/
def trespass : PaymentRequest :=
  { user := "writer", merchant := "MRC001", amount := .whole 10, intentId := some (Ids.intent 1)
    emergency := true, requestedAt := today }

end Sample

/-- What the reader has is not there for the writer, and whether the writer has a wallet makes no
difference to the reader. -/
theorem World.users_isolated_writer :
    let w := Sample.start.after Sample.config Sample.payments
    let joined := (w.step Sample.config Sample.today (.openWallet "writer" (.whole 5))).2
    let cancel : Command := .cancelIntent (Ids.intent 1)
    let trespass := (Service.pay Sample.config Sample.today Sample.trespass).runFrom w
    trespass.1.toOption.isNone ∧ trespass.2.store = w.store ∧
      joined.store.only "reader" = w.store.only "reader" ∧
      (w.step Sample.config Sample.today cancel).1 =
        (joined.step Sample.config Sample.today cancel).1 := by
  intro w joined cancel trespass
  have distinct : w.Distinct := ⟨by decide +kernel, by decide +kernel⟩
  have joinedDistinct : joined.Distinct := ⟨by decide +kernel, by decide +kernel⟩
  obtain ⟨commands, -, payments⟩ :=
    World.users_isolated Backend.memory_keepsOwners Sample.config distinct
  have others := (commands Sample.today (.openWallet "writer" (.whole 5))).others "reader"
    (by simp [Command.actsFor])
  have agrees : World.Agrees "reader" w joined := by
    have kept : joined.ids = w.ids ∧ joined.outage = w.outage ∧
        joined.eventWrites = w.eventWrites ∧ joined.recordWrites = w.recordWrites := by
      change let after := ((Service.openWallet _ _ >>= fun _ => pure Reply.done).runFrom w).2
        after.ids = w.ids ∧ after.outage = w.outage ∧ after.eventWrites = w.eventWrites ∧
          after.recordWrites = w.recordWrites
      rw [Service.runFrom_bind, Service.runFrom_openWallet]
      cases (Wallet.findIn w.wallets "writer").isSome <;> cases (Numeral.whole 5).toAmount <;>
        exact ⟨rfl, rfl, rfl, rfl⟩
    obtain ⟨ids, outage, eventWrites, recordWrites⟩ := kept
    exact ⟨others.symm, ids.symm, outage.symm, eventWrites.symm, recordWrites.symm⟩
  have paid := payments Sample.today Sample.trespass (Ids.intent 1) rfl w.legible_memory
    (by decide +kernel)
  refine ⟨?_, ?_, others, ?_⟩
  · change ((Service.pay _ _ _).runFrom w).1.toOption.isNone = true
    rw [paid, Service.runFrom_bind, Service.runFrom_begun]
    cases Service.begun Sample.config Sample.trespass (w.ids.transactions + 1) <;> rfl
  · change ((Service.pay _ _ _).runFrom w).2.store = w.store
    rw [paid, Service.runFrom_bind, Service.runFrom_begun]
    cases Service.begun Sample.config Sample.trespass (w.ids.transactions + 1) <;> rfl
  · exact ((commands Sample.today cancel).own "reader" (by decide +kernel) trivial w.legible_memory
      joined joinedDistinct joined.legible_memory trivial agrees).1

end Earmark
