import Earmark.Proofs.Atomicity
import Earmark.Proofs.ReputationLog
import Earmark.Service.Inquiry

/-!
Operations that act for one user. What is kept of a user is what remains of a store when all else is
left out (`Store.only`). An operation is confined to a user when it changes nothing that is kept of
others and when, from any two worlds in which the same is kept of the user, it gives the same result
and keeps the same of the user (`Service.Confined`).
-/

namespace Earmark

variable {b : Backend} {u v : String}

/-! ### Tables -/

/-- A table keeps a record under its id, and for its user. -/
structure Table.KeepsOwner {α : Type} (t : Table α) (id user : α → String) : Prop where
  write : ∀ {a row}, t.write a = .ok row → t.id row = id a ∧ t.user row = user a
  update : ∀ {row a changed}, t.update row a = .ok changed → id a = t.id row →
    user a = t.user row → t.id changed = t.id row ∧ t.user changed = t.user row
  read : ∀ {row a}, t.read row = .ok a → id a = t.id row ∧ user a = t.user row

theorem Table.keepsOwner_direct {α : Type} (id user : α → String) :
    (Table.direct id user).KeepsOwner id user where
  write written := by
    cases written
    exact ⟨rfl, rfl⟩
  update updated sameId sameUser := by
    cases updated
    exact ⟨sameId, sameUser⟩
  read read := by
    cases read
    exact ⟨rfl, rfl⟩

/-- Every table of the backend does so. -/
structure Backend.KeepsOwners (b : Backend) : Prop where
  intents : b.intents.KeepsOwner Intent.id Intent.user
  escrows : b.escrows.KeepsOwner Escrow.id Escrow.user
  records : b.records.KeepsOwner TransactionRecord.id TransactionRecord.user
  events : b.events.KeepsOwner ReputationEvent.id ReputationEvent.user

theorem Backend.memory_keepsOwners : Backend.memory.KeepsOwners :=
  ⟨Table.keepsOwner_direct _ _, Table.keepsOwner_direct _ _, Table.keepsOwner_direct _ _,
    Table.keepsOwner_direct _ _⟩

theorem IntentRow.owner_of_ofIntent {i : Intent} {row : IntentRow}
    (written : IntentRow.ofIntent i = .ok row) : row.id = i.id ∧ row.user = i.user := by
  simp only [IntentRow.ofIntent, bind_ok_iff] at written
  obtain ⟨used, -, days, -, violations, -, approvals, -, checked⟩ := written
  split at checked
  · cases checked
  · cases checked
    exact ⟨rfl, rfl⟩

theorem IntentRow.owner_of_update {row changed : IntentRow} {i : Intent}
    (updated : row.update i = .ok changed) : changed.id = row.id ∧ changed.user = row.user := by
  simp only [IntentRow.update, bind_ok_iff] at updated
  obtain ⟨violations, -, approvals, -, updated⟩ := updated
  cases updated
  exact ⟨rfl, rfl⟩

theorem IntentRow.owner_of_toIntent {row : IntentRow} {i : Intent}
    (read : row.toIntent = .ok i) : i.id = row.id ∧ i.user = row.user := by
  simp only [IntentRow.toIntent, bind_ok_iff] at read
  obtain ⟨geo, -, split, -, policy, -, status, -, used, -, read⟩ := read
  cases read
  exact ⟨rfl, rfl⟩

theorem EscrowRow.owner_of_toEscrow {row : EscrowRow} {e : Escrow}
    (read : row.toEscrow = .ok e) : e.id = row.id ∧ e.user = row.user := by
  simp only [EscrowRow.toEscrow, bind_ok_iff] at read
  obtain ⟨milestones, -, clawback, -, read⟩ := read
  cases read
  exact ⟨rfl, rfl⟩

theorem RecordRow.owner_of_ofRecord {r : TransactionRecord} {row : RecordRow}
    (written : RecordRow.ofRecord r = .ok row) : row.id = r.id ∧ row.user = r.user := by
  simp only [RecordRow.ofRecord, bind_ok_iff] at written
  obtain ⟨merchant, -, written⟩ := written
  cases written
  exact ⟨rfl, rfl⟩

theorem RecordRow.owner_of_toRecord {row : RecordRow} {r : TransactionRecord}
    (read : row.toRecord = .ok r) : r.id = row.id ∧ r.user = row.user := by
  simp only [RecordRow.toRecord, bind_ok_iff] at read
  obtain ⟨amount, -, failedAt, -, risk, -, read⟩ := read
  cases read
  exact ⟨rfl, rfl⟩

theorem EventRow.owner_of_toEvent {row : EventRow} {e : ReputationEvent}
    (read : row.toEvent = .ok e) : e.id = row.id ∧ e.user = row.user := by
  simp only [EventRow.toEvent, bind_ok_iff] at read
  obtain ⟨kind, -, read⟩ := read
  cases read
  exact ⟨rfl, rfl⟩

theorem Backend.relational_keepsOwners : Backend.relational.KeepsOwners where
  intents :=
    { write := IntentRow.owner_of_ofIntent
      update := fun updated _ _ => IntentRow.owner_of_update updated
      read := IntentRow.owner_of_toIntent }
  escrows :=
    { write := by
        rintro e _ ⟨⟩
        exact ⟨rfl, rfl⟩
      update := by
        rintro row e _ ⟨⟩ - -
        exact ⟨rfl, rfl⟩
      read := EscrowRow.owner_of_toEscrow }
  records :=
    { write := RecordRow.owner_of_ofRecord
      update := by
        rintro row r _ ⟨⟩ - -
        exact ⟨rfl, rfl⟩
      read := RecordRow.owner_of_toRecord }
  events :=
    { write := by
        rintro e _ ⟨⟩
        exact ⟨rfl, rfl⟩
      update := by
        rintro row e _ ⟨⟩ - -
        exact ⟨rfl, rfl⟩
      read := EventRow.owner_of_toEvent }

/-! ### What is kept of a user -/

section

variable {α : Type} {user : α → String} {chosen : α → Bool} {change : α → α} {xs : List α}

/-- What is changed of a user's is changed in what is kept of the user. -/
theorem filter_overwrite_self (mine : ∀ x ∈ xs, chosen x → user x = u)
    (kept : ∀ x, chosen x → user (change x) = u) :
    (xs.map fun x => if chosen x then change x else x).filter (user · == u) =
      (xs.filter (user · == u)).map fun x => if chosen x then change x else x := by
  rw [List.filter_map]
  refine congrArg _ (List.filter_congr fun x mem => ?_)
  by_cases hit : chosen x
  · simp [hit, mine x mem hit, kept x hit]
  · simp [hit]

/-- What is changed of a user's leaves alone what is kept of others. -/
theorem filter_overwrite_other (mine : ∀ x ∈ xs, chosen x → user x = u)
    (kept : ∀ x, chosen x → user (change x) = u) (apart : v ≠ u) :
    (xs.map fun x => if chosen x then change x else x).filter (user · == v) =
      xs.filter (user · == v) := by
  induction xs with
  | nil => rfl
  | cons x rest ih =>
    rw [List.map_cons, List.filter_cons, List.filter_cons,
      ih fun other mem => mine other (List.mem_cons_of_mem x mem)]
    by_cases hit : chosen x
    · simp [hit, mine x List.mem_cons_self hit, kept x hit, apart.symm]
    · simp [hit]

end

/-- No other user has a row with the id. -/
def Table.Belongs {α : Type} (t : Table α) (user id : String) (rows : List t.Row) : Prop :=
  ∀ row ∈ rows, t.id row = id → t.user row = user

namespace Table

variable {α : Type} {t : Table α} {user other id : String} {rows : List t.Row} {row : t.Row}

theorem find?_filter_user (belongs : t.Belongs user id rows) :
    t.find? id (rows.filter (t.user · == user)) = t.find? id rows := by
  rw [Table.find?, Table.find?, List.find?_filter]
  refine List.find?_congr fun row mem => ?_
  by_cases found : t.id row = id
  · simp [found, belongs row mem found]
  · simp [found]

theorem user_of_find? (belongs : t.Belongs user id rows) (found : t.find? id rows = some row) :
    t.id row = id ∧ t.user row = user := by
  have same : t.id row = id := by simpa using List.find?_some found
  exact ⟨same, belongs row (List.mem_of_find?_eq_some found) same⟩

theorem filter_replace_self (belongs : t.Belongs user id rows) (owned : t.user row = user) :
    (t.replace id row rows).filter (t.user · == user) =
      t.replace id row (rows.filter (t.user · == user)) :=
  filter_overwrite_self (fun old mem found => belongs old mem (by simpa using found))
    fun _ _ => owned

theorem filter_replace_other (belongs : t.Belongs user id rows) (owned : t.user row = user)
    (apart : other ≠ user) :
    (t.replace id row rows).filter (t.user · == other) = rows.filter (t.user · == other) :=
  filter_overwrite_other (fun old mem found => belongs old mem (by simpa using found))
    (fun _ _ => owned) apart

end Table

/-- What is kept of a user. -/
def Store.only (u : String) (s : Store b) : Store b where
  wallets := s.wallets.filter (·.user == u)
  intents := s.intents.filter (b.intents.user · == u)
  escrows := s.escrows.filter (b.escrows.user · == u)
  records := s.records.filter (b.records.user · == u)
  events := s.events.filter (b.events.user · == u)
  scores := s.scores.filter (·.1 == u)

/-- The same is kept of the user, the same ids were given and the same writes fail. -/
structure World.Agrees (u : String) (w₁ w₂ : World b) : Prop where
  store : w₁.store.only u = w₂.store.only u
  ids : w₁.ids = w₂.ids
  outage : w₁.outage = w₂.outage
  eventWrites : w₁.eventWrites = w₂.eventWrites
  recordWrites : w₁.recordWrites = w₂.recordWrites

/-- No other user has an intent or an escrow with one of these ids. -/
structure Store.Reserved (u : String) (intents escrows : List String) (s : Store b) : Prop where
  intents : ∀ id ∈ intents, b.intents.Belongs u id s.intents
  escrows : ∀ id ∈ escrows, b.escrows.Belongs u id s.escrows

/-- What leaves alone what is kept of others leaves them without those ids. -/
theorem Store.Reserved.of_others {intents escrows : List String} {s after : Store b}
    (reserved : s.Reserved u intents escrows)
    (others : ∀ v, v ≠ u → after.only v = s.only v) : after.Reserved u intents escrows where
  intents id known row mem same := by
    by_contra apart
    have kept := congrArg Store.intents (others _ apart)
    have mem : row ∈ (after.only (b.intents.user row)).intents := List.mem_filter.mpr ⟨mem, by simp⟩
    rw [kept] at mem
    exact apart (reserved.intents id known row (List.mem_filter.mp mem).1 same)
  escrows id known row mem same := by
    by_contra apart
    have kept := congrArg Store.escrows (others _ apart)
    have mem : row ∈ (after.only (b.escrows.user row)).escrows := List.mem_filter.mpr ⟨mem, by simp⟩
    rw [kept] at mem
    exact apart (reserved.escrows id known row (List.mem_filter.mp mem).1 same)

/-- Whom an operation acts for, with the ids of the intents and escrows that it changes and the ids
of those that it adds. -/
structure Scope where
  user : String
  intents : List String := []
  escrows : List String := []
  newIntents : List String := []
  newEscrows : List String := []

/-- What the operation changes is no one else's. -/
def Scope.Owns (a : Scope) (w : World b) : Prop := w.store.Reserved a.user a.intents a.escrows

/-- The ids that the operation gives are no one else's. -/
def Scope.Gives (a : Scope) (w : World b) : Prop :=
  w.store.Reserved a.user a.newIntents a.newEscrows

namespace Service

variable {α β : Type} {a : Scope}

/-- The operation acts for the user alone: it leaves alone what is kept of others, and what it gives
and does to what is kept of the user depends on nothing else. -/
structure Confined (a : Scope) (op : Service b α) : Prop where
  others : ∀ {w : World b}, a.Owns w → ∀ v, v ≠ a.user →
    (op.runFrom w).2.store.only v = w.store.only v
  own : ∀ {w₁ w₂ : World b}, a.Owns w₁ → a.Owns w₂ → a.Gives w₁ → a.Gives w₂ →
    World.Agrees a.user w₁ w₂ → (op.runFrom w₁).1 = (op.runFrom w₂).1 ∧
      World.Agrees a.user (op.runFrom w₁).2 (op.runFrom w₂).2

/-- Whatever the operation gives has the property. -/
def Yields (p : α → Prop) (op : Service b α) : Prop :=
  ∀ ⦃w : World b⦄ ⦃x after⦄, op.runFrom w = (.ok x, after) → p x

theorem yields_check (result : Except Failure α) :
    Yields (fun x => result = .ok x) (check result : Service b α) :=
  fun _ _ _ done => congrArg Prod.fst done

theorem Yields.bind {q : α → Prop} {p : β → Prop} {op : Service b α} {next : α → Service b β}
    (first : Yields q op) (rest : ∀ x, q x → Yields p (next x)) : Yields p (op >>= next) := by
  intro w y after done
  rw [runFrom_bind] at done
  rcases ran : op.runFrom w with ⟨failure | x, middle⟩
  · rw [ran] at done
    cases done
  · rw [ran] at done
    exact rest x (first ran) done

theorem yields_of_last {p : β → Prop} {op : Service b α} {next : α → Service b β}
    (rest : ∀ x, Yields p (next x)) : Yields p (op >>= next) :=
  Yields.bind (fun _ _ _ _ => trivial : Yields (fun _ => True) op) fun x _ => rest x

theorem yields_pure {p : α → Prop} {x : α} (good : p x) :
    Yields p (pure x : Service b α) := by
  rintro w _ _ ⟨⟩
  exact good

theorem yields_ite {p : α → Prop} {condition : Prop} [Decidable condition]
    {op other : Service b α} (first : Yields p op) (second : Yields p other) :
    Yields p (if condition then op else other) := by
  split
  · exact first
  · exact second

/-! ### Composition -/

theorem confined_pure (x : α) : Confined a (pure x : Service b α) where
  others _ _ _ := rfl
  own _ _ _ _ agrees := ⟨rfl, agrees⟩

theorem confined_throw (failure : Failure) : Confined a (throw failure : Service b α) where
  others _ _ _ := rfl
  own _ _ _ _ agrees := ⟨rfl, agrees⟩

theorem confined_check (result : Except Failure α) : Confined a (check result : Service b α) where
  others _ _ _ := rfl
  own _ _ _ _ agrees := ⟨rfl, agrees⟩

theorem Confined.bindWith {p : α → Prop} {op : Service b α} {next : α → Service b β}
    (first : Confined a op)
    (yields : ∀ {w : World b} {x after}, a.Owns w → op.runFrom w = (.ok x, after) → p x)
    (rest : ∀ x, p x → Confined a (next x)) : Confined a (op >>= next) where
  others {w} owns v apart := by
    have before := first.others owns
    rw [runFrom_bind]
    cases done : op.runFrom w with
    | mk result middle =>
      rw [done] at before
      cases result with
      | error failure => exact before v apart
      | ok x =>
        exact ((rest x (yields owns done)).others (owns.of_others before) v apart).trans
          (before v apart)
  own {w₁ w₂} owns₁ owns₂ gives₁ gives₂ agrees := by
    obtain ⟨same, after⟩ := first.own owns₁ owns₂ gives₁ gives₂ agrees
    have others₁ := first.others owns₁
    have others₂ := first.others owns₂
    rw [runFrom_bind, runFrom_bind]
    cases done₁ : op.runFrom w₁ with
    | mk result₁ middle₁ =>
      cases done₂ : op.runFrom w₂ with
      | mk result₂ middle₂ =>
        rw [done₁, done₂] at same after
        rw [done₁] at others₁
        rw [done₂] at others₂
        obtain rfl : result₁ = result₂ := same
        cases result₁ with
        | error failure => exact ⟨rfl, after⟩
        | ok x =>
          exact (rest x (yields owns₁ done₁)).own (owns₁.of_others others₁)
            (owns₂.of_others others₂) (gives₁.of_others others₁) (gives₂.of_others others₂) after

theorem Confined.bind {op : Service b α} {next : α → Service b β} (first : Confined a op)
    (rest : ∀ x, Confined a (next x)) : Confined a (op >>= next) :=
  first.bindWith (fun _ _ => trivial) fun x _ => rest x

theorem confined_check_bind {result : Except Failure α} {next : α → Service b β}
    (rest : ∀ x, result = .ok x → Confined a (next x)) : Confined a (check result >>= next) :=
  (confined_check result).bindWith (fun _ done => yields_check result done) rest

/-- What goes on from the world reads only what is kept of the user. -/
theorem confined_get {next : World b → Service b α}
    (same : ∀ {w₁ w₂}, a.Owns w₁ → a.Owns w₂ → a.Gives w₁ → a.Gives w₂ →
      World.Agrees a.user w₁ w₂ → next w₁ = next w₂)
    (rest : ∀ w, a.Owns w → Confined a (next w)) : Confined a (get >>= next) where
  others {w} owns := by
    rw [runFrom_get_bind]
    exact (rest w owns).others owns
  own {w₁ w₂} owns₁ owns₂ gives₁ gives₂ agrees := by
    rw [runFrom_get_bind, runFrom_get_bind, same owns₁ owns₂ gives₁ gives₂ agrees]
    exact (rest w₂ owns₂).own owns₁ owns₂ gives₁ gives₂ agrees

theorem confined_modify {f : World b → World b} (store : ∀ w, (f w).store = w.store)
    (agrees : ∀ {w₁ w₂}, World.Agrees a.user w₁ w₂ → World.Agrees a.user (f w₁) (f w₂)) :
    Confined a (modify f : Service b Unit) where
  others _ v _ := congrArg (Store.only v) (store _)
  own _ _ _ _ same := ⟨rfl, agrees same⟩

/-- A change of the store that is the same change of what is kept of the user. -/
theorem confined_modifyStore {f : Store b → Store b}
    (others : ∀ {s}, s.Reserved a.user a.intents a.escrows → ∀ v, v ≠ a.user →
      (f s).only v = s.only v)
    (own : ∀ {s}, s.Reserved a.user a.intents a.escrows →
      (f s).only a.user = f (s.only a.user)) :
    Confined a (modifyStore f : Service b Unit) where
  others owns v apart := others owns v apart
  own owns₁ owns₂ _ _ agrees :=
    ⟨rfl, { agrees with
      store := (own owns₁).trans ((congrArg f agrees.store).trans (own owns₂).symm) }⟩

theorem confined_ite {condition : Prop} [Decidable condition] {op other : Service b α}
    (first : Confined a op) (second : Confined a other) :
    Confined a (if condition then op else other) := by
  split
  · exact first
  · exact second

theorem confined_note (entry : LogEntry) : Confined a (note entry : Service b Unit) :=
  confined_modify (fun _ => rfl) fun agrees => { agrees with }

theorem confined_tally (counted : Tally) : Confined a (tally counted : Service b Unit) :=
  confined_modify (fun _ => rfl) fun agrees => { agrees with }

theorem Confined.attempt {op : Service b α} (confined : Confined a op) :
    Confined a op.attempt where
  others := confined.others
  own owns₁ owns₂ gives₁ gives₂ agrees := by
    obtain ⟨same, after⟩ := confined.own owns₁ owns₂ gives₁ gives₂ agrees
    exact ⟨congrArg Except.ok same, after⟩

theorem Confined.atomically {op : Service b α} (confined : Confined a op) :
    Confined a (atomically op) where
  others {w} owns v apart := by
    have kept := confined.others owns v apart
    rw [runFrom_atomic]
    rcases done : op.runFrom w with ⟨failure | x, after⟩
    · rw [done] at kept
      cases b.rollsBack with
      | false => exact kept
      | true => rfl
    · rw [done] at kept
      exact kept
  own {w₁ w₂} owns₁ owns₂ gives₁ gives₂ agrees := by
    obtain ⟨same, after⟩ := confined.own owns₁ owns₂ gives₁ gives₂ agrees
    rw [runFrom_atomic, runFrom_atomic]
    cases done₁ : op.runFrom w₁ with
    | mk result₁ after₁ =>
      cases done₂ : op.runFrom w₂ with
      | mk result₂ after₂ =>
        rw [done₁, done₂] at same after
        obtain rfl : result₁ = result₂ := same
        cases result₁ with
        | ok x => exact ⟨rfl, after⟩
        | error failure =>
          refine ⟨rfl, ?_⟩
          cases b.rollsBack with
          | false => exact after
          | true => exact { after with store := agrees.store }

theorem ok_of_atomically {op : Service b α} {w after : World b} {x : α}
    (done : (Service.atomically op).runFrom w = (.ok x, after)) :
    op.runFrom w = (.ok x, after) := by
  rw [runFrom_atomic] at done
  rcases ran : op.runFrom w with ⟨failure | y, middle⟩
  · rw [ran] at done
    cases done
  · rw [ran] at done
    exact done

end Service

end Earmark
