import Earmark.Proofs.Confinement
import Earmark.Proofs.StoredEscrows

/-!
The operations of the services act for one user. Each of them is confined to the user that it names,
or to whoever has the intent or the escrow that it names.
-/

namespace Earmark

variable {b : Backend} {u : String}

/-! ### Reading what is kept of a user -/

theorem lookup_filter_user (scores : List (String × Int)) :
    (scores.filter (·.1 == u)).lookup u = scores.lookup u := by
  induction scores with
  | nil => rfl
  | cons entry rest ih =>
    obtain ⟨key, score⟩ := entry
    by_cases same : key = u
    · simp [same]
    · have apart : (u == key) = false := by simpa using Ne.symm same
      simp [same, List.lookup_cons, apart, ih]

theorem filter_setScore_self (score : Int) (scores : List (String × Int)) :
    (Service.setScore u score scores).filter (·.1 == u) =
      Service.setScore u score (scores.filter (·.1 == u)) := by
  have known : (scores.filter (·.1 == u)).any (·.1 == u) = scores.any (·.1 == u) := by
    simp [List.any_filter]
  rw [Service.setScore, Service.setScore, known]
  split
  · exact filter_overwrite_self (fun _ _ hit => by simpa using hit) fun _ _ => rfl
  · simp [List.filter_append]

theorem filter_setScore_other {v : String} (apart : v ≠ u) (score : Int)
    (scores : List (String × Int)) :
    (Service.setScore u score scores).filter (·.1 == v) = scores.filter (·.1 == v) := by
  rw [Service.setScore]
  split
  · exact filter_overwrite_other (fun _ _ hit => by simpa using hit) (fun _ _ => rfl) apart
  · simp [List.filter_append, apart.symm]

namespace World.Agrees

variable {w₁ w₂ : World b} (agrees : World.Agrees u w₁ w₂)
include agrees

theorem findWallet :
    w₁.store.wallets.find? (·.user == u) = w₂.store.wallets.find? (·.user == u) := by
  have same := congrArg (fun s => s.wallets.find? (·.user == u)) agrees.store
  simpa only [Store.only, List.find?_filter, and_self, Bool.decide_eq_true] using same

theorem hasWallet :
    w₁.store.wallets.any (·.user == u) = w₂.store.wallets.any (·.user == u) := by
  rw [← List.isSome_find?, ← List.isSome_find?, agrees.findWallet]

theorem findIntent {id : String} (first : b.intents.Belongs u id w₁.store.intents)
    (second : b.intents.Belongs u id w₂.store.intents) :
    b.intents.find? id w₁.store.intents = b.intents.find? id w₂.store.intents := by
  rw [← Table.find?_filter_user first, ← Table.find?_filter_user second]
  exact congrArg (fun s => b.intents.find? id s.intents) agrees.store

theorem findEscrow {id : String} (first : b.escrows.Belongs u id w₁.store.escrows)
    (second : b.escrows.Belongs u id w₂.store.escrows) :
    b.escrows.find? id w₁.store.escrows = b.escrows.find? id w₂.store.escrows := by
  rw [← Table.find?_filter_user first, ← Table.find?_filter_user second]
  exact congrArg (fun s => b.escrows.find? id s.escrows) agrees.store

theorem ofIntents : b.intents.ofUser u w₁.store.intents = b.intents.ofUser u w₂.store.intents :=
  congrArg (fun s => s.intents.mapM b.intents.read) agrees.store

theorem ofEscrows : b.escrows.ofUser u w₁.store.escrows = b.escrows.ofUser u w₂.store.escrows :=
  congrArg (fun s => s.escrows.mapM b.escrows.read) agrees.store

theorem ofRecords : b.records.ofUser u w₁.store.records = b.records.ofUser u w₂.store.records :=
  congrArg (fun s => s.records.mapM b.records.read) agrees.store

theorem ofEvents : b.events.ofUser u w₁.store.events = b.events.ofUser u w₂.store.events :=
  congrArg (fun s => s.events.mapM b.events.read) agrees.store

theorem lookupScore : w₁.store.scores.lookup u = w₂.store.scores.lookup u := by
  have same := congrArg (fun s => s.scores.lookup u) agrees.store
  simpa only [Store.only, lookup_filter_user] using same

end World.Agrees

theorem Intent.owner_of_spend {i j : Intent} {amount : Numeral} (spent : i.spend amount = .ok j) :
    j.id = i.id ∧ j.user = i.user := by
  simp only [Intent.spend, bind_ok_iff] at spent
  obtain ⟨d, -, spent⟩ := spent
  split at spent
  · cases spent
  simp only [bind_ok_iff] at spent
  obtain ⟨empty, -, spent⟩ := spent
  split at spent
  · cases spent
  simp only [bind_ok_iff] at spent
  obtain ⟨remaining, -, beyond, -, spent⟩ := spent
  split at spent
  · cases spent
  simp only [bind_ok_iff] at spent
  obtain ⟨used, -, left, -, exhausted, -, spent⟩ := spent
  cases spent
  split <;> exact ⟨rfl, rfl⟩

namespace Service

variable {α : Type} {a : Scope}

/-! ### Wallets -/

theorem confined_findWallet : Confined a (findWallet a.user : Service b Wallet) :=
  confined_get (fun _ _ _ _ agrees => by rw [agrees.findWallet]) fun _ _ => confined_check _

theorem confined_setLocked (locked : Decimal) :
    Confined a (setLocked a.user locked : Service b Unit) := by
  let relock (w : Wallet) : Wallet := { w with locked }
  refine confined_modifyStore (fun {s} _ v apart => ?_) fun {s} _ => ?_
  · have kept : (s.wallets.map fun w => if w.user == a.user then relock w else w).filter
        (·.user == v) = s.wallets.filter (·.user == v) :=
      filter_overwrite_other (fun _ _ hit => by simpa using hit) (fun _ hit => by simpa using hit)
        apart
    simp only [Store.only, relock] at kept ⊢
    rw [kept]
  · have kept : (s.wallets.map fun w => if w.user == a.user then relock w else w).filter
        (·.user == a.user) =
        (s.wallets.filter (·.user == a.user)).map
          fun w => if w.user == a.user then relock w else w :=
      filter_overwrite_self (fun _ _ hit => by simpa using hit) fun _ hit => by simpa using hit
    simp only [Store.only, relock] at kept ⊢
    rw [kept]

theorem confined_openWallet (balance : Numeral) :
    Confined a (openWallet a.user balance : Service b Unit) := by
  refine .atomically (confined_get (fun _ _ _ _ agrees => by rw [agrees.hasWallet]) fun w _ =>
    confined_ite (confined_throw _) ((confined_check _).bind fun d => ?_))
  refine confined_modifyStore (fun _ v apart => ?_) fun _ => ?_
  · simp [Store.only, List.filter_append, apart.symm]
  · simp [Store.only, List.filter_append]

theorem confined_availableIn (wallet : Wallet) :
    Confined a (availableIn wallet : Service b Decimal) :=
  (confined_check _).bind fun _ => (confined_check _).bind fun _ => confined_check _

theorem confined_lockFunds (amount : Numeral) {op : Service b α} (confined : Confined a op) :
    Confined a (lockFunds a.user amount op) :=
  (confined_check _).bind fun _ => .atomically <| confined_findWallet.bind fun wallet =>
    (confined_availableIn wallet).bind fun _ => (confined_check _).bind fun _ =>
      confined_ite (confined_throw _) <| confined.bind fun _ => (confined_check _).bind fun _ =>
        (confined_check _).bind fun _ => (confined_setLocked _).bind fun _ => confined_pure _

theorem confined_releaseFunds (amount : Numeral) :
    Confined a (releaseFunds a.user amount : Service b Unit) :=
  (confined_check _).bind fun _ => .atomically <| confined_findWallet.bind fun _ =>
    (confined_check _).bind fun _ => (confined_check _).bind fun _ =>
      confined_ite (confined_throw _) <| (confined_check _).bind fun _ => confined_setLocked _

/-! ### Intents -/

section

variable (owners : b.KeepsOwners)
include owners

theorem confined_addIntent {i : Intent} (mine : i.user = a.user) (new : i.id ∈ a.newIntents) :
    Confined a (addIntent i : Service b Unit) := by
  refine .atomically (confined_get (fun _ _ gives₁ gives₂ agrees => ?_) fun w _ =>
    confined_ite (confined_throw _) (confined_check_bind fun row written =>
      confined_ite (confined_throw _) ?_))
  · rw [agrees.outage, agrees.findIntent (gives₁.intents _ new) (gives₂.intents _ new)]
  · have owned : b.intents.user row = a.user := (owners.intents.write written).2.trans mine
    refine confined_modifyStore (fun _ v apart => ?_) fun _ => ?_
    · simp [Store.only, List.filter_append, owned, apart.symm]
    · simp [Store.only, List.filter_append, owned]

/-- A change of the user's intent that leaves it the user's. -/
theorem confined_updateIntent {id : String} (known : id ∈ a.intents)
    {change : Intent → Service b (α × Intent)}
    (confined : ∀ i, i.user = a.user → Confined a (change i))
    (keeps : ∀ i, Yields (fun r => r.2.id = i.id ∧ r.2.user = i.user) (change i)) :
    Confined a (updateIntent id change) := by
  refine .atomically (confined_get (fun owns₁ owns₂ _ _ agrees => ?_) fun w owns => ?_)
  · rw [agrees.findIntent (owns₁.intents _ known) (owns₂.intents _ known)]
  cases found : b.intents.find? id w.store.intents with
  | none => exact confined_throw _
  | some row =>
    obtain ⟨-, owned⟩ := Table.user_of_find? (owns.intents _ known) found
    refine confined_check_bind fun i read => ?_
    obtain ⟨sameId, sameUser⟩ := owners.intents.read read
    refine (confined i (sameUser.trans owned)).bindWith (fun _ done => keeps i done) ?_
    rintro ⟨result, next⟩ ⟨nextId, nextUser⟩
    refine confined_check_bind fun changed updated => ?_
    obtain ⟨-, kept⟩ := owners.intents.update updated (nextId.trans sameId)
      (nextUser.trans sameUser)
    refine Confined.bind (confined_modifyStore (fun reserved v apart => ?_) fun reserved => ?_)
      fun _ => confined_pure _
    · simp only [Store.only, Table.filter_replace_other (reserved.intents _ known)
        (kept.trans owned) apart]
    · simp only [Store.only, Table.filter_replace_self (reserved.intents _ known)
        (kept.trans owned)]

end

theorem confined_releaseRest {i : Intent} (mine : i.user = a.user) (rest : Decimal) :
    Confined a (releaseRest i rest : Service b Unit) := by
  unfold releaseRest
  rw [mine]
  exact (confined_check _).bind fun _ => confined_ite (confined_releaseFunds _) (confined_pure _)

theorem confined_listIntents : Confined a (listIntents a.user : Service b _) :=
  confined_get (fun _ _ _ _ agrees => by rw [agrees.ofIntents]) fun _ _ => confined_check _

theorem confined_listEscrows : Confined a (listEscrows a.user : Service b _) :=
  confined_get (fun _ _ _ _ agrees => by rw [agrees.ofEscrows]) fun _ _ => confined_check _

theorem confined_history (limit : Option Int) : Confined a (history a.user limit : Service b _) :=
  confined_get (fun _ _ _ _ agrees => by rw [agrees.ofRecords]) fun _ _ =>
    (confined_check _).bind fun _ => confined_check _

theorem confined_findIntent? {id : String} (known : id ∈ a.intents) :
    Confined a (findIntent? id : Service b _) :=
  confined_get (fun owns₁ owns₂ _ _ agrees => by
    rw [agrees.findIntent (owns₁.intents _ known) (owns₂.intents _ known)]) fun _ _ =>
      confined_check _

theorem confined_getEscrow {id : String} (known : id ∈ a.escrows) :
    Confined a (getEscrow id : Service b _) :=
  confined_get (fun owns₁ owns₂ _ _ agrees => by
    rw [agrees.findEscrow (owns₁.escrows _ known) (owns₂.escrows _ known)]) fun _ _ =>
      (confined_check _).bind fun _ => confined_check _

theorem confined_number (f : Ids → Ids) :
    Confined a (modify fun w => { w with ids := f w.ids } : Service b Unit) :=
  confined_modify (fun _ => rfl) fun agrees => { agrees with ids := congrArg f agrees.ids }

section

variable (owners : b.KeepsOwners)
include owners

/-- An intent that spends an amount stays its owner's. -/
theorem confined_useIntent {id : String} (known : id ∈ a.intents) (amount : Numeral) :
    Confined a (useIntent id amount : Service b Intent) :=
  confined_updateIntent owners known
    (fun _ _ => (confined_check _).bind fun _ => confined_pure _)
    fun _ => (yields_check _).bind fun _ spent => yields_pure (Intent.owner_of_spend spent)

theorem confined_violateIntent {id : String} (known : id ∈ a.intents) :
    Confined a (violateIntent id : Service b Intent) :=
  confined_updateIntent owners known (fun _ _ => confined_pure _)
    fun _ => yields_pure ⟨rfl, rfl⟩

theorem confined_cancelIntent {id : String} (known : id ∈ a.intents) :
    Confined a (cancelIntent id : Service b Decimal) := by
  refine (confined_updateIntent owners known (fun i mine => ?_) fun i => ?_).bind fun _ =>
    (confined_note _).bind fun _ => confined_pure _
  · exact (confined_check _).bind fun _ => (confined_releaseRest mine _).bind fun _ =>
      confined_pure _
  · refine (yields_check _).bind ?_
    rintro ⟨rest, closed⟩ cancelled
    obtain ⟨-, -, rfl⟩ := Intent.cancel_ok_iff.mp cancelled
    exact yields_of_last fun _ => yields_pure ⟨rfl, rfl⟩

/-! ### The logs -/

theorem confined_recordEvent (config : Config) (now : Time) (kind : EventKind)
    (description : String) :
    Confined a (recordEvent config now a.user kind description : Service b _) := by
  refine confined_get (fun _ _ _ _ agrees => by rw [agrees.eventWrites]) fun w _ =>
    Confined.bind (confined_modify (fun _ => rfl) fun agrees => { agrees with eventWrites := rfl })
      fun _ => confined_get (fun _ _ _ _ agrees => by rw [agrees.outage]) fun _ _ =>
        confined_ite (confined_throw _) ?_
  refine Confined.bind (confined_get (fun _ _ _ _ agrees => by rw [agrees.lookupScore])
    fun _ _ => confined_pure _) fun prior => ?_
  refine confined_get (fun _ _ _ _ agrees => by rw [agrees.ids]) fun w _ =>
    (confined_number fun ids => { ids with events := w.ids.events + 1 }).bind fun _ => ?_
  refine Confined.bind (.atomically (confined_check_bind fun row written => ?_)) fun _ =>
    (confined_tally _).bind fun _ => confined_pure _
  have owned : b.events.user row = a.user := (owners.events.write written).2
  refine confined_modifyStore (fun _ v apart => ?_) fun _ => ?_
  · simp [Store.only, List.filter_append, owned, apart.symm, filter_setScore_other apart]
  · simp [Store.only, List.filter_append, owned, filter_setScore_self]

theorem confined_follow (config : Config) (now : Time) (kind : EventKind) (description : String) :
    Confined a (follow config now a.user kind description : Service b Unit) :=
  (confined_recordEvent owners config now kind description).attempt.bind fun
    | .ok _ => confined_pure _
    | .error _ => (confined_tally _).bind fun _ => confined_note _

theorem confined_logPayment {record : TransactionRecord} (mine : record.user = a.user) :
    Confined a (logPayment record : Service b Unit) := by
  have added : Confined a (addRecord record : Service b Unit) := by
    refine confined_get (fun _ _ _ _ agrees => by rw [agrees.recordWrites]) fun w _ =>
      Confined.bind (confined_modify (fun _ => rfl) fun agrees =>
        { agrees with recordWrites := rfl }) fun _ =>
          confined_get (fun _ _ _ _ agrees => by rw [agrees.outage]) fun _ _ =>
            confined_ite (confined_throw _) (confined_check_bind fun row written => ?_)
    have owned : b.records.user row = a.user := (owners.records.write written).2.trans mine
    refine confined_modifyStore (fun _ v apart => ?_) fun _ => ?_
    · simp [Store.only, List.filter_append, owned, apart.symm]
    · simp [Store.only, List.filter_append, owned]
  exact added.attempt.bind fun
    | .ok () => confined_pure _
    | .error _ => confined_note _

/-! ### Payments -/

theorem confined_commitPayment (config : Config) (p : Payment) {intentId : Option String}
    (known : ∀ id ∈ intentId, id ∈ a.intents) :
    Confined a (commitPayment config p intentId : Service b _) := by
  cases intentId with
  | none => exact (confined_check _).bind fun _ => confined_pure _
  | some id =>
    refine (confined_updateIntent owners (known id rfl) (fun i mine => ?_) fun i => ?_).bind
      fun _ => confined_pure _
    · exact (confined_check _).bind fun _ => confined_ite (confined_pure _) <|
        confined_ite ((confined_check _).bind fun _ => confined_pure _) <|
          (confined_check _).bind fun (rest, _) => (confined_releaseRest mine rest).bind fun _ =>
            confined_pure _
    · refine (yields_check _).bind fun v _ => yields_ite (yields_pure ⟨rfl, rfl⟩) <|
        yields_ite ((yields_check _).bind fun _ spent =>
          yields_pure (Intent.owner_of_spend spent)) <| (yields_check _).bind ?_
      rintro ⟨rest, after⟩ expired
      refine yields_of_last fun _ => yields_pure ?_
      rcases Intent.expire_ok_iff.mp expired with ⟨-, rfl, -⟩ | ⟨-, -, -, rfl⟩
      · exact ⟨rfl, rfl⟩
      · exact ⟨rfl, rfl⟩

omit owners in
theorem confined_countPayment (p : Payment) (intentId : Option String) (v : Verdict) :
    Confined a (countPayment p intentId v : Service b Unit) := by
  have closing : Confined a (do
      tally .latency
      note (.validated p.id p.user intentId p.merchant.id v.approved v.failedAt) :
        Service b Unit) := (confined_tally _).bind fun _ => confined_note _
  unfold countPayment
  dsimp only
  refine confined_ite ((confined_tally _).bind fun _ => ?counting) ?counting
  refine (confined_tally _).bind fun _ => ?_
  split
  · exact (confined_tally _).bind fun _ => closing
  · exact closing

theorem confined_rewardPayment (config : Config) (now : Time) {p : Payment}
    (mine : p.user = a.user) (v : Verdict) :
    Confined a (rewardPayment config now p v : Service b Unit) := by
  unfold rewardPayment
  rw [mine]
  exact confined_ite ((confined_note _).bind fun _ => confined_follow owners _ _ _ _) <|
    confined_ite ((confined_follow owners _ _ _ _).bind fun _ =>
      confined_ite (confined_follow owners _ _ _ _) (confined_pure _))
      (confined_follow owners _ _ _ _)

/-- What follows once a payment has its intent. -/
def payTo (config : Config) (now : Time) (p : Payment) (intentId : Option String) :
    Service b PaymentResult := do
  let (verdict, intent) ← commitPayment config p intentId
  let record := TransactionRecord.ofVerdict p.id p.user p.merchant intentId now p.amount verdict
  logPayment record
  countPayment p intentId verdict
  rewardPayment config now p verdict
  return { record, verdict, intent }

theorem confined_payTo (config : Config) (now : Time) {p : Payment} (mine : p.user = a.user)
    {intentId : Option String} (known : ∀ id ∈ intentId, id ∈ a.intents) :
    Confined a (payTo config now p intentId : Service b PaymentResult) :=
  (confined_commitPayment owners config p known).bind fun (verdict, _) =>
    (confined_logPayment owners (mine : (TransactionRecord.ofVerdict ..).user = a.user)).bind
      fun _ => (confined_countPayment p intentId verdict).bind fun _ =>
        (confined_rewardPayment owners config now mine verdict).bind fun _ => confined_pure _

/-! ### Escrows -/

theorem confined_addEscrow {e : Escrow} (mine : e.user = a.user) (new : e.id ∈ a.newEscrows) :
    Confined a (addEscrow e : Service b Unit) := by
  refine .atomically (confined_get (fun _ _ gives₁ gives₂ agrees => ?_) fun w _ =>
    confined_ite (confined_throw _) (confined_check_bind fun row written => ?_))
  · rw [agrees.findEscrow (gives₁.escrows _ new) (gives₂.escrows _ new)]
  · have owned : b.escrows.user row = a.user := (owners.escrows.write written).2.trans mine
    refine confined_modifyStore (fun _ v apart => ?_) fun _ => ?_
    · simp [Store.only, List.filter_append, owned, apart.symm]
    · simp [Store.only, List.filter_append, owned]

/-- A change of the user's escrow that leaves it the user's. -/
theorem confined_updateEscrow {id : String} (known : id ∈ a.escrows)
    {change : Escrow → Except Failure (α × Escrow)}
    (keeps : ∀ {e x next}, change e = .ok (x, next) → next.id = e.id ∧ next.user = e.user) :
    Confined a (updateEscrow id change : Service b α) := by
  refine .atomically (confined_get (fun owns₁ owns₂ _ _ agrees => ?_) fun w owns => ?_)
  · rw [agrees.findEscrow (owns₁.escrows _ known) (owns₂.escrows _ known)]
  cases found : b.escrows.find? id w.store.escrows with
  | none => exact confined_throw _
  | some row =>
    obtain ⟨-, owned⟩ := Table.user_of_find? (owns.escrows _ known) found
    refine confined_check_bind ?_
    rintro ⟨result, next⟩ done
    obtain ⟨e, read, moved⟩ := bind_ok_iff.mp done
    obtain ⟨sameId, sameUser⟩ := owners.escrows.read read
    obtain ⟨nextId, nextUser⟩ := keeps moved
    refine confined_check_bind fun changed updated => ?_
    obtain ⟨-, kept⟩ := owners.escrows.update updated (nextId.trans sameId)
      (nextUser.trans sameUser)
    refine Confined.bind (confined_modifyStore (fun reserved v apart => ?_) fun reserved => ?_)
      fun _ => confined_pure _
    · simp only [Store.only, Table.filter_replace_other (reserved.escrows _ known)
        (kept.trans owned) apart]
    · simp only [Store.only, Table.filter_replace_self (reserved.escrows _ known)
        (kept.trans owned)]

/-- What the user's escrow is changed with names the user. -/
theorem owner_of_updateEscrow {w after : World b} (owns : a.Owns w) {id : String}
    (known : id ∈ a.escrows) {change : Escrow → Except Failure ((α × String) × Escrow)}
    (names : ∀ {e x next}, change e = .ok (x, next) → x.2 = e.user) {x : α × String}
    (done : (updateEscrow id change).runFrom w = (.ok x, after)) : x.2 = a.user := by
  have inner := ok_of_atomically done
  rw [runFrom_get_bind] at inner
  cases found : b.escrows.find? id w.store.escrows with
  | none =>
    rw [found] at inner
    cases inner
  | some row =>
    rw [found] at inner
    obtain ⟨-, owned⟩ := Table.user_of_find? (owns.escrows _ known) found
    refine (yields_check _).bind (p := fun y => y.2 = a.user) ?_ inner
    rintro ⟨y, next⟩ changed
    obtain ⟨e, read, moved⟩ := bind_ok_iff.mp changed
    exact yields_of_last fun _ => yields_of_last fun _ =>
      yields_pure ((names moved).trans ((owners.escrows.read read).2.trans owned))

/-- What follows a change of the user's escrow that names its owner acts for the user. -/
theorem confined_updateEscrow_bind {β : Type} {id : String} (known : id ∈ a.escrows)
    {change : Escrow → Except Failure ((α × String) × Escrow)} {next : α × String → Service b β}
    (keeps : ∀ {e x after}, change e = .ok (x, after) →
      after.id = e.id ∧ after.user = e.user ∧ x.2 = e.user)
    (rest : ∀ x, x.2 = a.user → Confined a (next x)) :
    Confined a (updateEscrow id change >>= next) :=
  (confined_updateEscrow owners known fun done => ⟨(keeps done).1, (keeps done).2.1⟩).bindWith
    (fun owns done => owner_of_updateEscrow owners owns known (fun made => (keeps made).2.2) done)
    rest

theorem confined_releaseMilestone (config : Config) (now : Time) {escrowId : String}
    (known : escrowId ∈ a.escrows) (milestoneId : String) (proof merchantId : Option String) :
    Confined a (releaseMilestone config now escrowId milestoneId proof merchantId :
      Service b _) := by
  refine confined_updateEscrow_bind owners known Escrow.owner_of_releaseIn ?_
  rintro ⟨receipt, user⟩ rfl
  exact (confined_tally _).bind fun _ => (confined_note _).bind fun _ =>
    confined_ite ((confined_follow owners _ _ _ _).bind fun _ => confined_pure _) (confined_pure _)

theorem confined_clawBack (config : Config) (now : Time) {escrowId : String}
    (known : escrowId ∈ a.escrows) (reason : ClawbackReason) (part : Option Numeral) :
    Confined a (clawBack config now escrowId reason part : Service b _) := by
  refine confined_updateEscrow_bind owners known (fun done => ?_) ?_
  · obtain ⟨⟨receipt, after⟩, clawedBack, made⟩ := bind_ok_iff.mp done
    cases made
    exact ⟨(Escrow.owner_of_clawBack clawedBack).1, (Escrow.owner_of_clawBack clawedBack).2, rfl⟩
  · rintro ⟨receipt, user⟩ rfl
    exact (confined_tally _).bind fun _ => (confined_note _).bind fun _ =>
      confined_ite ((confined_follow owners _ _ _ _).bind fun _ => confined_pure _)
        (confined_pure _)

end

end Service

end Earmark
