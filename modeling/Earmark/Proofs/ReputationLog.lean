import Earmark.Proofs.Isolation
import Earmark.Proofs.Rows

/-!
The log of reputation. However many events are written, and whichever writes fail, each user's
events are appended in their order, each takes the score from where the one before left it, and the
score that is kept is where the last one left it (`World.reputation_sound`).
-/

namespace Earmark

namespace Reputation

/-- Each event is worth what its kind is, and leads from the score before it to the one after, the
first from `prior`. -/
def Chained : Int → List ReputationEvent → Prop
  | _, [] => True
  | prior, e :: rest =>
    e.delta = delta e.kind ∧ e.scoreAfter = clamp (prior + e.delta) ∧ Chained e.scoreAfter rest

/-- The score that the last event left, or `prior` where there is none. -/
def lastScore (prior : Int) (events : List ReputationEvent) : Int :=
  (events.getLast?.map (·.scoreAfter)).getD prior

theorem clamp_bounded (score : Int) : 0 ≤ clamp score ∧ clamp score ≤ maxScore := by
  simp only [clamp, maxScore]
  omega

variable {prior : Int} {events : List ReputationEvent} {e : ReputationEvent}

@[simp] theorem lastScore_append : lastScore prior (events ++ [e]) = e.scoreAfter := by
  simp [lastScore]

theorem lastScore_cons : lastScore prior (e :: events) = lastScore e.scoreAfter events := by
  cases events with
  | nil => rfl
  | cons next rest => simp [lastScore, List.getLast?_cons]

theorem Chained.append (chained : Chained prior events) (worth : e.delta = delta e.kind)
    (leads : e.scoreAfter = clamp (lastScore prior events + e.delta)) :
    Chained prior (events ++ [e]) := by
  induction events generalizing prior with
  | nil => exact ⟨worth, leads, trivial⟩
  | cons first rest ih =>
    obtain ⟨firstWorth, firstLeads, chained⟩ := chained
    exact ⟨firstWorth, firstLeads, ih chained (lastScore_cons ▸ leads)⟩

theorem Chained.bounded (chained : Chained prior events) (start : 0 ≤ prior ∧ prior ≤ maxScore) :
    0 ≤ lastScore prior events ∧ lastScore prior events ≤ maxScore := by
  induction events generalizing prior with
  | nil => exact start
  | cons first rest ih =>
    obtain ⟨-, leads, chained⟩ := chained
    rw [lastScore_cons]
    exact ih chained (leads ▸ clamp_bounded _)

/-- A snapshot shows the latest events, the newest first. -/
theorem recent_snapshot (user : String) (score : Int) :
    (snapshot user score events).recent.length = min 10 events.length ∧
      (snapshot user score events).recent.reverse <:+ events := by
  constructor
  · simp [snapshot, recentCount]
  · rw [snapshot, ← List.reverse_prefix, List.reverse_reverse]
    exact List.take_prefix _ _

end Reputation

/-! ### Tables of events -/

variable {b : Backend}

theorem Table.ofUser_append {α : Type} {t : Table α} {rows : List t.Row} {row : t.Row} {a : α}
    {user : String} {as : List α} (before : t.ofUser user rows = .ok as)
    (reads : t.read row = .ok a) :
    t.ofUser user (rows ++ [row]) = .ok (if t.user row = user then as ++ [a] else as) := by
  rw [ofUser] at before ⊢
  rw [List.filter_append, List.mapM_append, before, ok_bind]
  split_ifs with own
  · simp [own, reads]
  · simp [own]
    rfl

/-- The table of events gives an event back as it was written, among those of its user. -/
def Backend.KeepsEvent (b : Backend) (e : ReputationEvent) : Prop :=
  ∃ row, b.events.write e = .ok row ∧ b.events.read row = .ok e ∧ b.events.user row = e.user

theorem Backend.memory_keepsEvent (e : ReputationEvent) : Backend.memory.KeepsEvent e :=
  ⟨e, rfl, rfl, rfl⟩

theorem Backend.relational_keepsEvent {e : ReputationEvent} (universal : e.time.offset = some 0) :
    Backend.relational.KeepsEvent e := by
  refine ⟨.ofEvent e, rfl, ?_, rfl⟩
  have kind : (Json.text e.kind.word).toWord "ReputationEventKind" EventKind.ofWord? =
      .ok e.kind := by
    simp [Json.toWord, EventKind.ofWord?_word, Failure.require]
  change EventRow.toEvent (EventRow.ofEvent e) = _
  simp only [EventRow.toEvent, EventRow.ofEvent, kind, ok_bind, Column.toTime_ofTime universal]

/-- The draft is for a store; the relational one keeps universal time alone. -/
def EventDraft.Fits (d : EventDraft) (b : Backend) : Prop :=
  b = .memory ∨ b = .relational ∧ d.time.offset = some 0

theorem EventDraft.Fits.keepsEvent {d : EventDraft} {e : ReputationEvent} (fits : d.Fits b)
    (same : e.time = d.time) : b.KeepsEvent e := by
  rcases fits with rfl | ⟨rfl, universal⟩
  · exact Backend.memory_keepsEvent e
  · exact Backend.relational_keepsEvent (same ▸ universal)

namespace EventRow

/-- The rows of a table in the order of their addition, each with the number that it is given: one
more than its user had rows before it. -/
def numbered (before : List EventRow) : List EventRow → List (Nat × EventRow)
  | [] => []
  | row :: rest => (before.countP (·.user == row.user) + 1, row) :: numbered (before ++ [row]) rest

/-- The rows of a user in the order of their numbers. -/
def bySequence (user : String) (rows : List EventRow) : List EventRow :=
  (((numbered [] rows).filter (·.2.user == user)).mergeSort fun a b => decide (a.1 ≤ b.1)).map (·.2)

theorem map_numbered (before rows : List EventRow) : (numbered before rows).map (·.2) = rows := by
  induction rows generalizing before with
  | nil => rfl
  | cons row rest ih => simp [numbered, ih]

/-- The numbers of a user's rows grow. -/
theorem pairwise_numbered (user : String) (before rows : List EventRow) :
    ((numbered before rows).filter (·.2.user == user)).Pairwise (fun a b => a.1 ≤ b.1) ∧
      ∀ entry ∈ (numbered before rows).filter (·.2.user == user),
        before.countP (·.user == user) < entry.1 := by
  induction rows generalizing before with
  | nil => simp [numbered]
  | cons row rest ih =>
    obtain ⟨sorted, above⟩ := ih (before ++ [row])
    by_cases own : row.user = user
    · subst own
      have counted : (before ++ [row]).countP (·.user == row.user) =
          before.countP (·.user == row.user) + 1 := by simp
      rw [counted] at above
      simp only [numbered, List.filter_cons, BEq.rfl, ↓reduceIte, List.pairwise_cons,
        List.forall_mem_cons]
      exact ⟨⟨fun entry mem => (above entry mem).le, sorted⟩, Nat.lt_succ_self _,
        fun entry mem => (Nat.lt_succ_self _).trans (above entry mem)⟩
    · have counted : (before ++ [row]).countP (·.user == user) = before.countP (·.user == user) := by
        simp [own]
      rw [counted] at above
      rw [numbered, List.filter_cons_of_neg (by simpa using own)]
      exact ⟨sorted, above⟩

/-- Numbers that count the rows before put a user's rows in the order of their addition. -/
theorem bySequence_eq (user : String) (rows : List EventRow) :
    bySequence user rows = rows.filter (·.user == user) := by
  have sorted := (pairwise_numbered user [] rows).1
  rw [bySequence, List.mergeSort_of_pairwise (by simpa using sorted)]
  conv_rhs => rw [← map_numbered [] rows]
  rw [List.filter_map]
  rfl

end EventRow

/-! ### Scores -/

private theorem lookup_overwrite (user other : String) (score : Int) (scores : List (String × Int)) :
    (scores.map fun entry => if entry.1 == user then (user, score) else entry).lookup other =
      if other = user ∧ scores.any (·.1 == user) then some score else scores.lookup other := by
  induction scores with
  | nil => simp
  | cons entry rest ih =>
    obtain ⟨key, old⟩ := entry
    simp only [beq_iff_eq] at ih ⊢
    by_cases own : key = user
    · subst own
      by_cases same : other = key
      · simp [same]
      · have apart : (other == key) = false := by simpa using same
        simp [List.lookup_cons, apart, ih, same]
    · by_cases same : other = key
      · subst same
        simp [own]
      · have apart : (other == key) = false := by simpa using same
        have unlike : (key == user) = false := by simpa using own
        rw [List.any_cons, unlike, Bool.false_or, List.map_cons, if_neg own]
        simp only [List.lookup_cons, apart, ih]

theorem lookup_setScore (user other : String) (score : Int) (scores : List (String × Int)) :
    (Service.setScore user score scores).lookup other =
      if other = user then some score else scores.lookup other := by
  rw [Service.setScore]
  split_ifs with known same same
  · rw [lookup_overwrite, if_pos ⟨same, known⟩]
  · rw [lookup_overwrite, if_neg fun both => same both.1]
  · subst same
    have missing : scores.lookup other = none := by
      refine List.lookup_eq_none_iff.mpr fun entry mem => ?_
      have apart : ¬entry.1 = other := fun same => known (List.any_eq_true.mpr ⟨entry, mem, by simpa⟩)
      simpa using fun same => apart same.symm
    simp [List.lookup_append, missing]
  · have apart : (other == user) = false := by simpa using same
    simp [List.lookup_append, List.lookup_cons, apart]
namespace World

variable {config : Config} {w : World b} {d : EventDraft}

/-- The score of a user, who may have none yet. -/
def score (config : Config) (w : World b) (user : String) : Int :=
  (w.store.scores.lookup user).getD config.baseline

/-- The event that a draft becomes if its write goes through. -/
def nextEvent (config : Config) (w : World b) (d : EventDraft) : ReputationEvent :=
  Reputation.event (Ids.event (w.ids.events + 1)) d.user d.kind d.description
    (w.score config d.user) d.time

/-- The write of a draft, and the world behind it. -/
def write (config : Config) (w : World b) (d : EventDraft) :
    Except Failure ReputationEvent × World b :=
  (Service.recordEvent config d.time d.user d.kind d.description).runFrom w

/-- The world after some writes, each going through or failing. -/
def writeAll (config : Config) (w : World b) (drafts : List EventDraft) : World b :=
  drafts.foldl (fun w d => (w.write config d).2) w

theorem write_of_down (down : w.outage.events w.eventWrites = true) :
    ∃ after, w.write config d = (.error (.storeDown "reputation"), after) ∧
      after.store = w.store := by
  simp only [write, Service.recordEvent, Service.runFrom_get_bind, Service.runFrom_modify_bind,
    down, ↓reduceIte]
  exact ⟨_, rfl, rfl⟩

theorem write_of_up (up : w.outage.events w.eventWrites = false) {row : b.events.Row}
    (written : b.events.write (w.nextEvent config d) = .ok row) :
    ∃ after, w.write config d = (.ok (w.nextEvent config d), after) ∧
      after.store = { w.store with
        events := w.store.events ++ [row]
        scores := Service.setScore d.user (w.nextEvent config d).scoreAfter w.store.scores } := by
  rw [nextEvent, score] at written
  simp only [write, Service.recordEvent, Service.runFrom_get_bind, Service.runFrom_modify_bind, up,
    Bool.false_eq_true, ↓reduceIte, Service.scoreOf, bind_assoc, pure_bind]
  rw [Service.runFrom_bind, Service.runFrom_take]
  simp only [written]
  exact ⟨_, rfl, rfl⟩

/-- The events of each user are read as a list that leads from a score to the score that is kept. -/
structure Recounts (config : Config) (base : String → Int) (w : World b)
    (history : String → List ReputationEvent) : Prop where
  events : ∀ user, (Service.eventsOf user).runFrom w = (.ok (history user), w)
  chained : ∀ user, Reputation.Chained (base user) (history user)
  scores : ∀ user, (Service.scoreOf config user).runFrom w =
    (.ok (Reputation.lastScore (base user) (history user)), w)

/-- A list of events with one more of a user. -/
def withEvent (history : String → List ReputationEvent) (e : ReputationEvent) :
    String → List ReputationEvent :=
  fun user => if e.user = user then history user ++ [e] else history user

theorem prefix_withEvent (history : String → List ReputationEvent) (e : ReputationEvent)
    (user : String) : history user <+: withEvent history e user := by
  rw [withEvent]
  split
  · exact List.prefix_append _ _
  · exact List.prefix_rfl

variable {base : String → Int} {history : String → List ReputationEvent}

/-- The next write fails and leaves the store as it was, or appends the event that follows the
score. -/
def Continues (config : Config) (base : String → Int) (w : World b)
    (history : String → List ReputationEvent) (d : EventDraft) : Prop :=
  if w.outage.events w.eventWrites then
    ∃ after, w.write config d = (.error (.storeDown "reputation"), after) ∧ after.store = w.store
  else
    ∃ after, w.write config d = (.ok (w.nextEvent config d), after) ∧
      after.Recounts config base (withEvent history (w.nextEvent config d))

theorem runFrom_eventsOf (w : World b) (user : String) :
    (Service.eventsOf user).runFrom w = (b.events.ofUser user w.store.events, w) := rfl

theorem runFrom_scoreOf (config : Config) (w : World b) (user : String) :
    (Service.scoreOf config user).runFrom w = (.ok (w.score config user), w) := rfl

namespace Recounts

theorem ofUser (recounts : w.Recounts config base history) (user : String) :
    b.events.ofUser user w.store.events = .ok (history user) :=
  congrArg Prod.fst (recounts.events user)

theorem score_eq (recounts : w.Recounts config base history) (user : String) :
    w.score config user = Reputation.lastScore (base user) (history user) :=
  Except.ok.inj (congrArg Prod.fst (recounts.scores user))

theorem of_store {after : World b} (recounts : w.Recounts config base history)
    (same : after.store = w.store) : after.Recounts config base history where
  events user := by rw [runFrom_eventsOf, same, recounts.ofUser]
  chained := recounts.chained
  scores user := by rw [runFrom_scoreOf, score, same, ← recounts.score_eq, score]

theorem write (recounts : w.Recounts config base history)
    (keeps : b.KeepsEvent (w.nextEvent config d)) : w.Continues config base history d := by
  rw [Continues]
  split_ifs with down
  · exact write_of_down down
  obtain ⟨row, written, reads, owned⟩ := keeps
  obtain ⟨after, wrote, store⟩ := write_of_up (Bool.not_eq_true _ ▸ down) written
  refine ⟨after, wrote, ⟨fun user => ?_, fun user => ?_, fun user => ?_⟩⟩
  · rw [runFrom_eventsOf, store, Table.ofUser_append (recounts.ofUser user) reads, owned, withEvent]
  · rw [withEvent]
    split
    · rename_i own
      have given : w.score config d.user =
          Reputation.lastScore (base user) (history user) := own ▸ recounts.score_eq d.user
      exact (recounts.chained user).append rfl (given ▸ rfl)
    · exact recounts.chained user
  · rw [runFrom_scoreOf, score, store, lookup_setScore, withEvent]
    by_cases own : d.user = user
    · subst own
      have self : (w.nextEvent config d).user = d.user := rfl
      rw [if_pos rfl, if_pos self, Reputation.lastScore_append, Option.getD_some]
    · have other : (w.nextEvent config d).user ≠ user := own
      rw [if_neg (Ne.symm own), if_neg other, ← recounts.score_eq, score]

theorem writeAll {drafts : List EventDraft} (recounts : w.Recounts config base history)
    (keeps : ∀ d ∈ drafts, ∀ w : World b, b.KeepsEvent (w.nextEvent config d)) :
    ∃ later, (w.writeAll config drafts).Recounts config base later ∧
      ∀ user, history user <+: later user := by
  induction drafts generalizing w history with
  | nil => exact ⟨history, recounts, fun _ => List.prefix_rfl⟩
  | cons d rest ih =>
    have rest_keeps := fun other mem => keeps other (List.mem_cons_of_mem d mem)
    have step := recounts.write (keeps d (by simp) w)
    rw [Continues] at step
    split_ifs at step
    · obtain ⟨after, wrote, same⟩ := step
      obtain ⟨later, counts, longer⟩ := ih (recounts.of_store same) rest_keeps
      refine ⟨later, ?_, longer⟩
      rwa [World.writeAll, List.foldl_cons, wrote]
    · obtain ⟨after, wrote, next⟩ := step
      obtain ⟨later, counts, longer⟩ := ih next rest_keeps
      refine ⟨later, ?_, fun user => (prefix_withEvent history _ user).trans (longer user)⟩
      rwa [World.writeAll, List.foldl_cons, wrote]

theorem bounded (recounts : w.Recounts config base history)
    (bounds : ∀ user, 0 ≤ base user ∧ base user ≤ Reputation.maxScore) (user : String) :
    0 ≤ w.score config user ∧ w.score config user ≤ Reputation.maxScore := by
  rw [recounts.score_eq]
  exact (recounts.chained user).bounded (bounds user)

end Recounts

/-- The snapshot says what the log and the score say. -/
def Shows (w : World b) (config : Config) (history : String → List ReputationEvent) (user : String)
    (s : ReputationSnapshot) : Prop :=
  s.user = user ∧ s.score = w.score config user ∧ s.tier = Reputation.tier (w.score config user) ∧
    s.level = Reputation.level (w.score config user) ∧
    s.compliant = (history user).countP (·.kind == .intentCompliance) ∧
    s.violations = (history user).countP (·.kind == .intentViolationAttempt) ∧
    s.total = s.compliant + s.violations ∧
    s.recent.length = min 10 (history user).length ∧ s.recent.reverse <:+ history user

theorem Recounts.shows (recounts : w.Recounts config base history) (user : String) :
    ∃ s, (Service.reputation config user).runFrom w = (.ok s, w) ∧ w.Shows config history user s := by
  refine ⟨Reputation.snapshot user (w.score config user) (history user), ?_, rfl, rfl, rfl, rfl, rfl,
    rfl, rfl, Reputation.recent_snapshot user _⟩
  rw [Service.reputation, Service.runFrom_bind_ok (recounts.events user), Service.runFrom_bind_ok
    (runFrom_scoreOf config w user)]
  rfl

theorem Recounts.unique {other : String → List ReputationEvent}
    (recounts : w.Recounts config base history) (again : w.Recounts config base other) :
    other = history :=
  funext fun user => Except.ok.inj ((again.ofUser user).symm.trans (recounts.ofUser user))

/-- After any number of writes, each going through or failing, the events of each user lead, each by
what its kind is worth and within the bounds, from the score at the start to the score that is kept;
what was written earlier stands before what was written later; the snapshot of a user says what the
log and the score say; and the next write either fails and changes no store, or appends the event
that follows its user's score and leaves all others alone. In a table that numbers the events of a
user by counting, their order is the one of their numbers. -/
theorem reputation_sound {start : World b} {drafts : List EventDraft}
    (fitting : ∀ d ∈ drafts, d.Fits b) (fresh : start.store.events = [])
    (bounds : ∀ user, 0 ≤ start.score config user ∧ start.score config user ≤ Reputation.maxScore) :
    ∃ history, (start.writeAll config drafts).Recounts config (start.score config) history ∧
      (∀ first rest, drafts = first ++ rest → ∃ earlier,
        (start.writeAll config first).Recounts config (start.score config) earlier ∧
          ∀ user, earlier user <+: history user) ∧
      (∀ user, 0 ≤ (start.writeAll config drafts).score config user ∧
        (start.writeAll config drafts).score config user ≤ Reputation.maxScore) ∧
      (∀ user, ∃ s, (Service.reputation config user).runFrom (start.writeAll config drafts) =
          (.ok s, start.writeAll config drafts) ∧
        (start.writeAll config drafts).Shows config history user s) ∧
      (∀ d, d.Fits b →
        (start.writeAll config drafts).Continues config (start.score config) history d) ∧
      ∀ user rows, EventRow.bySequence user rows = rows.filter (·.user == user) := by
  have empty : start.Recounts config (start.score config) fun _ => [] :=
    { events := fun user => by rw [runFrom_eventsOf, fresh]; rfl
      chained := fun _ => trivial
      scores := fun user => rfl }
  have keeps : ∀ d ∈ drafts, ∀ w : World b, b.KeepsEvent (w.nextEvent config d) :=
    fun d mem _ => (fitting d mem).keepsEvent rfl
  obtain ⟨history, recounts, -⟩ := empty.writeAll keeps
  refine ⟨history, recounts, ?_, recounts.bounded bounds, recounts.shows,
    fun d fits => recounts.write (fits.keepsEvent rfl), EventRow.bySequence_eq⟩
  rintro first rest rfl
  obtain ⟨earlier, counts, -⟩ := empty.writeAll fun d mem => keeps d (List.mem_append_left rest mem)
  obtain ⟨later, counts', longer⟩ := counts.writeAll fun d mem =>
    keeps d (List.mem_append_right first mem)
  rw [World.writeAll, World.writeAll, ← List.foldl_append] at counts'
  obtain rfl := recounts.unique counts'
  exact ⟨earlier, counts, longer⟩

end World

/-! ### Two users -/

namespace Sample

/-- The writes of two users; the second of them fails. -/
def drafts : List EventDraft :=
  [⟨"reader", .escrowReleased, "released", today⟩, ⟨"writer", .proofSubmitted, "lost", today⟩,
   ⟨"writer", .intentViolationAttempt, "blocked", today⟩]

def flaky : World .relational := { outage := { events := fun n => n == 1 } }

end Sample

theorem World.reputation_sound_two_users :
    ∃ history, (Sample.flaky.writeAll Sample.config Sample.drafts).Recounts Sample.config
        (Sample.flaky.score Sample.config) history ∧
      (history "reader").map (·.scoreAfter) = [520] ∧
      (history "writer").map (·.scoreAfter) = [485] := by
  have fitting : ∀ d ∈ Sample.drafts, d.Fits .relational := by
    simp [Sample.drafts, EventDraft.Fits, Sample.today]
  have bounds : ∀ user, 0 ≤ Sample.flaky.score Sample.config user ∧
      Sample.flaky.score Sample.config user ≤ Reputation.maxScore :=
    fun _ => show (0 : Int) ≤ 500 ∧ (500 : Int) ≤ 1000 by decide
  obtain ⟨history, recounts, -⟩ := World.reputation_sound fitting
    (rfl : Sample.flaky.store.events = []) bounds
  have reads (user : String) : (Backend.relational.events.ofUser user
      (Sample.flaky.writeAll Sample.config Sample.drafts).store.events).toOption =
        some (history user) := by rw [recounts.ofUser]; rfl
  have reader := congrArg (Option.map (List.map (·.scoreAfter))) (reads "reader")
  have writer := congrArg (Option.map (List.map (·.scoreAfter))) (reads "writer")
  refine ⟨history, recounts, Option.some.inj (reader.symm.trans ?_),
    Option.some.inj (writer.symm.trans ?_)⟩
  · decide +kernel
  · decide +kernel

end Earmark
