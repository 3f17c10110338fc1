import Earmark.Locks
import Mathlib.Data.Finset.Card
import Mathlib.Data.List.Induction

/-!
Locks that are alive. Whatever variables take and drop, two of them hold one lock exactly when they
took it for one key, and the table has one entry for each key whose lock is held and no other
(`LockTable.one_lock_for_each_key`).
-/

namespace Earmark

/-- What a variable does with locks. -/
inductive LockStep
  /-- It takes the lock of a key instead of what it held. -/
  | hold (name key : String)
  | drop (name : String)
  deriving DecidableEq, Repr

namespace LockStep

def run (t : LockTable) : LockStep → LockTable
  | .hold name key => t.hold name key
  | .drop name => t.drop name

/-- The key, if any, for which each variable took what it holds after a step. -/
def taken (held : String → Option String) : LockStep → String → Option String
  | .hold name key => Function.update held name (some key)
  | .drop name => Function.update held name none

/-- The key, if any, for which each variable took what it holds after some steps. -/
def heldKeys (steps : List LockStep) : String → Option String := steps.foldl taken fun _ => none

end LockStep

namespace LockTable

/-- The table after some steps. -/
def after (steps : List LockStep) : LockTable := steps.foldl LockStep.run {}

/-- Two variables hold one lock. -/
def Share (t : LockTable) (a b : String) : Prop :=
  ∃ lock, t.holders.lookup a = some lock ∧ t.holders.lookup b = some lock

private theorem lookup_eq_some_iff_mem {α : Type} {entries : List (String × α)} {key : String}
    {value : α} (unique : (entries.map Prod.fst).Nodup) :
    entries.lookup key = some value ↔ (key, value) ∈ entries := by
  induction entries with
  | nil => simp
  | cons entry rest ih =>
    obtain ⟨other, found⟩ := entry
    obtain ⟨absent, unique⟩ := List.nodup_cons.mp unique
    by_cases same : key = other
    · subst same
      have later : (key, value) ∉ rest := fun mem => absent (List.mem_map.mpr ⟨_, mem, rfl⟩)
      simp [later, eq_comm]
    · have apart : (key == other) = false := beq_false_of_ne same
      simp [List.lookup_cons, same, apart, ih unique]

/-- The table knows what variables hold: each holds the entry of the key for which it took a lock. -/
private structure Tracks (t : LockTable) (held : String → Option String) : Prop where
  names : (t.holders.map Prod.fst).Nodup
  keys : (t.entries.map Prod.fst).Nodup
  locks : (t.entries.map Prod.snd).Nodup
  made : ∀ key lock, (key, lock) ∈ t.entries → lock < t.next
  holds : ∀ name lock, (name, lock) ∈ t.holders ↔
    ∃ key, held name = some key ∧ (key, lock) ∈ t.entries
  guarded : ∀ name key, held name = some key → ∃ lock, (key, lock) ∈ t.entries

/-- Each entry is the one of a key whose lock is held. -/
private def IsTight (t : LockTable) (held : String → Option String) : Prop :=
  ∀ key lock, (key, lock) ∈ t.entries → ∃ name, held name = some key

variable {t : LockTable} {held : String → Option String} {name key : String} {lock : Nat}

namespace Tracks

private theorem lock_eq (tracks : t.Tracks held) {other : Nat} (mem : (key, lock) ∈ t.entries)
    (mem' : (key, other) ∈ t.entries) : lock = other :=
  congrArg Prod.snd (List.inj_on_of_nodup_map tracks.keys mem mem' rfl)

private theorem key_eq (tracks : t.Tracks held) {other : String} (mem : (key, lock) ∈ t.entries)
    (mem' : (other, lock) ∈ t.entries) : key = other :=
  congrArg Prod.fst (List.inj_on_of_nodup_map tracks.locks mem mem' rfl)

/-- A lock that is made for a key has an identity that no other one has. -/
private theorem lockFor (tracks : t.Tracks held) (key : String) :
    (t.lockFor key).2.Tracks held ∧ (key, (t.lockFor key).1) ∈ (t.lockFor key).2.entries := by
  simp only [LockTable.lockFor]
  split
  · rename_i lock found
    exact ⟨tracks, (lookup_eq_some_iff_mem tracks.keys).mp found⟩
  · rename_i missing
    have absent : ∀ lock, (key, lock) ∉ t.entries := by
      intro lock mem
      rw [(lookup_eq_some_iff_mem tracks.keys).mpr mem] at missing
      cases missing
    refine ⟨⟨tracks.names, ?_, ?_, ?_, ?_, ?_⟩, by simp⟩
    · refine List.nodup_cons.mpr ⟨fun known => ?_, tracks.keys⟩
      obtain ⟨⟨_, lock⟩, mem, rfl⟩ := List.mem_map.mp known
      exact absent lock mem
    · refine List.nodup_cons.mpr ⟨fun known => ?_, tracks.locks⟩
      obtain ⟨⟨other, _⟩, mem, rfl⟩ := List.mem_map.mp known
      exact (tracks.made other _ mem).ne rfl
    · intro other lock mem
      rcases List.mem_cons.mp mem with same | mem
      · cases same
        exact Nat.lt_succ_self _
      · exact (tracks.made other lock mem).trans (Nat.lt_succ_self _)
    · intro name lock
      rw [tracks.holds]
      constructor
      · rintro ⟨other, took, mem⟩
        exact ⟨other, took, List.mem_cons_of_mem _ mem⟩
      · rintro ⟨other, took, mem⟩
        obtain ⟨known, mem'⟩ := tracks.guarded name other took
        rcases List.mem_cons.mp mem with same | mem
        · cases same
          exact absurd mem' (absent known)
        · exact ⟨other, took, mem⟩
    · intro name other took
      obtain ⟨lock, mem⟩ := tracks.guarded name other took
      exact ⟨lock, List.mem_cons_of_mem _ mem⟩

private theorem dropped (tracks : t.Tracks held) (name : String) :
    Tracks { t with holders := t.holders.filter (·.1 != name) }
      (Function.update held name none) := by
  refine ⟨tracks.names.sublist (List.filter_sublist.map _), tracks.keys, tracks.locks, tracks.made,
    fun other lock => ?_, fun other key took => ?_⟩
  · by_cases same : other = name
    · simp [same]
    · simp [same, tracks.holds]
  · have apart : other ≠ name := by
      rintro rfl
      simp at took
    rw [Function.update_of_ne apart] at took
    exact tracks.guarded other key took

private theorem taken (tracks : t.Tracks held) (name : String) (mem : (key, lock) ∈ t.entries) :
    Tracks { t with holders := (name, lock) :: t.holders.filter (·.1 != name) }
      (Function.update held name (some key)) := by
  have without := tracks.dropped name
  refine ⟨?_, tracks.keys, tracks.locks, tracks.made, fun other found => ?_,
    fun other asked took => ?_⟩
  · refine List.nodup_cons.mpr ⟨fun mem => ?_, without.names⟩
    obtain ⟨entry, mem, same⟩ := List.mem_map.mp mem
    simp [same] at mem
  · by_cases same : other = name
    · subst same
      have unique : found = lock ↔ (key, found) ∈ t.entries :=
        ⟨fun eq => eq ▸ mem, fun mem' => tracks.lock_eq mem' mem⟩
      simp [unique]
    · simp [same, tracks.holds]
  · by_cases same : other = name
    · subst same
      obtain rfl : key = asked := by simpa using took
      exact ⟨lock, mem⟩
    · rw [Function.update_of_ne same] at took
      exact tracks.guarded other asked took

/-- What nobody holds is reclaimed, and nothing else. -/
private theorem reclaimed (tracks : t.Tracks held) :
    t.reclaim.Tracks held ∧ t.reclaim.IsTight held := by
  have kept : ∀ key lock, (key, lock) ∈ t.reclaim.entries ↔
      (key, lock) ∈ t.entries ∧ ∃ name, (name, lock) ∈ t.holders := by
    simp [LockTable.reclaim, List.mem_filter]
  have held_kept : ∀ name key lock, held name = some key → (key, lock) ∈ t.entries →
      (key, lock) ∈ t.reclaim.entries := fun name key lock took mem =>
    (kept key lock).mpr ⟨mem, name, (tracks.holds name lock).mpr ⟨key, took, mem⟩⟩
  refine ⟨⟨tracks.names, tracks.keys.sublist (List.filter_sublist.map _),
    tracks.locks.sublist (List.filter_sublist.map _),
    fun key lock mem => tracks.made key lock ((kept key lock).mp mem).1, fun name lock => ?_,
    fun name key took => ?_⟩, fun key lock mem => ?_⟩
  · refine (tracks.holds name lock).trans ⟨?_, ?_⟩
    · rintro ⟨key, took, mem⟩
      exact ⟨key, took, held_kept name key lock took mem⟩
    · rintro ⟨key, took, mem⟩
      exact ⟨key, took, ((kept key lock).mp mem).1⟩
  · obtain ⟨lock, mem⟩ := tracks.guarded name key took
    exact ⟨lock, held_kept name key lock took mem⟩
  · obtain ⟨mem, name, holder⟩ := (kept key lock).mp mem
    obtain ⟨other, took, mem'⟩ := (tracks.holds name lock).mp holder
    exact ⟨name, tracks.key_eq mem mem' ▸ took⟩

private theorem step (tracks : t.Tracks held) (s : LockStep) :
    (s.run t).Tracks (s.taken held) ∧ (s.run t).IsTight (s.taken held) := by
  cases s with
  | hold name key =>
    obtain ⟨looked, mem⟩ := tracks.lockFor key
    exact (looked.taken name mem).reclaimed
  | drop name => exact (tracks.dropped name).reclaimed

end Tracks

private theorem tracks_empty : Tracks {} fun _ => none :=
  ⟨.nil, .nil, .nil, by simp, by simp, by simp⟩

/-- The table and what variables hold after some steps. -/
private theorem tracks_after (steps : List LockStep) :
    (after steps).Tracks (LockStep.heldKeys steps) ∧
      (after steps).IsTight (LockStep.heldKeys steps) := by
  induction steps using List.reverseRecOn with
  | nil => exact ⟨tracks_empty, by simp [IsTight, after]⟩
  | append_singleton steps s ih =>
    simp only [after, LockStep.heldKeys, List.foldl_append, List.foldl_cons, List.foldl_nil] at ih ⊢
    exact ih.1.step s

namespace Tracks

private theorem lookup_iff (tracks : t.Tracks held) :
    t.holders.lookup name = some lock ↔ ∃ key, held name = some key ∧ (key, lock) ∈ t.entries :=
  (lookup_eq_some_iff_mem tracks.names).trans (tracks.holds name lock)

private theorem isSome_lookup (tracks : t.Tracks held) (name : String) :
    (t.holders.lookup name).isSome = (held name).isSome := by
  rw [Bool.eq_iff_iff, Option.isSome_iff_exists, Option.isSome_iff_exists]
  constructor
  · rintro ⟨lock, found⟩
    obtain ⟨key, took, -⟩ := tracks.lookup_iff.mp found
    exact ⟨key, took⟩
  · rintro ⟨key, took⟩
    obtain ⟨lock, mem⟩ := tracks.guarded name key took
    exact ⟨lock, tracks.lookup_iff.mpr ⟨key, took, mem⟩⟩

private theorem share_iff (tracks : t.Tracks held) (a b : String) :
    t.Share a b ↔ ∃ key, held a = some key ∧ held b = some key := by
  constructor
  · rintro ⟨lock, foundA, foundB⟩
    obtain ⟨key, tookA, memA⟩ := tracks.lookup_iff.mp foundA
    obtain ⟨other, tookB, memB⟩ := tracks.lookup_iff.mp foundB
    exact ⟨key, tookA, tracks.key_eq memA memB ▸ tookB⟩
  · rintro ⟨key, tookA, tookB⟩
    obtain ⟨lock, mem⟩ := tracks.guarded a key tookA
    exact ⟨lock, tracks.lookup_iff.mpr ⟨key, tookA, mem⟩, tracks.lookup_iff.mpr ⟨key, tookB, mem⟩⟩

private theorem lookup_eq_none_iff (tracks : t.Tracks held) :
    t.holders.lookup name = none ↔ held name = none := by
  rw [← Option.not_isSome_iff_eq_none, tracks.isSome_lookup, Option.not_isSome_iff_eq_none]

private theorem same_iff (tracks : t.Tracks held) (a b : String) :
    t.same a b = true ↔ held a = held b := by
  rw [same, beq_iff_eq]
  cases took : held a with
  | none =>
    rw [tracks.lookup_eq_none_iff.mpr took, eq_comm, tracks.lookup_eq_none_iff, eq_comm]
  | some key =>
    obtain ⟨lock, mem⟩ := tracks.guarded a key took
    rw [tracks.lookup_iff.mpr ⟨key, took, mem⟩, eq_comm, tracks.lookup_iff, eq_comm]
    constructor
    · rintro ⟨other, took', mem'⟩
      rw [took', tracks.key_eq mem' mem]
    · intro took'
      exact ⟨key, took', mem⟩

private theorem mem_keys_iff (tracks : t.Tracks held) (tight : t.IsTight held) (key : String) :
    key ∈ t.entries.map Prod.fst ↔ ∃ name, held name = some key := by
  constructor
  · intro known
    obtain ⟨⟨_, lock⟩, mem, rfl⟩ := List.mem_map.mp known
    exact tight _ lock mem
  · rintro ⟨name, took⟩
    obtain ⟨lock, mem⟩ := tracks.guarded name key took
    exact List.mem_map_of_mem mem

end Tracks

/-- After any steps, two variables hold one lock exactly when they took it for one key, a variable
holds a lock exactly when it took one, and the table has exactly one entry, and so one lock, for
each key whose lock is held: its size is the number of those keys. -/
theorem one_lock_for_each_key (steps : List LockStep) :
    (∀ a b, (after steps).Share a b ↔
      ∃ key, LockStep.heldKeys steps a = some key ∧ LockStep.heldKeys steps b = some key) ∧
    (∀ a b, (after steps).same a b = true ↔
      LockStep.heldKeys steps a = LockStep.heldKeys steps b) ∧
    (∀ a, ((after steps).holders.lookup a).isSome = (LockStep.heldKeys steps a).isSome) ∧
    (∃ keys : Finset String, (∀ key, key ∈ keys ↔ ∃ a, LockStep.heldKeys steps a = some key) ∧
      (after steps).size = keys.card) ∧
    (∀ key, key ∈ (after steps).entries.map Prod.fst ↔
      ∃ a, LockStep.heldKeys steps a = some key) ∧
    (∀ key lock other, (key, lock) ∈ (after steps).entries → (key, other) ∈ (after steps).entries →
      lock = other) ∧
    ∀ a key lock, LockStep.heldKeys steps a = some key → (key, lock) ∈ (after steps).entries →
      (after steps).holders.lookup a = some lock := by
  obtain ⟨tracks, tight⟩ := tracks_after steps
  refine ⟨tracks.share_iff, tracks.same_iff, tracks.isSome_lookup,
    ⟨((after steps).entries.map Prod.fst).toFinset, fun key => ?_, ?_⟩, tracks.mem_keys_iff tight,
    fun key lock other mem mem' => tracks.lock_eq mem mem',
    fun a key lock took mem => tracks.lookup_iff.mpr ⟨key, took, mem⟩⟩
  · rw [List.mem_toFinset, tracks.mem_keys_iff tight]
  · rw [List.toFinset_card_of_nodup tracks.keys, List.length_map, size]

end LockTable

end Earmark
