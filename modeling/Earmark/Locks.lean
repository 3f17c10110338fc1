/-!
Locks that entities are guarded by. A lock comes into being when someone asks for the lock of a key
that has none, and is gone as soon as nobody holds it.
-/

namespace Earmark

/-- The locks that are alive, by key, and what each variable holds. -/
structure LockTable where
  entries : List (String × Nat) := []
  holders : List (String × Nat) := []
  /-- The identity of the next lock to be made. -/
  next : Nat := 0
  deriving Repr

namespace LockTable

/-- Removes the locks that nobody holds. -/
def reclaim (t : LockTable) : LockTable :=
  { t with entries := t.entries.filter fun entry => t.holders.any (·.2 == entry.2) }

/-- The lock of a key, made if there is none. -/
def lockFor (t : LockTable) (key : String) : Nat × LockTable :=
  match t.entries.lookup key with
  | some lock => (lock, t)
  | none => (t.next, { t with entries := (key, t.next) :: t.entries, next := t.next + 1 })

/-- Makes a variable hold the lock of a key instead of what it held. -/
def hold (t : LockTable) (name key : String) : LockTable :=
  let (lock, t) := t.lockFor key
  { t with holders := (name, lock) :: t.holders.filter (·.1 != name) }.reclaim

/-- Makes a variable hold nothing. -/
def drop (t : LockTable) (name : String) : LockTable :=
  { t with holders := t.holders.filter (·.1 != name) }.reclaim

/-- Whether two variables hold one lock. -/
def same (t : LockTable) (a b : String) : Bool := t.holders.lookup a == t.holders.lookup b

/-- The number of locks that are alive. -/
def size (t : LockTable) : Nat := t.entries.length

end LockTable

end Earmark
