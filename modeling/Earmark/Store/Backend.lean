import Earmark.Summary

/-!
Backends: how a store keeps its records.

A table keeps a row for each record. What is read from a row is the record that was written, as far
as the backend keeps it.
-/

namespace Earmark

/-- How the records of a type are kept. -/
structure Table (α : Type) where
  Row : Type
  write : α → Except Failure Row
  /-- Copies what changes in a record into its row. -/
  update : Row → α → Except Failure Row
  read : Row → Except Failure α
  id : Row → String
  user : Row → String

namespace Table

/-- The row with an id. -/
def find? {α : Type} (t : Table α) (id : String) (rows : List t.Row) : Option t.Row :=
  rows.find? (t.id · == id)

/-- Puts a row in the place of the one with an id. -/
def replace {α : Type} (t : Table α) (id : String) (row : t.Row) (rows : List t.Row) :
    List t.Row :=
  rows.map fun old => if t.id old == id then row else old

/-- The records of a user, in the order in which they were added. -/
def ofUser {α : Type} (t : Table α) (user : String) (rows : List t.Row) :
    Except Failure (List α) :=
  (rows.filter (t.user · == user)).mapM t.read

/-- A table whose rows are the records themselves. -/
def direct {α : Type} (id user : α → String) : Table α where
  Row := α
  write := .ok
  update _ a := .ok a
  read := .ok
  id := id
  user := user

end Table

structure Backend where
  intents : Table Intent
  escrows : Table Escrow
  records : Table TransactionRecord
  events : Table ReputationEvent
  /-- What is read of an amount of a wallet. -/
  money : Decimal → Except Failure Decimal
  /-- How a record is said to be missing when it should be changed. -/
  lookup : Lookup
  /-- Why an intent is refused whose id another one has. -/
  taken : intents.Row → Failure
  /-- Whether a failed operation takes back what it wrote. -/
  rollsBack : Bool
  /-- The latest records of those given, oldest first, up to a limit. -/
  latest : List TransactionRecord → Option Int → Except Failure (List TransactionRecord)

structure Wallet where
  user : String
  balance : Decimal
  locked : Decimal := .zero
  deriving DecidableEq, Repr

/-- All records, each kind in the order of its addition. -/
structure Store (b : Backend) where
  wallets : List Wallet := []
  intents : List b.intents.Row := []
  escrows : List b.escrows.Row := []
  records : List b.records.Row := []
  events : List b.events.Row := []
  scores : List (String × Int) := []

/-- Whether all times have an offset, or none has. -/
def Time.alike (times : List Time) : Bool :=
  times.all (·.offset.isSome) || times.all (·.offset.isNone)

/-- Sorts by a time, the earlier first; what has the same time keeps its order. -/
def sortByTime {α : Type} (time : α → Time) (xs : List α) : Except Failure (List α) :=
  if Time.alike (xs.map time) then
    .ok (xs.mergeSort fun a b => decide ((time a).instant ≤ (time b).instant))
  else .error .wrongKind

namespace Backend

/-- The first `n` items, or all but the last `-n`. -/
def slice {α : Type} (xs : List α) : Option Int → List α
  | none => xs
  | some n => if 0 ≤ n then xs.take n.toNat else xs.take (xs.length - n.natAbs)

/-- Records kept as they are. -/
def memory : Backend where
  intents := .direct Intent.id Intent.user
  escrows := .direct Escrow.id Escrow.user
  records := .direct TransactionRecord.id TransactionRecord.user
  events := .direct ReputationEvent.id ReputationEvent.user
  money := .ok
  lookup := .byKey
  taken i := .duplicateId i.id
  rollsBack := false
  latest records limit := .ok (slice records.reverse limit)

end Backend

end Earmark
