import Earmark.Time

/-!
Ids of records. Each kind of record has a mark and counts its ids from one; a number once taken is
not given again, whatever becomes of the record.
-/

namespace Earmark

/-- The last number given, for each kind of record. -/
structure Ids where
  intents : Nat := 0
  escrows : Nat := 0
  milestones : Nat := 0
  events : Nat := 0
  transactions : Nat := 0
  deriving DecidableEq, Repr, Inhabited

namespace Ids

/-- A mark and a number of at least twelve digits. -/
def text (mark : String) (n : Nat) : String := mark ++ "-" ++ Time.padded 12 n

def intent (n : Nat) : String := text "INT" n
def escrow (n : Nat) : String := text "ESC" n
def milestone (n : Nat) : String := text "MST" n
def event (n : Nat) : String := text "REP" n
def transaction (n : Nat) : String := text "TXN" n

end Ids

end Earmark
