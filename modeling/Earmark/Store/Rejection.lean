import Earmark.Json.Writer

/-!
What a database reports of a row that it does not take: the cause, the statement, the values that
the statement brought, and where to read on.
-/

namespace Earmark.Rejection

/-- How many characters of a value are shown at most. -/
def maxShown : Nat := 300

/-- A value as a report shows it: of a long one both ends, and how much is missing between them. -/
def abridge (s : String) : String :=
  let cs := s.toList
  if cs.length ≤ maxShown then s
  else
    let half := maxShown / 2
    String.ofList (cs.take half) ++ s!" ... ({cs.length - maxShown} characters truncated) ... " ++
      String.ofList (cs.drop (cs.length - half))

/-- The statement that adds a row to a table. -/
def insertion (table : String) (columns : List String) : String :=
  "INSERT INTO " ++ table ++ " (" ++ ", ".intercalate columns ++ ") VALUES (" ++
    ", ".intercalate (columns.map fun _ => "?") ++ ")"

/-- The page on rows that break a constraint. -/
def page : String := "https:" ++ "//sqlalche.me/e/20/gkpj"

/-- The report on a row, given by its columns, whose key another row has. -/
def keyTaken (table key : String) (row : List (String × Json)) : String :=
  "\n".intercalate
    ["(sqlite3.IntegrityError) UNIQUE constraint failed: " ++ table ++ "." ++ key,
     "[SQL: " ++ insertion table (row.map (·.1)) ++ "]",
     "[parameters: (" ++ ", ".intercalate (row.map fun cell => abridge cell.2.quoted) ++ ")]",
     "(Background on this error at: " ++ page ++ ")"]

end Earmark.Rejection
