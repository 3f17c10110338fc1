import Earmark.Text.Blank
import Earmark.Text.Lowercase

/-!
Labels and tags: names compared without regard to case and to white space at their ends.
-/

namespace Earmark

/-- The common form of a name: no white space at the ends, then lower case. -/
def normalize (name : String) : String := Text.lower (Text.strip name)

/-- Drops blank tags and brings the others to their common form. -/
def normalizeTags (tags : List String) : List String :=
  (tags.filter fun tag => Text.strip tag != "").map normalize

/-- A list as a set: each member once, in the order of code points. -/
def sortedSet (names : List String) : List String :=
  (names.mergeSort fun a b => decide (a ≤ b)).eraseDups

end Earmark
