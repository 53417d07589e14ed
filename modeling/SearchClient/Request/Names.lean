import SearchClient.Text.Blank
import SearchClient.Text.Split

/-!
# Lists of names

Several names travel as one text with commas between them. Reading such a text drops blanks around
names and drops names that are empty.
-/

set_option autoImplicit false
set_option relaxedAutoImplicit false

namespace SearchClient

/-- One or more names of indices, nodes, repositories and the like. -/
structure Names where
  items : List String
  deriving DecidableEq, Repr, Inhabited

namespace Names

/-- The name that stands for all. -/
def all : Names := ⟨["_all"]⟩

/-- The names in a text. -/
def parse (text : String) : Names :=
  ⟨(((Text.split ',' text.toList).map Text.trim).filter (· ≠ [])).map String.ofList⟩

/-- The names with commas between them. -/
def text (names : Names) : String := ",".intercalate names.items

def isEmpty (names : Names) : Bool := names.items.isEmpty

end Names

end SearchClient
