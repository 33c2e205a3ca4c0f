/-
The two encodings of a graph file, their names and their file extensions.
-/
namespace SymbolGraph

inductive Format where
  | binary | json
deriving DecidableEq, Inhabited

namespace Format

def ofName? (name : String) : Option Format :=
  if name = "binary" ∨ name = "usym" then some binary
  else if name = "json" then some json
  else none

def name : Format → String
  | binary => "binary"
  | json => "json"

/-- What stands after the last dot of a file in this format. -/
def extension : Format → String
  | binary => "usym"
  | json => "json"

def ofExtension? (extension : String) : Option Format :=
  if extension = "usym" then some binary
  else if extension = "json" then some json
  else none

theorem ofName?_name (f : Format) : ofName? f.name = some f := by
  cases f <;> rfl

theorem ofExtension?_extension (f : Format) :
    ofExtension? f.extension = some f := by
  cases f <;> rfl

end Format

end SymbolGraph
