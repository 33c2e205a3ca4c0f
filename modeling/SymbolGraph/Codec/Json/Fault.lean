/-
Why a JSON document is refused: the text ends too early, it is no JSON, or
it is JSON but not what is wanted in its place. A document is read from
front to back and the first fault found is the one reported.
-/
import SymbolGraph.Text.Quoted
import SymbolGraph.Text.Shortest

namespace SymbolGraph.Json

/-- What was found where something else is wanted. -/
inductive Found where
  | null
  | truth (value : Bool)
  | integer (value : Int)
  | float (value : Float)
  | text (value : String)
  | sequence
  | map

def Found.message : Found → String
  | null => "null"
  | truth b =>
    let word := if b then "true" else "false"
    "boolean \x60" ++ word ++ "\x60"
  | integer i => "integer \x60" ++ toString i ++ "\x60"
  | float x => "floating point \x60" ++ Text.floatText x ++ "\x60"
  | text s => "string " ++ Text.quoted s
  | sequence => "sequence"
  | map => "map"

/-- Why well-formed JSON is not what is wanted. -/
inductive Mismatch where
  | type (found : Found) (wanted : String)
  | value (found : Found) (wanted : String)
  | missing (member : String)
  | repeated (member : String)
  /-- An array in place of an object has too few items. -/
  | length (found : Nat) (wanted : String)

def Mismatch.message : Mismatch → String
  | type found wanted => s!"invalid type: {found.message}, expected {wanted}"
  | value found wanted => s!"invalid value: {found.message}, expected {wanted}"
  | missing member => "missing field \x60" ++ member ++ "\x60"
  | repeated member => "duplicate field \x60" ++ member ++ "\x60"
  | length found wanted => s!"invalid length {found}, expected {wanted}"

inductive Fault where
  | truncated
  | malformed
  | mismatch (cause : Mismatch)

end SymbolGraph.Json
