/-
The symbol graph: a header and two id-keyed tables, one of types and one
of functions. The key of a symbol in its table need not be its own id: a
file may say otherwise, and then both numbers are kept.
-/
import SymbolGraph.Format
import SymbolGraph.Symbol
import SymbolGraph.Table

namespace SymbolGraph

/-- The letters `USYM`, read as a little-endian 32-bit number. -/
def magic : UInt32 := 0x4d595355

structure Header where
  magic : UInt32 := SymbolGraph.magic
  origin : DebugFormat := .unknown
  architecture : Architecture := .unknown
deriving DecidableEq, Inhabited

structure Graph where
  header : Header := {}
  types : Table TypeSymbol := {}
  functions : Table FunctionSymbol := {}
  /-- The encoding selected for saving, if one is. -/
  format : Option Format := none
deriving DecidableEq, Inhabited

namespace Graph

/-- The type with the given name and the least key, or the empty type. -/
def typeByName (g : Graph) (name : String) : TypeSymbol :=
  (g.types.find? fun t => t.name == name).getD {}

/-- The function with the given name and the least key, or the empty
function. -/
def functionByName (g : Graph) (name : String) : FunctionSymbol :=
  (g.functions.find? fun f => f.name == name).getD {}

end Graph

end SymbolGraph
