/-
Reading a graph file. The extension of the path decides between the
formats; a file with another extension is binary if it begins with the
magic, and JSON if not. The magic must be right in either format: a binary
file is refused right behind its header, a JSON file after the whole
document has been read.
-/
import SymbolGraph.Codec.Binary
import SymbolGraph.Codec.Json.GraphText
import SymbolGraph.Files.Tree

namespace SymbolGraph

/-- Why the content of a file is no graph. -/
inductive DecodeError where
  | header (fault : Binary.Fault)
  | magic (found : UInt32)
  | types (fault : Binary.Fault)
  | functions (fault : Binary.Fault)
  | json (fault : Json.Fault)

def DecodeError.message : DecodeError → String
  | header fault => "truncated header: " ++ fault.message
  | magic found =>
    "bad magic " ++ Text.hex8 found.toNat ++ ", not a USYM file"
  | types fault => "malformed type symbol table: " ++ fault.message
  | functions fault => "malformed function symbol table: " ++ fault.message
  | json _ => "malformed USYM json"

/-- Why a file could not be loaded. -/
inductive LoadError where
  | unreadable (path : String) (fault : Files.Fault)
  | undecodable (path : String) (cause : DecodeError)

/-- The text of the error. A fault of a JSON document is not part of it. -/
def LoadError.message : LoadError → String
  | unreadable path fault => s!"failed to read {path}: {fault.message}"
  | undecodable path cause => s!"failed to load {path}: {cause.message}"

-- ============================================================ decoding

/-- A symbol table keyed by the ids of its symbols. -/
def Table.ofSymbols {α : Type} (id : α → UInt32) (l : List α) : Table α :=
  .ofList (l.map fun a => (id a, a))

/-- Reads a binary graph file. What stands behind the tables is allowed,
but reported. -/
def Binary.decode (octets : List UInt8) :
    Logged (Except DecodeError Graph) := do
  match Binary.getHeader.run octets with
  | .error fault => return .error (.header fault)
  | .ok (header, rest) =>
    if header.magic ≠ magic then return .error (.magic header.magic)
    match (Binary.getList Binary.getType).run rest with
    | .error fault => return .error (.types fault)
    | .ok (types, rest) =>
      match (Binary.getList Binary.getFunction).run rest with
      | .error fault => return .error (.functions fault)
      | .ok (functions, rest) =>
        unless rest.isEmpty do
          Logged.warn s!"{rest.length} trailing bytes after function symbols"
        return .ok {
          header
          types := .ofSymbols TypeSymbol.id types
          functions := .ofSymbols FunctionSymbol.id functions }

/-- Reads a JSON graph file. -/
def Json.decodeGraph (octets : List UInt8) : Except DecodeError Graph :=
  match Json.decode octets with
  | .error fault => .error (.json fault)
  | .ok g =>
    if g.header.magic ≠ magic then .error (.magic g.header.magic) else .ok g

/-- Do the octets begin with the magic? -/
def beginsWithMagic (octets : List UInt8) : Bool :=
  octets.take 4 == [0x55, 0x53, 0x59, 0x4d]

/-- The format of a file, from its path and its content. -/
def Format.of (path : String) (octets : List UInt8) : Format :=
  match (Path.extension? path).bind Format.ofExtension? with
  | some f => f
  | none => if beginsWithMagic octets then .binary else .json

/-- Reads octets in a format. -/
def Format.decode (f : Format) (octets : List UInt8) :
    Logged (Except DecodeError Graph) :=
  match f with
  | .binary => Binary.decode octets
  | .json => return Json.decodeGraph octets

/-- Loads a graph from a file. -/
def loadGraph (files : Files.Tree) (path : String) :
    Logged (Except LoadError Graph) := do
  match files.read path with
  | .error fault => return .error (.unreadable path fault)
  | .ok data =>
    let octets := data.data.toList
    match ← (Format.of path octets).decode octets with
    | .error cause => return .error (.undecodable path cause)
    | .ok g => return .ok g

end SymbolGraph
