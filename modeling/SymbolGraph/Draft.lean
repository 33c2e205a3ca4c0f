/-
What a writer has put together before anything is written: the header, then
the types, then the functions. In the binary format a draft is the octets so
far, and every stage adds its own at the end. In the JSON format it is the
members of the document so far, in the order of their keys, and every stage
puts its members in, in place of earlier ones.

No stage clears what it finds. A draft that is to be of one graph has to be
begun blank.
-/
import SymbolGraph.Codec.Binary
import SymbolGraph.Codec.Json.GraphText

namespace SymbolGraph

namespace Json

/-- The members of an object. -/
abbrev Members := List (List UInt8 × Printer)

/-- Puts a member in, in the order of the keys, in place of one with its
key. -/
def Members.put (name : List UInt8) (value : Printer) : Members → Members
  | [] => [(name, value)]
  | m :: rest =>
    if name = m.1 then (name, value) :: rest
    else if keyLe name m.1 then (name, value) :: m :: rest
    else m :: Members.put name value rest

/-- The header as the members it has in the document. -/
def headerMembers (h : Header) : Members := [
  (key "architecture", number h.architecture.tag.toNat),
  (key "magic", number h.magic.toNat),
  (key "originalFormat", number h.origin.tag.toNat)]

end Json

inductive Draft where
  | binary (octets : List UInt8)
  | json (members : Json.Members)

namespace Draft

def blank : Format → Draft
  | .binary => .binary []
  | .json => .json []

def addHeader (h : Header) : Draft → Draft
  | .binary octets => .binary (octets ++ Binary.putHeader h)
  | .json members =>
    .json ((Json.headerMembers h).foldl (fun ms m => ms.put m.1 m.2) members)

def addTypes (t : Table TypeSymbol) : Draft → Draft
  | .binary octets => .binary (octets ++ Binary.putTypes t)
  | .json members =>
    .json (members.put (Json.key "typeSymbols")
      (Json.tablePrinter Json.typePrinter t))

def addFunctions (t : Table FunctionSymbol) : Draft → Draft
  | .binary octets => .binary (octets ++ Binary.putFunctions t)
  | .json members =>
    .json (members.put (Json.key "functionSymbols")
      (Json.tablePrinter Json.functionPrinter t))

/-- The stages of a graph, in their order. -/
def add (g : Graph) (d : Draft) : Draft :=
  ((d.addHeader g.header).addTypes g.types).addFunctions g.functions

/-- The octets of the file. -/
def octets : Draft → List UInt8
  | .binary octets => octets
  | .json members => Json.object members 0 ++ [0x0a]

end Draft

end SymbolGraph
