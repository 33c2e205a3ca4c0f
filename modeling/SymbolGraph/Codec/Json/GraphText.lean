/-
The JSON graph file: one object with the header and the two tables. The
members of every object are in the order of their keys as texts, and so are
the entries of a table, whose keys are decimal numbers. Reading takes the
members in any order, keeps a table key that differs from the id of its
symbol, and lets the last of several equal keys win.
-/
import SymbolGraph.Codec.Json.Printer
import SymbolGraph.Codec.Json.Value
import SymbolGraph.Graph

namespace SymbolGraph.Json

-- ============================================================= writing

/-- Text order: octet by octet, the shorter first. -/
def keyLe : List UInt8 → List UInt8 → Bool
  | [], _ => true
  | _ :: _, [] => false
  | a :: s, b :: t => a < b || (a == b && keyLe s t)

def key (name : String) : List UInt8 := Utf8.encode name

def fieldPrinter (f : Field) : Printer := object [
  (key "id", number f.id.toNat),
  (key "isAnonymousUnion", truth f.inAnonymousUnion),
  (key "name", text f.name),
  (key "offset", signed f.offset.toInt),
  (key "underlyingTypeId", number f.typeId.toNat),
  (key "unionId", number f.unionId.toNat)]

def typePrinter (t : TypeSymbol) : Printer := object [
  (key "fieldCount", number t.fieldCount.toNat),
  (key "fields", array (t.fields.map fieldPrinter)),
  (key "id", number t.id.toNat),
  (key "length", number t.length.toNat),
  (key "name", text t.name),
  (key "type", number t.kind.tag.toNat),
  (key "typedefSource", number t.aliasOf.toNat)]

def functionPrinter (f : FunctionSymbol) : Printer := object [
  (key "argumentCount", number f.argumentCount.toNat),
  (key "argumentTypeIds",
    array (f.argumentTypes.map fun a => number a.toNat)),
  (key "callingConvention", number f.convention.tag.toNat),
  (key "id", number f.id.toNat),
  (key "name", text f.name),
  (key "returnTypeId", number f.returnType.toNat),
  (key "virtualAddress", number f.address.toNat)]

/-- A table as an object whose keys are the ids, in the order of their
decimal texts. -/
def tablePrinter {α : Type} (symbol : α → Printer) (t : Table α) : Printer :=
  let members := t.entries.map fun e => (decimal e.1.toNat, symbol e.2)
  object (members.mergeSort fun a b => keyLe a.1 b.1)

def graphPrinter (g : Graph) : Printer := object [
  (key "architecture", number g.header.architecture.tag.toNat),
  (key "functionSymbols", tablePrinter functionPrinter g.functions),
  (key "magic", number g.header.magic.toNat),
  (key "originalFormat", number g.header.origin.tag.toNat),
  (key "typeSymbols", tablePrinter typePrinter g.types)]

/-- The octets of a graph, with a line break at the end. -/
def encode (g : Graph) : List UInt8 := graphPrinter g 0 ++ [0x0a]

-- ============================================================= reading

/-- A record of the members read so far. -/
structure FieldParts where
  id : Option UInt32 := none
  name : Option String := none
  typeId : Option UInt32 := none
  offset : Option Int32 := none
  inAnonymousUnion : Option Bool := none
  unionId : Option UInt32 := none

def fieldMembers : List (Member FieldParts) := [
  { name := "id", isOptional := true, isPresent := (·.id.isSome)
    read := fun p => return { p with id := some (← u32Value) } },
  { name := "name", isPresent := (·.name.isSome)
    read := fun p => return { p with name := some (← textValue) } },
  { name := "underlyingTypeId", isPresent := (·.typeId.isSome)
    read := fun p => return { p with typeId := some (← u32Value) } },
  { name := "offset", isPresent := (·.offset.isSome)
    read := fun p => return { p with offset := some (← i32Value) } },
  { name := "isAnonymousUnion", isPresent := (·.inAnonymousUnion.isSome)
    read := fun p => return { p with inAnonymousUnion := some (← boolValue) } },
  { name := "unionId", isPresent := (·.unionId.isSome)
    read := fun p => return { p with unionId := some (← u32Value) } }]

def fieldValue : Reader Field := do
  let p ← recordValue "FieldSymbol" fieldMembers {}
  return {
    id := p.id.getD 0, name := p.name.getD "", typeId := p.typeId.getD 0,
    offset := p.offset.getD 0,
    inAnonymousUnion := p.inAnonymousUnion.getD false,
    unionId := p.unionId.getD 0 }

structure TypeParts where
  id : Option UInt32 := none
  name : Option String := none
  kind : Option UInt8 := none
  length : Option UInt64 := none
  fieldCount : Option UInt32 := none
  fields : Option (List Field) := none
  aliasOf : Option UInt32 := none

def typeMembers : List (Member TypeParts) := [
  { name := "id", isPresent := (·.id.isSome)
    read := fun p => return { p with id := some (← u32Value) } },
  { name := "name", isPresent := (·.name.isSome)
    read := fun p => return { p with name := some (← textValue) } },
  { name := "type", isPresent := (·.kind.isSome)
    read := fun p => return { p with kind := some (← u8Value) } },
  { name := "length", isPresent := (·.length.isSome)
    read := fun p => return { p with length := some (← u64Value) } },
  { name := "fieldCount", isPresent := (·.fieldCount.isSome)
    read := fun p => return { p with fieldCount := some (← u32Value) } },
  { name := "fields", isPresent := (·.fields.isSome)
    read := fun p => return { p with fields := some (← listValue fieldValue) } },
  { name := "typedefSource", isPresent := (·.aliasOf.isSome)
    read := fun p => return { p with aliasOf := some (← u32Value) } }]

def typeValue : Reader TypeSymbol := do
  let p ← recordValue "TypeSymbol" typeMembers {}
  return {
    id := p.id.getD 0, name := p.name.getD "",
    kind := .ofTag (p.kind.getD 0), length := p.length.getD 0,
    fieldCount := p.fieldCount.getD 0, fields := p.fields.getD [],
    aliasOf := p.aliasOf.getD 0 }

structure FunctionParts where
  id : Option UInt32 := none
  name : Option String := none
  returnType : Option UInt32 := none
  argumentCount : Option UInt32 := none
  argumentTypes : Option (List UInt32) := none
  convention : Option UInt8 := none
  address : Option UInt64 := none

def functionMembers : List (Member FunctionParts) := [
  { name := "id", isPresent := (·.id.isSome)
    read := fun p => return { p with id := some (← u32Value) } },
  { name := "name", isPresent := (·.name.isSome)
    read := fun p => return { p with name := some (← textValue) } },
  { name := "returnTypeId", isPresent := (·.returnType.isSome)
    read := fun p => return { p with returnType := some (← u32Value) } },
  { name := "argumentCount", isPresent := (·.argumentCount.isSome)
    read := fun p => return { p with argumentCount := some (← u32Value) } },
  { name := "argumentTypeIds", isPresent := (·.argumentTypes.isSome)
    read := fun p => do
      return { p with argumentTypes := some (← listValue u32Value) } },
  { name := "callingConvention", isPresent := (·.convention.isSome)
    read := fun p => return { p with convention := some (← u8Value) } },
  { name := "virtualAddress", isPresent := (·.address.isSome)
    read := fun p => return { p with address := some (← u64Value) } }]

def functionValue : Reader FunctionSymbol := do
  let p ← recordValue "FunctionSymbol" functionMembers {}
  return {
    id := p.id.getD 0, name := p.name.getD "",
    returnType := p.returnType.getD 0,
    argumentCount := p.argumentCount.getD 0,
    argumentTypes := p.argumentTypes.getD [],
    convention := .ofTag (p.convention.getD 0),
    address := p.address.getD 0 }

structure GraphParts where
  magic : Option UInt32 := none
  origin : Option UInt8 := none
  architecture : Option UInt8 := none
  types : Option (List (UInt32 × TypeSymbol)) := none
  functions : Option (List (UInt32 × FunctionSymbol)) := none

def graphMembers : List (Member GraphParts) := [
  { name := "magic", isPresent := (·.magic.isSome)
    read := fun p => return { p with magic := some (← u32Value) } },
  { name := "originalFormat", isPresent := (·.origin.isSome)
    read := fun p => return { p with origin := some (← u8Value) } },
  { name := "architecture", isPresent := (·.architecture.isSome)
    read := fun p => return { p with architecture := some (← u8Value) } },
  { name := "typeSymbols", isOptional := true, isPresent := (·.types.isSome)
    read := fun p => do
      return { p with types := some (← idMapValue typeValue) } },
  { name := "functionSymbols", isOptional := true
    isPresent := (·.functions.isSome)
    read := fun p => do
      return { p with functions := some (← idMapValue functionValue) } }]

def graphValue : Reader Graph := do
  let p ← recordValue "Document" graphMembers {}
  return {
    header := {
      magic := p.magic.getD 0
      origin := .ofTag (p.origin.getD 0)
      architecture := .ofTag (p.architecture.getD 0) }
    types := .ofList (p.types.getD [])
    functions := .ofList (p.functions.getD []) }

/-- A whole document: a graph and nothing but blanks behind it. -/
def document : Reader Graph := do
  let g ← graphValue
  match ← peekSolid with
  | none => return g
  | some _ => throw .malformed

/-- Reads a graph file, whatever its magic. -/
def decode (octets : List UInt8) : Except Fault Graph :=
  (document.run octets).map Prod.fst

end SymbolGraph.Json
