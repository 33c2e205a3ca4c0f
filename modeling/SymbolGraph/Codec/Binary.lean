/-
The binary graph file: fixed-width little-endian records. A header of six
octets (magic, debug format, architecture) is followed by the table of
types and the table of functions, each a 64-bit count and that many
records. Texts are a 64-bit length and UTF-8 octets, lists a 64-bit count
and their items, a truth value one octet. The keys of the tables are not
stored: reading keys every symbol by its id, and a later duplicate wins.
-/
import SymbolGraph.Codec.LittleEndian
import SymbolGraph.Graph
import SymbolGraph.Logged
import SymbolGraph.Text.Utf8

namespace SymbolGraph.Binary

-- ============================================================= writing

def putU8 (x : UInt8) : List UInt8 := [x]

def putU32 (x : UInt32) : List UInt8 := LittleEndian.encode 4 x.toNat

def putU64 (x : UInt64) : List UInt8 := LittleEndian.encode 8 x.toNat

def putI32 (x : Int32) : List UInt8 := putU32 x.toUInt32

def putBool (x : Bool) : List UInt8 := [if x then 1 else 0]

def putCount (n : Nat) : List UInt8 := LittleEndian.encode 8 n

def putText (s : String) : List UInt8 :=
  let octets := Utf8.encode s
  putCount octets.length ++ octets

def putList {α : Type} (item : α → List UInt8) (l : List α) : List UInt8 :=
  putCount l.length ++ l.flatMap item

def putField (f : Field) : List UInt8 :=
  putU32 f.id ++ putText f.name ++ putU32 f.typeId ++ putI32 f.offset
    ++ putBool f.inAnonymousUnion ++ putU32 f.unionId

def putType (t : TypeSymbol) : List UInt8 :=
  putU32 t.id ++ putText t.name ++ putU8 t.kind.tag ++ putU64 t.length
    ++ putU32 t.fieldCount ++ putList putField t.fields ++ putU32 t.aliasOf

def putFunction (f : FunctionSymbol) : List UInt8 :=
  putU32 f.id ++ putText f.name ++ putU32 f.returnType
    ++ putU32 f.argumentCount ++ putList putU32 f.argumentTypes
    ++ putU8 f.convention.tag ++ putU64 f.address

def putHeader (h : Header) : List UInt8 :=
  putU32 h.magic ++ putU8 h.origin.tag ++ putU8 h.architecture.tag

def putTypes (t : Table TypeSymbol) : List UInt8 := putList putType t.values

def putFunctions (t : Table FunctionSymbol) : List UInt8 :=
  putList putFunction t.values

/-- The octets of a graph. -/
def encode (g : Graph) : List UInt8 :=
  putHeader g.header ++ putTypes g.types ++ putFunctions g.functions

-- ============================================================= reading

/-- Why a record cannot be read. -/
inductive Fault where
  | endOfData
  | truthValue (found : UInt8)
  | text (fault : Utf8.Fault)

def Fault.message : Fault → String
  | endOfData => "io error: failed to fill whole buffer"
  | truthValue found =>
    s!"invalid u8 while decoding bool, expected 0 or 1, found {found.toNat}"
  | text fault => s!"string is not valid utf8: {fault.message}"

/-- Reads a value from the front of the octets and leaves the rest. -/
abbrev Reader := StateT (List UInt8) (Except Fault)

/-- Splits off exactly `n` octets. -/
def split? : Nat → List UInt8 → Option (List UInt8 × List UInt8)
  | 0, l => some ([], l)
  | _ + 1, [] => none
  | n + 1, b :: rest => (split? n rest).map fun p => (b :: p.1, p.2)

def getOctets (n : Nat) : Reader (List UInt8) := fun input =>
  match split? n input with
  | some p => .ok p
  | none => .error .endOfData

def getNat (width : Nat) : Reader Nat :=
  return LittleEndian.decode (← getOctets width)

def getU8 : Reader UInt8 := return UInt8.ofNat (← getNat 1)

def getU32 : Reader UInt32 := return UInt32.ofNat (← getNat 4)

def getU64 : Reader UInt64 := return UInt64.ofNat (← getNat 8)

def getI32 : Reader Int32 := return (← getU32).toInt32

def getBool : Reader Bool := do
  let b ← getU8
  if b = 0 then return false
  else if b = 1 then return true
  else throw (.truthValue b)

def getText : Reader String := do
  let octets ← getOctets (← getNat 8)
  match Utf8.decode octets with
  | .ok s => return s
  | .error fault => throw (.text fault)

def getMany {α : Type} (item : Reader α) : Nat → Reader (List α)
  | 0 => return []
  | n + 1 => do
    let first ← item
    return first :: (← getMany item n)

def getList {α : Type} (item : Reader α) : Reader (List α) := do
  getMany item (← getNat 8)

def getField : Reader Field := do
  let id ← getU32
  let name ← getText
  let typeId ← getU32
  let offset ← getI32
  let inAnonymousUnion ← getBool
  let unionId ← getU32
  return { id, name, typeId, offset, inAnonymousUnion, unionId }

def getType : Reader TypeSymbol := do
  let id ← getU32
  let name ← getText
  let kind ← getU8
  let length ← getU64
  let fieldCount ← getU32
  let fields ← getList getField
  let aliasOf ← getU32
  return {
    id, name, kind := .ofTag kind, length, fieldCount, fields, aliasOf }

def getFunction : Reader FunctionSymbol := do
  let id ← getU32
  let name ← getText
  let returnType ← getU32
  let argumentCount ← getU32
  let argumentTypes ← getList getU32
  let convention ← getU8
  let address ← getU64
  return {
    id, name, returnType, argumentCount, argumentTypes,
    convention := .ofTag convention, address }

def getHeader : Reader Header := do
  let magic ← getU32
  let origin ← getU8
  let architecture ← getU8
  return {
    magic, origin := .ofTag origin, architecture := .ofTag architecture }

end SymbolGraph.Binary
