/-
The records of types. A record begins with its kind; what follows is read
as far as a graph needs it, and octets behind that mean nothing. A list of
fields is a record of records: each of its parts is a record in turn, and
one part that cannot be read makes the list unreadable.
-/
import SymbolGraph.Pdb.Primitive

namespace SymbolGraph.Pdb

/-- What types that may be declared before they are defined have in
common. -/
structure Declared where
  /-- The record only announces the type. -/
  forward : Bool
  name : String
  /-- A name that tells the type from every other. -/
  uniqueName : Option String

/-- The name under which a definition is looked for. -/
def Declared.key (d : Declared) : String := d.uniqueName.getD d.name

/-- A data member in a list of fields. -/
structure Member where
  name : String
  offset : Nat
  type : TypeIndex

inductive TypeRecord where
  | primitive (type : PrimitiveType)
  /-- A class, struct, interface or union. -/
  | aggregate (kind : TypeKind) (head : Declared) (fields : Option TypeIndex)
    (size : Nat)
  | enum (head : Declared) (underlying : TypeIndex)
  /-- A size of 0 stands for that of the machine's pointers. -/
  | pointer (size : Nat)
  | array (dimensions : List Nat)
  /-- A type with qualifiers, or a field of bits. -/
  | wrapper (underlying : TypeIndex)
  | procedure (returnType : Option TypeIndex) (receiver : Option TypeIndex)
    (convention : Nat) (arguments : TypeIndex)
  | argumentList (arguments : List TypeIndex)
  | fieldList (members : List Member) (continuation : Option TypeIndex)
  | member (member : Member)
  /-- A record that says nothing of use here. -/
  | other

namespace TypeRecord

variable (b : ByteArray)

-- ============================================================== pieces

/-- The type of a number that may be absent. -/
def optionalIndex : Scan (Option TypeIndex) := do
  let index ← Scan.typeIndex b
  return if index = 0 ∨ index = 0xffff then none else some index

/-- A number: small ones stand for themselves, greater ones follow a mark
that tells their width. -/
def unsigned : Scan Nat := do
  let n ← Scan.u16 b
  if n < 0x8000 then return n
  else if n = 0x8000 then Scan.u8 b
  else if n = 0x8002 then Scan.u16 b
  else if n = 0x8004 then Scan.u32 b
  else if n = 0x800a then Scan.u64 b
  else throw (.typeKind n)

/-- The value of an enumerator, which may be negative; it is passed over. -/
def skipConstant : Scan Unit := do
  let n ← Scan.u16 b
  if n < 0x8000 then return ()
  else if n = 0x8000 then Scan.skip b 1
  else if n = 0x8001 ∨ n = 0x8002 then Scan.skip b 2
  else if n = 0x8003 ∨ n = 0x8004 then Scan.skip b 4
  else if n = 0x8009 ∨ n = 0x800a then Scan.skip b 8
  else throw (.typeKind n)

/-- A name. The older kinds of record store it behind its length. -/
def name (kind : Nat) : Scan String :=
  if kind ≤ 0x1500 then Scan.counted b else Scan.zeroEnded b

/-- The names at the end of a declaration, whose properties tell whether
there are two and whether more than a name is known. -/
def declared (kind properties : Nat) : Scan Declared := do
  let plain ← name b kind
  let uniqueName ←
    if properties.testBit 9 then some <$> name b kind else pure none
  return { forward := properties.testBit 7, name := plain, uniqueName }

/-- Octets that fill up a record. Each tells how many octets it stands for,
itself included. -/
def padding : Nat → Scan Unit
  | 0 => return ()
  | fuel + 1 => do
    match ← Scan.peek? b with
    | none => return ()
    | some x =>
      if 0xf0 ≤ x then
        Scan.skip b (max 1 (x - 0xf0))
        padding fuel

-- ============================================================= records

def aggregateKind (kind : Nat) : TypeKind :=
  if kind = 0x1504 ∨ kind = 0x1004 then .cls
  else if kind = 0x1519 then .interface else .struct

def readClass (kind : Nat) : Scan TypeRecord := do
  Scan.skip b 2
  let properties ← Scan.u16 b
  let fields ← optionalIndex b
  Scan.skip b 8
  let size ← unsigned b
  return .aggregate (aggregateKind kind) (← declared b kind properties) fields size

/-- The newer kind of struct, with more properties. -/
def readWideStruct (kind : Nat) : Scan TypeRecord := do
  let properties ← Scan.u32 b
  let fields ← optionalIndex b
  Scan.skip b 10
  let size ← unsigned b
  return .aggregate .struct (← declared b kind properties) fields size

def readUnion (kind : Nat) : Scan TypeRecord := do
  Scan.skip b 2
  let properties ← Scan.u16 b
  let fields ← Scan.typeIndex b
  let size ← unsigned b
  return .aggregate .union (← declared b kind properties) (some fields) size

def readEnum (kind : Nat) : Scan TypeRecord := do
  Scan.skip b 2
  let properties ← Scan.u16 b
  let underlying ← Scan.typeIndex b
  Scan.skip b 4
  return .enum (← declared b kind properties) underlying

/-- The size of a pointer, from its attributes. -/
def sizeOfPointer (attributes : Nat) : Nat :=
  let size := attributes / 0x2000 % 64
  let kind := attributes % 32
  if size ≠ 0 then size
  else if kind = 0x0a ∨ kind = 0x0b then 4
  else if kind = 0x0c then 8
  else 0

def readPointer : Scan TypeRecord := do
  Scan.skip b 4
  let attributes ← Scan.u32 b
  let mode := attributes / 32 % 8
  if mode = 2 ∨ mode = 3 then Scan.skip b 4
  return .pointer (sizeOfPointer attributes)

/-- The dimensions of an array, up to the octet 0 that ends them. -/
def dimensions : Nat → Scan (List Nat)
  | 0 => throw .endOfInput
  | fuel + 1 => do
    let n ← unsigned b
    if 0x100000000 ≤ n then throw (.typeKind 0x800a)
    match ← Scan.peek? b with
    | none => throw .endOfInput
    | some 0 =>
      Scan.skip b 1
      return [n]
    | some _ => return n :: (← dimensions fuel)

def readArray (kind : Nat) : Scan TypeRecord := do
  Scan.skip b 8
  if kind = 0x1516 then Scan.skip b 4
  let list ← dimensions b (b.size + 1)
  padding b (b.size + 1)
  return .array list

def readProcedure : Scan TypeRecord := do
  let returnType ← optionalIndex b
  let attributes ← Scan.u16 b
  Scan.skip b 2
  return .procedure returnType none (attributes % 256) (← Scan.typeIndex b)

def readMemberFunction : Scan TypeRecord := do
  let returnType ← Scan.typeIndex b
  Scan.skip b 4
  let receiver ← optionalIndex b
  let attributes ← Scan.u16 b
  Scan.skip b 2
  let arguments ← Scan.typeIndex b
  Scan.skip b 4
  return .procedure (some returnType) receiver (attributes % 256) arguments

def indices : Nat → Scan (List TypeIndex)
  | 0 => return []
  | n + 1 => do
    let index ← Scan.typeIndex b
    return index :: (← indices n)

def readArgumentList : Scan TypeRecord := do
  return .argumentList (← indices b (← Scan.u32 b))

/-- Is a method with these attributes the first of its name in a table of
virtual functions? Its place in the table then follows. -/
def introducesVirtual (attributes : Nat) : Bool :=
  attributes / 4 % 8 = 4 || attributes / 4 % 8 = 6

def methodList : Nat → Scan Unit
  | 0 => return ()
  | fuel + 1 => do
    if ← Scan.atEnd b then return ()
    let attributes ← Scan.u16 b
    Scan.skip b 6
    if introducesVirtual attributes then Scan.skip b 4
    methodList fuel

def readMember (kind : Nat) : Scan TypeRecord := do
  Scan.skip b 2
  let type ← Scan.typeIndex b
  let offset ← unsigned b
  return .member { name := ← name b kind, offset, type }

/-- A record that is passed over: octets, numbers, then a name. -/
def passOver (octets numbers : Nat) (named : Option Nat) : Scan TypeRecord := do
  Scan.skip b octets
  for _ in List.range numbers do
    let _ ← unsigned b
  match named with
  | some kind => let _ ← name b kind
  | none => pure ()
  return .other

def readMethod (kind : Nat) : Scan TypeRecord := do
  let attributes ← Scan.u16 b
  Scan.skip b 4
  if introducesVirtual attributes then Scan.skip b 4
  let _ ← name b kind
  return .other

def readEnumerator (kind : Nat) : Scan TypeRecord := do
  Scan.skip b 2
  skipConstant b
  let _ ← name b kind
  return .other

-- ======================================================= field lists

/-- The parts of a list of fields, each followed by padding. `part` reads
one. Of several continuations the last counts. -/
def readFieldList (part : Scan TypeRecord) :
    Nat → List Member → Option TypeIndex → Scan TypeRecord
  | 0, _, _ => throw .endOfInput
  | fuel + 1, members, continuation => do
    if ← Scan.atEnd b then
      return .fieldList members.reverse continuation
    let place ← get
    if (← Scan.u16 b) = 0x1404 then
      let next ← Scan.typeIndex b
      padding b (b.size + 1)
      readFieldList part fuel members (some next)
    else
      set place
      let record ← part
      padding b (b.size + 1)
      match record with
      | .member m => readFieldList part fuel (m :: members) continuation
      | _ => readFieldList part fuel members continuation

/-- One record; lists of fields are nested no deeper than the bound. -/
def readWithin : Nat → Scan TypeRecord
  | 0 => throw .endOfInput
  | bound + 1 => do
    let kind ← Scan.u16 b
    match kind with
    | 0x1504 | 0x1505 | 0x1519 | 0x1004 | 0x1005 => readClass b kind
    | 0x1609 => readWideStruct b kind
    | 0x1506 | 0x1006 => readUnion b kind
    | 0x1507 | 0x1007 => readEnum b kind
    | 0x1002 => readPointer b
    | 0x1001 =>
      let underlying ← Scan.typeIndex b
      Scan.skip b 2
      return .wrapper underlying
    | 0x1205 =>
      let underlying ← Scan.typeIndex b
      Scan.skip b 2
      return .wrapper underlying
    | 0x1503 | 0x1003 | 0x1516 => readArray b kind
    | 0x1008 => readProcedure b
    | 0x1009 => readMemberFunction b
    | 0x1201 => readArgumentList b
    | 0x1206 =>
      methodList b (b.size + 1)
      return .other
    | 0x1203 => readFieldList b (readWithin bound) (b.size + 1) [] none
    | 0x150d | 0x1405 => readMember b kind
    | 0x1502 | 0x0403 => readEnumerator b kind
    | 0x1510 | 0x1408 | 0x1512 | 0x140d | 0x150e | 0x1406 | 0x150f | 0x1407 =>
      passOver b 6 0 (some kind)
    | 0x1400 | 0x151a => passOver b 6 1 none
    | 0x1401 | 0x1402 => passOver b 10 2 none
    | 0x1409 => passOver b 6 0 none
    | 0x1511 | 0x140b => readMethod b kind
    | _ => throw (.typeKind kind)

/-- Reads a record. -/
def parse : Except Fault TypeRecord := (readWithin b (b.size + 1)).result

end TypeRecord

end SymbolGraph.Pdb
