/-
The entries of a unit as a source of types. The handle of a type is the
offset of its entry in the unit. Qualifiers such as `const` are looked
through, so that a type and its qualified forms have one id and one
description; chains of them are followed for a bounded number of steps,
and so are the aliases and arrays that a size depends on, because entries
of a broken file may refer to each other in a circle.
-/
import SymbolGraph.Build.Node
import SymbolGraph.Dwarf.Attributes

namespace SymbolGraph.Dwarf

-- ================================================================ tags

namespace Tag

/-- Does an entry with this tag become a type symbol wherever it stands? -/
def isType (tag : Nat) : Bool := [
  baseType, unspecifiedType, structureType, classType, unionType,
  interfaceType, enumerationType, pointerType, referenceType,
  rvalueReferenceType, pointerToMemberType, typedef, arrayType].contains tag

def isQualifier (tag : Nat) : Bool := [
  constType, volatileType, restrictType, atomicType,
  immutableType].contains tag

def isPointer (tag : Nat) : Bool := [
  pointerType, referenceType, rvalueReferenceType,
  pointerToMemberType].contains tag

/-- The kind of the types with fields. -/
def aggregate? (tag : Nat) : Option TypeKind :=
  if tag = structureType then some .struct
  else if tag = classType then some .cls
  else if tag = unionType then some .union
  else if tag = interfaceType then some .interface
  else none

end Tag

-- ============================================================== faults

/-- Why an entry is no type that can be described. -/
inductive TypeFault where
  | unreadable (fault : Fault)
  | noEntry (offset : Nat)
  | qualifiedVoid (offset : Nat)
  | chainTooDeep (offset : Nat)
  | signature (offset : Nat)
  | unsupportedTag (tag offset : Nat)

def TypeFault.message : TypeFault → String
  | unreadable fault => fault.message
  | noEntry offset => "no entry at offset " ++ Text.hex8 offset
  | qualifiedVoid offset => "qualified void @" ++ Text.hex8 offset
  | chainTooDeep offset => "qualifier chain too deep @" ++ Text.hex8 offset
  | signature offset =>
    "function signature @" ++ Text.hex8 offset ++ " is not a type symbol"
  | unsupportedTag tag offset =>
    "unsupported type tag " ++ Tag.name tag ++ " @" ++ Text.hex8 offset

/-- A step of describing a type. -/
abbrev Describing := ExceptT TypeFault Logged

/-- An attempt as a step of describing a type. -/
def Attempt.describing {α : Type} (a : Attempt α) : Describing α :=
  a.adapt TypeFault.unreadable

/-- How long chains of qualifiers and aliases may be. -/
def chainBound : Nat := 32

namespace Unit

-- ============================================================== chains

/-- The entry of a type. -/
def typeEntry (u : Unit) (offset : Nat) : Except TypeFault Entry :=
  match u.entryAt? offset with
  | .error fault => .error (.unreadable fault)
  | .ok none => .error (.noEntry offset)
  | .ok (some e) => .ok e

/-- Looks through qualifiers, at most as many as the bound says. -/
def unqualifiedWithin (u : Unit) : Nat → Nat → Describing Nat
  | 0, offset => throw (.chainTooDeep offset)
  | bound + 1, offset => do
    let e ← (u.typeEntry offset : Except TypeFault Entry)
    if Tag.isQualifier e.tag then
      match ← (e.reference Attr.type).describing with
      | none => throw (.qualifiedVoid offset)
      | some target => u.unqualifiedWithin bound target
    else return offset

def unqualified (u : Unit) (offset : Nat) : Describing Nat :=
  u.unqualifiedWithin chainBound offset

-- =============================================================== sizes

/-- A product; beyond 64 bits it stays at the greatest number. -/
def times (a b : Nat) : Nat := min (a * b) 0xffffffffffffffff

/-- The number of elements along one dimension of an array: the count, or
what lies between the bounds, or 0 if the entry gives neither. Bounds have 64
bits, and behind the greatest one comes 0. -/
def extent (e : Entry) : Except Fault Nat := do
  match (← e.attribute? Attr.count).bind Value.constant? with
  | some n => return n
  | none =>
    match (← e.attribute? Attr.upperBound).bind Value.constant? with
    | none => return 0
    | some upper =>
      let lower := (← e.attribute? Attr.lowerBound).bind Value.constant?
      return (UInt64.ofNat upper + 1).toNat - lower.getD 0

/-- The number of elements along every dimension of an array. -/
def extents (u : Unit) (offset : Nat) : Except Fault (List Nat) := do
  let (children, fault) := u.children offset
  let dimensions := children.filter fun c => c.tag = Tag.subrangeType
  let list ← dimensions.mapM extent
  match fault with
  | some fault => throw fault
  | none => return list

/-- The number of elements of an array; 0 if it has no dimensions, or if
they cannot be read. -/
def elementCount (u : Unit) (offset : Nat) : Nat :=
  match u.extents offset with
  | .error _ => 0
  | .ok [] => 0
  | .ok list => list.foldl times 1

/-- The size of an array that does not give one. `size` is the size of the
element type. -/
def arraySize (u : Unit) (size : Nat → Logged Nat) (e : Entry) :
    Logged Nat := do
  let element ←
    match ← e.reference? Attr.type with
    | some target => size target
    | none => pure 0
  return times element (u.elementCount e.offset)

/-- The size of the type at an offset. An alias, a qualified type or an
array without a size of its own has the size of what it refers to; the
bound says how far. -/
def sizeWithin (u : Unit) : Nat → Nat → Logged Nat
  | 0, _ => return 0
  | bound + 1, offset => do
    match u.typeEntry offset with
    | .error _ => return 0
    | .ok e =>
      match e.byteSize? with
      | some size => return size
      | none =>
        if Tag.isPointer e.tag then return u.encoding.addressSize
        else if e.tag = Tag.typedef || Tag.isQualifier e.tag then
          match ← e.reference? Attr.type with
          | some target => u.sizeWithin bound target
          | none => return 0
        else if e.tag = Tag.arrayType then
          u.arraySize (u.sizeWithin bound) e
        else return 0

-- ========================================================== base types

/-- The class of a base type, from its encoding, its name and its size. -/
def primitive (u : Unit) (e : Entry) : Primitive :=
  let name := (u.name? e).getD ""
  let size := e.byteSize?.getD 0
  match (e.readable? Attr.encoding).bind Value.octet? with
  | none => .other
  | some encoding =>
    if encoding = Ate.signed ∨ encoding = Ate.unsigned then
      if name = "wchar_t" then .wchar
      else if encoding = Ate.signed then .int else .uint
    else if encoding = Ate.signedFixed then .int
    else if encoding = Ate.unsignedFixed then .uint
    else if encoding = Ate.signedChar then .char
    else if encoding = Ate.unsignedChar then
      -- plain `char` is unsigned on some machines
      if name = "char" then .char else .uint
    else if encoding = Ate.float then .float
    else if encoding = Ate.boolean then .bool
    else if encoding = Ate.utf then
      if size = 1 then .char8 else if size = 2 then .char16
      else if size = 4 then .char32 else .other
    else .other

-- ============================================================== fields

/-- The offset of a member in its type, in bytes; given in bits for some. -/
def memberOffset (e : Entry) : Nat :=
  let constant (name : Nat) := (e.readable? name).bind Value.constant?
  match constant Attr.dataMemberLocation with
  | some location => location
  | none => (constant Attr.dataBitOffset).getD 0 / 8

/-- An offset in 32 bits; offsets beyond stay at the greatest. -/
def offset32 (n : Nat) : Int32 :=
  Int32.ofNat (min n 0x7fffffff)

/-- The field of a member; none if its id or its type cannot be read. -/
def member (u : Unit) (e : Entry) : Logged (Option (FieldNode Nat)) := do
  match ← u.idAt e.offset with
  | none => return none
  | some id =>
    let name := (u.name? e).getD ""
    let word := Text.column "member"
    match ← e.reference? Attr.type with
    | none =>
      let place := Text.hex8 id.toNat
      Logged.debug s!"{word} {place}: {name} has no usable type"
      return none
    | some type =>
      let location := memberOffset e
      Logged.trace s!"{word} {name} @ {location}"
      return some { id, name, offset := offset32 location, type }

/-- Is the entry a member that every value of its type has? -/
def isDataMember (e : Entry) : Bool :=
  e.tag = Tag.member
    && !(e.isSet Attr.external || e.isSet Attr.declaration)

/-- The data members of a type, in the order of their declaration. -/
def members (u : Unit) (offset : Nat) :
    Describing (List (Option (FieldNode Nat))) := do
  let (children, fault) := u.children offset
  let fields ← (children.filter isDataMember).mapM fun e => u.member e
  match fault with
  | some fault => throw (.unreadable fault)
  | none => return fields

-- =============================================================== types

/-- What an alias stands for; none if that is nothing or a function
signature. -/
def aliasTarget (u : Unit) (e : Entry) : Describing (Option Nat) := do
  match ← (e.reference Attr.type).describing with
  | none => return none
  | some target =>
    let offset ← u.unqualified target
    let aliased ← (u.typeEntry offset : Except TypeFault Entry)
    if aliased.tag = Tag.subroutineType then return none
    else return some target

/-- The size and shape of the type of an entry. -/
def shape (u : Unit) (offset : Nat) (e : Entry) :
    Describing (Nat × Shape Nat) := do
  let size := e.byteSize?
  if e.tag = Tag.baseType then
    return (size.getD 0, .base (u.primitive e))
  else if e.tag = Tag.unspecifiedType then return (0, .base .void)
  else if let some kind := Tag.aggregate? e.tag then
    return (size.getD 0, .aggregate kind (← u.members offset))
  else if e.tag = Tag.enumerationType then return (size.getD 4, .enum)
  else if Tag.isPointer e.tag then
    return (size.getD u.encoding.addressSize, .pointer)
  else if e.tag = Tag.typedef then
    return (0, .typedef (← u.aliasTarget e))
  else if e.tag = Tag.arrayType then
    match size with
    | some size => return (size, .array)
    | none => return (← u.arraySize (u.sizeWithin chainBound) e, .array)
  else if e.tag = Tag.subroutineType then throw (.signature offset)
  else throw (.unsupportedTag e.tag offset)

/-- The type behind a handle. -/
def describe (u : Unit) (handle : Nat) : Describing (Node Nat) := do
  let offset ← u.unqualified handle
  let e ← (u.typeEntry offset : Except TypeFault Entry)
  let name := u.name? e
  let (length, shape) ← u.shape offset e
  let word := Text.column (Tag.name e.tag)
  let place := Text.hex8 offset
  let shown := name.getD "<anonymous>"
  Logged.trace s!"{word} {place}: {shown}"
  return { name, length := UInt64.ofNat length, shape }

/-- The id of the type behind a handle. -/
def typeId (u : Unit) (handle : Nat) : Logged (Option UInt32) := do
  match ← (u.unqualified handle).run with
  | .ok offset => u.idAt offset
  | .error e =>
    let place := Text.hex8 handle
    let text := e.message
    Logged.debug s!"cannot resolve type @{place}: {text}"
    return none

/-- The types of a unit. Nothing is remembered between descriptions. -/
def source (u : Unit) : Source PUnit Nat TypeFault where
  typeId := u.typeId
  describe handle state := do return (← (u.describe handle).run, state)
  message := TypeFault.message

end Unit

end SymbolGraph.Dwarf
