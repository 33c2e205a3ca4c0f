/-
The types that a program database does not describe: base types, and
pointers to them. The low octet of their number says which base type, and
three bits above it what kind of pointer, if any.
-/
import SymbolGraph.Build.Node
import SymbolGraph.Pdb.Scan

namespace SymbolGraph.Pdb

/-- The first number of a type with a record. -/
def firstRecord : TypeIndex := 0x1000

/-- Is the type one that has no record? -/
def TypeIndex.isPrimitive (index : TypeIndex) : Bool := index < firstRecord

/-- The base types by number, with their size in bytes. -/
def baseTypes : List (Nat × Primitive × Nat) := [
  (0x00, .noType, 0), (0x03, .void, 0), (0x08, .int, 4), (0x10, .char, 1),
  (0x11, .int, 2), (0x12, .long, 4), (0x13, .int, 8), (0x14, .int, 16),
  (0x20, .uint, 1), (0x21, .uint, 2), (0x22, .ulong, 4), (0x23, .uint, 8),
  (0x24, .uint, 16), (0x30, .bool, 1), (0x31, .bool, 2), (0x32, .bool, 4),
  (0x33, .bool, 8), (0x40, .float, 4), (0x41, .float, 8), (0x42, .float, 10),
  (0x43, .float, 16), (0x44, .float, 6), (0x45, .float, 4), (0x46, .float, 2),
  (0x50, .other, 0), (0x51, .other, 0), (0x52, .other, 0), (0x53, .other, 0),
  (0x68, .int, 1), (0x69, .uint, 1), (0x70, .char, 1), (0x71, .wchar, 2),
  (0x72, .int, 2), (0x73, .uint, 2), (0x74, .int, 4), (0x75, .uint, 4),
  (0x76, .int, 8), (0x77, .uint, 8), (0x78, .int, 16), (0x79, .uint, 16),
  (0x7a, .char16, 2), (0x7b, .char32, 4)]

/-- The size in bytes of a pointer of some kind. -/
def pointerSize (kind : Nat) : Nat :=
  if kind = 1 then 2 else if kind = 5 then 6 else if kind = 6 then 8
  else if kind = 7 then 16 else 4

/-- A type without a record. -/
structure PrimitiveType where
  primitive : Primitive
  size : Nat
  /-- The kind of pointer to the base type, or 0. -/
  indirection : Nat

/-- The type of a number below those with records. -/
def PrimitiveType.ofIndex (index : TypeIndex) : Except Fault PrimitiveType :=
  let n := index.toNat
  match baseTypes.lookup (n % 256) with
  | some (primitive, size) =>
    if n / 256 < 8 then .ok { primitive, size, indirection := n / 256 }
    else .error (.typeNotFound n)
  | none => .error (.typeNotFound n)

/-- Its size in bytes. -/
def PrimitiveType.length (p : PrimitiveType) : Nat :=
  if p.indirection = 0 then p.size else pointerSize p.indirection

def PrimitiveType.shape {H : Type} (p : PrimitiveType) : Shape H :=
  if p.indirection = 0 then .base p.primitive else .pointer

end SymbolGraph.Pdb
