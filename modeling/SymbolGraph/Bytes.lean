/-
Reading numbers and texts at a place of a byte array. Nothing is read
beyond the end: such a read has no result.
-/
namespace SymbolGraph

/-- Which octet of a number comes first. -/
inductive ByteOrder where
  | little | big
deriving DecidableEq, Inhabited

namespace Bytes

def octet? (b : ByteArray) (i : Nat) : Option UInt8 :=
  if h : i < b.size then some b[i] else none

/-- `length` octets from `offset` on. -/
def range? (b : ByteArray) (offset length : Nat) : Option ByteArray :=
  if offset + length ≤ b.size then some (b.extract offset (offset + length))
  else none

/-- `width` octets as a number, the least significant first. -/
def littleAt (b : ByteArray) (offset : Nat) : Nat → Nat
  | 0 => 0
  | width + 1 =>
    ((octet? b offset).getD 0).toNat + 256 * littleAt b (offset + 1) width

/-- `width` octets as a number, the most significant first. -/
def bigAt (b : ByteArray) (offset : Nat) : Nat → Nat
  | 0 => 0
  | width + 1 =>
    256 * bigAt b offset width + ((octet? b (offset + width)).getD 0).toNat

/-- A number of `width` octets at `offset`. -/
def number? (order : ByteOrder) (b : ByteArray) (offset width : Nat) :
    Option Nat :=
  if offset + width ≤ b.size then
    match order with
    | .little => some (littleAt b offset width)
    | .big => some (bigAt b offset width)
  else none

/-- Does `text` stand at `offset`? -/
def standsAt (b : ByteArray) (offset : Nat) (text : List UInt8) : Bool :=
  match range? b offset text.length with
  | some r => r.data.toList == text
  | none => false

/-- The octets from `offset` up to the first 0, which lies within `fuel`
octets. -/
def untilZero? (b : ByteArray) (offset : Nat) : Nat → Option (List UInt8)
  | 0 => none
  | fuel + 1 =>
    match octet? b offset with
    | none => none
    | some 0 => some []
    | some x => (untilZero? b (offset + 1) fuel).map (x :: ·)

/-- The octets of an ASCII text. -/
def ascii (s : String) : List UInt8 := s.toList.map fun c => c.toNat.toUInt8

end Bytes

end SymbolGraph
