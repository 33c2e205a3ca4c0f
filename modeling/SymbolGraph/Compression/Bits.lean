/-
Bits out of octets, the lowest bit of an octet first.
-/
import SymbolGraph.Bytes

namespace SymbolGraph.Compression

/-- Octets with a place between two of their bits. -/
structure Bits where
  data : ByteArray
  /-- The place of the next bit. -/
  place : Nat := 0

namespace Bits

/-- One bit. -/
def next? (b : Bits) : Option (Nat × Bits) :=
  match Bytes.octet? b.data (b.place / 8) with
  | none => none
  | some x =>
    some (x.toNat / Nat.pow 2 (b.place % 8) % 2, { b with place := b.place + 1 })

/-- `n` bits as a number, the first bit the lowest. -/
def take? (b : Bits) : Nat → Option (Nat × Bits)
  | 0 => some (0, b)
  | n + 1 => do
    let (low, b) ← b.next?
    let (high, b) ← b.take? n
    return (low + 2 * high, b)

/-- The place of the next whole octet. -/
def octetPlace (b : Bits) : Nat := (b.place + 7) / 8

/-- The same octets from a whole octet on. -/
def atOctet (b : Bits) (place : Nat) : Bits := { b with place := 8 * place }

/-- How many bits there are at most. -/
def bound (b : Bits) : Nat := 8 * b.data.size

end Bits

end SymbolGraph.Compression
