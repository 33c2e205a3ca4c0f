/-
Bits out of octets from the end: the highest bit of the last octet that is
set marks where they begin. Beyond the first octet there are only zeros,
and the number of bits left goes below 0.
-/
import SymbolGraph.Bytes

namespace SymbolGraph.Compression

structure BackBits where
  data : ByteArray
  /-- How many bits are left; below 0 if more were taken than there are. -/
  left : Int

namespace BackBits

/-- The bits of some octets, the last of which must not be 0. -/
def ofOctets? (data : ByteArray) : Option BackBits := do
  let last ← Bytes.octet? data (data.size - 1)
  if last = 0 then none
  else
    let left : Nat := 8 * (data.size - 1) + last.toNat.log2
    return { data, left }

/-- The bit at a place, counted from the lowest bit of the first octet. -/
def bitAt (b : BackBits) (place : Int) : Nat :=
  if place < 0 then 0
  else
    let n := place.toNat
    let octet := ((Bytes.octet? b.data (n / 8)).getD 0).toNat
    octet / Nat.pow 2 (n % 8) % 2

/-- The next `n` bits as a number, the first bit the highest. -/
def peek (b : BackBits) : Nat → Nat
  | 0 => 0
  | n + 1 => 2 * b.peek n + b.bitAt (b.left - (n + 1 : Nat))

def skip (b : BackBits) (n : Nat) : BackBits :=
  { b with left := b.left - (n : Int) }

/-- The next `n` bits as a number, and what is left. -/
def take (b : BackBits) (n : Nat) : Nat × BackBits := (b.peek n, b.skip n)

end BackBits

end SymbolGraph.Compression
