/-
Reading the basic pieces of DWARF sections: numbers of fixed and variable
width, offsets, addresses and texts. A scan runs over a region of a
section, carries its place, and never passes the end of the region.
-/
import SymbolGraph.Bytes
import SymbolGraph.Dwarf.Fault

namespace SymbolGraph.Dwarf

/-- Octets up to a stop, with the byte order of their numbers. -/
structure Region where
  data : ByteArray
  order : ByteOrder
  stop : Nat

/-- All of a section. -/
def Region.whole (data : ByteArray) (order : ByteOrder) : Region :=
  { data, order, stop := data.size }

/-- A step that reads from its place on. -/
abbrev Scan := StateT Nat (Except Fault)

/-- What the widths of numbers in a unit depend on. -/
structure Encoding where
  version : Nat
  addressSize : Nat
  /-- Offsets have eight octets, not four. -/
  wide : Bool
deriving DecidableEq, Inhabited

def Encoding.offsetSize (e : Encoding) : Nat := if e.wide then 8 else 4

namespace Scan

variable (r : Region)

/-- Passes over some octets, which must all be there. -/
def skip (n : Nat) : Scan Unit := fun place =>
  if place + n ≤ r.stop then .ok ((), place + n) else .error .endOfInput

/-- A number of fixed width. -/
def number (width : Nat) : Scan Nat := fun place =>
  if place + width ≤ r.stop then
    .ok ((Bytes.number? r.order r.data place width).getD 0, place + width)
  else .error .endOfInput

def u8 : Scan Nat := number r 1

def u16 : Scan Nat := number r 2

-- ===================================================== variable width

/-- The octets of a number of variable width, seven bits each, from the
bit `shift` on. In the tenth octet only the lowest bit fits. -/
def unsignedFrom : Nat → Nat → Scan Nat
  | 0, _ => throw .unsignedNumber
  | fuel + 1, shift => do
    let b ← u8 r
    if shift = 63 ∧ b ≠ 0 ∧ b ≠ 1 then throw .unsignedNumber
    let low := b % 128 * Nat.pow 2 shift
    if b < 128 then return low
    else return low + (← unsignedFrom fuel (shift + 7))

def unsigned : Scan Nat := unsignedFrom r 10 0

/-- Like `unsignedFrom`, with the sign in the highest bit of the last
octet. -/
def signedFrom : Nat → Nat → Scan Int
  | 0, _ => throw .signedNumber
  | fuel + 1, shift => do
    let b ← u8 r
    if shift = 63 ∧ b ≠ 0 ∧ b ≠ 0x7f then throw .signedNumber
    let low := b % 128 * Nat.pow 2 shift
    if b < 128 then
      return if b < 64 then (low : Int) else (low : Int) - Nat.pow 2 (shift + 7)
    else return low + (← signedFrom fuel (shift + 7))

def signed : Scan Int := signedFrom r 10 0

/-- A number of variable width that fits 16 bits. -/
def unsigned16 : Scan Nat := do
  let a ← u8 r
  if a < 128 then return a
  let b ← u8 r
  if b < 128 then return a % 128 + b * 128
  let c ← u8 r
  if 3 < c then throw .unsignedNumber
  return a % 128 + b % 128 * 128 + c * 16384

-- ====================================================== compound pieces

/-- The length of a unit or table, and whether its offsets are wide. -/
def initialLength : Scan (Nat × Bool) := do
  let n ← number r 4
  if n < 0xfffffff0 then return (n, false)
  else if n = 0xffffffff then return (← number r 8, true)
  else throw .reservedLength

def offset (wide : Bool) : Scan Nat := number r (if wide then 8 else 4)

/-- The size of addresses. -/
def addressSize : Scan Nat := do
  let n ← u8 r
  if n = 1 ∨ n = 2 ∨ n = 4 ∨ n = 8 then return n else throw .addressSize

/-- The octets up to the next 0, which is passed over. -/
def text : Scan (List UInt8) := fun place =>
  match Bytes.untilZero? r.data place (r.stop - place) with
  | some octets => .ok (octets, place + octets.length + 1)
  | none => .error .endOfInput

/-- The region of the next `length` octets, which are passed over. -/
def split (length : Nat) : Scan Region := fun place =>
  if place + length ≤ r.stop then
    .ok ({ r with stop := place + length }, place + length)
  else .error .endOfInput

end Scan

end SymbolGraph.Dwarf
