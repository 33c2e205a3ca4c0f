/-
Reading the basic pieces of the streams of a program database: numbers, the
least significant octet first, and texts. A scan carries its place and never
passes the end.
-/
import SymbolGraph.Bytes
import SymbolGraph.Pdb.Fault
import SymbolGraph.Text.Utf8

namespace SymbolGraph.Pdb

/-- The number of a type. The types with a record come from 0x1000 on; each
lower number stands for a type of its own. -/
abbrev TypeIndex := UInt32

/-- A step that reads from its place on. -/
abbrev Scan := StateT Nat (Except Fault)

/-- The result of a scan from the beginning of some octets. -/
def Scan.result {α : Type} (s : Scan α) : Except Fault α :=
  (s.run 0).map Prod.fst

namespace Scan

variable (b : ByteArray)

/-- The next octets. -/
def take (n : Nat) : Scan ByteArray := fun place =>
  if place + n ≤ b.size then .ok (b.extract place (place + n), place + n)
  else .error .endOfInput

/-- Passes over some octets, which must all be there. -/
def skip (n : Nat) : Scan Unit := fun place =>
  if place + n ≤ b.size then .ok ((), place + n) else .error .endOfInput

def number (width : Nat) : Scan Nat := fun place =>
  if place + width ≤ b.size then
    .ok (Bytes.littleAt b place width, place + width)
  else .error .endOfInput

def u8 : Scan Nat := number b 1

def u16 : Scan Nat := number b 2

def u32 : Scan Nat := number b 4

def u64 : Scan Nat := number b 8

def typeIndex : Scan TypeIndex := return UInt32.ofNat (← u32 b)

/-- Has everything been read? -/
def atEnd : Scan Bool := return b.size ≤ (← get)

/-- The next octet, which is not passed over. -/
def peek? : Scan (Option Nat) := return (Bytes.octet? b (← get)).map UInt8.toNat

/-- The octets up to the next 0, which is passed over, as text. -/
def zeroEnded : Scan String := fun place =>
  match Bytes.untilZero? b place (b.size - place) with
  | some octets => .ok (Utf8.decodeLossy octets, place + octets.length + 1)
  | none => .error .endOfInput

/-- The octets behind their number, as text. -/
def counted : Scan String := do
  return Utf8.decodeLossy (← take b (← u8 b)).data.toList

/-- Goes on to the next multiple of four. -/
def align4 : Scan Unit := do
  let place ← get
  if place % 4 ≠ 0 then skip b (4 - place % 4)

end Scan

end SymbolGraph.Pdb
