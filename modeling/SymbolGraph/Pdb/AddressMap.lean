/-
Where code is once a program is loaded. A place is given by a section and an
offset in it. If the sections were rearranged after linking, those of the
linker count, and a map takes addresses to where they went.
-/
import SymbolGraph.Pdb.DebugHeader

namespace SymbolGraph.Pdb

structure AddressMap where
  /-- The address of each section. -/
  sections : List Nat
  /-- Where stretches of addresses went: the first address of each, and its
  new place. -/
  moves : Option (List (Nat × Nat)) := none

namespace AddressMap

/-- The size of a section header. -/
def headerSize : Nat := 40

/-- The addresses of sections, out of their headers. -/
def sectionAddresses (b : ByteArray) : Except Fault (List Nat) :=
  if b.size % headerSize ≠ 0 then .error .endOfInput
  else .ok ((List.range (b.size / headerSize)).map fun i =>
    Bytes.littleAt b (headerSize * i + 12) 4)

/-- The sections in a stream that may be missing. -/
def sectionsIn? (c : Container) (number : Nat) :
    Except Fault (Option (List Nat)) := do
  match ← c.stream? number with
  | none => return none
  | some b => return some (← sectionAddresses b)

/-- The pairs in a stream of moves, which must be there and not be empty. -/
def movesIn (c : Container) (number : Nat) :
    Except Fault (List (Nat × Nat)) := do
  match ← c.stream? number with
  | none => throw .noAddressMap
  | some b =>
    if b.isEmpty || b.size % 8 ≠ 0 then throw .addressMapLength
    return (List.range (b.size / 8)).map fun i =>
      (Bytes.littleAt b (8 * i) 4, Bytes.littleAt b (8 * i + 4) 4)

/-- Reads the sections and, if the linker's differ from them, both maps; the
one that leads back is only checked. -/
def ofContainer (c : Container) : Except Fault AddressMap := do
  let streams ← (← DebugHeader.ofContainer c).streamNumbers
  let stream := DebugHeader.furtherStream streams
  let sections := (← sectionsIn? c (stream 5)).getD []
  match ← sectionsIn? c (stream 10) with
  | none => return { sections }
  | some linked =>
    let moves ← movesIn c (stream 4)
    let _ ← movesIn c (stream 3)
    return { sections := linked, moves := some moves }

/-- Where an address went; none if it was dropped. -/
def moved (moves : List (Nat × Nat)) (address : Nat) : Option Nat := do
  let (first, target) ← (moves.filter fun m => m.1 ≤ address).getLast?
  if target = 0 then none else some ((target + (address - first)) % 0x100000000)

/-- The address of a place in a section; sections are counted from 1. -/
def address? (m : AddressMap) (codeSection offset : Nat) : Option Nat := do
  if codeSection = 0 then none
  let start ← m.sections[codeSection - 1]?
  let address := (start + offset) % 0x100000000
  match m.moves with
  | none => return address
  | some moves => moved moves address

end AddressMap

end SymbolGraph.Pdb
