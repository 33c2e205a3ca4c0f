/-
Making a unit ready: its abbreviations are read, and the attributes of its
root entry give the bases of its tables and of its range lists.
-/
import SymbolGraph.Dwarf.LineHeader

namespace SymbolGraph.Dwarf.Unit

/-- What the root entry says about its unit. -/
structure Root where
  strOffsetsBase : Nat := 0
  addrBase : Nat := 0
  rnglistsBase : Nat := 0
  lineOffset : Option Nat := none
  lowPc : Option Value := none

/-- Takes notice of one attribute; of a repeated one the last counts. -/
def Root.note (r : Root) (found : Nat × Value) : Root :=
  let (name, value) := found
  if name = Attr.lowPc then { r with lowPc := some value }
  else
    match value with
    | .sectionOffset offset =>
      if name = Attr.stmtList then { r with lineOffset := some offset }
      else if name = Attr.strOffsetsBase then { r with strOffsetsBase := offset }
      else if name = Attr.addrBase ∨ name = Attr.gnuAddrBase then
        { r with addrBase := offset }
      else if name = Attr.rnglistsBase ∨ name = Attr.gnuRangesBase then
        { r with rnglistsBase := offset }
      else r
    | _ => r

/-- The base of the range lists: the address of the root entry. -/
def baseAddress (u : Unit) (root : Root) : Except Fault Nat := do
  match root.lowPc with
  | none => return 0
  | some v => return (← u.address? v).getD 0

/-- Makes the unit of a header ready. -/
def ofHeader (s : Sections) (header : UnitHeader) : Except Fault Unit := do
  let abbreviations ←
    Abbreviation.table (s.region s.abbreviations) header.abbrevOffset
  let bare : Unit := { sections := s, header, abbreviations }
  match ← bare.firstFrom bare.bound header.entries with
  | none => throw .missingRoot
  | some e =>
    let _ ← e.next
    let root := e.attributes.foldl Root.note {}
    let u : Unit := { bare with
      strOffsetsBase := root.strOffsetsBase
      addrBase := root.addrBase
      rnglistsBase := root.rnglistsBase }
    match root.lineOffset with
    | none => pure ()
    | some offset => LineHeader.check s header.encoding.addressSize offset
    return { u with lowPc := ← u.baseAddress root }

end SymbolGraph.Dwarf.Unit
