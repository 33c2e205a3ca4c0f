/-
Abbreviations: the tag of an entry, whether it has children, and the names
and forms of its attributes. Entries refer to them by code.
-/
import SymbolGraph.Dwarf.Scan

namespace SymbolGraph.Dwarf

structure AttributeSpec where
  name : Nat
  form : Nat
  /-- The value itself, for a form that stores it here. -/
  constant : Option Int := none

structure Abbreviation where
  code : Nat
  tag : Nat
  hasChildren : Bool
  attributes : List AttributeSpec

namespace Abbreviation

/-- The form whose value stands in the abbreviation. -/
def implicitConstantForm : Nat := 0x21

/-- The attributes up to the pair of zeros that ends them. -/
def readAttributes (r : Region) : Nat → Scan (List AttributeSpec)
  | 0 => throw .endOfInput
  | fuel + 1 => do
    let name ← Scan.unsigned16 r
    let form ← Scan.unsigned16 r
    if name = 0 then
      if form = 0 then return [] else throw .attributeNameZero
    else if form = 0 then throw .attributeFormZero
    else
      let constant ←
        if form = implicitConstantForm then some <$> Scan.signed r
        else pure none
      return { name, form, constant } :: (← readAttributes r fuel)

/-- One abbreviation; none at the code 0, which ends a table. -/
def read? (r : Region) : Scan (Option Abbreviation) := do
  let code ← Scan.unsigned r
  if code = 0 then return none
  let tag ← Scan.unsigned16 r
  if tag = 0 then throw .tagZero
  let mark ← Scan.u8 r
  if mark ≠ 0 ∧ mark ≠ 1 then throw .childrenMark
  let attributes ← readAttributes r (r.stop + 1)
  return some { code, tag, hasChildren := mark = 1, attributes }

/-- A table from the place at hand on, added to those already read. -/
def readFrom (r : Region) (seen : List Abbreviation) :
    Nat → Scan (List Abbreviation)
  | 0 => throw .endOfInput
  | fuel + 1 => do
    match ← read? r with
    | none => return seen
    | some a =>
      if seen.any fun b => b.code = a.code then throw .duplicateAbbreviation
      readFrom r (a :: seen) fuel

/-- The table at an offset of the section of abbreviations. -/
def table (area : Region) (offset : Nat) :
    Except Fault (List Abbreviation) :=
  if area.stop < offset then .error .endOfInput
  else ((readFrom area [] (area.stop + 1)).run offset).map Prod.fst

end Abbreviation

end SymbolGraph.Dwarf
