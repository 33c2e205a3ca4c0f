/-
What the attributes of an entry say: flags, sizes, texts, and references to
other entries of the same unit. References out of the unit are not
followed; such an attribute counts as absent.
-/
import SymbolGraph.Dwarf.Unit
import SymbolGraph.Logged
import SymbolGraph.Text.Numeral
import SymbolGraph.Text.Utf8

namespace SymbolGraph.Dwarf

/-- A reading that may meet a fault and leaves log records. -/
abbrev Attempt := ExceptT Fault Logged

namespace Entry

/-- Is the attribute there, readable and set? -/
def isSet (e : Entry) (name : Nat) : Bool :=
  (e.readable? name).any Value.isSet

/-- The size in bytes that the entry itself gives. -/
def byteSize? (e : Entry) : Option Nat :=
  (e.readable? Attr.byteSize).bind Value.constant?

/-- The entry of the unit that an attribute refers to, by its offset. -/
def reference (e : Entry) (name : Nat) : Attempt (Option Nat) := do
  match ← (e.attribute? name : Except Fault (Option Value)) with
  | none => return none
  | some (.unitReference offset) => return some offset
  | some _ =>
    let label := Attr.label name
    let place := Text.hex8 e.offset
    Logged.trace s!"skip non unit-local {label} reference @{place}"
    return none

/-- The same, where a fault counts as no reference. -/
def reference? (e : Entry) (name : Nat) : Logged (Option Nat) := do
  return (← (e.reference name).run).toOption.join

end Entry

namespace Unit

/-- The text of an attribute; octets that are no text are replaced. -/
def attributeText? (u : Unit) (e : Entry) (name : Nat) : Option String := do
  let octets ← u.text? (← e.readable? name)
  return Utf8.decodeLossy octets

def name? (u : Unit) (e : Entry) : Option String :=
  u.attributeText? e Attr.name

/-- The id of the entry at an offset: its place in the section of debug
information. -/
def idAt (u : Unit) (offset : Nat) : Logged (Option UInt32) := do
  let place := u.header.start + offset
  if place < 0x100000000 then return some (UInt32.ofNat place)
  let text := Text.hex place
  Logged.warn s!"entry @{text} is outside the 32-bit id space"
  return none

end Unit

end SymbolGraph.Dwarf
