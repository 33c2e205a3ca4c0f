/-
The values of attributes. A form says how a value is stored; what remains
of it here is what a reader of types and functions can tell apart.
-/
import SymbolGraph.Dwarf.Constants
import SymbolGraph.Dwarf.Scan

namespace SymbolGraph.Dwarf

inductive Value where
  | address (address : Nat)
  /-- A place in the table of addresses. -/
  | addressIndex (index : Nat)
  /-- An unsigned constant of any width. -/
  | unsigned (n : Nat)
  | signed (n : Int)
  | flag (b : Bool)
  | sectionOffset (offset : Nat)
  /-- Another entry of the same unit. -/
  | unitReference (offset : Nat)
  | text (octets : List UInt8)
  /-- A text in the section of texts. -/
  | textOffset (offset : Nat)
  | lineTextOffset (offset : Nat)
  /-- A place in the table of text offsets. -/
  | textIndex (index : Nat)
  /-- A place in the table of range lists. -/
  | rangeIndex (index : Nat)
  /-- Octets, expressions, and references out of the unit. -/
  | other

namespace Value

/-- The value as an unsigned constant. -/
def constant? : Value → Option Nat
  | unsigned n => some n
  | signed n => if 0 ≤ n then some n.toNat else none
  | _ => none

/-- The value as a constant of one octet. -/
def octet? (v : Value) : Option Nat := v.constant?.filter (· < 256)

/-- Is the value a flag that is set, or a constant other than 0? -/
def isSet : Value → Bool
  | flag b => b
  | unsigned n => n ≠ 0
  | signed n => n ≠ 0
  | _ => false

end Value

-- =============================================================== forms

/-- The form that a stored form stands for: an indirect one is followed by
the form proper. Each step takes an octet at least, which bounds them. -/
def resolveForm (r : Region) : Nat → Nat → Scan Nat
  | 0, _ => throw .endOfInput
  | fuel + 1, form => do
    if form = 0x16 then resolveForm r fuel (← Scan.unsigned16 r)
    else return form

/-- Octets after a length. -/
def block (r : Region) (length : Scan Nat) : Scan Value := do
  Scan.skip r (← length)
  return .other

/-- A constant of four or eight octets; for some attributes it is an offset,
if offsets have that width. -/
def constantOrOffset (r : Region) (e : Encoding) (name width : Nat) :
    Scan Value := do
  let n ← Scan.number r width
  if e.offsetSize = width && Attr.mayHoldOffset e.version name then
    return .sectionOffset n
  else return .unsigned n

/-- The value of an attribute whose form has been resolved. -/
def valueOfForm (r : Region) (e : Encoding) (name : Nat)
    (constant : Option Int) (form : Nat) : Scan Value := do
  let fixed (width : Nat) : Scan Nat := Scan.number r width
  let offset : Scan Nat := Scan.offset r e.wide
  match form with
  | 0x01 => return .address (← fixed e.addressSize)
  | 0x03 => block r (fixed 2)
  | 0x04 => block r (fixed 4)
  | 0x05 => return .unsigned (← fixed 2)
  | 0x06 => constantOrOffset r e name 4
  | 0x07 => constantOrOffset r e name 8
  | 0x08 => return .text (← Scan.text r)
  | 0x09 => block r (Scan.unsigned r)
  | 0x0a => block r (fixed 1)
  | 0x0b => return .unsigned (← fixed 1)
  | 0x0c => return .flag ((← fixed 1) ≠ 0)
  | 0x0d => return .signed (← Scan.signed r)
  | 0x0e => return .textOffset (← offset)
  | 0x0f => return .unsigned (← Scan.unsigned r)
  | 0x10 =>
    let _ ← fixed (if e.version = 2 then e.addressSize else e.offsetSize)
    return .other
  | 0x11 => return .unitReference (← fixed 1)
  | 0x12 => return .unitReference (← fixed 2)
  | 0x13 => return .unitReference (← fixed 4)
  | 0x14 => return .unitReference (← fixed 8)
  | 0x15 => return .unitReference (← Scan.unsigned r)
  | 0x17 => return .sectionOffset (← offset)
  | 0x18 => block r (Scan.unsigned r)
  | 0x19 => return .flag true
  | 0x1a => return .textIndex (← Scan.unsigned r)
  | 0x1b => return .addressIndex (← Scan.unsigned r)
  | 0x1c => Scan.skip r 4; return .other
  | 0x1d => Scan.skip r e.offsetSize; return .other
  | 0x1e => Scan.skip r 16; return .other
  | 0x1f => return .lineTextOffset (← offset)
  | 0x20 => Scan.skip r 8; return .other
  | 0x21 =>
    match constant with
    | some n => return .signed n
    | none => throw .implicitConstant
  | 0x22 => let _ ← Scan.unsigned r; return .other
  | 0x23 => return .rangeIndex (← Scan.unsigned r)
  | 0x24 => Scan.skip r 8; return .other
  | 0x25 => return .textIndex (← fixed 1)
  | 0x26 => return .textIndex (← fixed 2)
  | 0x27 => return .textIndex (← fixed 3)
  | 0x28 => return .textIndex (← fixed 4)
  | 0x29 => return .addressIndex (← fixed 1)
  | 0x2a => return .addressIndex (← fixed 2)
  | 0x2b => return .addressIndex (← fixed 3)
  | 0x2c => return .addressIndex (← fixed 4)
  | 0x1f01 => return .addressIndex (← Scan.unsigned r)
  | 0x1f02 => return .textIndex (← Scan.unsigned r)
  | 0x1f20 => let _ ← offset; return .other
  | 0x1f21 => let _ ← offset; return .other
  | _ => throw .unknownForm

/-- The value of an attribute. Only a form given by the abbreviation can
bring a constant along. -/
def value (r : Region) (e : Encoding) (name : Nat)
    (constant : Option Int) (form : Nat) : Scan Value := do
  let place ← get
  let form ← resolveForm r (r.stop - place + 2) form
  valueOfForm r e name constant form

end SymbolGraph.Dwarf
