/-
The headers of line number programs. A unit whose line program has a header
that cannot be read is not read either, so the header is checked to its
end.
-/
import SymbolGraph.Dwarf.Unit

namespace SymbolGraph.Dwarf.LineHeader

/-- Texts up to an empty one. -/
def texts (r : Region) (each : Scan PUnit) : Nat → Scan PUnit
  | 0 => throw .endOfInput
  | fuel + 1 => do
    if (← Scan.text r).isEmpty then return ()
    each
    texts r each fuel

/-- What stands behind the name of a file in the older versions. -/
def fileNumbers (r : Region) : Scan PUnit := do
  let _ ← Scan.unsigned r
  let _ ← Scan.unsigned r
  let _ ← Scan.unsigned r

/-- The forms in which descriptions of files are stored. -/
def validForms : List Nat := [
  0x03, 0x04, 0x05, 0x06, 0x07, 0x08, 0x09, 0x0a, 0x0b, 0x0c, 0x0d, 0x0e,
  0x0f, 0x17, 0x1a, 0x1d, 0x1e, 0x1f, 0x25, 0x26, 0x27, 0x28, 0x1f02, 0x1f21]

/-- The format of descriptions: a content and a form for each part. Exactly
one part must be a path, whose content is 1. -/
def formats (r : Region) : Nat → Scan (List (Nat × Nat))
  | 0 => return []
  | n + 1 => do
    let content ← Scan.unsigned r
    let form ← Scan.unsigned16 r
    return (content, form) :: (← formats r n)

def formatTable (r : Region) : Scan (List Nat) := do
  let list ← formats r (← Scan.u8 r)
  if (list.filter fun p => p.1 = 1).length ≠ 1 then throw .missingPath
  return list.map Prod.snd

/-- One description. -/
def description (r : Region) (e : Encoding) : List Nat → Scan PUnit
  | [] => return ()
  | form :: rest => do
    unless validForms.contains form do throw .unknownForm
    let _ ← valueOfForm r e 0 none form
    description r e rest

def descriptions (r : Region) (e : Encoding) (forms : List Nat) :
    Nat → Scan PUnit
  | 0 => return ()
  | n + 1 => do
    description r e forms
    descriptions r e forms n

/-- A table of descriptions. Each takes an octet at least, so a count beyond
the octets at hand ends at their end. -/
def table (r : Region) (e : Encoding) : Scan PUnit := do
  let forms ← formatTable r
  let count ← Scan.unsigned r
  descriptions r e forms (min count (r.stop + 1))

/-- Reads a header; `addressSize` is that of the unit, which older versions
do not repeat. -/
def read (line : Region) (addressSize : Nat) : Scan PUnit := do
  let (length, wide) ← Scan.initialLength line
  let body ← get
  let r ← Scan.split line length
  set body
  let version ← Scan.u16 r
  if version < 2 ∨ 5 < version then throw .version
  let addressSize ←
    if 5 ≤ version then do
      let size ← Scan.addressSize r
      if (← Scan.u8 r) ≠ 0 then throw .segmentSize
      pure size
    else pure addressSize
  let headerLength ← Scan.offset r wide
  let start ← get
  let r ← Scan.split r headerLength
  set start
  if (← Scan.u8 r) = 0 then throw .instructionLength
  if 4 ≤ version then
    if (← Scan.u8 r) = 0 then throw .operationsPerInstruction
  Scan.skip r 2
  if (← Scan.u8 r) = 0 then throw .lineRange
  let opcodes ← Scan.u8 r
  if opcodes = 0 then throw .opcodeBase
  Scan.skip r (opcodes - 1)
  let e : Encoding := { version, addressSize, wide }
  if version ≤ 4 then
    texts r (return ()) (r.stop + 1)
    texts r (fileNumbers r) (r.stop + 1)
  else
    table r e
    table r e

/-- Checks the header at an offset of the section of line programs. -/
def check (s : Sections) (addressSize offset : Nat) : Except Fault PUnit :=
  if s.line.size < offset then .error .endOfInput
  else ((read (s.region s.line) addressSize).run offset).map Prod.fst

end SymbolGraph.Dwarf.LineHeader
