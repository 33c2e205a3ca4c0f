/-
Mach-O files, 32 and 64 bits wide, in either byte order. The load commands
are read one after another; the first one that is cut off ends them without
a fault, but a segment or symbol table that is read must be whole.
-/
import SymbolGraph.Object.Elf

namespace SymbolGraph.Object.MachO

/-- A load command and its octets. -/
structure Command where
  type : Nat
  offset : Nat
  size : Nat

/-- The load commands from `offset` up to `stop`, at most `count`. -/
def commands (order : ByteOrder) (data : ByteArray) (stop : Nat) :
    Nat → Nat → List Command
  | 0, _ => []
  | count + 1, offset =>
    if stop < offset + 8 then []
    else
      let type := (Bytes.number? order data offset 4).getD 0
      let size := (Bytes.number? order data (offset + 4) 4).getD 0
      if size < 8 ∨ stop < offset + size then []
      else { type, offset, size } :: commands order data stop count (offset + size)

/-- A name of at most 16 octets, up to the first 0. -/
def nameAt (data : ByteArray) (offset : Nat) : List UInt8 :=
  (data.extract offset (offset + 16)).data.toList.takeWhile (· ≠ 0)

def packedName : List UInt8 := Bytes.ascii "__zdebug_"

/-- The section types whose octets are not in the file. -/
def isZeroFill (type : Nat) : Bool := type = 1 || type = 12 || type = 18

/-- The section header at an offset. -/
def readSection (order : ByteOrder) (wide : Bool) (data : ByteArray)
    (place : Nat) : Section :=
  let number (offset width : Nat) :=
    (Bytes.number? order data (place + offset) width).getD 0
  let name := nameAt data place
  let size := if wide then number 40 8 else number 36 4
  let offset := if wide then number 48 4 else number 40 4
  let flags := if wide then number 64 4 else number 56 4
  let range := if isZeroFill (flags % 256) then none else some (offset, size)
  let body :=
    if packedName.isPrefixOf name then Elf.oldPackedBody data range
    else
      match range with
      | none => .empty
      | some (offset, size) => .plain offset size
  { name := some name, body }

/-- The sections of a segment. -/
def segmentSections (order : ByteOrder) (wide : Bool) (data : ByteArray)
    (c : Command) : Except Fault (List Section) := do
  let header := if wide then 72 else 56
  let each := if wide then 80 else 68
  if c.size < header then throw .machSegmentSize
  let countPlace := c.offset + (if wide then 64 else 48)
  let count := (Bytes.number? order data countPlace 4).getD 0
  if c.size < header + count * each then throw .machSectionCount
  return (List.range count).map fun i =>
    readSection order wide data (c.offset + header + i * each)

/-- Checks a symbol table command. -/
def checkSymbols (order : ByteOrder) (wide : Bool) (data : ByteArray)
    (c : Command) : Except Fault Unit := do
  if c.size < 24 then throw .machCommandSize
  let number (place : Nat) :=
    (Bytes.number? order data (c.offset + place) 4).getD 0
  let each := if wide then 16 else 12
  if data.size < number 8 + number 12 * each then throw .machSymbols

/-- Goes through the load commands. -/
def sections (order : ByteOrder) (wide : Bool) (data : ByteArray) :
    List Command → Except Fault (List Section)
  | [] => return []
  | c :: rest => do
    let here ←
      if c.type = (if wide then 0x19 else 1) then
        segmentSections order wide data c
      else if c.type = 2 then do
        checkSymbols order wide data c
        pure []
      else pure []
    return here ++ (← sections order wide data rest)

def architecture (cpu : Nat) : Architecture :=
  if cpu = 7 then .x86
  else if cpu = 0x1000007 then .x86_64
  else if cpu = 12 then .arm32
  else if cpu = 0x100000c then .arm64
  else .unknown

/-- Reads the headers of a Mach-O file. -/
def parse (data : ByteArray) (wide : Bool) (order : ByteOrder) :
    Except Fault Image := do
  let header := if wide then 32 else 28
  if data.size < header then throw .machHeaderSize
  let number (place : Nat) := (Bytes.number? order data place 4).getD 0
  let stop := header + number 20
  let list :=
    if stop ≤ data.size then commands order data stop (number 16) header
    else []
  return {
    architecture := architecture (number 4), order, naming := .mach
    sections := ← sections order wide data list }

end SymbolGraph.Object.MachO
