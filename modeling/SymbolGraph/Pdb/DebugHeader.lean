/-
The stream of debug information: its header, the numbers of further streams,
and the modules that the program was linked from.
-/
import SymbolGraph.Pdb.Container
import SymbolGraph.Tags

namespace SymbolGraph.Pdb

/-- What the stream of debug information says. -/
structure DebugHeader where
  /-- The stream itself. -/
  stream : ByteArray
  globals : Nat
  modulesSize : Nat
  /-- The size of what stands between the modules and the numbers of the
  further streams. -/
  middleSize : Nat
  streamsSize : Nat
  machine : Nat

namespace DebugHeader

/-- The number of the stream of debug information. -/
def streamNumber : Nat := 3

/-- The size of the header. -/
def size : Nat := 64

def read (b : ByteArray) : Scan DebugHeader := do
  let mark ← Scan.u32 b
  Scan.skip b 16
  let globals ← Scan.u16 b
  Scan.skip b 2
  let modulesSize ← Scan.u32 b
  let contributions ← Scan.u32 b
  let sectionMap ← Scan.u32 b
  let files ← Scan.u32 b
  let typeServers ← Scan.u32 b
  Scan.skip b 4
  let streamsSize ← Scan.u32 b
  let editing ← Scan.u32 b
  Scan.skip b 2
  let machine ← Scan.u16 b
  Scan.skip b 4
  if mark ≠ 0xffffffff then throw .ancientDebugHeader
  return {
    stream := b, globals, modulesSize, streamsSize, machine
    middleSize := contributions + sectionMap + files + typeServers + editing }

def ofContainer (c : Container) : Except Fault DebugHeader := do
  (read (← c.stream streamNumber)).result

-- ============================================================= machine

/-- The architecture that a machine number stands for. -/
def architecture (machine : Nat) : Architecture :=
  if machine = 0x14c then .x86
  else if machine = 0x8664 then .x86_64
  else if machine = 0x1c0 ∨ machine = 0x1c4 ∨ machine = 0x1c2 then .arm32
  else if machine = 0xaa64 then .arm64
  else .unknown

/-- The size of the machine's pointers. -/
def pointerSize (machine : Nat) : Nat :=
  if machine = 0x8664 ∨ machine = 0xaa64 ∨ machine = 0x200 then 8 else 4

-- ===================================================== further streams

/-- The numbers of the further streams, as many as there are. -/
def streamNumbers (h : DebugHeader) : Except Fault (List Nat) := do
  let scan : Scan ByteArray := do
    Scan.skip h.stream (size + (h.modulesSize + h.middleSize))
    Scan.take h.stream h.streamsSize
  let numbers ← scan.result
  if numbers.size % 2 ≠ 0 then throw .debugHeaderLength
  return (List.range (numbers.size / 2)).map fun i =>
    Bytes.littleAt numbers (2 * i) 2

/-- The number of a further stream by its place; a list that ends before it
names none. -/
def furtherStream (numbers : List Nat) (place : Nat) : Nat :=
  numbers.getD place Container.noStream

end DebugHeader

-- ============================================================= modules

/-- A part that the program was linked from. -/
structure ModuleEntry where
  name : String
  stream : Nat
  symbolsSize : Nat

namespace ModuleEntry

def read (b : ByteArray) : Scan ModuleEntry := do
  Scan.skip b 34
  let stream ← Scan.u16 b
  let symbolsSize ← Scan.u32 b
  Scan.skip b 24
  let name ← Scan.zeroEnded b
  let _ ← Scan.zeroEnded b
  Scan.align4 b
  return { name, stream, symbolsSize }

/-- The modules from a place on, and the fault that ended the list, if one
did. -/
def listFrom (b : ByteArray) : Nat → Nat → List ModuleEntry × Option Fault
  | 0, _ => ([], none)
  | fuel + 1, place =>
    if b.size ≤ place then ([], none)
    else
      match (read b).run place with
      | .error fault => ([], some fault)
      | .ok (m, next) =>
        let (rest, fault) := listFrom b fuel next
        (m :: rest, fault)

/-- The modules that a header lists. -/
def list (h : DebugHeader) : Except Fault (List ModuleEntry × Option Fault) := do
  let scan : Scan ByteArray := do
    Scan.skip h.stream DebugHeader.size
    Scan.take h.stream h.modulesSize
  let b ← scan.result
  return listFrom b (b.size + 1) 0

/-- The octets of a module's symbols in its stream, behind the mark of the
one format that is known. -/
def symbolOctets (m : ModuleEntry) (b : ByteArray) : Except Fault ByteArray := do
  match Bytes.range? b 0 m.symbolsSize with
  | none => throw .endOfInput
  | some octets =>
    if m.symbolsSize = 0 then return octets
    let mark ← (Scan.u32 octets).result
    if mark ≠ 4 then throw .symbolFormat
    return octets.extract 4 octets.size

end ModuleEntry

end SymbolGraph.Pdb
