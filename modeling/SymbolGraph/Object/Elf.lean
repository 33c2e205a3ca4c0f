/-
ELF files, 32 and 64 bits wide, in either byte order.

The tables that the header names are checked before any section is looked
at: program headers, section headers, the names of the sections, the two
symbol tables and the targets of the relocation sections. A file without
section headers has no sections, which is no fault.
-/
import SymbolGraph.Object.Image

namespace SymbolGraph.Object.Elf

/-- The file and the two bytes of its header that decide the layout. -/
structure Source where
  data : ByteArray
  wide : Bool
  order : ByteOrder

namespace Source

def number (s : Source) (offset width : Nat) : Nat :=
  (Bytes.number? s.order s.data offset width).getD 0

/-- A member whose place and width depend on the width of the file. -/
def word (s : Source) (narrow wide : Nat) : Nat :=
  if s.wide then s.number wide 8 else s.number narrow 4

/-- A 16-bit member of the file header. -/
def half (s : Source) (narrow wide : Nat) : Nat :=
  s.number (if s.wide then wide else narrow) 2

def sectionSize (s : Source) : Nat := if s.wide then 64 else 40

def programSize (s : Source) : Nat := if s.wide then 56 else 32

def machine (s : Source) : Nat := s.number 18 2

def programOffset (s : Source) : Nat := s.word 28 32

def sectionOffset (s : Source) : Nat := s.word 32 40

def programEntrySize (s : Source) : Nat := s.half 42 54

def programCount (s : Source) : Nat := s.half 44 56

def sectionEntrySize (s : Source) : Nat := s.half 46 58

def sectionCount (s : Source) : Nat := s.half 48 60

def nameIndex (s : Source) : Nat := s.half 50 62

/-- Do `size` octets from `offset` on lie in the file? -/
def holds (s : Source) (offset size : Nat) : Bool :=
  offset + size ≤ s.data.size

end Source

-- ============================================================= headers

structure SectionHeader where
  name : Nat
  type : Nat
  flags : Nat
  offset : Nat
  size : Nat
  link : Nat
  info : Nat

/-- The section header at an offset. -/
def sectionHeader (s : Source) (place : Nat) : SectionHeader :=
  let word (narrow wide : Nat) := s.word (place + narrow) (place + wide)
  { name := s.number place 4
    type := s.number (place + 4) 4
    flags := word 8 8
    offset := word 16 24
    size := word 20 32
    link := s.number (place + if s.wide then 40 else 24) 4
    info := s.number (place + if s.wide then 44 else 28) 4 }

/-- A section of this type has no octets in the file. -/
def typeWithoutOctets : Nat := 8

/-- The place and the number of the octets of a section, if it has any. -/
def SectionHeader.range? (h : SectionHeader) : Option (Nat × Nat) :=
  if h.type = typeWithoutOctets then none else some (h.offset, h.size)

/-- The first section header, which holds counts that do not fit the file
header. -/
def firstSection (s : Source) : Except Fault (Option SectionHeader) :=
  if s.sectionOffset = 0 then .ok none
  else if s.sectionEntrySize ≠ s.sectionSize then .error .elfSectionEntrySize
  else if !s.holds s.sectionOffset s.sectionSize then .error .elfFirstSection
  else .ok (some (sectionHeader s s.sectionOffset))

/-- Checks the table of program headers. -/
def checkPrograms (s : Source) : Except Fault Unit := do
  if s.programOffset = 0 then return ()
  let count ←
    if s.programCount < 0xffff then pure s.programCount
    else
      match ← firstSection s with
      | some h => pure h.info
      | none => throw .elfProgramOverflow
  if count = 0 then return ()
  if s.programEntrySize ≠ s.programSize then throw .elfProgramEntrySize
  unless s.holds s.programOffset (count * s.programSize) do
    throw .elfProgramTable

/-- The section headers. -/
def sectionHeaders (s : Source) : Except Fault (List SectionHeader) := do
  if s.sectionOffset = 0 then return []
  let count ←
    if s.sectionCount > 0 then pure s.sectionCount
    else
      match ← firstSection s with
      | some h => pure h.size
      | none => pure 0
  if count = 0 then return []
  if s.sectionEntrySize ≠ s.sectionSize then throw .elfSectionEntrySize
  unless s.holds s.sectionOffset (count * s.sectionSize) do
    throw .elfSectionTable
  return (List.range count).map fun i =>
    sectionHeader s (s.sectionOffset + i * s.sectionSize)

-- =============================================================== names

/-- The range of the section names. -/
def nameRange (s : Source) (headers : List SectionHeader) :
    Except Fault (Option (Nat × Nat)) := do
  if headers.isEmpty then return none
  let index ←
    if s.nameIndex ≠ 0xffff then pure s.nameIndex
    else
      match ← firstSection s with
      | some h => pure h.link
      | none => throw .elfNameIndexOverflow
  if index = 0 then throw .elfNoNames
  match headers[index]? with
  | none => throw .elfNameIndex
  | some h =>
    match h.range? with
    | none => return none
    | some (offset, size) =>
      if offset + size < 0x10000000000000000 then return some (offset, size)
      else throw .elfNameSize

/-- The text at a place of a range that lies in the file. -/
def textIn (data : ByteArray) (range : Option (Nat × Nat)) (place : Nat) :
    Option (List UInt8) := do
  let (offset, size) ← range
  if offset + size ≤ data.size && place ≤ size then
    Bytes.untilZero? data (offset + place) (size - place)
  else none

-- ====================================================== further checks

/-- Checks the octets of a section that holds a table. -/
def checkRange (s : Source) (h : SectionHeader) (fault : Fault) :
    Except Fault Unit :=
  match h.range? with
  | none => .ok ()
  | some (offset, size) => if s.holds offset size then .ok () else .error fault

/-- Checks the first symbol table of a type, and says where it stands. -/
def checkSymbols (s : Source) (headers : List SectionHeader) (type : Nat) :
    Except Fault Nat := do
  match headers.findIdx? fun h => h.type = type with
  | none => return 0
  | some index =>
    match headers[index]? with
    | none => return 0
    | some table =>
      checkRange s table .elfSymbols
      if table.link = 0 then throw .elfSectionIndex
      match headers[table.link]? with
      | none => throw .elfSectionIndex
      | some texts =>
        if texts.type ≠ 3 then throw .elfTextSectionType
        match texts.range? with
        | none => pure ()
        | some (offset, size) =>
          if 0x10000000000000000 ≤ offset + size then throw .elfTextSectionSize
        for h in headers do
          if h.type = 18 ∧ h.link = index then checkRange s h .elfSymbolIndices
        return index

/-- Checks that relocations for the symbol table name a section. -/
def checkRelocations (headers : List SectionHeader) (symbols : Nat) :
    Except Fault Unit := do
  for h in headers do
    if (h.type = 4 ∨ h.type = 9) ∧ h.link = symbols ∧ headers.length ≤ h.info
    then throw .elfRelocationTarget

-- ============================================================ sections

/-- The mark of a packed section. -/
def packedFlag : Nat := 0x800

/-- A packed section begins with a header that says how it is packed. -/
def packedBody (s : Source) (h : SectionHeader) : Body :=
  match h.range? with
  | none => .broken
  | some (offset, size) =>
    let header := if s.wide then 24 else 12
    if !s.holds offset header || size < header then .broken
    else
      let type := s.number offset 4
      let unpacked :=
        if s.wide then s.number (offset + 8) 8 else s.number (offset + 4) 4
      if type = 1 then .packed .zlib (offset + header) (size - header) unpacked
      else if type = 2 then
        .packed .zstd (offset + header) (size - header) unpacked
      else .broken

/-- A section in the older packed form: four letters, the size as eight
octets, the packed octets. -/
def oldPackedBody (data : ByteArray) (range : Option (Nat × Nat)) : Body :=
  match range with
  | none => .broken
  | some (offset, size) =>
    if Bytes.standsAt data offset [0x5a, 0x4c, 0x49, 0x42, 0, 0, 0, 0]
        && 12 ≤ size then
      match Bytes.number? .big data (offset + 8) 4 with
      | some unpacked => .packed .zlib (offset + 12) (size - 12) unpacked
      | none => .broken
    else .broken

def oldPackedName : List UInt8 := Bytes.ascii ".zdebug_"

def body (s : Source) (h : SectionHeader) (name : Option (List UInt8)) :
    Body :=
  if h.flags / packedFlag % 2 = 1 then packedBody s h
  else if name.any oldPackedName.isPrefixOf then oldPackedBody s.data h.range?
  else
    match h.range? with
    | none => .empty
    | some (offset, size) => .plain offset size

def readSection (s : Source) (names : Option (Nat × Nat)) (h : SectionHeader) :
    Section :=
  let name := textIn s.data names h.name
  { name, body := body s h name }

-- ================================================================ file

def architecture (s : Source) : Architecture :=
  let m := s.machine
  if m = 3 then .x86
  else if m = 62 ∧ s.wide then .x86_64
  else if m = 40 then .arm32
  else if m = 183 ∧ s.wide then .arm64
  else .unknown

/-- Reads the headers of an ELF file. -/
def parse (data : ByteArray) (wide : Bool) : Except Fault Image := do
  if data.size < (if wide then 64 else 52) then throw .elfHeaderSize
  let encoding := (Bytes.octet? data 5).getD 0
  let version := (Bytes.octet? data 6).getD 0
  if version ≠ 1 then throw .elfHeader
  let order ←
    if encoding = 1 then pure ByteOrder.little
    else if encoding = 2 then pure ByteOrder.big
    else throw .elfHeader
  let s : Source := { data, wide, order }
  checkPrograms s
  let headers ← sectionHeaders s
  let names ← nameRange s headers
  let symbols ← checkSymbols s headers 2
  let _ ← checkSymbols s headers 11
  checkRelocations headers symbols
  return {
    architecture := architecture s, order, naming := .elf
    sections := headers.map (readSection s names) }

end SymbolGraph.Object.Elf
