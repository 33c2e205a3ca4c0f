/-
What the formats of object files have in common: an architecture, a byte
order, the address at which the file is meant to be loaded, and sections
found by name.
-/
import SymbolGraph.Bytes
import SymbolGraph.Tags

namespace SymbolGraph.Object

/-- Why a file is no object file that can be read. -/
inductive Fault where
  | tooShort
  | unknownMagic
  | unknownDos
  | unknownAnonymous
  | unsupportedFormat
  | elfHeaderSize
  | elfHeader
  | elfProgramEntrySize
  | elfProgramTable
  | elfProgramOverflow
  | elfSectionEntrySize
  | elfFirstSection
  | elfSectionTable
  | elfNoNames
  | elfNameIndex
  | elfNameIndexOverflow
  | elfNameSize
  | elfSymbols
  | elfSectionIndex
  | elfTextSectionType
  | elfTextSectionSize
  | elfSymbolIndices
  | elfRelocationTarget
  | machHeaderSize
  | machSegmentSize
  | machSectionCount
  | machCommandSize
  | machSymbols
  | machTextSize
  | coffHeaderSize
  | bigObjectHeaderSize
  | bigObjectHeader
  | coffSections
  | coffSymbols
  | coffNoText
  | peHeaderSize
  | peMagic
  | peOptionalMagic
  | peOptionalTooSmall
  | peOptionalSize
  | peDirectories
  | xcoffHeaderSize
  | xcoffAuxiliarySize
  | xcoffSections
  | xcoffSymbols
  | xcoffNoText

def Fault.message : Fault → String
  | tooShort => "Could not read file magic"
  | unknownMagic => "Unknown file magic"
  | unknownDos => "Unknown MS-DOS file"
  | unknownAnonymous => "Unknown anon object file"
  | unsupportedFormat => "Unsupported file format"
  | elfHeaderSize => "Invalid ELF header size or alignment"
  | elfHeader => "Unsupported ELF header"
  | elfProgramEntrySize => "Invalid ELF program header entry size"
  | elfProgramTable => "Invalid ELF program header size or alignment"
  | elfProgramOverflow => "Missing ELF section headers for e_phnum overflow"
  | elfSectionEntrySize => "Invalid ELF section header entry size"
  | elfFirstSection => "Invalid ELF section header offset or size"
  | elfSectionTable => "Invalid ELF section header offset/size/alignment"
  | elfNoNames => "Missing ELF e_shstrndx"
  | elfNameIndex => "Invalid ELF e_shstrndx"
  | elfNameIndexOverflow =>
    "Missing ELF section headers for e_shstrndx overflow"
  | elfNameSize => "Invalid ELF shstrtab size"
  | elfSymbols => "Invalid ELF symbol table data"
  | elfSectionIndex => "Invalid ELF section index"
  | elfTextSectionType => "Invalid ELF string section type"
  | elfTextSectionSize => "Invalid ELF string section offset or size"
  | elfSymbolIndices => "Invalid ELF symtab_shndx data"
  | elfRelocationTarget => "Invalid ELF sh_info for relocation section"
  | machHeaderSize => "Invalid Mach-O header size or alignment"
  | machSegmentSize => "Invalid Mach-O segment command size"
  | machSectionCount => "Invalid Mach-O number of sections"
  | machCommandSize => "Invalid Mach-O command size"
  | machSymbols => "Invalid Mach-O symbol table offset or size"
  | machTextSize => "Invalid Mach-O string table length"
  | coffHeaderSize => "Invalid COFF file header size or alignment"
  | bigObjectHeaderSize =>
    "Invalid COFF bigobj file header size or alignment"
  | bigObjectHeader => "Invalid COFF bigobj header values"
  | coffSections => "Invalid COFF/PE section headers"
  | coffSymbols => "Invalid COFF symbol table offset or size"
  | coffNoText => "Missing COFF string table"
  | peHeaderSize => "Invalid PE headers offset or size"
  | peMagic => "Invalid PE magic"
  | peOptionalMagic => "Invalid PE optional header magic"
  | peOptionalTooSmall => "PE optional header size is too small"
  | peOptionalSize => "Invalid PE optional header size"
  | peDirectories => "Invalid PE number of RVA and sizes"
  | xcoffHeaderSize => "Invalid XCOFF header size or alignment"
  | xcoffAuxiliarySize => "Invalid XCOFF auxiliary header size"
  | xcoffSections => "Invalid XCOFF section headers"
  | xcoffSymbols => "Invalid XCOFF symbol table offset or size"
  | xcoffNoText => "Missing XCOFF string table"

-- ============================================================ sections

/-- How the octets of a section are packed. -/
inductive Packing where
  | zlib
  | zstd
deriving DecidableEq

/-- Where the octets of a section are. -/
inductive Body where
  /-- The section occupies nothing in the file. -/
  | empty
  | plain (offset size : Nat)
  | packed (packing : Packing) (offset size unpacked : Nat)
  /-- The section says something about itself that cannot be right. -/
  | broken

structure Section where
  /-- The name, if it can be read. -/
  name : Option (List UInt8)
  body : Body

/-- The names under which a section of debug information is looked for, one
after another. -/
inductive Naming where
  /-- The name itself. -/
  | plain
  /-- The name, then the name of its packed form. -/
  | elf
  /-- The name with two underscores in front in place of the dot, or the
  name itself; then the packed form. Names have 16 octets at most. -/
  | mach

/-- An object file as far as debug information needs it. -/
structure Image where
  architecture : Architecture
  order : ByteOrder
  base : UInt64 := 0
  naming : Naming := .plain
  sections : List Section := []

def find? (sections : List Section) (names : List (List UInt8)) :
    Option Section :=
  sections.find? fun s => s.name.any names.contains

/-- The first section for a name such as `.debug_info`. -/
def Image.section? (image : Image) (name : String) : Option Section :=
  let octets := Bytes.ascii name
  let bare := octets.drop 1
  let packed := 0x7a :: bare
  match image.naming with
  | .plain => find? image.sections [octets]
  | .elf =>
    (find? image.sections [octets]).or
      (find? image.sections [0x2e :: packed])
  | .mach =>
    let system (n : List UInt8) := (0x5f :: 0x5f :: n).take 16
    (find? image.sections [octets, system bare]).or
      (find? image.sections [system packed])

end SymbolGraph.Object
