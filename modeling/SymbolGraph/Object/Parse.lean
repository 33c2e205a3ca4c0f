/-
Telling the formats of object files apart by their first octets.
-/
import SymbolGraph.Object.Coff
import SymbolGraph.Object.MachO
import SymbolGraph.Object.Xcoff

namespace SymbolGraph.Object

/-- Formats that are recognised but not read: archives, files for several
architectures, the cache of the dynamic linker, import objects. -/
def unsupportedMagics : List (List UInt8) := [
  Bytes.ascii "!<arch>\n", Bytes.ascii "!<thin>\n", Bytes.ascii "dyld_v1 ",
  [0xca, 0xfe, 0xba, 0xbe], [0xca, 0xfe, 0xba, 0xbf],
  [0x00, 0x00, 0xff, 0xff, 0x00, 0x00]]

/-- The first octets of COFF objects: the machines that are recognised. -/
def coffMagics : List (List UInt8) := [
  [0xc4, 0x01], [0x64, 0xaa], [0x41, 0xa6], [0x4c, 0x01], [0x64, 0x86]]

/-- Reads the headers of an object file. -/
def parse (data : ByteArray) : Except Fault Image :=
  let begins (magic : List UInt8) : Bool := Bytes.standsAt data 0 magic
  if data.size < 16 then .error .tooShort
  else if unsupportedMagics.any begins then .error .unsupportedFormat
  else if begins [0x7f, 0x45, 0x4c, 0x46, 1] then Elf.parse data false
  else if begins [0x7f, 0x45, 0x4c, 0x46, 2] then Elf.parse data true
  else if begins [0xfe, 0xed, 0xfa, 0xce] then MachO.parse data false .big
  else if begins [0xce, 0xfa, 0xed, 0xfe] then MachO.parse data false .little
  else if begins [0xfe, 0xed, 0xfa, 0xcf] then MachO.parse data true .big
  else if begins [0xcf, 0xfa, 0xed, 0xfe] then MachO.parse data true .little
  else if begins [0x4d, 0x5a] then
    match Coff.optionalMagic? data with
    | some 0x10b => Coff.parseImage data false
    | some 0x20b => Coff.parseImage data true
    | _ => .error .unknownDos
  else if coffMagics.any begins then Coff.parse data
  else if begins [0x00, 0x00, 0xff, 0xff, 0x02, 0x00] then
    if 32 ≤ data.size && Bytes.standsAt data 12 Coff.bigClass then
      Coff.parseBig data
    else .error .unknownAnonymous
  else if begins [0x01, 0xdf] then Xcoff.parse data false
  else if begins [0x01, 0xf7] then Xcoff.parse data true
  else .error .unknownMagic

end SymbolGraph.Object
