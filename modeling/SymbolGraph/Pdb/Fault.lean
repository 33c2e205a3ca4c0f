/-
Why a program database cannot be read.
-/
namespace SymbolGraph.Pdb

inductive Fault where
  | unrecognized
  | smallContainer
  | pageSize (size : Nat)
  | page (number : Nat)
  | stream (number : Nat)
  /-- A page lies beyond the end of the file. -/
  | missingPage
  | endOfInput
  | typeHeaderSmall
  | typeHeaderLarge
  | minimumIndex
  | maximumIndex
  | typeTooShort
  | typeNotFound (index : Nat)
  | typeNotIndexed (index covered : Nat)
  | typeKind (kind : Nat)
  | ancientDebugHeader
  | debugHeaderLength
  | noGlobals
  | noAddressMap
  | addressMapLength
  | symbolTooShort
  | symbolFormat
deriving DecidableEq

/-- What the file says when it ends too early. -/
def shortRead : String := "failed to fill whole buffer"

def Fault.message : Fault → String
  | unrecognized => "UnrecognizedFileFormat"
  | smallContainer => "Unimplemented PDB feature: small MSF file format"
  | pageSize size =>
    s!"The MSF header specifies an invalid page size ({size} bytes)"
  | page number => s!"MSF referred to page number ({number}) out of range"
  | stream number =>
    s!"The requested stream ({number}) is not stored in this file"
  | missingPage => s!"IO error while reading PDB: {shortRead}"
  | endOfInput => "UnexpectedEof"
  | typeHeaderSmall =>
    "The type information header was invalid: header size is impossibly small"
  | typeHeaderLarge =>
    "The type information header was invalid: header size is unreasonably large"
  | minimumIndex =>
    "The type information header was invalid: minimum type index is < 4096"
  | maximumIndex =>
    "The type information header was invalid: maximum type index is < minimum type index"
  | typeTooShort => "TypeTooShort"
  | typeNotFound index => s!"Type {index} not found"
  | typeNotIndexed index covered =>
    s!"Type {index} not indexed (index covers {covered})"
  | typeKind kind =>
    let digits := Nat.toDigits 16 kind
    let shown := String.ofList (List.replicate (4 - digits.length) '0' ++ digits)
    s!"Support for types of kind 0x{shown} is not implemented"
  | ancientDebugHeader => "Unimplemented PDB feature: ancient DBI header"
  | debugHeaderLength =>
    "DbgDataHdr stream has an invalid length or alignment for its records"
  | noGlobals => "GlobalSymbolsNotFound"
  | noAddressMap => "AddressMapNotFound"
  | addressMapLength =>
    "OMAP stream has an invalid length or alignment for its records"
  | symbolTooShort => "SymbolTooShort"
  | symbolFormat =>
    "Unimplemented PDB feature: Unsupported symbol data format"

end SymbolGraph.Pdb
