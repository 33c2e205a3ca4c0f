/-
Why debug information in the DWARF format cannot be read.
-/
namespace SymbolGraph.Dwarf

inductive Fault where
  | endOfInput
  | reservedLength
  | version
  | addressSize
  | offsetSize
  | unitType
  | unsignedNumber
  | signedNumber
  | tagZero
  | childrenMark
  | attributeNameZero
  | attributeFormZero
  | duplicateAbbreviation
  | unknownAbbreviation
  | unknownForm
  | implicitConstant
  | missingRoot
  | offsetOutOfBounds
  | unexpectedNull
  | unsupportedForm
  | rangeEntry
  | segmentSize
  | instructionLength
  | operationsPerInstruction
  | lineRange
  | opcodeBase
  | missingPath
deriving DecidableEq

/-- The layout of the texts that are two lines long. -/
def secondLine (first second : String) : String :=
  first ++ "\n" ++ String.ofList (List.replicate 17 ' ') ++ second

def Fault.message : Fault → String
  | endOfInput => "Hit the end of input before it was expected"
  | reservedLength => "Found an unknown reserved length value"
  | version => "Found an unknown DWARF version"
  | addressSize => "The specified address size is not supported"
  | offsetSize => "The specified offset size is not supported"
  | unitType =>
    "The \x60DW_UT_*\x60 value for this unit is not supported yet"
  | unsignedNumber => "An error parsing an unsigned LEB128 value"
  | signedNumber => "An error parsing a signed LEB128 value"
  | tagZero =>
    secondLine "An abbreviation declared that its tag is zero,"
      "but zero is reserved for null records"
  | childrenMark =>
    secondLine "The abbreviation's has-children byte was not one of"
      "\x60DW_CHILDREN_\x7byes,no\x7d\x60"
  | attributeNameZero => "Expected a zero, found something else"
  | attributeFormZero =>
    secondLine "An attribute specification declared that its form is zero,"
      "but zero is reserved for null records"
  | duplicateAbbreviation =>
    "Found an abbreviation code that has already been used"
  | unknownAbbreviation => "Found a record with an unknown abbreviation code"
  | unknownForm => "Found an unknown \x60DW_FORM_*\x60 type"
  | implicitConstant =>
    "DW_FORM_implicit_const used in an invalid context."
  | missingRoot =>
    "A compilation unit or type unit is missing its top level DIE."
  | offsetOutOfBounds => "The given offset is out of bounds."
  | unexpectedNull => "Read a null entry before it was expected."
  | unsupportedForm => "A DIE attribute used an unsupported form."
  | rangeEntry => "Found an unknown range lists entry"
  | segmentSize => "Nonzero segment size not supported yet"
  | instructionLength => "The minimum instruction length must not be zero."
  | operationsPerInstruction =>
    "The maximum operations per instruction must not be zero."
  | lineRange => "The line range must not be zero."
  | opcodeBase => "The opcode base must not be zero."
  | missingPath => "Missing DW_LNCT_path in file entry format."

end SymbolGraph.Dwarf
