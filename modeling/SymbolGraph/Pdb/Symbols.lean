/-
The records of symbols: aliases and procedures. A symbol begins with its
kind; symbols of other kinds, and symbols that cannot be read, are passed
over.
-/
import SymbolGraph.Pdb.Scan

namespace SymbolGraph.Pdb

/-- A name for a type. -/
structure AliasSymbol where
  name : String
  target : TypeIndex

/-- A function with code. -/
structure ProcedureSymbol where
  name : String
  type : TypeIndex
  /-- Where its code is: an offset in a section. -/
  offset : Nat
  codeSection : Nat

inductive Symbol where
  | typeAlias (symbol : AliasSymbol)
  | procedure (symbol : ProcedureSymbol)
  | other

namespace Symbol

variable (b : ByteArray)

/-- A name. The older kinds of symbol store it behind its length. -/
def name (kind : Nat) : Scan String :=
  if kind < 0x1100 then Scan.counted b else Scan.zeroEnded b

def readAlias (kind : Nat) : Scan Symbol := do
  let target ← Scan.typeIndex b
  return .typeAlias { name := ← name b kind, target }

def readProcedure (kind : Nat) : Scan Symbol := do
  Scan.skip b 24
  let type ← Scan.typeIndex b
  let offset ← Scan.u32 b
  let codeSection ← Scan.u16 b
  Scan.skip b 1
  return .procedure { name := ← name b kind, type, offset, codeSection }

def aliasKinds : List Nat := [0x1003, 0x1004, 0x1108, 0x1109]

def procedureKinds : List Nat := [
  0x100a, 0x100b, 0x110f, 0x1110, 0x1146, 0x1147, 0x1155, 0x1156]

def read : Scan Symbol := do
  let kind ← Scan.u16 b
  if aliasKinds.contains kind then readAlias b kind
  else if procedureKinds.contains kind then readProcedure b kind
  else return .other

/-- Reads one symbol; one that cannot be read is like one of another
kind. -/
def parse : Symbol := (read b).result.toOption.getD .other

/-- The symbols from a place up to a stop, and the fault that ended the
list, if one did. -/
def listFrom (stop : Nat) : Nat → Nat → List Symbol × Option Fault
  | 0, _ => ([], none)
  | fuel + 1, place =>
    if stop ≤ place then ([], none)
    else if stop < place + 2 then ([], some .endOfInput)
    else
      let length := Bytes.littleAt b place 2
      let next := place + 2 + length
      if length < 2 then ([], some .symbolTooShort)
      else if stop < next then ([], some .endOfInput)
      else
        let (rest, fault) := listFrom stop fuel next
        (parse (b.extract (place + 2) next) :: rest, fault)

/-- All symbols of a stream. -/
def list : List Symbol × Option Fault := listFrom b b.size (b.size + 1) 0

end Symbol

end SymbolGraph.Pdb
