/-
The functions of a unit: its subprogram entries that have code. A
definition may stand apart from the declaration of its function and then
refers to it; what the definition does not say is taken from there.
-/
import SymbolGraph.Dwarf.Ranges
import SymbolGraph.Dwarf.Types

namespace SymbolGraph.Dwarf

/-- What the file that a unit belongs to says about all its functions. -/
structure Machine where
  architecture : Architecture
  /-- The address at which the file is meant to be loaded. -/
  base : UInt64

namespace Unit

-- ========================================================= declarations

/-- The attributes by which a definition refers to its declaration. -/
def declarationAttributes : List Nat := [Attr.specification, Attr.abstractOrigin]

/-- The entry that an attribute refers to. -/
def referenced? (u : Unit) (e : Entry) (name : Nat) : Logged (Option Entry) := do
  match ← e.reference? name with
  | none => return none
  | some offset => return (u.typeEntry offset).toOption

/-- The entry that the first attribute with a reference refers to. -/
def declarationFrom (u : Unit) (e : Entry) :
    List Nat → Logged (Option Entry)
  | [] => return none
  | name :: rest => do
    match ← e.reference? name with
    | some offset => return (u.typeEntry offset).toOption
    | none => u.declarationFrom e rest

/-- The name of the first entry referred to that has one. -/
def declaredName? (u : Unit) (e : Entry) : List Nat → Logged (Option String)
  | [] => return none
  | name :: rest => do
    match (← u.referenced? e name).bind u.name? with
    | some text =>
      let label := Attr.label name
      let place := Text.hex8 e.offset
      Logged.trace s!"use {label} name for subprogram @{place}: {text}"
      return some text
    | none => u.declaredName? e rest

/-- The name of a function: its own, that of its declaration, or the name
for the linker. -/
def functionName? (u : Unit) (e : Entry) : Logged (Option String) := do
  match u.name? e with
  | some name => return some name
  | none =>
    match ← u.declaredName? e declarationAttributes with
    | some name => return some name
    | none => return u.attributeText? e Attr.linkageName

/-- The return type of a function. -/
def returnType (e : Entry) (declaration : Option Entry) :
    Attempt (Option Nat) := do
  match ← e.reference Attr.type, declaration with
  | some type, _ => return some type
  | none, some d => d.reference Attr.type
  | none, none => return none

-- ==================================================== calling conventions

/-- The code of a calling convention. -/
def conventionCode? (e : Entry) : Option Nat :=
  (e.readable? Attr.callingConvention).bind Value.octet?

/-- The convention for a code. Every function without a code of note uses
the convention of C, as far as the architecture is known. -/
def convention (architecture : Architecture) (code : Option Nat) :
    CallingConvention :=
  if code = some Cc.stdcall then .nearStd
  else if code = some Cc.msFastcall ∨ code = some Cc.fastcall
      ∨ code = some Cc.gnuFastcall then .nearFast
  else if code = some Cc.thiscall then .thiscall
  else if architecture = .unknown then .unknown
  else .nearC

-- ========================================================== parameters

/-- The parameters of a function. -/
structure Parameters where
  receiver : Option Nat := none
  /-- In order of declaration. -/
  arguments : List (Argument Nat) := []

/-- Takes in one child of a function. The first parameter with a type is
the receiver if it is marked as made by the compiler, or if the function
says so. -/
def Parameters.add (pointer : Option Nat) (p : Parameters) (child : Entry) :
    Attempt Parameters := do
  if child.tag = Tag.formalParameter then
    let type ← child.reference Attr.type
    let leading := p.receiver.isNone && p.arguments.isEmpty
    let marked := pointer = some child.offset || child.isSet Attr.artificial
    match type with
    | none => return { p with arguments := p.arguments ++ [.untyped none] }
    | some type =>
      if leading && marked then return { p with receiver := some type }
      else return { p with arguments := p.arguments ++ [.typed type] }
  else if child.tag = Tag.unspecifiedParameters then
    return { p with arguments := p.arguments ++ [.untyped none] }
  else
    let name := Tag.name child.tag
    let place := Text.hex8 child.offset
    Logged.trace s!"non parameter tag {name} @{place}"
    return p

/-- The parameters among the children of a function. -/
def parameters (u : Unit) (e : Entry) : Attempt Parameters := do
  let pointer ← e.reference Attr.objectPointer
  let (children, fault) := u.children e.offset
  let found ← children.foldlM (Parameters.add pointer) {}
  match fault with
  | some fault => throw fault
  | none => return found

-- =========================================================== functions

/-- Where the code of a function begins, if that is known. -/
def codeStart (u : Unit) (e : Entry) : Except Fault (Option Nat) := do
  match ← e.attribute? Attr.lowPc with
  | some value => u.address? value
  | none => Ranges.first u e

/-- A function with code. -/
def functionNode (u : Unit) (machine : Machine) (e : Entry) (id : UInt32)
    (name : String) : Attempt (FunctionNode Nat) := do
  let declaration ← u.declarationFrom e declarationAttributes
  let returnType ← returnType e declaration
  let code := (conventionCode? e).or (declaration.bind conventionCode?)
  let found ← u.parameters e
  let start ← (u.codeStart e : Except Fault (Option Nat))
  return {
    id, name, returnType
    receiver := found.receiver, arguments := found.arguments
    convention := convention machine.architecture code
    address := UInt64.ofNat (start.getD 0 - machine.base.toNat) }

/-- Does the entry have code of its own? -/
def hasCode (e : Entry) : Except Fault Bool := do
  if (← e.attribute? Attr.lowPc).isSome then return true
  else return (← e.attribute? Attr.ranges).isSome

/-- The function of an entry, if the entry is to be one. -/
def function? (u : Unit) (machine : Machine) (e : Entry) :
    Attempt (Option (FunctionNode Nat)) := do
  let place := Text.hex8 e.offset
  if e.tag ≠ Tag.subprogram then return none
  if e.isSet Attr.declaration then
    Logged.trace s!"skip function declaration at {place}"
    return none
  if !(← (hasCode e : Except Fault Bool)) then
    Logged.trace s!"skip subprogram without code at {place}"
    return none
  match ← u.idAt e.offset with
  | none => return none
  | some id =>
    match ← u.functionName? e with
    | none =>
      Logged.trace s!"skip unnamed function at {place}"
      return none
    | some name => return some (← u.functionNode machine e id name)

end Unit

end SymbolGraph.Dwarf
