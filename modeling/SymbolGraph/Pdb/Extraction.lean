/-
The graph of a program database. Types that are defined, and pointers, are
built first, in the order of their records; then the aliases among the
global symbols, unless an alias only repeats the name of its target; then
the procedures of each module. Aliases and functions are numbered as they
come. What the container cannot yield leaves no graph, but a module whose
stream is out of reach is passed over.
-/
import SymbolGraph.Build.Builder
import SymbolGraph.Pdb.AddressMap
import SymbolGraph.Pdb.Symbols
import SymbolGraph.Pdb.Types

namespace SymbolGraph.Pdb

open Build

/-- A step of building the graph of a database. The state besides the
builder is the id of the next field. -/
abbrev Building := Step UInt32

-- =============================================================== types

/-- Builds a type for its own sake. -/
def buildRoot (t : Types) (index : TypeIndex) : Building Unit := do
  match ← Builder.type t.source (.type index) with
  | .ok _ => return ()
  | .error fault =>
    let word := Text.column "skip type"
    let place := Text.hex index.toNat
    let text := fault.message TypeFault.message
    Logged.debug s!"{word} {place}: {text}"

-- ============================================================= aliases

/-- The id of the first alias, above those of all types. -/
def firstAlias : UInt32 := 0x80000000

/-- Builds an alias under an id. -/
def buildAlias (t : Types) (id : UInt32) (symbol : AliasSymbol) :
    Building Unit := do
  match ← Builder.type t.source (.typedef id symbol.name symbol.target) with
  | .ok _ => return ()
  | .error fault =>
    let word := Text.column "skip typedef"
    let text := fault.message TypeFault.message
    Logged.debug s!"{word} {text}"

/-- Builds the aliases among some symbols, with ids from an id on. -/
def buildAliases (t : Types) : UInt32 → List Symbol → Building Unit
  | _, [] => return ()
  | id, .typeAlias symbol :: rest => do
    if t.declaredName? symbol.target = some symbol.name then
      buildAliases t id rest
    else
      buildAlias t id symbol
      buildAliases t (id + 1) rest
  | id, _ :: rest => buildAliases t id rest

/-- Builds the aliases among the global symbols. -/
def buildGlobals (c : Container) (t : Types) :
    Building (Except Fault Unit) := do
  let stream : Except Fault ByteArray := do
    let header ← DebugHeader.ofContainer c
    match ← c.stream? header.globals with
    | some b => return b
    | none => throw .noGlobals
  match stream with
  | .error fault => return .error fault
  | .ok b =>
    let (symbols, fault) := Symbol.list b
    buildAliases t firstAlias symbols
    return match fault with
      | some fault => .error fault
      | none => .ok ()

-- =========================================================== functions

/-- The convention that a code stands for. -/
def convention (code : Nat) : CallingConvention :=
  if code = 0x00 then .nearC
  else if code = 0x04 then .nearFast
  else if code = 0x07 then .nearStd
  else if code = 0x09 then .nearSys
  else if code = 0x0b then .thiscall
  else if code = 0x16 then .clrCall
  else .unknown

/-- The declared arguments of a function. -/
def arguments (t : Types) (list : TypeIndex) :
    Logged (List (Argument Handle)) := do
  match t.find list with
  | .ok (.argumentList indices) =>
    return indices.map fun index =>
      if index = 0 then .untyped none else .typed (.type index)
  | _ =>
    let place := Text.hex list.toNat
    Logged.warn s!"{place} is not an argument list"
    return []

/-- The function of a procedure. One whose type is no signature has neither
return type nor arguments. -/
def functionNode (t : Types) (map : AddressMap) (id : UInt32)
    (symbol : ProcedureSymbol) : Logged (FunctionNode Handle) := do
  let bare : FunctionNode Handle := {
    id, name := symbol.name
    returnType := none, receiver := none, arguments := []
    convention := .unknown
    address := UInt64.ofNat
      ((map.address? symbol.codeSection symbol.offset).getD 0) }
  match t.find symbol.type with
  | .ok (.procedure returnType receiver code list) =>
    return { bare with
      returnType := returnType.map .type
      receiver := receiver.map .type
      arguments := ← arguments t list
      convention := convention code }
  | _ =>
    let word := Text.column "function"
    Logged.warn s!"{word} {symbol.name}: no function type"
    return bare

/-- Builds the procedures among some symbols, with ids from an id on;
answers the id behind them. -/
def buildProcedures (t : Types) (map : AddressMap) :
    UInt32 → List Symbol → Building UInt32
  | id, [] => return id
  | id, .procedure symbol :: rest => do
    let node ← functionNode t map id symbol
    let _ ← Builder.function t.source node
    buildProcedures t map (id + 1) rest
  | id, _ :: rest => buildProcedures t map id rest

/-- Builds the procedures of a module. -/
def buildModule (c : Container) (t : Types) (map : AddressMap) (id : UInt32)
    (m : ModuleEntry) : Building (Except Fault UInt32) := do
  match c.stream? m.stream with
  | .error fault =>
    let text := fault.message
    Logged.warn s!"skip module {m.name}: {text}"
    return .ok id
  | .ok none => return .ok id
  | .ok (some b) =>
    match m.symbolOctets b with
    | .error fault => return .error fault
    | .ok octets =>
      let (symbols, fault) := Symbol.list octets
      let id ← buildProcedures t map id symbols
      return match fault with
        | some fault => .error fault
        | none => .ok id

/-- Builds the procedures of some modules, with ids from an id on. -/
def buildModules (c : Container) (t : Types) (map : AddressMap) :
    UInt32 → List ModuleEntry → Building (Except Fault Unit)
  | _, [] => return .ok ()
  | id, m :: rest => do
    match ← buildModule c t map id m with
    | .error fault => return .error fault
    | .ok id => buildModules c t map id rest

/-- Builds the functions of the database. -/
def buildFunctions (c : Container) (t : Types) :
    Building (Except Fault Unit) := do
  let found : Except Fault (AddressMap × List ModuleEntry × Option Fault) := do
    let map ← AddressMap.ofContainer c
    let header ← DebugHeader.ofContainer c
    return (map, ← ModuleEntry.list header)
  match found with
  | .error fault => return .error fault
  | .ok (map, modules, fault) =>
    match ← buildModules c t map 1 modules with
    | .error fault => return .error fault
    | .ok () =>
      return match fault with
        | some fault => .error fault
        | none => .ok ()

-- =============================================================== graph

/-- Builds all types and functions. -/
def build (c : Container) (t : Types) : Building (Except Fault Unit) := do
  t.roots.forM (buildRoot t)
  match ← buildGlobals c t with
  | .error fault => return .error fault
  | .ok () => buildFunctions c t

/-- The number of the stream of types. -/
def typeStream : Nat := 2

/-- The machine of the program; 0 if that cannot be read. -/
def machineOf (c : Container) : Nat :=
  match DebugHeader.ofContainer c with
  | .ok header => header.machine
  | .error _ => 0

/-- The container and the types of a program database. -/
def load (data : ByteArray) : Except Fault (Container × Types) := do
  let c ← Container.ofData data
  let table ← TypeTable.ofStream (← c.stream typeStream)
  return (c, Types.ofTable table (DebugHeader.pointerSize (machineOf c)))

/-- The graph of a program database. -/
def graphOf (data : ByteArray) : Logged (Except Fault Graph) := do
  match load data with
  | .error fault => return .error fault
  | .ok (c, t) =>
    let roots := t.roots.length
    let definitions := t.definitions.length
    Logged.debug s!"{roots} type records, {definitions} definitions"
    let start := Builder.new {
      origin := .pdb, architecture := DebugHeader.architecture (machineOf c) }
    let (built, (builder, _)) ← (build c t).run (start, 1)
    match built with
    | .error fault => return .error fault
    | .ok () =>
      let graph := builder.graph
      let types := graph.types.size
      let functions := graph.functions.size
      Logged.info s!"extracted {types} types, {functions} functions"
      return .ok graph

end SymbolGraph.Pdb
