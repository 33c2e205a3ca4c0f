/-
The construction of a graph from nodes.

A type is built at most once per id: an id that is stored, or whose type is
being built further up, is answered at once, so cyclic type graphs are no
problem and a reader describes every type once. A type whose parts fail is
still built: a field whose type is unavailable becomes a placeholder, an
alias of an unavailable type keeps no target, and an unavailable type in a
signature is recorded as 0.

Each nested call builds a type with an id that no call further up has, so
the nesting never exceeds the number of ids; that number is the bound under
which the recursion runs.
-/
import SymbolGraph.Build.AnonymousUnion
import SymbolGraph.Build.Node
import SymbolGraph.Graph
import SymbolGraph.Text.Numeral

namespace SymbolGraph

-- =============================================================== state

/-- A graph under construction. -/
structure Builder where
  graph : Graph := {}
  /-- The ids of the types being built, innermost first. -/
  inProgress : List UInt32 := []
  /-- How many pointer types have been named. -/
  pointerCount : Nat := 0

namespace Builder

instance : Inhabited Builder := ⟨{}⟩

def new (header : Header) : Builder := { graph := { header } }

/-- Is a type under this id built, or being built? -/
def knows (b : Builder) (id : UInt32) : Bool :=
  b.graph.types.contains id || b.inProgress.contains id

def start (id : UInt32) (b : Builder) : Builder :=
  { b with inProgress := id :: b.inProgress }

def stop (id : UInt32) (b : Builder) : Builder :=
  { b with inProgress := b.inProgress.erase id }

def store (id : UInt32) (t : TypeSymbol) (b : Builder) : Builder :=
  { b with graph := { b.graph with types := b.graph.types.insert id t } }

def storeFunction (id : UInt32) (f : FunctionSymbol) (b : Builder) : Builder :=
  { b with
    graph := { b.graph with functions := b.graph.functions.insert id f } }

end Builder

namespace Build

/-- Why a type could not be built. -/
inductive Failure (ε : Type) where
  | unreadableId
  | reservedId
  | source (error : ε)
  /-- More types are being built than there are ids; this never happens. -/
  | nesting

def Failure.message {ε : Type} (text : ε → String) : Failure ε → String
  | unreadableId => "type has no readable id"
  | reservedId => "type resolves to the reserved id 0"
  | source e => text e
  | nesting => "types are nested too deeply"

/-- A step of the construction: it changes the builder and the reader's
state, and leaves log records. -/
abbrev Step (σ : Type) := StateT (Builder × σ) Logged

/-- Changes the builder alone. -/
def update {σ : Type} (f : Builder → Builder) : Step σ Unit :=
  modify fun s => (f s.1, s.2)

/-- What building the type behind a handle answers. -/
abbrev Answer (ε : Type) := Except (Failure ε) UInt32

/-- A count in 32 bits; counts beyond stay at the greatest. -/
def count32 (n : Nat) : UInt32 :=
  if n < 0x100000000 then UInt32.ofNat n else 0xffffffff

-- ============================================================== fields

variable {σ H ε : Type}

/-- The field of a member; a placeholder if the member or its type could
not be read. -/
def field (message : ε → String) (build : H → Step σ (Answer ε))
    (owner : String) : Option (FieldNode H) → Step σ Field
  | none => do
    Logged.error s!"failed to read a field of {owner}"
    return .placeholder
  | some node => do
    match ← build node.type with
    | .ok typeId =>
      return { id := node.id, name := node.name, typeId, offset := node.offset }
    | .error e =>
      let text := e.message message
      Logged.error
        s!"failed to create field symbol {owner}::{node.name}: {text}"
      return .placeholder

def fields (message : ε → String) (build : H → Step σ (Answer ε))
    (owner : String) : List (Option (FieldNode H)) → Step σ (List Field)
  | [] => return []
  | node :: rest => do
    let first ← field message build owner node
    return first :: (← fields message build owner rest)

-- ============================================================= symbols

/-- The number of a pointer type, counted over the whole construction. -/
def nextPointer : Step σ Nat := do
  let n := (← get).1.pointerCount
  update fun b => { b with pointerCount := n + 1 }
  return n

/-- The alias of a typedef and its length: those of its target if that
can be built. -/
def aliased (message : ε → String) (build : H → Step σ (Answer ε))
    (id : UInt32) (name : String) (length : UInt64) :
    Option H → Step σ (UInt32 × UInt64)
  | none => return (0, 0)
  | some target => do
    match ← build target with
    | .ok source =>
      match (← get).1.graph.types.get? source with
      | some aliased => return (source, aliased.length)
      | none => return (source, length)
    | .error e =>
      let word := Text.column "typedef"
      let place := Text.hex8 id.toNat
      let text := e.message message
      Logged.warn s!"{word} {place}: {name}: aliased type unavailable: {text}"
      return (0, length)

/-- The symbol of a node. `build` builds the types that it links to. -/
def symbol (message : ε → String) (build : H → Step σ (Answer ε))
    (id : UInt32) (node : Node H) : Step σ TypeSymbol := do
  let name := node.name.getD ""
  let length := node.length
  match node.shape with
  | .base primitive =>
    return { id, name := primitive.typeName length, kind := .base, length }
  | .aggregate kind members =>
    let built ← fields message build name members
    let fields := if kind = .union then built else AnonymousUnion.mark built
    return {
      id, name, kind, length, fields, fieldCount := count32 fields.length }
  | .enum => return { id, name, kind := .enum, length }
  | .array => return { id, name, kind := .array, length }
  | .pointer =>
    let n ← nextPointer
    return { id, name := s!"pUnk{n}", kind := .pointer, length }
  | .typedef target =>
    let (aliasOf, length) ← aliased message build id name length target
    return { id, name, kind := .typedef, length, aliasOf }

/-- Builds the type behind a handle, and everything it needs, with at most
`depth` types nested; answers its id. -/
def type (source : Source σ H ε) : Nat → H → Step σ (Answer ε)
  | 0, _ => return .error .nesting
  | depth + 1, handle => do
    match ← source.typeId handle with
    | none => return .error .unreadableId
    | some id =>
      if id = 0 then return .error .reservedId
      let (builder, state) ← get
      if builder.knows id then return .ok id
      let (described, state) ← source.describe handle state
      set (builder, state)
      match described with
      | .error e => return .error (.source e)
      | .ok node =>
        update (·.start id)
        let built ← symbol source.message (type source depth) id node
        update (·.stop id)
        let kind := Text.column built.kind.label
        let place := Text.hex8 id.toNat
        Logged.debug
          s!"{kind} {place}: {built.name} ({built.length.toNat} bytes)"
        update (·.store id built)
        return .ok id

/-- Enough for any construction: one more than there are ids. -/
def depthBound : Nat := 0x100000001

end Build

-- ========================================================= whole types

open Build

variable {σ H ε : Type}

/-- Builds the type behind a handle, and everything it needs; answers its
id. -/
def Builder.type (source : Source σ H ε) (handle : H) : Step σ (Answer ε) :=
  Build.type source depthBound handle

-- =========================================================== functions

namespace Build

/-- The type of a return value or argument; 0 if it cannot be built. -/
def signatureType (source : Source σ H ε) (function : String) (handle : H) :
    Step σ UInt32 := do
  match ← Builder.type source handle with
  | .ok id => return id
  | .error e =>
    let word := Text.column "function"
    let text := e.message source.message
    Logged.warn s!"{word} {function}: unresolved signature type: {text}"
    return 0

def optionalType (source : Source σ H ε) (function : String) :
    Option H → Step σ UInt32
  | none => return 0
  | some handle => signatureType source function handle

/-- The argument types. `leading` holds at the first declared argument: an
untyped one in that place is how an empty `(void)` list shows up. -/
def argumentTypes (source : Source σ H ε) (function : String) :
    Bool → List (Argument H) → Step σ (List UInt32)
  | _, [] => return []
  | _, .typed handle :: rest => do
    let id ← signatureType source function handle
    return id :: (← argumentTypes source function false rest)
  | leading, .untyped handle :: rest => do
    if leading then argumentTypes source function false rest
    else
      let id ← optionalType source function handle
      return id :: (← argumentTypes source function false rest)

def receiverTypes (source : Source σ H ε) (function : String) :
    Option H → Step σ (List UInt32)
  | none => return []
  | some handle => return [← signatureType source function handle]

end Build

/-- Builds a function under its id, unless one is stored there. Types
that cannot be built are recorded as 0. -/
def Builder.function (source : Source σ H ε) (node : FunctionNode H) :
    Step σ UInt32 := do
  let word := Text.column "function"
  let place := Text.hex8 node.id.toNat
  if (← get).1.graph.functions.contains node.id then
    Logged.trace s!"{word} {place}: {node.name} already built"
    return node.id
  let returnType ← optionalType source node.name node.returnType
  let receiver ← receiverTypes source node.name node.receiver
  let declared ← argumentTypes source node.name true node.arguments
  let argumentTypes := receiver ++ declared
  let count := argumentTypes.length
  let address := Text.hex node.address.toNat
  Logged.debug s!"{word} {place}: {node.name} ({count} args) @ {address}"
  update (·.storeFunction node.id {
    id := node.id, name := node.name, returnType,
    argumentCount := count32 count, argumentTypes,
    convention := node.convention, address := node.address })
  return node.id

end SymbolGraph
