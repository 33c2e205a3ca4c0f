/-
A workspace: a builder with a catalogue of type descriptions, a graph, a
writer and files, and the commands that work on them. A command that fails
leaves the workspace as it was, but for saving, which merges duplicates in
any case, and for the draft of a writer.
-/
import SymbolGraph.Build.Builder
import SymbolGraph.Extract
import SymbolGraph.Loader
import SymbolGraph.Writer

namespace SymbolGraph

-- =========================================================== catalogue

/-- What a catalogue says about one handle. -/
structure CatalogEntry where
  id : Option UInt32
  /-- The type, or the text of the failure to describe it. -/
  description : Option (Except String (Node UInt32))

/-- Type descriptions by handle. -/
abbrev Catalog := List (UInt32 × CatalogEntry)

namespace Catalog

/-- Adds an entry, in place of an earlier one for its handle. -/
def add (c : Catalog) (e : UInt32 × CatalogEntry) : Catalog := e :: c

def describe (c : Catalog) (handle : UInt32) : Except String (Node UInt32) :=
  match (c.lookup handle).bind CatalogEntry.description with
  | some d => d
  | none => .error s!"no type {handle.toNat}"

/-- A catalogue as a source. Its state is the list of the handles that were
described, the latest first. -/
def source (c : Catalog) : Source (List UInt32) UInt32 String where
  typeId handle := return (c.lookup handle).bind CatalogEntry.id
  describe handle seen := return (c.describe handle, handle :: seen)
  message text := text

end Catalog

-- =========================================================== workspace

structure Workspace where
  builder : Builder := {}
  catalog : Catalog := []
  graph : Graph := {}
  writer : Option Writer := none
  files : Files.Tree := {}

/-- Commands on the builder and its catalogue. -/
inductive BuildCommand where
  | new (header : Header)
  | describe (entries : List (UInt32 × CatalogEntry))
  | type (handle : UInt32)
  | function (node : FunctionNode UInt32)
  | knows (id : UInt32)
  | finish

/-- Commands on the graph. -/
inductive GraphCommand where
  | put (graph : Graph)
  | insertType (key : UInt32) (symbol : TypeSymbol)
  | insertFunction (key : UInt32) (symbol : FunctionSymbol)
  | removeType (key : UInt32)
  | removeFunction (key : UInt32)
  | get
  | typeByName (name : String)
  | functionByName (name : String)
  | mergePass
  | merge
  | verify
  | selectFormat (format : Format)
  | selectedFormat
  | save (base : String)

/-- Commands on the writer and the files. -/
inductive FileCommand where
  | newWriter (format : Format)
  | setupWriter (base : String) (bound : Bool)
  | writerTarget
  | runWriter
  | write (path : String) (data : ByteArray)
  | makeFolder (path : String)
  | rename (path newPath : String)
  | read (path : String)
  | paths
  | load (path : String)
  | extract (reading : Reading) (path : String)

inductive Command where
  | build (command : BuildCommand)
  | graph (command : GraphCommand)
  | file (command : FileCommand)

inductive Reply where
  | done
  | truth (value : Bool)
  | graph (graph : Graph)
  | typeBuilt (result : Except (Build.Failure String) UInt32)
      (described : List UInt32) (graph : Graph)
  | functionBuilt (id : UInt32) (described : List UInt32)
      (symbol : FunctionSymbol) (types : List UInt32)
  | type (symbol : TypeSymbol)
  | function (symbol : FunctionSymbol)
  | merged (removed : Nat) (graph : Graph)
  | format (format : Option Format)
  | target (path : Option String)
  | content (data : Option ByteArray)
  | paths (paths : List String)
  | saveFailed (error : SaveError)
  | loadFailed (error : LoadError)
  | extractFailed (error : ExtractError)

namespace Workspace

/-- Builds what a handle stands for. -/
def build (w : Workspace) : BuildCommand → Logged (Reply × Workspace)
  | .new header => return (.done, { w with builder := .new header })
  | .describe entries =>
    return (.done, { w with catalog := entries.foldl Catalog.add w.catalog })
  | .type handle => do
    let (result, builder, seen) ←
      (Builder.type w.catalog.source handle).run (w.builder, [])
    return (.typeBuilt result seen.reverse builder.graph, { w with builder })
  | .function node => do
    let (id, builder, seen) ←
      (Builder.function w.catalog.source node).run (w.builder, [])
    let symbol := (builder.graph.functions.get? id).getD {}
    return (.functionBuilt id seen.reverse symbol builder.graph.types.keys,
      { w with builder })
  | .knows id => return (.truth (w.builder.knows id), w)
  | .finish =>
    let graph := w.builder.graph
    return (.graph graph, { w with graph, builder := .new {} })

/-- Changes or shows the graph. -/
def edit (w : Workspace) : GraphCommand → Logged (Reply × Workspace)
  | .put graph => return (.done, { w with graph })
  | .insertType key symbol =>
    let types := w.graph.types.insert key symbol
    return (.done, { w with graph := { w.graph with types } })
  | .insertFunction key symbol =>
    let functions := w.graph.functions.insert key symbol
    return (.done, { w with graph := { w.graph with functions } })
  | .removeType key =>
    let types := w.graph.types.erase key
    return (.truth (w.graph.types.contains key),
      { w with graph := { w.graph with types } })
  | .removeFunction key =>
    let functions := w.graph.functions.erase key
    return (.truth (w.graph.functions.contains key),
      { w with graph := { w.graph with functions } })
  | .get => return (.graph w.graph, w)
  | .typeByName name => return (.type (w.graph.typeByName name), w)
  | .functionByName name => return (.function (w.graph.functionByName name), w)
  | .mergePass => do
    let (graph, removed) ← w.graph.mergePass
    return (.merged removed graph, { w with graph })
  | .merge => do
    let (graph, removed) ← w.graph.merge
    return (.merged removed graph, { w with graph })
  | .verify => return (.truth (← w.graph.verify), w)
  | .selectFormat format =>
    return (.format (some format),
      { w with graph := { w.graph with format := some format } })
  | .selectedFormat => return (.format w.graph.format, w)
  | .save base => do
    match ← w.graph.save base w.files with
    | (graph, .ok files) => return (.done, { w with graph, files })
    | (graph, .error e) => return (.saveFailed e, { w with graph })

/-- Works with files. -/
def access (w : Workspace) : FileCommand → Logged (Reply × Workspace)
  | .newWriter format =>
    return (.format (some format), { w with writer := some { format } })
  | .setupWriter base bound =>
    let writer := w.writer.map
      (·.setup base (if bound then some w.graph else none))
    return (.target (writer.bind (·.target)), { w with writer })
  | .writerTarget => return (.target (w.writer.bind (·.target)), w)
  | .runWriter => do
    match w.writer with
    | none => return (.saveFailed .noTarget, w)
    | some writer =>
      match ← writer.perform w.files with
      | (.ok (), writer, files) =>
        return (.done, { w with writer := some writer, files })
      | (.error e, writer, files) =>
        return (.saveFailed e, { w with writer := some writer, files })
  | .write path data =>
    return (.done, { w with files := w.files.plant path data })
  | .makeFolder path =>
    return (.done, { w with files := w.files.makeFolder path })
  | .rename path newPath =>
    return (.done, { w with files := w.files.rename path newPath })
  | .read path => return (.content (w.files.read path).toOption, w)
  | .paths => return (.paths w.files.paths, w)
  | .load path => do
    match ← loadGraph w.files path with
    | .ok graph => return (.graph graph, { w with graph })
    | .error e => return (.loadFailed e, w)
  | .extract reading path => do
    match ← SymbolGraph.extract reading w.files path with
    | .ok graph => return (.graph graph, { w with graph })
    | .error e => return (.extractFailed e, w)

/-- Carries out a command. -/
def run (w : Workspace) : Command → Logged (Reply × Workspace)
  | .build command => w.build command
  | .graph command => w.edit command
  | .file command => w.access command

end Workspace

end SymbolGraph
