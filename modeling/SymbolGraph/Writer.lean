/-
Writing a graph to a file. A writer has a format, and once it is set up a
target path and a graph; a run drafts the graph and writes the draft there.
The draft stays with the writer, whatever becomes of the file, and the next
run begins another. Saving a graph merges its duplicates first and reports
what is unsound, but writes it all the same.
-/
import SymbolGraph.Draft
import SymbolGraph.Files.Tree
import SymbolGraph.Integrity
import SymbolGraph.Merge

namespace SymbolGraph

/-- Why a graph was not written. -/
inductive SaveError where
  | noFormat
  | noTarget
  | noGraph
  | unwritable (target : String) (fault : Files.Fault)
deriving DecidableEq

def SaveError.message : SaveError → String
  | noFormat => "no serializer selected for the symbol graph"
  | noTarget =>
    "no target file, setup was not called or the output name was empty"
  | noGraph => "no symbol graph bound to the serializer"
  | unwritable target fault => s!"failed to write {target}: {fault.message}"

/-- What brought the error about. -/
def SaveError.causes : SaveError → List String
  | unwritable _ fault => [fault.message]
  | _ => []

/-- The octets of a graph in a format. -/
def Format.encode (f : Format) (g : Graph) : List UInt8 :=
  match f with
  | .binary => Binary.encode g
  | .json => Json.encode g

def octetsToBytes (l : List UInt8) : ByteArray := ⟨l.toArray⟩

structure Writer where
  format : Format
  target : Option String := none
  graph : Option Graph := none
  /-- What the last run has put together, or nothing yet. -/
  draft : Draft := .blank format

namespace Writer

/-- The file that a base name stands for; an empty base names none. -/
def targetOf (format : Format) (base : String) : Option String :=
  if base = "" then none else some (base ++ "." ++ format.extension)

/-- Binds a target and a graph, in place of earlier ones. -/
def setup (w : Writer) (base : String) (graph : Option Graph) : Writer :=
  { w with target := targetOf w.format base, graph }

/-- A graph under way to a file. -/
structure Job where
  target : String
  content : ByteArray

/-- Drafts the graph, if the writer has a target and a graph. -/
def stage (w : Writer) : Logged (Except SaveError Job × Writer) := do
  match w.target, w.graph with
  | none, _ => return (.error .noTarget, w)
  | some _, none => return (.error .noGraph, w)
  | some target, some graph =>
    let word := Text.column "serialize"
    let types := graph.types.size
    let functions := graph.functions.size
    let name := w.format.name
    Logged.debug s!"{word} {types} types, {functions} functions as {name}"
    -- stages add to what they find, so a run begins a blank draft
    let draft := (Draft.blank w.format).add graph
    return (.ok { target, content := octetsToBytes draft.octets },
      { w with draft })

/-- What a run would write, and where. -/
def job (w : Writer) : Logged (Except SaveError Job) := do
  return (← w.stage).1

/-- The result of a job whose file was written, or not. -/
def finish {α : Type} (job : Job) (written : Except Files.Fault α) :
    Logged (Except SaveError α) := do
  match written with
  | .error fault => return .error (.unwritable job.target fault)
  | .ok a =>
    let word := Text.column "wrote"
    Logged.info s!"{word} {job.target}"
    return .ok a

/-- Writes the graph to the target: what that came to, and the writer and
the files after it. -/
def perform (w : Writer) (files : Files.Tree) :
    Logged (Except SaveError Unit × Writer × Files.Tree) := do
  match ← w.stage with
  | (.error e, w) => return (.error e, w, files)
  | (.ok job, w) =>
    match ← finish job (files.write job.target job.content) with
    | .error e => return (.error e, w, files)
    | .ok written => return (.ok (), w, written)

/-- Writes the graph to the target, for a writer that is not used again. -/
def run (w : Writer) (files : Files.Tree) :
    Logged (Except SaveError Files.Tree) := do
  let (result, _, files) ← w.perform files
  return result.map fun () => files

end Writer

-- ============================================================== saving

namespace Graph

/-- The graph as it is saved, with its duplicates merged, and a writer for
it. -/
def prepare (g : Graph) (base : String) :
    Logged (Graph × Except SaveError Writer) := do
  match g.format with
  | none => return (g, .error .noFormat)
  | some format =>
    let (merged, removed) ← g.merge
    Logged.debug s!"removed {removed} duplicate type symbols"
    unless ← merged.verify do
      Logged.warn
        "symbol graph has unresolved type references, writing it anyway"
    let writer : Writer := { format }
    return (merged, .ok (writer.setup base (some merged)))

/-- Merges duplicates and writes the graph to the file that `base` stands
for, in the selected format. -/
def save (g : Graph) (base : String) (files : Files.Tree) :
    Logged (Graph × Except SaveError Files.Tree) := do
  match ← g.prepare base with
  | (g, .error e) => return (g, .error e)
  | (g, .ok writer) => return (g, ← writer.run files)

end Graph

end SymbolGraph
