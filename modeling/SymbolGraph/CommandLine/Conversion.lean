/-
The conversion of a file with debug information into a graph file. It has
one effect, the writing of one file, and is cut there: what goes before
answers what is to be written and where, and what comes after is told how
that went.
-/
import SymbolGraph.CommandLine.Options
import SymbolGraph.CommandLine.Report
import SymbolGraph.Extract
import SymbolGraph.Writer

namespace SymbolGraph.CommandLine

/-- The path of the output without extension: the one given, or the input
without its extension. -/
def Options.base (o : Options) : String :=
  o.output.getD (Path.dropExtension o.input)

-- ============================================================= reports

def unread (o : Options) (e : ExtractError) : Report :=
  { summary := s!"failed to read symbols from {o.input}"
    causes := e.message :: e.causes }

def unwritten (o : Options) (e : SaveError) : Report :=
  { summary := s!"failed to write {o.base}"
    causes := e.message :: e.causes }

def unsound : Report :=
  { summary := "symbol graph has unresolved type references" }

-- ========================================================== conversion

/-- A converted graph, on its way to a file. -/
structure Converted where
  graph : Graph
  job : Writer.Job

/-- The strict check: duplicates are merged, and the graph must be sound. -/
def check (o : Options) (g : Graph) : Logged (Except Report Graph) := do
  if o.strict then
    let (merged, _) ← g.merge
    if ← merged.verify then return .ok merged else return .error unsound
  else return .ok g

/-- The graph of the input. -/
def extractInput (o : Options) (content : Except Files.Fault ByteArray) :
    Logged (Except Report Graph) := do
  Logged.info s!"input: {o.input}"
  Logged.info s!"format: {o.format.name}"
  Logged.debug s!"load debug info: {o.input}"
  match ← extractFrom .auto o.input content with
  | .error e => return .error (unread o e)
  | .ok graph =>
    if graph.types.size = 0 && graph.functions.size = 0 then
      Logged.warn
        "no symbols found in the input. maybe it was compiled without debug info, or stripped?"
    check o graph

/-- What is to be written for a graph. -/
def stage (o : Options) (g : Graph) : Logged (Except Report Converted) := do
  match ← { g with format := some o.format }.prepare o.base with
  | (_, .error e) => return .error (unwritten o e)
  | (graph, .ok writer) =>
    match ← writer.job with
    | .error e => return .error (unwritten o e)
    | .ok job => return .ok { graph, job }

/-- Everything up to the writing, given what reading the input came to. -/
def begin (o : Options) (content : Except Files.Fault ByteArray) :
    Logged (Except Report Converted) := do
  match ← extractInput o content with
  | .error report => return .error report
  | .ok graph => stage o graph

/-- Everything behind the writing, given what that came to. -/
def conclude {α : Type} (o : Options) (c : Converted)
    (written : Except Files.Fault α) : Logged (Except Report α) := do
  match ← Writer.finish c.job written with
  | .error e => return .error (unwritten o e)
  | .ok answer =>
    let types := c.graph.types.size
    let functions := c.graph.functions.size
    Logged.info s!"{types} types, {functions} functions"
    return .ok answer

/-- Converts a file of a tree. -/
def convert (o : Options) (files : Files.Tree) :
    Logged (Except Report Files.Tree) := do
  match ← begin o (readWhole files o.input) with
  | .error report => return .error report
  | .ok c => conclude o c (files.write c.job.target c.job.content)

-- ================================================================ runs

/-- The outcome of a run. -/
structure Outcome where
  status : UInt32
  out : String := ""
  err : String := ""
  files : Files.Tree

def versionLine : String := "usym 0.1.0\n"

def usageLine : String :=
  "usage: usym [-o OUTPUT] [-f binary|json] [--strict] [-q] [-v]... INPUT\n"

/-- What is shown in place of a conversion. -/
def Stop.outcome (files : Files.Tree) : Stop → Outcome
  | .version => { status := 0, out := versionLine, files }
  | .help => { status := 0, out := usageLine, files }
  | .misuse => { status := 2, err := usageLine, files }

/-- Runs a command line on a tree of files. -/
def run (words : List String) (files : Files.Tree) : Outcome :=
  match Options.parse words with
  | .error stop => stop.outcome files
  | .ok o =>
    let answer := convert o files
    let logs := lines o.level answer.records
    match answer.value with
    | .ok files => { status := 0, err := logs, files }
    | .error report => { status := 1, err := logs ++ report.text, files }

end SymbolGraph.CommandLine
