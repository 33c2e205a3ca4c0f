/-
The program: it converts a file with debug information into a graph file.
-/
import SymbolGraph.CommandLine.Conversion

open SymbolGraph CommandLine

/-- What a failed access to a file means. -/
def faultOf : IO.Error → Files.Fault
  | .noFileOrDirectory .. => .notFound
  | e => .other (toString e)

/-- The answer of an access to a file. -/
def attempt {α : Type} (access : IO α) : IO (Except Files.Fault α) := do
  try return .ok (← access) catch e => return .error (faultOf e)

/-- Converts a file on disk; answers the exit status. -/
def convertOnDisk (o : Options) : IO UInt32 := do
  let started := begin o (← attempt (IO.FS.readBinFile o.input))
  IO.eprint (lines o.level started.records)
  match started.value with
  | .error report =>
    IO.eprint report.text
    return 1
  | .ok c =>
    let written ← attempt (IO.FS.writeBinFile c.job.target c.job.content)
    let ended := conclude o c written
    IO.eprint (lines o.level ended.records)
    match ended.value with
    | .error report =>
      IO.eprint report.text
      return 1
    | .ok () => return 0

def main (words : List String) : IO UInt32 := do
  match Options.parse words with
  | .ok o => convertOnDisk o
  | .error stop =>
    let outcome := stop.outcome {}
    IO.print outcome.out
    IO.eprint outcome.err
    return outcome.status
