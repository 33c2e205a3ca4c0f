/-
What is shown to the user: log records as lines, and the report of a
failure with its causes. Each cause stands on a line of its own, numbered
if there are several; further lines of one cause are indented as deeply.
-/
import SymbolGraph.Logged
import SymbolGraph.Text.Numeral

namespace SymbolGraph.CommandLine

-- ================================================================ logs

/-- A log record as a line. -/
def lineOf (r : Record) : String :=
  let name := r.level.name
  let fill := String.ofList (List.replicate (5 - name.length) ' ')
  "[" ++ name ++ fill ++ "] " ++ r.text ++ "\n"

/-- The lines of the records that are shown up to a level. -/
def lines (limit : Level) (records : List Record) : String :=
  String.join ((records.filter fun r => r.level.shownAt limit).map lineOf)

-- ============================================================= reports

/-- A failure and what brought it about, from the outside in. -/
structure Report where
  summary : String
  causes : List String := []

namespace Report

/-- A text with further lines indented. -/
def indented (depth : Nat) (text : String) : String :=
  ("\n" ++ String.ofList (List.replicate depth ' ')).intercalate
    (text.splitOn "\n")

/-- A cause with its number. -/
def numbered (cause : String × Nat) : String :=
  let (text, number) := cause
  Text.padLeft 5 ' ' (toString number) ++ ": " ++ indented 7 text ++ "\n"

def causeLines : List String → String
  | [] => ""
  | [cause] => "\n\nCaused by:\n    " ++ indented 4 cause ++ "\n"
  | causes =>
    "\n\nCaused by:\n" ++ String.join (causes.zipIdx.map numbered)

/-- The report as text. -/
def text (r : Report) : String :=
  let first := "Error: " ++ r.summary
  if r.causes.isEmpty then first ++ "\n" else first ++ causeLines r.causes

end Report

end SymbolGraph.CommandLine
