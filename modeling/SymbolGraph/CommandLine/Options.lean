/-
The words of a command line. They are read from left to right, and the
first that decides the outcome does so: a request for the version or for
help, or a mistake.
-/
import SymbolGraph.Format
import SymbolGraph.Logged

namespace SymbolGraph.CommandLine

/-- What a conversion is to do. -/
structure Options where
  input : String
  /-- The path of the file to write, without its extension. -/
  output : Option String := none
  format : Format := .json
  /-- Refuse to write a graph that is unsound. -/
  strict : Bool := false
  quiet : Bool := false
  /-- How often more log records were asked for. -/
  verbosity : Nat := 0

/-- The least severe level of the log records that are shown. -/
def Options.level (o : Options) : Level :=
  if o.quiet then .warn
  else
    match o.verbosity with
    | 0 => .error
    | 1 => .info
    | 2 => .debug
    | _ => .trace

/-- Why there is nothing to convert. -/
inductive Stop where
  | version
  | help
  | misuse
deriving DecidableEq

-- ============================================================= options

/-- Options without a value. -/
inductive Flag where
  | strict | quiet | verbose | help | version

/-- Options with a value. -/
inductive Valued where
  | output | format

def Flag.ofLetter? (c : Char) : Option Flag :=
  if c = 'q' then some .quiet
  else if c = 'v' then some .verbose
  else if c = 'h' then some .help
  else if c = 'V' then some .version
  else none

def Flag.ofWord? (word : String) : Option Flag :=
  if word = "strict" then some .strict
  else if word = "quiet" then some .quiet
  else if word = "verbose" then some .verbose
  else if word = "help" then some .help
  else if word = "version" then some .version
  else none

def Valued.ofLetter? (c : Char) : Option Valued :=
  if c = 'o' then some .output else if c = 'f' then some .format else none

def Valued.ofWord? (word : String) : Option Valued :=
  if word = "output" then some .output
  else if word = "format" then some .format
  else none

-- ================================================================ words

/-- What has been read so far. -/
structure Given where
  input : Option String := none
  output : Option String := none
  format : Option Format := none
  strict : Bool := false
  quiet : Bool := false
  verbosity : Nat := 0

namespace Given

/-- Takes in a flag. Only the one for more log records may be repeated. -/
def addFlag (g : Given) : Flag → Except Stop Given
  | .strict => if g.strict then .error .misuse else .ok { g with strict := true }
  | .quiet => if g.quiet then .error .misuse else .ok { g with quiet := true }
  | .verbose => .ok { g with verbosity := g.verbosity + 1 }
  | .help => .error .help
  | .version => .error .version

/-- The format with a name; no other words for it are taken. -/
def formatNamed? (name : String) : Option Format :=
  [Format.binary, Format.json].find? fun f => f.name = name

/-- Takes in the value of an option, which must not have one yet. No path
is empty. -/
def addValue (g : Given) (value : String) : Valued → Except Stop Given
  | .output =>
    if g.output.isSome || value = "" then .error .misuse
    else .ok { g with output := some value }
  | .format =>
    match g.format, formatNamed? value with
    | none, some format => .ok { g with format := some format }
    | _, _ => .error .misuse

/-- Takes in the path of the input, which is not empty. -/
def addInput (g : Given) (path : String) : Except Stop Given :=
  if g.input.isSome || path = "" then .error .misuse
  else .ok { g with input := some path }

/-- A word behind two dashes; its value may follow an equals sign. -/
def addWord (g : Given) (word : List Char) :
    Except Stop (Given × Option Valued) := do
  let name := String.ofList (word.takeWhile (· ≠ '='))
  match Flag.ofWord? name, Valued.ofWord? name, word.dropWhile (· ≠ '=') with
  | some flag, _, [] => return (← g.addFlag flag, none)
  | none, some option, [] => return (g, some option)
  | none, some option, _ :: value =>
    return (← g.addValue (String.ofList value) option, none)
  | _, _, _ => throw .misuse

/-- Letters behind one dash. What follows the letter of an option with a
value is the value, with or without an equals sign. -/
def addLetters (g : Given) : List Char → Except Stop (Given × Option Valued)
  | [] => return (g, none)
  | c :: rest => do
    match Flag.ofLetter? c, Valued.ofLetter? c, rest with
    | some flag, _, rest => (← g.addFlag flag).addLetters rest
    | none, some option, [] => return (g, some option)
    | none, some option, '=' :: value =>
      return (← g.addValue (String.ofList value) option, none)
    | none, some option, value =>
      return (← g.addValue (String.ofList value) option, none)
    | none, none, _ => throw .misuse

/-- Operands behind two lone dashes. -/
def addOperands (g : Given) (words : List String) : Except Stop Given :=
  words.foldlM addInput g

/-- Reads words. `pending` is the option whose value comes next. -/
def addWords (g : Given) : Option Valued → List String → Except Stop Given
  | none, [] => return g
  | some _, [] => throw .misuse
  | pending, word :: rest => do
    match pending, word.toList with
    | some _, '-' :: _ :: _ => throw .misuse
    | some option, _ => (← g.addValue word option).addWords none rest
    | none, ['-', '-'] => g.addOperands rest
    | none, '-' :: '-' :: long =>
      let (g, pending) ← g.addWord long
      g.addWords pending rest
    | none, '-' :: c :: letters =>
      let (g, pending) ← g.addLetters (c :: letters)
      g.addWords pending rest
    | none, _ => (← g.addInput word).addWords none rest

/-- The options, if an input was given. -/
def options (g : Given) : Except Stop Options :=
  match g.input with
  | none => .error .misuse
  | some input => .ok {
      input, output := g.output, format := g.format.getD .json
      strict := g.strict, quiet := g.quiet, verbosity := g.verbosity }

end Given

/-- Reads the words of a command line. -/
def Options.parse (words : List String) : Except Stop Options := do
  (← Given.addWords {} none words).options

end SymbolGraph.CommandLine
