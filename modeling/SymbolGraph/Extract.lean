/-
The extraction of a graph from a file with debug information. The content
of the file decides what it is read as: a program database begins with a
signature, and everything else is taken for an object file. A file that is
called a program database must be one.
-/
import SymbolGraph.Dwarf.Extraction
import SymbolGraph.Files.Tree
import SymbolGraph.Object.Parse
import SymbolGraph.Pdb.Extraction

namespace SymbolGraph

/-- What a file is read as. -/
inductive Reading where
  /-- What the file itself decides. -/
  | auto
  | dwarf
  | pdb

/-- Why no graph could be extracted from a file. -/
inductive ExtractError where
  | unreadable (path : String) (fault : Files.Fault)
  | unsupported (path : String)
  | object (fault : Object.Fault)
  | dwarf (fault : Dwarf.Fault)
  | database (fault : Pdb.Fault)

def ExtractError.message : ExtractError → String
  | unreadable path fault => s!"failed to read {path}: {fault.message}"
  | unsupported path =>
    s!"unsupported debug info source: {path} is not an MSF 7.00 program database"
  | object fault => s!"object file: {fault.message}"
  | dwarf fault => s!"DWARF: {fault.message}"
  | database fault => s!"PDB: {fault.message}"

/-- What brought the error about, from the outside in; the text of the error
is not repeated. -/
def ExtractError.causes : ExtractError → List String
  | unreadable _ fault => [fault.message]
  | unsupported _ => []
  | object fault => [fault.message]
  | dwarf fault => [fault.message]
  | database .missingPage => [Pdb.Fault.missingPage.message, Pdb.shortRead]
  | database fault => [fault.message]

-- ============================================================= loading

/-- The octets of a file. A folder can be opened, but not read. -/
def readWhole (files : Files.Tree) (path : String) :
    Except Files.Fault ByteArray :=
  match files.read path with
  | .error .isFolder => .error .noDevice
  | answer => answer

/-- The octets of a file that debug information is read from. -/
def loadFile (path : String) (content : Except Files.Fault ByteArray) :
    Logged (Except ExtractError ByteArray) := do
  Logged.debug s!"load file: {path}"
  match content with
  | .error fault => return .error (.unreadable path fault)
  | .ok data =>
    Logged.debug s!"file load success, size: {data.size} bytes"
    return .ok data

-- ========================================================= recognition

/-- The octets with which a program database begins. -/
def databaseSignature : List UInt8 := Bytes.ascii "Microsoft C/C++ MSF 7.00"

/-- Is a path that of a program database, by its extension? -/
def namesDatabase (path : String) : Bool :=
  (Path.extension? path).any fun e => e.toList.map Char.toLower == "pdb".toList

-- ========================================================== extraction

/-- Reads the debug information of an object file. -/
def extractObject (data : ByteArray) : Logged (Except ExtractError Graph) := do
  match Object.parse data with
  | .error fault => return .error (.object fault)
  | .ok image => return (← Dwarf.graphOf data image).mapError ExtractError.dwarf

/-- Reads a program database. -/
def extractDatabase (data : ByteArray) :
    Logged (Except ExtractError Graph) := do
  return (← Pdb.graphOf data).mapError ExtractError.database

/-- The graph of the content of a file. -/
def extractContent (reading : Reading) (path : String) (data : ByteArray) :
    Logged (Except ExtractError Graph) := do
  match reading with
  | .dwarf => extractObject data
  | .pdb => extractDatabase data
  | .auto =>
    let signed := Bytes.standsAt data 0 databaseSignature
    if signed then
      Logged.info s!"reading PDB {path}"
      extractDatabase data
    else if namesDatabase path then return .error (.unsupported path)
    else
      Logged.info s!"reading DWARF from {path}"
      extractObject data

/-- The graph of a file, given what reading it came to. -/
def extractFrom (reading : Reading) (path : String)
    (content : Except Files.Fault ByteArray) :
    Logged (Except ExtractError Graph) := do
  match ← loadFile path content with
  | .error e => return .error e
  | .ok data => extractContent reading path data

/-- The graph of a file. -/
def extract (reading : Reading) (files : Files.Tree) (path : String) :
    Logged (Except ExtractError Graph) :=
  extractFrom reading path (readWhole files path)

end SymbolGraph
