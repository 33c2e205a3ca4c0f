/-
Files in memory: the tree of folders and files that paths refer to, with
the faults that reading and writing can end in. A path is walked down from
the uppermost folder, or from the folder that one works in, and every step
but the last must lead to a folder.
-/
import SymbolGraph.Files.Path

namespace SymbolGraph

namespace Files

/-- Why a file cannot be read or written. -/
inductive Fault where
  | notFound
  | notFolder
  | isFolder
  | noDevice
  | tooLong
  /-- No path has a character zero in it. -/
  | zero
  /-- Any other, in the words of the system. -/
  | other (text : String)
deriving DecidableEq

def Fault.message : Fault → String
  | notFound => "No such file or directory (os error 2)"
  | notFolder => "Not a directory (os error 20)"
  | isFolder => "Is a directory (os error 21)"
  | noDevice => "No such device (os error 19)"
  | tooLong => "File name too long (os error 36)"
  | zero => "file name contained an unexpected NUL byte"
  | other text => text

-- ============================================================== places

/-- A place in the tree: the names from the top down. -/
abbrev Place := List String

/-- Where a step leads. There is nothing above the uppermost folder. -/
def Place.step (place : Place) (part : String) : Place :=
  if part = "." then place
  else if part = ".." then place.dropLast
  else place ++ [part]

/-- A name of more than 255 octets names nothing. -/
def Place.tooLong? (place : Place) : Option Fault :=
  if place.getLast?.any (255 < ·.utf8ByteSize) then some .tooLong else none

/-- Files and folders, and how they can be got at. The uppermost folder is
always there. -/
structure Tree where
  folders : List Place := []
  files : List (Place × ByteArray) := []
  /-- The folder that one works in. -/
  current : Place := []
  /-- Why a place is out of reach, for reading and for writing, whatever
  stands there: its name is too long, or there is no permission. -/
  barred : Place → Option Fault := Place.tooLong?

end Files

namespace Files.Tree

instance : Inhabited Tree := ⟨{}⟩

def hasFolder (t : Tree) (place : Place) : Bool :=
  place.isEmpty || t.folders.contains place

def hasFile (t : Tree) (place : Place) : Bool := (t.files.lookup place).isSome

-- ============================================================= look-up

/-- Where a path starts. -/
def origin (t : Tree) (path : String) : Place :=
  if Path.isAbsolute path then [] else t.current

/-- Walks from a place. Every step is taken from a folder. -/
def walk (t : Tree) : Place → List String → Except Fault Place
  | place, [] => .ok place
  | place, part :: rest =>
    if t.hasFile place then .error .notFolder
    else if !t.hasFolder place then .error .notFound
    else
      match t.barred (place.step part) with
      | some fault => .error fault
      | none => walk t (place.step part) rest

/-- The place that a path names, whether or not anything is there. A path
has fewer than 4096 octets. -/
def locate (t : Tree) (path : String) : Except Fault Place :=
  if path.toList.contains '\x00' then .error .zero
  else if path = "" then .error .notFound
  else if 4096 ≤ path.utf8ByteSize then .error .tooLong
  else t.walk (t.origin path) (Path.steps path)

/-- The octets of a file. -/
def read (t : Tree) (path : String) : Except Fault ByteArray := do
  let place ← t.locate path
  match t.files.lookup place with
  | some data =>
    if Path.namesFolder path then .error .notFolder else .ok data
  | none => .error (if t.hasFolder place then .isFolder else .notFound)

-- ============================================================= changes

/-- Puts a file in place of what was there; its folder must exist. -/
def putAt (t : Tree) (place : Place) (data : ByteArray) : Tree :=
  { t with files := (place, data) :: t.files.filter fun f => f.1 ≠ place }

/-- The place that a path can be written at, which is no folder. What is to
be written takes no part in that. -/
def opens (t : Tree) (path : String) : Except Fault Place := do
  let place ← t.locate path
  if t.hasFolder place || Path.namesFolder path then .error .isFolder
  else .ok place

/-- Writes a file, whose folder must exist. -/
def write (t : Tree) (path : String) (data : ByteArray) :
    Except Fault Tree :=
  (t.opens path).map fun place => t.putAt place data

/-- The place of a path, if all folders on the way to it are there. -/
def placeOf (t : Tree) (path : String) : Place :=
  (Path.parts path).foldl Place.step (t.origin path)

/-- The folders on the way to a place, the place itself included. -/
def waysTo (place : Place) : List Place :=
  (List.range place.length).map fun n => place.take (n + 1)

/-- Makes a folder at a place and every folder above it. -/
def makeFolderAt (t : Tree) (place : Place) : Tree :=
  let missing := (waysTo place).filter fun p => !t.hasFolder p
  { t with folders := t.folders ++ missing }

/-- Makes a folder and every folder above it. -/
def makeFolder (t : Tree) (path : String) : Tree :=
  t.makeFolderAt (t.placeOf path)

/-- Writes a file and makes the folders on the way to it. -/
def plant (t : Tree) (path : String) (data : ByteArray) : Tree :=
  let place := t.placeOf path
  (t.makeFolderAt place.dropLast).putAt place data

/-- Gives a file another path. -/
def rename (t : Tree) (path newPath : String) : Tree :=
  let place := t.placeOf path
  match t.files.lookup place with
  | none => t
  | some data =>
    { t with files := t.files.filter fun f => f.1 ≠ place }.putAt
      (t.placeOf newPath) data

/-- The path of a place. -/
def pathOf (place : Place) : String := "/".intercalate place

/-- The paths of all files below the current folder, in text order. -/
def paths (t : Tree) : List String :=
  let below := t.files.filter fun f => t.current.isPrefixOf f.1
  (below.map fun f => pathOf (f.1.drop t.current.length)).mergeSort
    fun a b => !(b < a)

end Files.Tree

end SymbolGraph
