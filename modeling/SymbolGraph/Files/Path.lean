/-
Paths as texts. The parts of a path stand between slashes, and empty parts
mean nothing. A part of one dot stands for the folder that it is looked up
in, and a part of two dots for the folder above that. The name of a file is
the last part, and its extension what stands behind the last dot of the
name, unless that dot is the first character.
-/
namespace SymbolGraph.Path

-- =============================================================== parts

/-- What stands between the slashes of a text. -/
def split : List Char → List (List Char)
  | [] => [[]]
  | c :: rest =>
    if c = '/' then [] :: split rest else (split rest).modifyHead (c :: ·)

/-- The steps of a path, from where it starts. -/
def steps (path : String) : List String :=
  ((split path.toList).filter (· ≠ [])).map String.ofList

/-- The steps of a path that lead somewhere else. -/
def parts (path : String) : List String := (steps path).filter (· ≠ ".")

def isAbsolute (path : String) : Bool := path.toList.head? = some '/'

/-- Does a path ask for a folder? -/
def namesFolder (path : String) : Bool := path.toList.getLast? = some '/'

-- ================================================================ names

/-- A path cut before and within its last part. -/
structure Leaf where
  /-- Everything before the name. -/
  folder : List Char
  /-- The name up to its last dot. -/
  stem : List Char
  extension : Option (List Char)
deriving DecidableEq

/-- Drops slashes and single dots from the end of a path; the path is given
backwards. -/
def dropEnd : List Char → List Char
  | '/' :: rest => dropEnd rest
  | '.' :: '/' :: rest => dropEnd rest
  | path => path

/-- Cuts a name at its last dot. -/
def cut (name : List Char) : List Char × Option (List Char) :=
  let tail := name.reverse.takeWhile (· ≠ '.')
  match (name.reverse.dropWhile (· ≠ '.')) with
  | [] => (name, none)
  | [_] => (name, none)
  | _ :: stem => (stem.reverse, some tail.reverse)

/-- The name of a path, if it ends in one. -/
def leaf? (path : String) : Option Leaf :=
  let backwards := dropEnd path.toList.reverse
  let name := (backwards.takeWhile (· ≠ '/')).reverse
  let folder := (backwards.dropWhile (· ≠ '/')).reverse
  if name = [] ∨ name = ['.'] ∨ name = ['.', '.'] then none
  else
    let (stem, extension) := cut name
    some { folder, stem, extension }

/-- What stands behind the last dot of the name. -/
def extension? (path : String) : Option String := do
  let leaf ← leaf? path
  let extension ← leaf.extension
  return String.ofList extension

/-- The path without the extension of its name, and without the dot. -/
def dropExtension (path : String) : String :=
  match leaf? path with
  | none => path
  | some leaf => String.ofList (leaf.folder ++ leaf.stem)

end SymbolGraph.Path
