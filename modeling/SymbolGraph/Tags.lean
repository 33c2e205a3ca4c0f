/-
One-byte tags: the closed sets of values that a graph file stores in a
single byte. A tag beyond the last known value reads as `unknown` instead
of failing, so a file from a newer writer stays readable; what is written
for such a value is the tag of `unknown`.
-/
namespace SymbolGraph

-- ================================================== debug info format

/-- The debug information format that a graph was extracted from. -/
inductive DebugFormat where
  | pdb | dwarf | unknown
deriving DecidableEq, Inhabited

namespace DebugFormat

def tag : DebugFormat → UInt8
  | pdb => 0
  | dwarf => 1
  | unknown => 2

def ofTag (t : UInt8) : DebugFormat :=
  if t = 0 then pdb else if t = 1 then dwarf else unknown

end DebugFormat

-- ======================================================= architecture

/-- The instruction set of the file that a graph was extracted from. -/
inductive Architecture where
  | x86 | x86_64 | arm32 | arm64 | unknown
deriving DecidableEq, Inhabited

namespace Architecture

def tag : Architecture → UInt8
  | x86 => 0
  | x86_64 => 1
  | arm32 => 2
  | arm64 => 3
  | unknown => 4

def ofTag (t : UInt8) : Architecture :=
  if t = 0 then x86 else if t = 1 then x86_64 else if t = 2 then arm32
  else if t = 3 then arm64 else unknown

end Architecture

-- ========================================================== type kind

/-- The kinds of type that a graph tells apart. -/
inductive TypeKind where
  | base | struct | cls | union | interface | enum | pointer | typedef
  | array | unknown
deriving DecidableEq, Inhabited

namespace TypeKind

def tag : TypeKind → UInt8
  | base => 0
  | struct => 1
  | cls => 2
  | union => 3
  | interface => 4
  | enum => 5
  | pointer => 6
  | typedef => 7
  | array => 8
  | unknown => 9

def ofTag (t : UInt8) : TypeKind :=
  if t = 0 then base else if t = 1 then struct else if t = 2 then cls
  else if t = 3 then union else if t = 4 then interface
  else if t = 5 then enum else if t = 6 then pointer
  else if t = 7 then typedef else if t = 8 then array else unknown

/-- The word for a kind in log lines. -/
def label : TypeKind → String
  | base => "base"
  | struct => "struct"
  | cls => "class"
  | union => "union"
  | interface => "interface"
  | enum => "enum"
  | pointer => "pointer"
  | typedef => "typedef"
  | array => "array"
  | unknown => "unknown"

end TypeKind

-- ================================================= calling convention

/-- How a function takes its arguments. -/
inductive CallingConvention where
  | nearC | nearFast | nearStd | nearSys | thiscall | clrCall | unknown
deriving DecidableEq, Inhabited

namespace CallingConvention

def tag : CallingConvention → UInt8
  | nearC => 0
  | nearFast => 1
  | nearStd => 2
  | nearSys => 3
  | thiscall => 4
  | clrCall => 5
  | unknown => 6

def ofTag (t : UInt8) : CallingConvention :=
  if t = 0 then nearC else if t = 1 then nearFast else if t = 2 then nearStd
  else if t = 3 then nearSys else if t = 4 then thiscall
  else if t = 5 then clrCall else unknown

end CallingConvention

-- ==================================================== written and read

theorem DebugFormat.ofTag_tag (x : DebugFormat) : ofTag x.tag = x := by
  cases x <;> rfl

theorem Architecture.ofTag_tag (x : Architecture) : ofTag x.tag = x := by
  cases x <;> rfl

theorem TypeKind.ofTag_tag (x : TypeKind) : ofTag x.tag = x := by
  cases x <;> rfl

theorem CallingConvention.ofTag_tag (x : CallingConvention) :
    ofTag x.tag = x := by
  cases x <;> rfl

end SymbolGraph
