/-
The symbols of a graph: types with their fields, and functions. Ids are
opaque numbers given by whoever built the graph; `0` always means "no
reference". A type id and a function id may share a number.
-/
import SymbolGraph.Tags

namespace SymbolGraph

-- ============================================================ symbols

/-- A data member of a type. A field with id 0 is a placeholder for a
member that could not be extracted: it keeps the positions and the count
of the other fields intact. -/
structure Field where
  id : UInt32 := 0
  name : String := ""
  typeId : UInt32 := 0
  /-- Byte offset in the owning type. -/
  offset : Int32 := 0
  inAnonymousUnion : Bool := false
  /-- Only meaningful in an anonymous union. -/
  unionId : UInt32 := 0
deriving DecidableEq, Inhabited

/-- A type of the graph. The members stand in the order in which the
binary format writes them. -/
structure TypeSymbol where
  id : UInt32 := 0
  name : String := ""
  kind : TypeKind := .unknown
  /-- Size in bytes. -/
  length : UInt64 := 0
  fieldCount : UInt32 := 0
  /-- In declaration order. -/
  fields : List Field := []
  /-- The aliased type of a typedef; 0 for everything else, and for a
  typedef of a function signature. -/
  aliasOf : UInt32 := 0
deriving DecidableEq, Inhabited

structure FunctionSymbol where
  id : UInt32 := 0
  name : String := ""
  returnType : UInt32 := 0
  argumentCount : UInt32 := 0
  /-- The receiver of a member function comes first. -/
  argumentTypes : List UInt32 := []
  convention : CallingConvention := .unknown
  /-- Relative to the load address; 0 if unknown. -/
  address : UInt64 := 0
deriving DecidableEq, Inhabited

/-- The field that stands in for a member that could not be read. -/
def Field.placeholder : Field := {}

def Field.isPlaceholder (f : Field) : Bool := f.id == 0

-- ========================================================= references

/-- Every type id that a type points at, zeros included: the types of
its fields in order, then the aliased type. -/
def TypeSymbol.references (t : TypeSymbol) : List UInt32 :=
  t.fields.map Field.typeId ++ [t.aliasOf]

/-- The return type, then the argument types, zeros included. -/
def FunctionSymbol.references (f : FunctionSymbol) : List UInt32 :=
  f.returnType :: f.argumentTypes

/-- The same type with every reference replaced. -/
def TypeSymbol.mapReferences (r : UInt32 → UInt32) (t : TypeSymbol) :
    TypeSymbol :=
  { t with
    fields := t.fields.map fun f => { f with typeId := r f.typeId }
    aliasOf := r t.aliasOf }

/-- The same function with every reference replaced. -/
def FunctionSymbol.mapReferences (r : UInt32 → UInt32) (f : FunctionSymbol) :
    FunctionSymbol :=
  { f with
    returnType := r f.returnType
    argumentTypes := f.argumentTypes.map r }

theorem TypeSymbol.references_mapReferences (r : UInt32 → UInt32)
    (t : TypeSymbol) :
    (t.mapReferences r).references = t.references.map r := by
  simp [references, mapReferences]

theorem FunctionSymbol.references_mapReferences (r : UInt32 → UInt32)
    (f : FunctionSymbol) :
    (f.mapReferences r).references = f.references.map r := by
  simp [references, mapReferences]

-- ================================================ structural equality

/-- What decides whether two fields are the same: everything but the
id. -/
structure FieldContent where
  name : String
  typeId : UInt32
  offset : Int32
  inAnonymousUnion : Bool
  unionId : UInt32
deriving DecidableEq

/-- What decides whether two types are the same: everything but the id,
the kind and the ids of the fields. -/
structure Content where
  length : UInt64
  fieldCount : UInt32
  name : String
  fields : List FieldContent
  aliasOf : UInt32
deriving DecidableEq

def Field.content (f : Field) : FieldContent :=
  { name := f.name, typeId := f.typeId, offset := f.offset,
    inAnonymousUnion := f.inAnonymousUnion, unionId := f.unionId }

def TypeSymbol.content (t : TypeSymbol) : Content :=
  { length := t.length, fieldCount := t.fieldCount, name := t.name,
    fields := t.fields.map Field.content, aliasOf := t.aliasOf }

/-- The two fields agree on everything but their ids. -/
def Field.sameContent (a b : Field) : Bool := a.content = b.content

/-- The two types agree on length, field count, name, fields and aliased
type. Their kinds and the ids of their fields take no part. -/
def TypeSymbol.sameContent (a b : TypeSymbol) : Bool := a.content = b.content

end SymbolGraph
