/-
What a reader of a debug format says about its types. A reader describes
one type at a time, as a node whose links to other types are handles of
its own; the builder turns nodes into symbols.
-/
import SymbolGraph.Build.BaseName
import SymbolGraph.Logged
import SymbolGraph.Symbol

namespace SymbolGraph

/-- A data member as a reader reports it. -/
structure FieldNode (H : Type) where
  id : UInt32
  name : String
  offset : Int32
  type : H

/-- What kind of type a node describes, and its links. -/
inductive Shape (H : Type) where
  | base (primitive : Primitive)
  /-- A struct, class, union or interface. A missing field is one that
  could not be read; it becomes a placeholder. -/
  | aggregate (kind : TypeKind) (fields : List (Option (FieldNode H)))
  | enum
  | pointer
  /-- No target stands for an alias of a function signature. -/
  | typedef (target : Option H)
  | array

/-- One type as a reader reports it. -/
structure Node (H : Type) where
  name : Option String
  /-- Size in bytes. -/
  length : UInt64
  shape : Shape H

inductive Argument (H : Type) where
  | typed (type : H)
  /-- An argument without a usable type, such as a variadic marker. -/
  | untyped (type : Option H)

/-- One function as a reader reports it. -/
structure FunctionNode (H : Type) where
  id : UInt32
  name : String
  returnType : Option H
  /-- The receiver's pointer type, for non-static member functions. -/
  receiver : Option H
  arguments : List (Argument H)
  convention : CallingConvention
  address : UInt64

/-- A reader's type graph. Describing a type may change the reader's
state `σ`; finding its id may not. -/
structure Source (σ H ε : Type) where
  /-- The stable id of the type behind a handle, qualifiers and forward
  references already resolved; none if no id can be read. -/
  typeId : H → Logged (Option UInt32)
  describe : H → σ → Logged (Except ε (Node H) × σ)
  /-- The text of a failed description. -/
  message : ε → String

end SymbolGraph
