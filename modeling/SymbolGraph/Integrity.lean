/-
Referential integrity. A graph is sound when every reference other than 0
names a type of the graph and every type has as many fields as it
declares. Every defect is reported, functions before types, in key order;
the graph itself is never changed.
-/
import SymbolGraph.Graph
import SymbolGraph.Logged
import SymbolGraph.Text.Numeral

namespace SymbolGraph

/-- What can be wrong with a graph. -/
inductive Defect where
  | functionReference (symbol : FunctionSymbol) (target : UInt32)
  | typeReference (symbol : TypeSymbol) (target : UInt32)
  | fieldCount (symbol : TypeSymbol)

namespace Defect

/-- A wrong count loses no information, so it is only a warning. -/
def level : Defect → Level
  | functionReference .. => .error
  | typeReference .. => .error
  | fieldCount .. => .warn

def message : Defect → String
  | functionReference f target =>
    let id := Text.hex8 f.id.toNat
    let missing := Text.hex8 target.toNat
    s!"function {id} {f.name} references missing type {missing}"
  | typeReference t target =>
    let id := Text.hex8 t.id.toNat
    let missing := Text.hex8 target.toNat
    s!"type {id} {t.name} references missing type {missing}"
  | fieldCount t =>
    let id := Text.hex8 t.id.toNat
    let declared := t.fieldCount.toNat
    s!"type {id} {t.name} declares {declared} fields but has {t.fields.length}"

end Defect

namespace Graph

/-- Does a reference name no type although it is not 0? -/
def isDangling (g : Graph) (target : UInt32) : Bool :=
  target != 0 && !g.types.contains target

def functionDefects (g : Graph) (f : FunctionSymbol) : List Defect :=
  (f.references.filter g.isDangling).map (.functionReference f)

def typeDefects (g : Graph) (t : TypeSymbol) : List Defect :=
  (t.references.filter g.isDangling).map (.typeReference t)
    ++ if t.fieldCount.toNat = t.fields.length then [] else [.fieldCount t]

/-- Everything that is wrong with a graph, in the order of the report. -/
def defects (g : Graph) : List Defect :=
  g.functions.values.flatMap g.functionDefects
    ++ g.types.values.flatMap g.typeDefects

def isSound (g : Graph) : Bool := g.defects.isEmpty

/-- Says whether a graph is sound and reports each defect. -/
def verify (g : Graph) : Logged Bool :=
  ⟨g.isSound, g.defects.map fun d => ⟨d.level, d.message⟩⟩

end Graph

end SymbolGraph
