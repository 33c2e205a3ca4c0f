/-
A graph is read back from its JSON text (`decode_encode`). Every record is
an object that fills it (`Fills`), member by member in the order of the
keys. A table is an object in the order of its keys as texts; the reader
puts the entries back in the order of the ids, since the table of a list
does not depend on the order of the list. The keys are those of the table,
not the ids of the symbols, and so nothing is demanded of a graph.
-/
import Mathlib.Data.List.Sort
import SymbolGraph.Codec.Json.GraphText
import SymbolGraph.Loader
import SymbolGraph.Proofs.Codec.Json.Value
import SymbolGraph.Proofs.Table

namespace SymbolGraph.Json

variable {α : Type} {r : Reader α} {level : Nat}

-- ============================================================= records

/-- Items that are read one by one are read as a list. -/
theorem reads_array {printer : α → Printer}
    (h : ∀ a, Reads r (printer a (level + 1)) a) (l : List α) :
    Reads (listValue r) (array (l.map printer) level) l := by
  refine reads_list ?_
  rw [List.map_map, List.forall₂_map_left_iff, List.forall₂_same]
  exact fun a _ => h a

theorem reads_field (f : Field) (level : Nat) :
    Reads fieldValue (fieldPrinter f level) f := by
  refine (reads_record (q := {
    id := some f.id, name := some f.name, typeId := some f.typeId
    offset := some f.offset, inAnonymousUnion := some f.inAnonymousUnion
    unionId := some f.unionId }) "FieldSymbol" ?_ rfl).bind fun _ => rfl
  refine .member rfl rfl ((reads_u32 f.id).bind fun _ => rfl) ?_
  refine .member rfl rfl
    ((reads_truth f.inAnonymousUnion _).bind fun _ => rfl) ?_
  refine .member rfl rfl ((reads_text f.name).bind fun _ => rfl) ?_
  refine .member rfl rfl ((reads_i32 f.offset).bind fun _ => rfl) ?_
  refine .member rfl rfl ((reads_u32 f.typeId).bind fun _ => rfl) ?_
  refine .member rfl rfl ((reads_u32 f.unionId).bind fun _ => rfl) ?_
  exact .done _

theorem reads_type (t : TypeSymbol) (level : Nat) :
    Reads typeValue (typePrinter t level) t := by
  refine (reads_record (q := {
    id := some t.id, name := some t.name, kind := some t.kind.tag
    length := some t.length, fieldCount := some t.fieldCount
    fields := some t.fields, aliasOf := some t.aliasOf })
    "TypeSymbol" ?_ rfl).bind fun rest => ?_
  · have hfields : Reads (listValue fieldValue)
        (array (t.fields.map fieldPrinter) (level + 1)) t.fields :=
      reads_array (fun f => reads_field f _) t.fields
    refine .member rfl rfl ((reads_u32 t.fieldCount).bind fun _ => rfl) ?_
    refine .member rfl rfl (hfields.bind fun _ => rfl) ?_
    refine .member rfl rfl ((reads_u32 t.id).bind fun _ => rfl) ?_
    refine .member rfl rfl ((reads_u64 t.length).bind fun _ => rfl) ?_
    refine .member rfl rfl ((reads_text t.name).bind fun _ => rfl) ?_
    refine .member rfl rfl ((reads_u8 t.kind.tag).bind fun _ => rfl) ?_
    refine .member rfl rfl ((reads_u32 t.aliasOf).bind fun _ => rfl) ?_
    exact .done _
  · simp only [Option.getD_some, TypeKind.ofTag_tag]
    rfl

theorem reads_function (f : FunctionSymbol) (level : Nat) :
    Reads functionValue (functionPrinter f level) f := by
  refine (reads_record (q := {
    id := some f.id, name := some f.name, returnType := some f.returnType
    argumentCount := some f.argumentCount
    argumentTypes := some f.argumentTypes, convention := some f.convention.tag
    address := some f.address }) "FunctionSymbol" ?_ rfl).bind fun rest => ?_
  · have hargs : Reads (listValue u32Value)
        (array (f.argumentTypes.map fun a => number a.toNat) (level + 1))
        f.argumentTypes :=
      reads_array reads_u32 f.argumentTypes
    refine .member rfl rfl ((reads_u32 f.argumentCount).bind fun _ => rfl) ?_
    refine .member rfl rfl (hargs.bind fun _ => rfl) ?_
    refine .member rfl rfl ((reads_u8 f.convention.tag).bind fun _ => rfl) ?_
    refine .member rfl rfl ((reads_u32 f.id).bind fun _ => rfl) ?_
    refine .member rfl rfl ((reads_text f.name).bind fun _ => rfl) ?_
    refine .member rfl rfl ((reads_u32 f.returnType).bind fun _ => rfl) ?_
    refine .member rfl rfl ((reads_u64 f.address).bind fun _ => rfl) ?_
    exact .done _
  · simp only [Option.getD_some, CallingConvention.ofTag_tag]
    rfl

-- ============================================================== tables

/-- The entries of a table in the order in which they are printed. -/
def inTextOrder (t : Table α) : List (UInt32 × α) :=
  t.entries.mergeSort fun a b =>
    keyLe (decimal a.1.toNat) (decimal b.1.toNat)

theorem inTextOrder_perm (t : Table α) : (inTextOrder t).Perm t.entries :=
  List.mergeSort_perm _ _

/-- Sorting the printed members sorts the entries. -/
theorem tablePrinter_eq (printer : α → Printer) (t : Table α) :
    tablePrinter printer t = object
      ((inTextOrder t).map fun e => (decimal e.1.toNat, printer e.2)) := by
  have hsorted := List.map_mergeSort (l := t.entries)
    (f := fun e => (decimal e.1.toNat, printer e.2))
    (r := fun a b => keyLe (decimal a.1.toNat) (decimal b.1.toNat))
    (s := fun a b => keyLe a.1 b.1) fun _ _ _ _ => rfl
  exact congrArg object hsorted.symm

theorem reads_table {printer : α → Printer}
    (h : ∀ a, Reads r (printer a (level + 1)) a) (t : Table α) :
    Reads (idMapValue r) (tablePrinter printer t level) (inTextOrder t) := by
  rw [tablePrinter_eq]
  refine reads_idMap ?_
  rw [List.forall₂_map_left_iff, List.forall₂_same]
  exact fun e _ => ⟨rfl, h e.2⟩

theorem ofList_inTextOrder (t : Table α) : Table.ofList (inTextOrder t) = t :=
  Table.ofList_eq_of_perm (inTextOrder_perm t)

-- =============================================================== graphs

theorem reads_graph (g : Graph) (level : Nat) :
    Reads graphValue (graphPrinter g level) { g with format := none } := by
  refine (reads_record (q := {
    magic := some g.header.magic, origin := some g.header.origin.tag
    architecture := some g.header.architecture.tag
    types := some (inTextOrder g.types)
    functions := some (inTextOrder g.functions) })
    "Document" ?_ rfl).bind fun rest => ?_
  · have htypes : Reads (idMapValue typeValue)
        (tablePrinter typePrinter g.types (level + 1)) (inTextOrder g.types) :=
      reads_table (fun t => reads_type t _) g.types
    have hfunctions : Reads (idMapValue functionValue)
        (tablePrinter functionPrinter g.functions (level + 1))
        (inTextOrder g.functions) :=
      reads_table (fun f => reads_function f _) g.functions
    refine .member rfl rfl
      ((reads_u8 g.header.architecture.tag).bind fun _ => rfl) ?_
    refine .member rfl rfl (hfunctions.bind fun _ => rfl) ?_
    refine .member rfl rfl ((reads_u32 g.header.magic).bind fun _ => rfl) ?_
    refine .member rfl rfl ((reads_u8 g.header.origin.tag).bind fun _ => rfl) ?_
    refine .member rfl rfl (htypes.bind fun _ => rfl) ?_
    exact .done _
  · simp only [Option.getD_some, DebugFormat.ofTag_tag,
      Architecture.ofTag_tag, ofList_inTextOrder]
    rfl

/-- A graph comes back from its text, with no format selected, whatever its
magic. -/
theorem decode_encode (g : Graph) :
    decode (encode g) = .ok { g with format := none } := by
  have hbreak : Ended [0x0a] :=
    ended_cons rfl (by decide) (by decide) (by decide)
  unfold decode document encode
  rw [run_bind_ok ((reads_graph g 0).run_here hbreak)]
  rfl

/-- A loader takes the text of a graph for the graph, with no format
selected, if and only if the magic is right, and names the magic if not. -/
theorem decodeGraph_encode (g : Graph) :
    decodeGraph (encode g)
      = if g.header.magic = magic then .ok { g with format := none }
        else .error (.magic g.header.magic) := by
  unfold decodeGraph
  rw [decode_encode]
  dsimp only
  rw [ite_not]

end SymbolGraph.Json
