/-
What a database calls for. Which types and functions are built does not depend
on the builder: the types of the records, the aliases among the global symbols,
and the procedures of the modules, up to the first fault (`calls`). So the
construction is a run of calls (`build_value`), and the graph of a database is
what this run stores (`graphOf_eq_built`).
-/
import SymbolGraph.Proofs.Build.Descriptions
import SymbolGraph.Proofs.Pdb.Handles

namespace SymbolGraph.Pdb

open Build

-- ================================================================= calls

/-- The stream of global symbols. -/
def globals (c : Container) : Except Fault ByteArray := do
  let header ← DebugHeader.ofContainer c
  match ← c.stream? header.globals with
  | some b => return b
  | none => throw .noGlobals

/-- The procedures among some symbols, with ids from an id on, and the id behind
them. -/
def procedureNodes (t : Types) (map : AddressMap) :
    UInt32 → List Symbol → List (FunctionNode Handle) × UInt32
  | id, [] => ([], id)
  | id, .procedure symbol :: rest =>
    let (nodes, next) := procedureNodes t map (id + 1) rest
    ((functionNode t map id symbol).value :: nodes, next)
  | id, _ :: rest => procedureNodes t map id rest

/-- The procedures of a module, and the id behind them, or why it is the last
module. -/
def moduleNodes (c : Container) (t : Types) (map : AddressMap) (id : UInt32)
    (m : ModuleEntry) : List (FunctionNode Handle) × Except Fault UInt32 :=
  match c.stream? m.stream with
  | .error _ => ([], .ok id)
  | .ok none => ([], .ok id)
  | .ok (some b) =>
    match m.symbolOctets b with
    | .error fault => ([], .error fault)
    | .ok octets =>
      let (nodes, next) := procedureNodes t map id (Symbol.list octets).1
      (nodes, match (Symbol.list octets).2 with
        | some fault => .error fault
        | none => .ok next)

/-- The procedures of some modules, up to the first fault. -/
def modulesNodes (c : Container) (t : Types) (map : AddressMap) :
    UInt32 → List ModuleEntry → List (FunctionNode Handle)
  | _, [] => []
  | id, m :: rest =>
    let (nodes, answer) := moduleNodes c t map id m
    match answer with
    | .error _ => nodes
    | .ok next => nodes ++ modulesNodes c t map next rest

/-- The functions of a database. -/
def functionNodes (c : Container) (t : Types) : List (FunctionNode Handle) :=
  match AddressMap.ofContainer c, DebugHeader.ofContainer c with
  | .ok map, .ok header =>
    match ModuleEntry.list header with
    | .ok (modules, _) => modulesNodes c t map 1 modules
    | .error _ => []
  | _, _ => []

def rootCalls (t : Types) : List (Builder.Call Handle) :=
  t.roots.map fun index => .type (.type index)

def aliasCalls (t : Types) (b : ByteArray) : List (Builder.Call Handle) :=
  (aliases t firstAlias (Symbol.list b).1).map fun p =>
    .type (.typedef p.1 p.2.name p.2.target)

/-- What a database calls for. -/
def calls (c : Container) (t : Types) : List (Builder.Call Handle) :=
  rootCalls t ++ match globals c with
    | .error _ => []
    | .ok b => aliasCalls t b ++ match (Symbol.list b).2 with
      | some _ => []
      | none => (functionNodes c t).map .function

-- ================================================================== runs

section Runs

variable (c : Container) (t : Types) (s : Builder × UInt32)

theorem forM_value {α : Type} (f : α → Building Unit)
    (call : α → Builder.Call Handle)
    (hcall : ∀ a s, (f a s).value.2
      = (Builder.call t.source (call a) s).value.2) (list : List α) :
    ((list.forM f) s).value.2
      = (Builder.calls t.source (list.map call) s).value.2 := by
  induction list generalizing s with
  | nil => rfl
  | cons a list ih =>
      show ((list.forM f) (f a s).value.2).value.2 = _
      rw [ih, hcall]
      rfl

theorem buildRoots_value :
    ((t.roots.forM (buildRoot t)) s).value.2
      = (Builder.calls t.source (rootCalls t) s).value.2 := by
  refine forM_value t s _ _ (fun index s => ?_) _
  unfold buildRoot
  simp only [step_bind]
  cases (Builder.type t.source (.type index) s).value.1 <;> rfl

theorem buildAliases_value (b : ByteArray) :
    (buildAliases t firstAlias (Symbol.list b).1 s).value.2
      = (Builder.calls t.source (aliasCalls t b) s).value.2 := by
  rw [buildAliases_eq]
  refine forM_value t s _ _ (fun p s => ?_) _
  unfold buildAlias
  simp only [step_bind]
  cases (Builder.type t.source (.typedef p.1 p.2.name p.2.target) s).value.1
    <;> rfl

theorem buildProcedures_value (map : AddressMap) (id : UInt32)
    (symbols : List Symbol) :
    (buildProcedures t map id symbols s).value
      = ((procedureNodes t map id symbols).2,
          (Builder.calls t.source
            ((procedureNodes t map id symbols).1.map .function) s).value.2) := by
  induction symbols generalizing id s with
  | nil => rfl
  | cons symbol rest ih =>
      cases symbol with
      | procedure symbol =>
          unfold buildProcedures procedureNodes
          simp only [step_bind, step_lift, ih]
          rfl
      | typeAlias | other => exact ih s id

theorem buildModule_value (map : AddressMap) (id : UInt32) (m : ModuleEntry) :
    (buildModule c t map id m s).value
      = ((moduleNodes c t map id m).2,
          (Builder.calls t.source
            ((moduleNodes c t map id m).1.map .function) s).value.2) := by
  unfold buildModule moduleNodes
  cases c.stream? m.stream with
  | error fault => rfl
  | ok stream =>
      cases stream with
      | none => rfl
      | some b =>
          dsimp only
          cases m.symbolOctets b with
          | error fault => rfl
          | ok octets =>
              dsimp only
              generalize Symbol.list octets = found
              obtain ⟨symbols, fault⟩ := found
              simp only [step_bind, buildProcedures_value]
              cases fault <;> rfl

theorem buildModules_value (map : AddressMap) (id : UInt32)
    (modules : List ModuleEntry) :
    (buildModules c t map id modules s).value.2
      = (Builder.calls t.source
          ((modulesNodes c t map id modules).map .function) s).value.2 := by
  induction modules generalizing id s with
  | nil => rfl
  | cons m rest ih =>
      unfold buildModules modulesNodes
      simp only [step_bind, buildModule_value]
      cases (moduleNodes c t map id m).2 with
      | error fault => rfl
      | ok next =>
          dsimp only
          rw [ih, List.map_append, Builder.calls_append]

theorem buildFunctions_value :
    (buildFunctions c t s).value.2
      = (Builder.calls t.source ((functionNodes c t).map .function)
          s).value.2 := by
  unfold buildFunctions functionNodes
  cases AddressMap.ofContainer c with
  | error fault => rfl
  | ok map =>
      cases DebugHeader.ofContainer c with
      | error fault => rfl
      | ok header =>
          dsimp only [bind, Except.bind]
          cases ModuleEntry.list header with
          | error fault => rfl
          | ok found =>
              obtain ⟨modules, fault⟩ := found
              rw [← buildModules_value]
              show ((buildModules c t map 1 modules >>= _) s).value.2 = _
              rw [step_bind]
              cases (buildModules c t map 1 modules s).value.1 <;> rfl

theorem buildGlobals_value :
    (buildGlobals c t s).value = match globals c with
      | .error fault => (.error fault, s)
      | .ok b => (match (Symbol.list b).2 with
          | some fault => .error fault
          | none => .ok (),
        (Builder.calls t.source (aliasCalls t b) s).value.2) := by
  show ((match globals c with
    | .error fault => return .error fault
    | .ok b => _ : Building (Except Fault Unit)) s).value = _
  cases globals c with
  | error fault => rfl
  | ok b =>
      dsimp only
      rw [← buildAliases_value]
      rfl

/-- A database does what it calls for. -/
theorem build_value :
    (build c t s).value.2
      = (Builder.calls t.source (calls c t) s).value.2 := by
  unfold build calls
  rw [Builder.calls_append, ← buildRoots_value]
  simp only [step_bind, buildGlobals_value]
  cases globals c with
  | error fault => rfl
  | ok b =>
      dsimp only
      rw [Builder.calls_append]
      cases (Symbol.list b).2 with
      | some fault => rfl
      | none => exact buildFunctions_value c t _

end Runs

-- ================================================================ graphs

/-- The header of the graph. -/
def header (c : Container) : Header :=
  { origin := .pdb, architecture := DebugHeader.architecture (machineOf c) }

/-- The graph that is built of a container and its types, up to a fault if there
is one. -/
def built (c : Container) (t : Types) : Graph :=
  ((build c t).run (.new (header c), 1)).value.2.1.graph

/-- What a database is read to is the graph that is built. -/
theorem graphOf_eq_built {data : ByteArray} {c : Container} {t : Types}
    {g : Graph} (hload : load data = .ok (c, t))
    (hgraph : (graphOf data).value = .ok g) : g = built c t := by
  unfold graphOf at hgraph
  rw [hload] at hgraph
  dsimp only at hgraph
  rw [Logged.value_bind, Logged.value_bind] at hgraph
  unfold built header
  generalize ((build c t).run _).value = run at hgraph ⊢
  obtain ⟨answer, builder, next⟩ := run
  cases answer with
  | error fault => cases hgraph
  | ok _ => exact (Except.ok.inj hgraph).symm

end SymbolGraph.Pdb
