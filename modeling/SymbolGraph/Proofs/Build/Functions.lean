/-
Functions. A function that is stored is left alone, with the reader and all
types. Any other function is stored with one entry for each place of its
signature: the return type, the receiver if there is one, and the declared
arguments but for a first one without a usable type
(`Builder.Reachable.function_entries`).

An entry is the id that is answered for the handle in its place, and 0 if there
is none or its type cannot be built (`Builder.entry`). Each is made when those
before it are made, so the types that are left are those of the handles, built
one after another (`entries_value`), and the entry in a place is that of its own
handle and of no other (`getElem?_entries`).
-/
import SymbolGraph.Proofs.Build.Frame

namespace SymbolGraph

variable {σ H ε : Type}

-- ============================================================== places

/-- The handle of an argument, if it has one. -/
def Argument.handle? : Argument H → Option H
  | .typed h => some h
  | .untyped h => h

/-- The declared arguments that get an entry, which are all but a first one
without a usable type. -/
def Argument.kept : List (Argument H) → List (Argument H)
  | .untyped _ :: rest => rest
  | arguments => arguments

/-- The handles for the entries of the arguments: the receiver if there is one,
then the declared arguments. -/
def FunctionNode.argumentHandles (node : FunctionNode H) : List (Option H) :=
  node.receiver.toList.map some
    ++ (Argument.kept node.arguments).map Argument.handle?

-- ============================================================= entries

/-- The entry for a handle: the id that is answered, and 0 if there is no
handle or no answer. -/
def Builder.entry (source : Source σ H ε) : Option H → Build.Step σ UInt32
  | none => return 0
  | some h => do
    match ← Builder.type source h with
    | .ok id => return id
    | .error _ => return 0

/-- The entries for handles, one after another. -/
def Builder.entries (source : Source σ H ε) :
    List (Option H) → Build.Step σ (List UInt32)
  | [] => return []
  | handle :: rest => do
    let first ← Builder.entry source handle
    return first :: (← Builder.entries source rest)

namespace Build

theorem argumentPlaces_false (arguments : List (Argument H)) :
    argumentPlaces false arguments = arguments.map Argument.handle? := by
  induction arguments with
  | nil => rfl
  | cons argument rest ih =>
      cases argument with
      | typed h => exact congrArg _ ih
      | untyped h => exact congrArg _ ih

/-- A first argument without a usable type has no place. -/
theorem argumentPlaces_true (arguments : List (Argument H)) :
    argumentPlaces true arguments
      = (Argument.kept arguments).map Argument.handle? := by
  cases arguments with
  | nil => rfl
  | cons argument rest =>
      have hrest := argumentPlaces_false rest
      cases argument with
      | typed h => exact congrArg _ hrest
      | untyped h => exact hrest

theorem places_eq (node : FunctionNode H) :
    node.places = node.returnType :: node.argumentHandles := by
  unfold FunctionNode.places FunctionNode.argumentHandles
  rw [argumentPlaces_true, List.singleton_append]

section Entries

variable (source : Source σ H ε)

theorem entry_value (h : H) (s : Builder × σ) :
    (Builder.entry source (some h) s).value
      = ((Builder.type source h s).value.1.toOption.getD 0,
          (Builder.type source h s).value.2) := by
  simp only [Builder.entry, step_bind]
  cases (Builder.type source h s).value.1 <;> rfl

/-- Making entries builds the handles one after another, and fills the places
with the answers. -/
theorem entries_value (handles : List (Option H)) (s : Builder × σ) :
    (Builder.entries source handles s).value
      = (signatureIds handles ((Builder.types source (handles.filterMap id)
            s).value.1.map Except.toOption),
          (Builder.types source (handles.filterMap id) s).value.2) := by
  induction handles generalizing s with
  | nil => rfl
  | cons handle rest ih =>
      cases handle with
      | none =>
          simp only [Builder.entries, Builder.entry, step_bind, step_pure, ih]
          rfl
      | some h =>
          simp only [Builder.entries, step_bind, step_pure, ih, entry_value]
          rfl

theorem length_entries (handles : List (Option H)) (s : Builder × σ) :
    (Builder.entries source handles s).value.1.length = handles.length := by
  induction handles generalizing s with
  | nil => rfl
  | cons handle rest ih =>
      simp only [Builder.entries, step_bind, step_pure, List.length_cons, ih]

/-- The entry in a place is that of the handle in this place, asked for when the
entries before it have been made. -/
theorem getElem?_entries (handles : List (Option H)) (s : Builder × σ)
    (i : Nat) :
    (Builder.entries source handles s).value.1[i]?
      = handles[i]?.map fun handle => (Builder.entry source handle
          (Builder.entries source (handles.take i) s).value.2).value.1 := by
  induction handles generalizing s i with
  | nil => rfl
  | cons handle rest ih =>
      cases i with
      | zero => rfl
      | succ i =>
          simp only [Builder.entries, step_bind, step_pure, List.take_succ_cons,
            List.getElem?_cons_succ, ih]

end Entries

end Build

-- =========================================================== functions

open Build

/-- The symbol of a function with these entries. -/
def FunctionNode.symbol (node : FunctionNode H) (returnType : UInt32)
    (argumentTypes : List UInt32) : FunctionSymbol :=
  { id := node.id, name := node.name, returnType, argumentTypes,
    argumentCount := count32 argumentTypes.length,
    convention := node.convention, address := node.address }

section Functions

variable {b : Builder}

/-- A function that is not stored is put together from its entries, on the
builder that is left when the handles of its signature are built. -/
theorem Builder.function_value (source : Source σ H ε)
    (hidle : b.inProgress = []) (st : σ) {node : FunctionNode H}
    (hnew : b.graph.functions.contains node.id = false) :
    let returned := (Builder.entry source node.returnType (b, st)).value
    let arguments :=
      (Builder.entries source node.argumentHandles returned.2).value
    let built := (Builder.types source
      ((node.returnType :: node.argumentHandles).filterMap id) (b, st)).value
    arguments.2 = built.2
      ∧ (Builder.function source node (b, st)).value
        = (node.id, (built.2.1.storeFunction node.id
            (node.symbol returned.1 arguments.1), built.2.2)) := by
  intro returned arguments built
  obtain ⟨answers, inner, hbuilds, hvalue⟩ :=
    function_builds source (s := (b, st)) hidle hnew
  rw [places_eq] at hbuilds
  -- the handles are built as they are one after another
  obtain ⟨rfl, rfl⟩ := hbuilds.unique (types_builds source _ (b, st) hidle)
  have hentries : (returned.1 :: arguments.1, arguments.2)
      = (signatureIds (node.returnType :: node.argumentHandles)
          (built.1.map Except.toOption), built.2) :=
    entries_value source (node.returnType :: node.argumentHandles) (b, st)
  obtain ⟨hids, hstate⟩ := Prod.mk.inj hentries
  refine ⟨hstate, ?_⟩
  rw [hvalue]
  unfold functionOf
  rw [places_eq, ← hids]
  rfl

/-- On any builder that calls lead to, whatever the reader. A call for a
function that is stored changes nothing, and the reader is not asked to describe
anything. Any other function is stored under its id and leaves the other ones
alone; the types are those that are left when the handles of the return type, of
the receiver and of the arguments that are kept are built, in this order. There
is one entry for each of these handles, made when the entries before it are
made. -/
theorem Builder.Reachable.function_entries (hb : b.Reachable)
    (source : Source σ H ε) (st : σ) (node : FunctionNode H) :
    let run := (Builder.function source node (b, st)).value
    run.1 = node.id
      ∧ (b.graph.functions.contains node.id = true →
        run.2 = (b, st)
        ∧ ∀ events,
          (Builder.function source.recording node (b, (st, events))).value
            = (node.id, (b, (st, events))))
      ∧ (b.graph.functions.contains node.id = false →
        let returned := (Builder.entry source node.returnType (b, st)).value
        let arguments :=
          (Builder.entries source node.argumentHandles returned.2).value
        let built := (Builder.types source
          ((node.returnType :: node.argumentHandles).filterMap id)
          (b, st)).value
        run.2 = (built.2.1.storeFunction node.id
            (node.symbol returned.1 arguments.1), built.2.2)
          ∧ built.2.1.graph.functions = b.graph.functions
          ∧ arguments.1.length = node.argumentHandles.length
          ∧ ∀ i, arguments.1[i]? = node.argumentHandles[i]?.map fun handle =>
            (Builder.entry source handle (Builder.entries source
              (node.argumentHandles.take i) returned.2).value.2).value.1) := by
  intro run
  obtain ⟨hidle, -⟩ := hb.invariant
  cases hstored : b.graph.functions.contains node.id with
  | true =>
      have hrun : run = (node.id, (b, st)) :=
        function_value_of_contains source hstored
      have hrecording : ∀ events,
          (Builder.function source.recording node (b, (st, events))).value
            = (node.id, (b, (st, events))) :=
        fun events => function_value_of_contains source.recording hstored
      refine ⟨congrArg Prod.fst hrun, fun _ => ⟨congrArg Prod.snd hrun,
        hrecording⟩, nofun⟩
  | false =>
      obtain ⟨-, hrun⟩ := function_value source hidle st hstored
      have hbuilds := types_builds source
        ((node.returnType :: node.argumentHandles).filterMap id) (b, st) hidle
      refine ⟨congrArg Prod.fst hrun, nofun, fun _ => ⟨congrArg Prod.snd hrun,
        ?_, length_entries source _ _, getElem?_entries source _ _⟩⟩
      rw [hbuilds.graph_eq]

end Functions

/-- A method of the tangled reader, with a return type that cannot be described,
a first argument without a type, and arguments of all three forms behind it. -/
theorem function_entries_tangledSource :
    let b := Builder.new {}
    let node : FunctionNode (Fin 3) := {
      id := 4, name := "tie", returnType := some 2, receiver := some 0,
      arguments := [.untyped (some 2), .typed 1, .untyped none, .typed 2],
      convention := .thiscall, address := 16 }
    let run := (Builder.function tangledSource node (b, 0)).value
    let again := (Builder.function tangledSource.recording node
      (run.2.1, (run.2.2, []))).value
    b.Reachable
      ∧ b.graph.functions.contains node.id = false
      ∧ run.2.1.graph.functions.get? 4 = some (node.symbol 0 [1, 2, 0, 0])
      ∧ run.2.1.graph.types.keys = [1, 2]
      ∧ run.2.1.graph.functions.contains node.id = true
      ∧ again = (4, (run.2.1, (run.2.2, []))) := by
  intro b node run again
  have hreachable : b.Reachable := .new {}
  have hnew : b.graph.functions.contains node.id = false := by rfl
  obtain ⟨-, -, hbuilt⟩ := hreachable.function_entries tangledSource 0 node
  obtain ⟨hrun, -⟩ := hbuilt hnew
  have hstored : run.2.1.graph.functions.contains node.id = true := by rfl
  have hafter : run.2.1.Reachable := .function tangledSource node 0 hreachable
  obtain ⟨-, hsame, -⟩ := hafter.function_entries tangledSource run.2.2 node
  refine ⟨hreachable, hnew, ?_, by rfl, hstored, (hsame hstored).2 []⟩
  rw [hrun]
  rfl

end SymbolGraph
