/-
The argument types of functions. The parameters that are gathered from the
children of an entry and the arguments that the builder enters are put together
here: a stored function has one entry for each of its parameters, in the order
of their declaration, but for a first one without a type that is no receiver
(`graphOf_argumentTypes`). So the entries say which parameter they are for only
as long as the first of them has a type.
-/
import SymbolGraph.Proofs.Dwarf.Functions

namespace SymbolGraph.Dwarf.Unit

variable {u : Unit} {e : Entry} {id : UInt32}

/-- The handles of a function are the types of the parameters that get an
entry. -/
theorem argumentHandles_of_functionNode {machine : Machine} {name : String}
    {node : FunctionNode Nat}
    (h : (u.functionNode machine e id name).run.value = .ok node) :
    (u.children e.offset).2 = none
      ∧ node.argumentHandles
        = (entered (e.reference? Attr.objectPointer).value
            ((u.children e.offset).1.filter isParameter)).map parameterType := by
  obtain ⟨_, found, _, -, hfound, -, rfl⟩ := functionNode_eq_ok_iff.1 h
  obtain ⟨-, hchildren, -, rfl⟩ := parameters_eq_ok_iff.1 hfound
  exact ⟨hchildren, handles_gathered _ _⟩

/-- The entry of a parameter: the id of its type, and 0 if it has no type in its
unit, or one that cannot be built. -/
structure Enters (u : Unit) (c : Entry) (type : UInt32) : Prop where
  untyped : parameterType c = none → type = 0
  lost : ∀ handle, parameterType c = some handle →
    (∀ a, ¬ u.source.Resolves handle a) → type = 0
  resolved : ∀ handle a, parameterType c = some handle →
    u.source.Resolves handle a → type = a

theorem enters_of_fills {c : Entry} {type : UInt32}
    (h : u.source.Fills (parameterType c) type) : u.Enters c type where
  untyped hnone := by
    rw [hnone] at h
    exact h
  lost handle hsome hlost := by
    rw [hsome] at h
    exact h.eq_zero hlost
  resolved handle a hsome hres := by
    rw [hsome] at h
    exact h.eq_of_resolves hres

/-- A function that is stored for an entry. The walk through the children of the
entry has come to its end, and the parameters among them have one entry each, in
this order: the id of the type of the parameter, and 0 if it has none in its
unit, or one that cannot be built. There is one exception: a parameter without a
type is left out if it is the first, or the first behind the receiver. -/
theorem graphOf_argumentTypes {data : ByteArray} {image : Object.Image}
    {g : Graph} (hu : u.PartOf data image g) (he : e ∈ u.entries.1)
    (hid : (u.idAt e.offset).value = some id) {f : FunctionSymbol}
    (hf : g.functions.get? id = some f) :
    let pointer := (e.reference? Attr.objectPointer).value
    let parameters := (u.children e.offset).1.filter isParameter
    (u.children e.offset).2 = none
      ∧ List.Forall₂ u.Enters (entered pointer parameters) f.argumentTypes
      ∧ f.argumentCount = Build.count32 (entered pointer parameters).length
      ∧ (entered pointer parameters = parameters
        ∨ ∃ before c after, parameters = before ++ c :: after
          ∧ entered pointer parameters = before ++ after
          ∧ parameterType c = none
          ∧ (before = []
            ∨ ∃ r, before = [r] ∧ isReceiver pointer r = true)) := by
  intro pointer parameters
  obtain ⟨_, _, node, -, -, hread, _, types, -, hfilled, rfl⟩ :=
    hu.exists_node he hid hf
  obtain ⟨_, _, -, hnode⟩ := exists_functionNode hread
  obtain ⟨hchildren, hhandles⟩ := argumentHandles_of_functionNode hnode
  rw [hhandles, List.forall₂_map_left_iff] at hfilled
  refine ⟨hchildren, hfilled.imp fun _ _ => enters_of_fills, ?_,
    entered_eq_or pointer parameters⟩
  show Build.count32 types.length = _
  rw [← hfilled.length_eq]

/-- An integer type, and a function with two parameters, of which the second is
an integer and the first has no type. -/
def untypedParameter : ByteArray := ⟨#[
  1, 0x11, 1, 0, 0, 2, 0x24, 0, 3, 8, 0x0b, 0x0b, 0x3e, 0x0b, 0, 0,
  3, 0x2e, 1, 3, 8, 0x11, 1, 0, 0, 4, 5, 0, 0, 0, 5, 5, 0, 0x49, 0x13, 0, 0, 0,
  34, 0, 0, 0, 4, 0, 0, 0, 0, 0, 8,
  1, 2, 0x69, 0x6e, 0x74, 0, 4, 5,
  3, 0x66, 0, 0, 0x10, 0, 0, 0, 0, 0, 0, 4, 5, 12, 0, 0, 0, 0, 0]⟩

def untypedImage : Object.Image where
  architecture := .x86_64
  order := .little
  sections := [
    { name := some (Bytes.ascii ".debug_abbrev"), body := .plain 0 38 },
    { name := some (Bytes.ascii ".debug_info"), body := .plain 38 38 }]

/-- The one entry is for the second parameter. -/
theorem graphOf_argumentTypes_untypedParameter :
    ∃ (g : Graph) (u : Unit) (e a b : Entry) (f : FunctionSymbol),
      u.PartOf untypedParameter untypedImage g ∧ e ∈ u.entries.1
      ∧ (u.idAt e.offset).value = some 19
      ∧ g.functions.get? 19 = some f
      ∧ (u.children e.offset).1.filter isParameter = [a, b]
      ∧ entered none [a, b] = [b]
      ∧ f.argumentTypes = [12] ∧ f.argumentCount = 1
      ∧ List.Forall₂ u.Enters [b] f.argumentTypes := by
  have hread := PartOf.exists_of_mem untypedParameter untypedImage
    (fun g u => ∃ e ∈ u.entries.1, (u.idAt e.offset).value = some 19
      ∧ (e.reference? Attr.objectPointer).value = none
      ∧ ((u.children e.offset).1.filter isParameter).map parameterType
        = [none, some 12]
      ∧ ∃ f ∈ g.functions.get? 19, f.argumentTypes = [12]
        ∧ f.argumentCount = 1) (by decide +kernel)
  obtain ⟨g, u, hu, e, he, hid, hpointer, htypes, f, hf, hentries, hcount⟩ :=
    hread
  obtain ⟨-, hfilled, -, -⟩ := graphOf_argumentTypes hu he hid hf
  obtain ⟨a, l, hparameters, ha, hl⟩ := List.map_eq_cons_iff.1 htypes
  obtain ⟨b, l, rfl, -, hl⟩ := List.map_eq_cons_iff.1 hl
  cases List.map_eq_nil_iff.1 hl
  have hentered : entered none [a, b] = [b] := by
    simp [entered, isReceiver, withoutUntyped, ha]
  rw [hpointer, hparameters, hentered] at hfilled
  exact ⟨g, u, e, a, b, f, hu, he, hid, hf, hparameters, hentered, hentries,
    hcount, hfilled⟩

end SymbolGraph.Dwarf.Unit
