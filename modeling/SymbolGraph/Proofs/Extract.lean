/-
Every extracted graph is the graph of a reachable builder. The readers of
debug information do what they like with their own state, but the builder
they touch only by calls from outside (`OnlyCalls`): a reader's steps are put
together from such calls (`Build.Within`), and units only follow each other. So
whatever a file says, and wherever its reading ends, what holds of reachable
builders holds of its graph (`isSound_of_extractFrom`).
-/
import SymbolGraph.Extract
import SymbolGraph.Proofs.Build.Soundness
import SymbolGraph.Proofs.Dwarf.Units
import SymbolGraph.Proofs.Pdb.Calls

namespace SymbolGraph

variable {σ α β H ε : Type}

-- =============================================================== steps

namespace Build

/-- A step that touches the builder by calls from outside only. -/
def OnlyCalls (x : Step σ α) : Prop :=
  ∀ s : Builder × σ, s.1.Reachable → (x s).value.2.1.Reachable

theorem OnlyCalls.pure (a : α) : OnlyCalls (pure a : Step σ α) :=
  fun _ h => h

theorem OnlyCalls.bind {x : Step σ α} {f : α → Step σ β} (hx : OnlyCalls x)
    (hf : ∀ a, OnlyCalls (f a)) : OnlyCalls (x >>= f) :=
  fun s h => hf _ _ (hx s h)

theorem OnlyCalls.lift (l : Logged α) : OnlyCalls (liftM l : Step σ α) :=
  fun _ h => h

/-- Whatever types and functions a reader asks for, it asks for them from
outside. -/
theorem Within.onlyCalls {source : Source σ H ε} {types : H → Prop}
    {functions : FunctionNode H → Prop} {x : Step σ α}
    (h : Within source types functions x) : OnlyCalls x := by
  induction h with
  | pure a => exact .pure a
  | lift l => exact .lift l
  | after _ ih => exact ih
  | bind _ _ ihx ihf => exact ihx.bind ihf
  | type h _ => exact fun s hs => .type source h s.2 hs
  | function node _ => exact fun s hs => .function source node s.2 hs

end Build

open Build

-- =============================================================== DWARF

namespace Dwarf

theorem onlyCalls_buildUnit (s : Sections) (machine : Machine) (number : Nat)
    {header : UnitHeader} (hnonempty : header.start < header.stop) :
    OnlyCalls (buildUnit s machine number header) := by
  unfold buildUnit
  refine (OnlyCalls.lift _).bind fun _ => ?_
  cases hunit : Unit.ofHeader s header with
  | error fault => exact .lift _
  | ok u =>
      cases (Unit.of_ofHeader hunit).1
      exact (Unit.within_build hnonempty machine number).onlyCalls

theorem onlyCalls_buildUnits (s : Sections) (machine : Machine) (number : Nat)
    {headers : List UnitHeader} (h : ∀ header ∈ headers,
      header.start < header.stop) :
    OnlyCalls (buildUnits s machine number headers) := by
  induction headers generalizing number with
  | nil => exact .pure _
  | cons header headers ih =>
      obtain ⟨hfirst, hrest⟩ := List.forall_mem_cons.1 h
      exact (onlyCalls_buildUnit s machine number hfirst).bind fun _ =>
        ih (number + 1) hrest

/-- A graph of DWARF debug information is the graph of a reachable
builder. -/
theorem reachable_of_graphOf {data : ByteArray} {image : Object.Image}
    {g : Graph} (h : (graphOf data image).value = .ok g) :
    ∃ b : Builder, b.Reachable ∧ b.graph = g := by
  unfold graphOf at h
  rw [Logged.value_bind, Logged.value_bind] at h
  generalize (loadSections data image).value = sections at h
  have hnonempty := (unitHeaders_consecutive sections).nonempty
  generalize unitHeaders sections = found at h hnonempty
  obtain ⟨headers, fault⟩ := found
  dsimp only at h
  rw [Logged.value_bind] at h
  cases fault with
  | some fault => cases h
  | none =>
      have hreachable := onlyCalls_buildUnits sections
        { architecture := image.architecture, base := image.base } 1 hnonempty
        (.new { origin := .dwarf, architecture := image.architecture }, ⟨⟩)
        (.new _)
      exact ⟨_, hreachable, Except.ok.inj h⟩

end Dwarf

-- =================================================== program databases

namespace Pdb

/-- The builder that a database leaves is reachable. -/
theorem exists_builder (c : Container) (t : Types) :
    ∃ b : Builder, b.Reachable ∧ b.graph = built c t :=
  ⟨_, (within_build c t).onlyCalls _ (.new _), rfl⟩

/-- The graph of a program database is the graph of a reachable builder. -/
theorem reachable_of_graphOf {data : ByteArray} {g : Graph}
    (h : (graphOf data).value = .ok g) :
    ∃ b : Builder, b.Reachable ∧ b.graph = g := by
  cases hload : load data with
  | error fault =>
      unfold graphOf at h
      rw [hload] at h
      cases h
  | ok loaded =>
      obtain ⟨c, t⟩ := loaded
      rw [graphOf_eq_built hload h]
      exact exists_builder c t

end Pdb

-- =============================================================== files

section Files

variable {g : Graph} {data : ByteArray}

theorem reachable_of_extractObject
    (h : (extractObject data).value = .ok g) :
    ∃ b : Builder, b.Reachable ∧ b.graph = g := by
  unfold extractObject at h
  split at h
  case h_1 => cases h
  case h_2 => exact Dwarf.reachable_of_graphOf (eq_ok_of_mapError h)

theorem reachable_of_extractDatabase
    (h : (extractDatabase data).value = .ok g) :
    ∃ b : Builder, b.Reachable ∧ b.graph = g :=
  Pdb.reachable_of_graphOf (eq_ok_of_mapError h)

variable {reading : Reading} {path : String}
  {content : Except Files.Fault ByteArray}

/-- Whatever a file is read as, its graph is that of a reachable builder. -/
theorem reachable_of_extractFrom
    (h : (extractFrom reading path content).value = .ok g) :
    ∃ b : Builder, b.Reachable ∧ b.graph = g := by
  cases content with
  | error fault => cases h
  | ok data =>
      have h : (extractContent reading path data).value = .ok g := h
      cases reading with
      | dwarf => exact reachable_of_extractObject h
      | pdb => exact reachable_of_extractDatabase h
      | auto =>
          unfold extractContent at h
          dsimp only at h
          split at h
          · exact reachable_of_extractDatabase h
          · split at h
            · cases h
            · exact reachable_of_extractObject h

/-- An extracted graph passes the check of its references, unless a list of
fields is too long to be counted. -/
theorem isSound_of_extractFrom
    (h : (extractFrom reading path content).value = .ok g)
    (hshort : ∀ t ∈ g.types.values, t.fields.length < 2 ^ 32) :
    g.isSound = true := by
  obtain ⟨b, hreachable, rfl⟩ := reachable_of_extractFrom h
  obtain ⟨hidle, hsound⟩ := hreachable.invariant
  refine (Graph.WellFormed.mono hsound ?_).isSound hshort
  intro id hknows
  rwa [← Builder.knows_of_idle hidle]

end Files

end SymbolGraph
