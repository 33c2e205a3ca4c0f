/-
Units do not influence each other. All of them are built into one graph, by one
builder with one count of pointers, yet the graph is the disjoint union of what
each unit gives alone, with the numbers of its pointers moved on
(`graphOf_isUnion`).

There are two reasons. All that a unit does to the builder are calls for its
own types and for functions with ids of its own (`Unit.within_build`), whatever
its entries say and wherever its walks end. And the ids of two units are never
the same, for the units lie one behind the other. So the units are readers side
by side, and what is true of these is all that remains.
-/
import SymbolGraph.Proofs.Build.Union
import SymbolGraph.Proofs.Dwarf.Places

namespace SymbolGraph.Dwarf

open Build

-- ================================================================= steps

theorem Tag.aggregate?_ne_pointer {tag : Nat} {kind : TypeKind}
    (h : aggregate? tag = some kind) : kind ≠ .pointer := by
  rintro rfl
  unfold aggregate? at h
  split_ifs at h <;> cases h

namespace Unit

variable {u : Unit}

/-- The kind of a type with fields is that of its tag. -/
theorem aggregate?_of_shape {offset length : Nat} {e : Entry} {kind : TypeKind}
    {members : List (Option (FieldNode Nat))}
    (h : (u.shape offset e).run.value = .ok (length, .aggregate kind members)) :
    Tag.aggregate? e.tag = some kind := by
  unfold shape at h
  dsimp only at h
  split at h
  case isTrue => cases h
  split at h
  case isTrue => cases h
  split at h
  case h_1 kind' hkind =>
    rw [value_bind_eq_ok_iff] at h
    obtain ⟨members', -, h⟩ := h
    cases h
    exact hkind
  case h_2 =>
    split at h
    case isTrue => cases h
    split at h
    case isTrue => cases h
    split at h
    case isTrue =>
      rw [value_bind_eq_ok_iff] at h
      obtain ⟨target, -, h⟩ := h
      cases h
    split at h
    case isTrue => cases hsize : e.byteSize? <;> (rw [hsize] at h; cases h)
    split at h <;> cases h

/-- The types of a unit keep to its part of the section. -/
theorem confined_source (u : Unit) : u.source.Confined u.header.Covers where
  typeId _ _ hid := covers_of_typeId hid
  kind h st node kind members hnode hshape := by
    have hnode : (u.describe h).run.value = .ok node := hnode
    unfold describe at hnode
    simp only [value_bind_eq_ok_iff] at hnode
    obtain ⟨offset, -, e, -, ⟨length, shape⟩, hdescribed, _, -, hnode⟩ := hnode
    cases hnode
    cases hshape
    exact Tag.aggregate?_ne_pointer (aggregate?_of_shape hdescribed)

/-- A function has the id of its entry, and a name. -/
theorem exists_functionNode {machine : Machine} {e : Entry}
    {node : FunctionNode Nat}
    (h : (u.function? machine e).run.value = .ok (some node)) :
    ∃ id name, (u.idAt e.offset).value = some id
      ∧ (u.functionNode machine e id name).run.value = .ok node := by
  unfold function? at h
  dsimp only at h
  split at h
  case isTrue => cases h
  split at h
  case isTrue => cases h
  rw [value_bind_eq_ok_iff] at h
  obtain ⟨code, -, h⟩ := h
  split at h
  case isTrue => cases h
  rw [value_bind_eq_ok_iff] at h
  obtain ⟨id, hid, h⟩ := h
  cases hid
  split at h
  case h_1 => cases h
  case h_2 id hid =>
    rw [value_bind_eq_ok_iff] at h
    obtain ⟨name, -, h⟩ := h
    cases name with
    | none => cases h
    | some name =>
        rw [value_bind_eq_ok_iff] at h
        obtain ⟨node', hnode, h⟩ := h
        cases h
        exact ⟨id, name, hid, hnode⟩

theorem idAt_of_function? {machine : Machine} {e : Entry}
    {node : FunctionNode Nat}
    (h : (u.function? machine e).run.value = .ok (some node)) :
    (u.idAt e.offset).value = some node.id := by
  obtain ⟨id, name, hid, hnode⟩ := exists_functionNode h
  unfold functionNode at hnode
  simp only [value_bind_eq_ok_iff] at hnode
  obtain ⟨_, -, _, -, _, -, _, -, hnode⟩ := hnode
  cases hnode
  exact hid

/-- What a unit may ask for: its types, and functions with ids of its own. -/
abbrev Within (u : Unit) {α : Type} (x : Step PUnit α) : Prop :=
  Build.Within u.source (fun _ => True) (fun node => u.header.Covers node.id) x

theorem within_buildType (u : Unit) (e : Entry) :
    u.Within (u.buildType e) := by
  unfold buildType
  split
  · refine (Within.type e.offset trivial).bind fun answer => ?_
    cases answer with
    | ok id => exact .pure _
    | error fault => exact .lift _
  · exact .pure _

theorem within_buildFunctionsOf (hnonempty : u.header.start < u.header.stop)
    (machine : Machine) (count : Nat) {entries : List Entry}
    (hentries : ∀ e ∈ entries, e ∈ u.entries.1) :
    u.Within (u.buildFunctionsOf machine count entries) := by
  induction entries generalizing count with
  | nil => exact .pure _
  | cons e rest ih =>
      obtain ⟨he, hrest⟩ := List.forall_mem_cons.1 hentries
      unfold buildFunctionsOf
      apply Within.after
      cases hfound : (u.function? machine e).run.value with
      | error fault => exact .pure _
      | ok found =>
          cases found with
          | none => exact ih count hrest
          | some node =>
              have hid : u.header.Covers node.id :=
                covers_of_mem_entries hnonempty he (idAt_of_function? hfound)
              exact (Within.function node hid).bind fun _ => ih (count + 1) hrest

theorem within_buildFunctions (hnonempty : u.header.start < u.header.stop)
    (machine : Machine) :
    u.Within (u.buildFunctions machine) := by
  have hfunctions := within_buildFunctionsOf hnonempty machine 0 fun _ => id
  unfold buildFunctions
  generalize u.entries = found at hfunctions ⊢
  obtain ⟨entries, fault⟩ := found
  refine hfunctions.bind fun answer => ?_
  cases answer with
  | error fault => exact .pure _
  | ok count =>
      cases fault with
      | none => exact .after (.pure _)
      | some fault => exact .pure _

/-- Whatever the entries of a unit say, and wherever its walks end, it calls
for types and functions of its own only. -/
theorem within_build (hnonempty : u.header.start < u.header.stop)
    (machine : Machine) (number : Nat) :
    u.Within (u.build machine number) := by
  have htypes : u.Within u.buildTypes :=
    (Within.forM fun e _ => u.within_buildType e).bind fun _ => .pure _
  have hfunctions := within_buildFunctions hnonempty machine
  unfold build
  refine htypes.bind fun fault => ?_
  cases fault with
  | none =>
      refine hfunctions.bind fun fault => ?_
      cases fault with
      | none => exact .pure _
      | some fault => exact .lift _
  | some fault =>
      refine .after (hfunctions.bind fun fault => ?_)
      cases fault with
      | none => exact .pure _
      | some fault => exact .lift _

/-- The number of a unit shows in the log only. -/
theorem build_value_number (u : Unit) (machine : Machine) (number : Nat)
    (s : Builder × PUnit) :
    (u.build machine number s).value = (u.build machine 1 s).value := by
  unfold build
  simp only [step_bind]
  cases (u.buildTypes s).value.1 with
  | none =>
      simp only [step_bind]
      cases (u.buildFunctions machine (u.buildTypes s).value.2).value.1 <;> rfl
  | some fault =>
      simp only [step_bind, step_lift]
      cases (u.buildFunctions machine (u.buildTypes s).value.2).value.1 <;> rfl

end Unit

-- ================================================================= units

/-- What the extraction from a file begins with. -/
def Machine.start (machine : Machine) : Builder :=
  Builder.new { origin := .dwarf, architecture := machine.architecture }

/-- The graph that units are built into. -/
def unitsGraph (s : Sections) (machine : Machine)
    (headers : List UnitHeader) : Graph :=
  (buildUnits s machine 1 headers (machine.start, ⟨⟩)).value.2.1.graph

/-- The graph of a unit alone. -/
def Unit.graph (machine : Machine) (u : Unit) : Graph :=
  (u.build machine 1 (machine.start, ⟨⟩)).value.2.1.graph

/-- The units that can be made ready. -/
def readableUnits (s : Sections) (headers : List UnitHeader) : List Unit :=
  headers.filterMap fun h => (Unit.ofHeader s h).toOption

section Units

variable {s : Sections} {machine : Machine} {headers : List UnitHeader}

theorem Unit.of_ofHeader {header : UnitHeader} {u : Unit}
    (h : Unit.ofHeader s header = .ok u) :
    u.header = header ∧ Abbreviation.table (s.region s.abbreviations)
      header.abbrevOffset = .ok u.abbreviations := by
  unfold ofHeader at h
  rw [bind_eq_ok_iff] at h
  obtain ⟨abbreviations, htable, h⟩ := h
  dsimp only at h
  rw [bind_eq_ok_iff] at h
  obtain ⟨root, -, h⟩ := h
  cases root with
  | none => cases h
  | some e =>
      rw [bind_eq_ok_iff] at h
      obtain ⟨_, -, h⟩ := h
      split at h
      · rw [bind_eq_ok_iff] at h
        obtain ⟨lowPc, -, h⟩ := h
        cases h
        exact ⟨rfl, htable⟩
      · simp only [bind_eq_ok_iff] at h
        obtain ⟨_, -, lowPc, -, h⟩ := h
        cases h
        exact ⟨rfl, htable⟩

/-- A unit gives the same alone and behind other units, whatever its
number. -/
theorem Unit.beside_build {u : Unit} (machine : Machine)
    (hnonempty : u.header.start < u.header.stop) (number : Nat) (base : Builder)
    (hidle : base.inProgress = []) (hfree : base.Free u.header.Covers) :
    ∃ part whole, part.graph = u.graph machine ∧ part.Own u.header.Covers
      ∧ (u.build machine number (base, ⟨⟩)).value = (⟨⟩, whole, ⟨⟩)
      ∧ whole.inProgress = [] ∧ Beside base part whole := by
  have hwithin := within_build hnonempty machine number
  have hsource := u.confined_source
  obtain ⟨_, _, part, whole, hpart, hwhole, hpartIdle, hbeside⟩ :=
    hwithin.beside hsource (fun _ => id) hfree rfl (beside_new hidle _) ⟨⟩
  obtain ⟨-, hown⟩ := hwithin.own hsource (fun _ => id) (machine.start, ⟨⟩) rfl
    (Builder.own_new _ _)
  have halone : (u.build machine number (machine.start, ⟨⟩)).value.2.1
      = part := congrArg (·.2.1) hpart
  refine ⟨part, whole, ?_, halone ▸ hown, hwhole,
    hbeside.inProgress.trans hpartIdle, hbeside⟩
  rw [← halone, build_value_number]
  rfl

/-- Units that lie one behind the other have no key in common. -/
theorem apart_readableUnits (h : Consecutive headers) :
    ((readableUnits s headers).map (Unit.graph machine)).Pairwise
      Graph.Apart := by
  have hown : ∀ {header u}, header ∈ headers →
      (Unit.ofHeader s header).toOption = some u → u.header = header
        ∧ ∃ b : Builder, b.graph = u.graph machine ∧ b.Own header.Covers := by
    intro header u hmem hu
    cases (Unit.of_ofHeader (toOption_eq_some_iff.1 hu)).1
    obtain ⟨part, _, hgraph, hown, -⟩ := Unit.beside_build machine
      (h.nonempty _ hmem) 1 machine.start rfl fun _ _ => ⟨rfl, rfl⟩
    exact ⟨rfl, part, hgraph, hown⟩
  unfold readableUnits
  rw [List.pairwise_map, List.pairwise_filterMap]
  refine h.apart.imp_of_mem ?_
  intro header header' hmem hmem' hbehind u hu u' hu'
  obtain ⟨-, b, hb, hown₁⟩ := hown hmem hu
  obtain ⟨-, b', hb', hown₂⟩ := hown hmem' hu'
  rw [← hb, ← hb']
  exact Builder.apart_of_own hown₁ hown₂ fun k =>
    UnitHeader.not_covers hbehind

/-- Units are gathered onto a base that has none of their ids. One that cannot
be read leaves the builder as it is. -/
theorem gathers_buildUnits (h : Consecutive headers) (number : Nat)
    {base : Builder} (hidle : base.inProgress = [])
    (hfree : ∀ header ∈ headers, base.Free header.Covers) :
    base.Gathers ((readableUnits s headers).map (Unit.graph machine))
      (buildUnits s machine number headers (base, ⟨⟩)).value.2.1 := by
  induction headers generalizing number base with
  | nil => exact .nil base
  | cons header headers ih =>
      obtain ⟨hfirst, hrest⟩ := List.forall_mem_cons.1 hfree
      obtain ⟨hbehind, hapart⟩ := List.pairwise_cons.1 h.apart
      obtain ⟨hnonempty, hnonempty'⟩ := List.forall_mem_cons.1 h.nonempty
      have hheaders : Consecutive headers := ⟨hapart, hnonempty'⟩
      unfold buildUnits buildUnit readableUnits
      rw [step_bind, step_bind, List.filterMap_cons]
      cases hunit : Unit.ofHeader s header with
      | error fault => exact ih hheaders (number + 1) hidle hrest
      | ok u =>
          cases (Unit.of_ofHeader hunit).1
          obtain ⟨part, whole, hgraph, hown, hrun, hidle', hbeside⟩ :=
            Unit.beside_build machine hnonempty number base hidle hfirst
          have hfree' : ∀ header ∈ headers, whole.Free header.Covers := by
            intro header hmem
            refine Builder.free_of_beside hbeside hown (hrest header hmem) ?_
            exact fun k hk hk' =>
              UnitHeader.not_covers (hbehind header hmem) hk' hk
          have hgathers := ih hheaders (number + 1) hidle' hfree'
          simp only [step_lift, hrun]
          show base.Gathers (u.graph machine :: _) _
          rw [← hgraph]
          exact hgathers.cons hbeside hown hfirst

/-- Units that lie one behind the other are gathered into one graph. -/
theorem gathers_unitsGraph (h : Consecutive headers) :
    (unitsGraph s machine headers).header = machine.start.graph.header
      ∧ Graph.IsUnion ((readableUnits s headers).map (Unit.graph machine))
        (unitsGraph s machine headers) := by
  have hgathers : machine.start.Gathers
      ((readableUnits s headers).map (Unit.graph machine))
      (buildUnits s machine 1 headers (machine.start, ⟨⟩)).value.2.1 :=
    gathers_buildUnits h 1 rfl fun _ _ _ _ => ⟨rfl, rfl⟩
  exact ⟨hgathers.header, hgathers.isUnion (apart_readableUnits h)⟩

end Units

/-- What a file says about the functions of its units. -/
def machineOf (image : Object.Image) : Machine :=
  { architecture := image.architecture, base := image.base }

/-- A file whose unit headers can be read has the graph of its units. -/
theorem graphOf_value (data : ByteArray) (image : Object.Image) :
    (graphOf data image).value
      = match (unitHeaders (loadSections data image).value).2 with
        | some fault => .error fault
        | none => .ok (unitsGraph (loadSections data image).value
            (machineOf image)
            (unitHeaders (loadSections data image).value).1) := by
  unfold graphOf
  rw [Logged.value_bind, Logged.value_bind]
  dsimp only
  rw [Logged.value_bind]
  cases (unitHeaders (loadSections data image).value).2 <;> rfl

/-- The graph of a file is the disjoint union of what each of its readable
units gives alone, the pointers of each unit being numbered behind those of the
units before it. The same is true if some of the units are left out, so what a
unit contributes does not depend on what the others are, whether they can be
read or where the walks through them end. -/
theorem graphOf_isUnion (data : ByteArray) (image : Object.Image) :
    let s := (loadSections data image).value
    let machine : Machine := {
      architecture := image.architecture, base := image.base }
    let found := unitHeaders s
    ((graphOf data image).value = match found.2 with
      | some fault => .error fault
      | none => .ok (unitsGraph s machine found.1))
      ∧ ∀ headers : List UnitHeader, headers.Sublist found.1 →
        (unitsGraph s machine headers).header
          = { origin := .dwarf, architecture := image.architecture }
        ∧ Graph.IsUnion ((readableUnits s headers).map (Unit.graph machine))
          (unitsGraph s machine headers) := by
  intro s machine found
  refine ⟨graphOf_value data image, fun headers hheaders => ?_⟩
  exact gathers_unitsGraph ((unitHeaders_consecutive s).sublist hheaders)

/-- A table of abbreviations, and three units with one type each, a pointer.
The second unit looks for its abbreviations where none are. -/
def pointerUnits : ByteArray := ⟨#[
  1, 0x11, 1, 0, 0, 2, 0x0f, 0, 0, 0, 0,
  10, 0, 0, 0, 4, 0, 0, 0, 0, 0, 8, 1, 2, 0,
  10, 0, 0, 0, 4, 0, 99, 0, 0, 0, 8, 1, 2, 0,
  10, 0, 0, 0, 4, 0, 0, 0, 0, 0, 8, 1, 2, 0]⟩

def pointerImage : Object.Image where
  architecture := .x86_64
  order := .little
  sections := [
    { name := some (Bytes.ascii ".debug_abbrev"), body := .plain 0 11 },
    { name := some (Bytes.ascii ".debug_info"), body := .plain 11 42 }]

/-- The pointers of the first and the last unit both have the number 0 alone.
Together, with or without the unit between them, the last one has 1. -/
theorem graphOf_isUnion_pointerUnits :
    let s := (loadSections pointerUnits pointerImage).value
    let machine : Machine := {
      architecture := pointerImage.architecture, base := pointerImage.base }
    let headers := (unitHeaders s).1
    let readable := headers.eraseIdx 1
    let units := readableUnits s headers
    let names (g : Graph) := g.types.values.map TypeSymbol.name
    headers.map UnitHeader.start = [0, 14, 28]
      ∧ units.map (fun u => u.header.start) = [0, 28]
      ∧ units.map (fun u => names (u.graph machine)) = [["pUnk0"], ["pUnk0"]]
      ∧ readable.Sublist headers
      ∧ Graph.IsUnion ((readableUnits s headers).map (Unit.graph machine))
        (unitsGraph s machine headers)
      ∧ Graph.IsUnion ((readableUnits s readable).map (Unit.graph machine))
        (unitsGraph s machine readable)
      ∧ (unitsGraph s machine headers).types.keys = [12, 40]
      ∧ names (unitsGraph s machine headers) = ["pUnk0", "pUnk1"]
      ∧ names (unitsGraph s machine readable) = ["pUnk0", "pUnk1"] := by
  intro s machine headers readable units names
  obtain ⟨-, hunion⟩ := graphOf_isUnion pointerUnits pointerImage
  have hreadable : readable.Sublist headers := List.eraseIdx_sublist ..
  obtain ⟨-, hall⟩ := hunion headers (List.Sublist.refl _)
  obtain ⟨-, hsome⟩ := hunion readable hreadable
  refine ⟨?_, ?_, ?_, hreadable, hall, hsome, ?_, ?_, ?_⟩
  all_goals decide +kernel

end SymbolGraph.Dwarf
