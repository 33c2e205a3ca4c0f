/-
The part of a file's graph that one unit gives. What a unit calls for does not
depend on the builder: the types of its walk, then its functions, up to the
first entry that cannot be read as a function (`Unit.calls`). So the unit is a
run of calls (`Unit.build_value`), and what is stored under its ids in the graph
of the file is what this run stores, with the pointers renumbered
(`Unit.PartOf.types`).
-/
import SymbolGraph.Proofs.Build.Runs
import SymbolGraph.Proofs.Dwarf.Entries
import SymbolGraph.Proofs.Dwarf.Units

namespace SymbolGraph

open Relation (TransGen)
open Build

namespace Dwarf

-- ================================================================= calls

namespace Unit

/-- Is the entry a type that is built for itself? -/
def wants (e : Entry) : Bool :=
  Tag.isType e.tag && !e.isSet Attr.declaration

/-- The functions of some entries, up to the first that fails. -/
def functionNodes (u : Unit) (machine : Machine) :
    List Entry → List (FunctionNode Nat)
  | [] => []
  | e :: rest =>
    match (u.function? machine e).run.value with
    | .error _ => []
    | .ok none => u.functionNodes machine rest
    | .ok (some node) => node :: u.functionNodes machine rest

/-- What a unit calls for. -/
def calls (u : Unit) (machine : Machine) : List (Builder.Call Nat) :=
  (u.entries.1.filter wants).map (fun e => .type e.offset)
    ++ (u.functionNodes machine u.entries.1).map .function

variable (u : Unit) (machine : Machine) (s : Builder × PUnit)

theorem buildTypes_value :
    (u.buildTypes s).value.2
      = (Builder.calls u.source
          ((u.entries.1.filter wants).map fun e => .type e.offset) s).value.2 := by
  have hall : ∀ (entries : List Entry) (s : Builder × PUnit),
      ((entries.forM u.buildType) s).value.2
        = (Builder.calls u.source
            ((entries.filter wants).map fun e => .type e.offset) s).value.2 := by
    intro entries
    induction entries with
    | nil => exact fun _ => rfl
    | cons e entries ih =>
        intro s
        have hfirst : (u.buildType e s).value.2
            = if wants e then (Builder.type u.source e.offset s).value.2
              else s := by
          unfold buildType wants
          split
          · simp only [step_bind]
            cases (Builder.type u.source e.offset s).value.1 <;> rfl
          · rfl
        rw [List.filter_cons]
        show ((entries.forM u.buildType) (u.buildType e s).value.2).value.2 = _
        rw [ih, hfirst]
        split <;> rfl
  exact hall _ s

theorem buildFunctionsOf_value (count : Nat) (entries : List Entry) :
    (u.buildFunctionsOf machine count entries s).value.2
      = (Builder.calls u.source
          ((u.functionNodes machine entries).map .function) s).value.2 := by
  induction entries generalizing count s with
  | nil => rfl
  | cons e entries ih =>
      unfold buildFunctionsOf functionNodes
      simp only [step_bind, step_lift]
      cases (u.function? machine e).run.value with
      | error fault => rfl
      | ok found =>
          cases found with
          | none => exact ih s count
          | some node => exact ih _ (count + 1)

/-- A unit does what it calls for. -/
theorem build_value (number : Nat) :
    (u.build machine number s).value.2
      = (Builder.calls u.source (u.calls machine) s).value.2 := by
  have hfunctions : ∀ s, (u.buildFunctions machine s).value.2
      = (u.buildFunctionsOf machine 0 u.entries.1 s).value.2 := by
    intro s
    unfold buildFunctions
    generalize u.entries = found
    obtain ⟨entries, fault⟩ := found
    simp only [step_bind]
    cases (u.buildFunctionsOf machine 0 entries s).value.1 with
    | error fault => rfl
    | ok count => cases fault <;> rfl
  unfold calls
  rw [Builder.calls_append, ← buildTypes_value, ← buildFunctionsOf_value u machine
    _ 0, ← hfunctions]
  unfold build
  simp only [step_bind]
  cases (u.buildTypes s).value.1 with
  | none =>
      simp only [step_bind]
      cases (u.buildFunctions machine (u.buildTypes s).value.2).value.1 <;> rfl
  | some fault =>
      simp only [step_bind, step_lift]
      cases (u.buildFunctions machine (u.buildTypes s).value.2).value.1 <;> rfl

/-- The graph of a unit alone comes from a run of what it calls for. -/
theorem exists_builder (u : Unit) (machine : Machine) :
    ∃ roots b, b.graph = u.graph machine ∧ u.source.Kept roots b
      ∧ u.source.Ran (u.calls machine) machine.start b := by
  have hroots : ∀ call ∈ u.calls machine, ∀ h ∈ call.handles,
      h ∈ (u.calls machine).flatMap Builder.Call.handles :=
    fun call hcall h hmem => List.mem_flatMap.2 ⟨call, hcall, hmem⟩
  obtain ⟨hkept, hran⟩ := calls_ran (s := (machine.start, ⟨⟩))
    u.consistent_source (u.calls machine) hroots (Source.kept_new _)
  refine ⟨_, _, ?_, hkept, hran⟩
  unfold Unit.graph
  rw [build_value]

/-- What a unit stores has ids of the unit. -/
theorem covers_of_graph (hnonempty : u.header.start < u.header.stop) :
    (∀ k t, (u.graph machine).types.get? k = some t → u.header.Covers k)
      ∧ ∀ k f, (u.graph machine).functions.get? k = some f →
        u.header.Covers k := by
  obtain ⟨part, -, hgraph, hown, -⟩ :=
    u.beside_build machine hnonempty 1 machine.start rfl fun _ _ => ⟨rfl, rfl⟩
  rw [← hgraph]
  exact ⟨hown.types, hown.functions⟩

end Unit

-- ================================================================= files

/-- The graph is that of a file, and the unit is one of those that are built
into it. -/
structure Unit.PartOf (u : Unit) (data : ByteArray) (image : Object.Image)
    (g : Graph) : Prop where
  graph : (graphOf data image).value = .ok g
  readable : u ∈ readableUnits (loadSections data image).value
    (unitHeaders (loadSections data image).value).1

section Parts

variable {s : Sections} {headers : List UnitHeader} {u u' : Unit} {k : UInt32}

theorem mem_readableUnits :
    u ∈ readableUnits s headers
      ↔ u.header ∈ headers ∧ Unit.ofHeader s u.header = .ok u := by
  unfold readableUnits
  rw [List.mem_filterMap]
  constructor
  · rintro ⟨header, hmem, hready⟩
    have hready := toOption_eq_some_iff.1 hready
    cases (Unit.of_ofHeader hready).1
    exact ⟨hmem, hready⟩
  · rintro ⟨hmem, hready⟩
    exact ⟨u.header, hmem, toOption_eq_some_iff.2 hready⟩

/-- Units with an id in common are one. -/
theorem eq_of_covers (hheaders : Consecutive headers)
    (hu : u ∈ readableUnits s headers) (hu' : u' ∈ readableUnits s headers)
    (hk : u.header.Covers k) (hk' : u'.header.Covers k) : u = u' := by
  obtain ⟨hmem, hready⟩ := mem_readableUnits.1 hu
  obtain ⟨hmem', hready'⟩ := mem_readableUnits.1 hu'
  have hsymm : Std.Symm fun a b : UnitHeader => ¬ (a.Covers k ∧ b.Covers k) :=
    ⟨fun _ _ h hboth => h hboth.symm⟩
  have hapart : headers.Pairwise fun a b => ¬ (a.Covers k ∧ b.Covers k) :=
    hheaders.apart.imp fun hbehind ⟨ha, hb⟩ =>
      UnitHeader.not_covers hbehind ha hb
  have hsame : u.header = u'.header := by
    by_contra hne
    exact hapart.forall hmem hmem' hne ⟨hk, hk'⟩
  rw [hsame, hready'] at hready
  exact (Except.ok.inj hready).symm

end Parts

namespace Unit.PartOf

variable {u : Unit} {data : ByteArray} {image : Object.Image} {g : Graph}
  {k : UInt32}

/-- What a file says can be found out by reading it. -/
theorem exists_of_mem (data : ByteArray) (image : Object.Image)
    (p : Graph → Unit → Prop) (h : ∃ g ∈ (graphOf data image).value.toOption,
      ∃ u ∈ readableUnits (loadSections data image).value
        (unitHeaders (loadSections data image).value).1, p g u) :
    ∃ g u, u.PartOf data image g ∧ p g u := by
  obtain ⟨g, hg, u, hu, hp⟩ := h
  exact ⟨g, u, ⟨toOption_eq_some_iff.1 hg, hu⟩, hp⟩

theorem start_lt_stop (h : u.PartOf data image g) :
    u.header.start < u.header.stop :=
  (unitHeaders_consecutive _).nonempty _ (mem_readableUnits.1 h.readable).1

theorem start_lt_entries (h : u.PartOf data image g) :
    u.header.start < u.header.entries :=
  Dwarf.start_lt_entries (mem_readableUnits.1 h.readable).1

theorem isUnion (h : u.PartOf data image g) :
    Graph.IsUnion ((readableUnits (loadSections data image).value (unitHeaders
      (loadSections data image).value).1).map (Unit.graph (machineOf image)))
      g := by
  have hgraph := h.graph
  rw [graphOf_value] at hgraph
  split at hgraph
  case h_1 => cases hgraph
  case h_2 =>
    cases hgraph
    exact (gathers_unitsGraph (unitHeaders_consecutive _)).2

/-- Of the units that are built into the graph, this one has the id. -/
theorem eq_graph (h : u.PartOf data image g) (hk : u.header.Covers k)
    {part : Graph} (hpart : part ∈ (readableUnits (loadSections data image).value
      (unitHeaders (loadSections data image).value).1).map
        (Unit.graph (machineOf image)))
    (hcontains : part.types.contains k = true
      ∨ part.functions.contains k = true) :
    part = u.graph (machineOf image) := by
  obtain ⟨u', hu', rfl⟩ := List.mem_map.1 hpart
  have hnonempty : u'.header.start < u'.header.stop :=
    (unitHeaders_consecutive _).nonempty _ (mem_readableUnits.1 hu').1
  obtain ⟨htypes, hfunctions⟩ :=
    u'.covers_of_graph (machineOf image) hnonempty
  have hk' : u'.header.Covers k := by
    rcases hcontains with hcontains | hcontains
    · obtain ⟨t, hget⟩ := Table.contains_iff.1 hcontains
      exact htypes k t hget
    · obtain ⟨f, hget⟩ := Table.contains_iff.1 hcontains
      exact hfunctions k f hget
  rw [eq_of_covers (unitHeaders_consecutive _) hu' h.readable hk' hk]

theorem contains_types (h : u.PartOf data image g) (hk : u.header.Covers k) :
    g.types.contains k = true
      ↔ (u.graph (machineOf image)).types.contains k = true := by
  rw [h.isUnion.contains]
  constructor
  · rintro ⟨part, hpart, hcontains⟩
    rwa [← h.eq_graph hk hpart (.inl hcontains)]
  · exact fun hcontains => ⟨_, List.mem_map_of_mem h.readable, hcontains⟩

/-- What is stored under an id of the unit is what the unit stores there,
renumbered. -/
theorem types (h : u.PartOf data image g) (hk : u.header.Covers k)
    {t : TypeSymbol} (ht : g.types.get? k = some t) :
    ∃ n t₀, (u.graph (machineOf image)).types.get? k = some t₀
      ∧ t₀.Renumbered n t := by
  obtain ⟨before, part, after, t₀, hparts, hget, hrenumbered⟩ :=
    (h.isUnion.types k t).1 ht
  have hpart : part = u.graph (machineOf image) := by
    refine h.eq_graph hk ?_ (.inl (Table.contains_of_get? hget))
    rw [hparts]
    exact List.mem_append_right _ List.mem_cons_self
  exact ⟨_, t₀, hpart ▸ hget, hrenumbered⟩

theorem functions (h : u.PartOf data image g) (hk : u.header.Covers k)
    {f : FunctionSymbol} :
    g.functions.get? k = some f
      ↔ (u.graph (machineOf image)).functions.get? k = some f := by
  rw [h.isUnion.functions]
  constructor
  · rintro ⟨part, hpart, hget⟩
    rwa [← h.eq_graph hk hpart (.inr (Table.contains_of_get? hget))]
  · exact fun hget => ⟨_, List.mem_map_of_mem h.readable, hget⟩

/-- A type of the walk that is not only declared, and that can be described, is
stored. -/
theorem contains_of_shape (h : u.PartOf data image g) {e : Entry}
    (he : e ∈ u.entries.1) (htag : Tag.isType e.tag = true)
    (hdefined : e.isSet Attr.declaration = false)
    (hid : (u.idAt e.offset).value = some k) {found : Nat × Shape Nat}
    (hshape : (u.shape e.offset e).run.value = .ok found) :
    g.types.contains k = true := by
  have hleads : u.Leads 0 e.offset e.offset e :=
    leads_of_mem_entries (Nat.le_of_lt h.start_lt_entries) he htag
  have hres : u.source.Resolves e.offset k :=
    (hleads.resolves_iff (by decide)).2
      ⟨hid, ne_zero_of_idAt h.start_lt_entries hleads.typeEntry hid, _, hshape⟩
  have hwants : wants e = true := by
    unfold wants
    rw [htag, hdefined]
    rfl
  obtain ⟨_, b, hgraph, -, hran⟩ := u.exists_builder (machineOf image)
  rw [h.contains_types (covers_of_typeId hres.1), ← hgraph]
  refine hran.types e.offset k ?_ hres
  exact List.mem_append_left _ (List.mem_map.2
    ⟨e, List.mem_filter.2 ⟨he, hwants⟩, rfl⟩)

/-- What is stored was described, and its links lead where they should. -/
theorem recorded (h : u.PartOf data image g) (hk : u.header.Covers k)
    {t : TypeSymbol} (ht : g.types.get? k = some t) :
    ∃ n node answers b, u.source.Describes k node
      ∧ List.Forall₂ u.source.Answers node.shape.links answers
      ∧ (symbolOf k node answers b).Renumbered n t := by
  obtain ⟨n, t₀, hget, hrenumbered⟩ := h.types hk ht
  obtain ⟨_, b, hgraph, hkept, -⟩ := u.exists_builder (machineOf image)
  rw [← hgraph] at hget
  obtain ⟨node, answers, b', hnode, hanswers, -, rfl⟩ :=
    hkept.records.recorded k t₀ hget
  exact ⟨n, node, answers, b', hnode, hanswers, hrenumbered⟩

/-- An alias of a type that does not depend on itself is as long as the type. -/
theorem measured (h : u.PartOf data image g) {a : UInt32} {t : TypeSymbol}
    {node : Node Nat} {target : Nat} (hk : u.header.Covers k)
    (ht : g.types.get? k = some t) (hnode : u.source.Describes k node)
    (hshape : node.shape = .typedef (some target))
    (hres : u.source.Resolves target a)
    (hacyclic : ¬ TransGen u.source.DependsOn a a) :
    ∃ t', g.types.get? a = some t' ∧ t.length = t'.length := by
  obtain ⟨n, t₀, hget, hrenumbered⟩ := h.types hk ht
  obtain ⟨_, b, hgraph, hkept, -⟩ := u.exists_builder (machineOf image)
  rw [← hgraph] at hget
  obtain ⟨s₀, hs₀, hlength⟩ :=
    hkept.measured a hacyclic k t₀ node target hget hnode hshape hres
  rw [hgraph] at hs₀
  have ha : u.header.Covers a := covers_of_typeId hres.1
  obtain ⟨s, hs⟩ := Table.contains_iff.1
    ((h.contains_types ha).2 (Table.contains_of_get? hs₀))
  obtain ⟨_, s₁, hs₁, hrenumbered'⟩ := h.types ha hs
  cases hs₀.symm.trans hs₁
  refine ⟨s, hs, ?_⟩
  rw [hrenumbered.length_eq, hlength, hrenumbered'.length_eq]

/-- The functions are those of the walk, up to the first that fails. -/
theorem signed (h : u.PartOf data image g) (hk : u.header.Covers k)
    {f : FunctionSymbol} (hf : g.functions.get? k = some f) :
    ∃ node ∈ u.functionNodes (machineOf image) u.entries.1,
      node.id = k ∧ u.source.Signs node f := by
  obtain ⟨_, b, hgraph, -, hran⟩ := u.exists_builder (machineOf image)
  rw [h.functions hk, ← hgraph] at hf
  rcases hran.functions k f hf with hf | ⟨node, hcall, hnode⟩
  · cases hf
  · refine ⟨node, ?_, hnode⟩
    rcases List.mem_append.1 hcall with hcall | hcall
    · obtain ⟨_, -, hcall⟩ := List.mem_map.1 hcall
      cases hcall
    · obtain ⟨_, hmem, hcall⟩ := List.mem_map.1 hcall
      cases hcall
      exact hmem

theorem contains_function (h : u.PartOf data image g) {node : FunctionNode Nat}
    (hnode : node ∈ u.functionNodes (machineOf image) u.entries.1)
    (hk : u.header.Covers node.id) : g.functions.contains node.id = true := by
  obtain ⟨_, b, hgraph, -, hran⟩ := u.exists_builder (machineOf image)
  have hcall : Builder.Call.function node ∈ u.calls (machineOf image) :=
    List.mem_append_right _ (List.mem_map_of_mem hnode)
  obtain ⟨f, hf⟩ := Table.contains_iff.1 (hran.called node hcall)
  rw [hgraph] at hf
  exact Table.contains_of_get? ((h.functions hk).2 hf)

end Unit.PartOf

end Dwarf

end SymbolGraph
