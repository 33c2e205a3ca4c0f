/-
The check of a graph and merging: neither hides a defect from the other.

A graph stands for another along `rep` (`Graph.StandsFor`) if every type
of the first has a type of the second that stands in for it, defect by
defect: the same references name nothing, in the same order, and the count
of fields is wrong in both or in neither. Nothing else is asked, so that
standing for is kept when it is done twice (`StandsFor.trans`), and it is
enough for the check to come to one verdict (`StandsFor.isSound_eq`).

One pass leaves a graph that stands for the graph (`standsFor_pass`): a
dropped type has the content of its leader, so it has the same references,
and the numbers that name nothing are led by themselves. A run is some
passes one after another.
-/
import SymbolGraph.Integrity
import SymbolGraph.Proofs.Merge.Run

namespace SymbolGraph

variable {g h i : Graph} {rep rep' : UInt32 → UInt32}

-- ========================================================== the check

theorem Graph.isDangling_eq_true_iff {r : UInt32} :
    g.isDangling r = true ↔ r ≠ 0 ∧ g.types.contains r = false := by
  simp [isDangling]

/-- The type has as many fields as it declares. -/
def TypeSymbol.Counted (t : TypeSymbol) : Prop :=
  t.fieldCount.toNat = t.fields.length

/-- What the check of a graph finds nothing wrong with. -/
theorem Graph.isSound_iff :
    g.isSound = true
      ↔ (∀ f ∈ g.functions.values, f.references.filter g.isDangling = [])
        ∧ ∀ t ∈ g.types.values, t.references.filter g.isDangling = []
          ∧ t.Counted := by
  unfold isSound defects
  rw [List.isEmpty_iff, List.append_eq_nil_iff, List.flatMap_eq_nil_iff,
    List.flatMap_eq_nil_iff]
  refine and_congr ?_ ?_
  · refine forall₂_congr fun f _ => ?_
    unfold functionDefects
    rw [List.map_eq_nil_iff]
  · refine forall₂_congr fun t _ => ?_
    unfold typeDefects TypeSymbol.Counted
    rw [List.append_eq_nil_iff, List.map_eq_nil_iff]
    by_cases hcount : t.fieldCount.toNat = t.fields.length <;> simp [hcount]

/-- Redirected references name nothing where they did before, if no
redirection hides one or makes one. -/
theorem Graph.filter_isDangling_map
    (hdangling : ∀ r, h.isDangling (rep r) = g.isDangling r)
    (hfixed : ∀ r, g.isDangling r = true → rep r = r) (refs : List UInt32) :
    (refs.map rep).filter h.isDangling = refs.filter g.isDangling := by
  rw [List.filter_map, show h.isDangling ∘ rep = g.isDangling from
    funext hdangling]
  refine (List.map_congr_left fun r hr => ?_).trans (List.map_id _)
  exact hfixed r (List.mem_filter.1 hr).2

-- ======================================================= standing for

/-- `h` has the defects of `g`, with the type under `rep k` in the place
of the type under `k`. -/
structure Graph.StandsFor (h g : Graph) (rep : UInt32 → UInt32) : Prop where
  dangling : ∀ r, h.isDangling (rep r) = g.isDangling r
  fixed : ∀ r, g.isDangling r = true → rep r = r
  functions : h.functions = g.functions.map (·.mapReferences rep)
  survives : ∀ {k t}, g.types.get? k = some t →
    ∃ s, h.types.get? (rep k) = some s
      ∧ s.references.filter h.isDangling = t.references.filter g.isDangling
      ∧ (s.Counted ↔ t.Counted)
  survivor : ∀ {k}, h.types.contains k = true →
    g.types.contains k = true ∧ rep k = k

namespace Graph.StandsFor

theorem refl (g : Graph) : g.StandsFor g id where
  dangling _ := rfl
  fixed _ _ := rfl
  functions := by
    refine Table.ext_get? fun k => ?_
    rw [Table.get?_map]
    simp [FunctionSymbol.mapReferences]
  survives hget := ⟨_, hget, rfl, Iff.rfl⟩
  survivor hk := ⟨hk, rfl⟩

theorem trans (hgh : h.StandsFor g rep) (hhi : i.StandsFor h rep') :
    i.StandsFor g (rep' ∘ rep) where
  dangling r := (hhi.dangling _).trans (hgh.dangling r)
  fixed r hr := by
    have hfixed := hgh.fixed r hr
    have hdangling : h.isDangling r = true := by
      rw [← hr, ← hgh.dangling r, hfixed]
    rw [Function.comp, hfixed, hhi.fixed r hdangling]
  functions := by
    rw [hhi.functions, hgh.functions]
    refine Table.ext_get? fun k => ?_
    rw [Table.get?_map, Table.get?_map, Table.get?_map, Option.map_map]
    congr 1
    funext f
    simp [FunctionSymbol.mapReferences]
  survives hget := by
    obtain ⟨s, hs, hrefs, hcount⟩ := hgh.survives hget
    obtain ⟨u, hu, hrefs', hcount'⟩ := hhi.survives hs
    exact ⟨u, hu, hrefs'.trans hrefs, hcount'.trans hcount⟩
  survivor hk := by
    obtain ⟨hk, hrep'⟩ := hhi.survivor hk
    obtain ⟨hk, hrep⟩ := hgh.survivor hk
    exact ⟨hk, by rw [Function.comp, hrep, hrep']⟩

/-- Every survivor is its own. -/
theorem survives_self (hgh : h.StandsFor g rep) {k : UInt32} {s : TypeSymbol}
    (hs : h.types.get? k = some s) :
    ∃ t, g.types.get? k = some t
      ∧ s.references.filter h.isDangling = t.references.filter g.isDangling
      ∧ (s.Counted ↔ t.Counted) := by
  obtain ⟨hk, hrep⟩ := hgh.survivor (Table.contains_of_get? hs)
  obtain ⟨t, ht⟩ := Table.contains_iff.1 hk
  obtain ⟨s', hs', hsame⟩ := hgh.survives ht
  rw [hrep, hs] at hs'
  cases hs'
  exact ⟨t, ht, hsame⟩

/-- A graph and one that stands for it get one verdict. -/
theorem isSound_eq (hgh : h.StandsFor g rep) : h.isSound = g.isSound := by
  rw [Bool.eq_iff_iff, isSound_iff, isSound_iff]
  refine and_congr ?_ ⟨?_, ?_⟩
  · rw [hgh.functions, Table.values_map, List.forall_mem_map]
    refine forall₂_congr fun f _ => ?_
    rw [FunctionSymbol.references_mapReferences,
      filter_isDangling_map hgh.dangling hgh.fixed]
  · intro hall t ht
    obtain ⟨k, hget⟩ := Table.mem_values.1 ht
    obtain ⟨s, hs, hrefs, hcount⟩ := hgh.survives hget
    obtain ⟨hnone, hcounted⟩ := hall s (Table.mem_values.2 ⟨_, hs⟩)
    exact ⟨hrefs.symm.trans hnone, hcount.1 hcounted⟩
  · intro hall s hs
    obtain ⟨k, hget⟩ := Table.mem_values.1 hs
    obtain ⟨t, ht, hrefs, hcount⟩ := hgh.survives_self hget
    obtain ⟨hnone, hcounted⟩ := hall t (Table.mem_values.2 ⟨_, ht⟩)
    exact ⟨hrefs.trans hnone, hcount.2 hcounted⟩

end Graph.StandsFor

namespace Merge

-- ============================================================= a pass

/-- Types of equal content refer to the same types. -/
theorem references_eq_of_content {s t : TypeSymbol}
    (hst : s.content = t.content) : s.references = t.references := by
  have hids : ∀ u : TypeSymbol,
      u.references = u.content.fields.map FieldContent.typeId
        ++ [u.content.aliasOf] := by
    intro u
    simp [TypeSymbol.references, TypeSymbol.content, Field.content,
      Function.comp_def]
  rw [hids, hids, hst]

/-- Types of equal content have right counts or wrong ones alike. -/
theorem counted_iff_of_content {s t : TypeSymbol}
    (hst : s.content = t.content) : s.Counted ↔ t.Counted := by
  have hcount : s.fieldCount = t.fieldCount :=
    congrArg Content.fieldCount hst
  have hlength : s.fields.length = t.fields.length := by
    simpa [TypeSymbol.content] using
      congrArg (fun c => c.fields.length) hst
  unfold TypeSymbol.Counted
  rw [hcount, hlength]

theorem counted_mapReferences (r : UInt32 → UInt32) (t : TypeSymbol) :
    (t.mapReferences r).Counted ↔ t.Counted := by
  simp [TypeSymbol.Counted, TypeSymbol.mapReferences]

theorem isDangling_collapse_leader (g : Graph) (r : UInt32) :
    (g.collapse (leader g.types)).isDangling (leader g.types r)
      = g.isDangling r := by
  rw [Bool.eq_iff_iff, Graph.isDangling_eq_true_iff,
    Graph.isDangling_eq_true_iff]
  cases hr : g.types.contains r with
  | true => simp [contains_leader hr]
  | false => simp [leader_of_not_key hr, not_contains_collapse hr]

theorem leader_eq_of_isDangling {r : UInt32} (hr : g.isDangling r = true) :
    leader g.types r = r :=
  leader_of_not_key (Graph.isDangling_eq_true_iff.1 hr).2

/-- A dropped type has its defects in common with its leader, which
stays. -/
theorem standsFor_pass (digest : Content → UInt64) (g : Graph) :
    (pass digest g).value.1.StandsFor g (leader g.types) := by
  rw [pass_value]
  constructor
  · exact isDangling_collapse_leader g
  · exact fun _ => leader_eq_of_isDangling
  · rfl
  · intro k t hget
    obtain ⟨s, hs, hst, -⟩ := leader_spec hget
    refine ⟨s.mapReferences (leader g.types),
      get?_collapse_eq_some_iff.2 ⟨leader_leader g.types k, s, hs, rfl⟩,
      ?_, ?_⟩
    · rw [TypeSymbol.references_mapReferences, Graph.filter_isDangling_map
        (isDangling_collapse_leader g) fun _ => leader_eq_of_isDangling,
        references_eq_of_content hst]
    · rw [← counted_iff_of_content hst]
      exact counted_mapReferences ..
  · exact fun hk => (contains_collapse_iff.1 hk).symm

-- ============================================================== a run

/-- What is left when no pass drops anything more stands for the graph at
the start. -/
theorem standsFor_run (digest : Content → UInt64) (g : Graph) :
    ∃ rep, (run digest g).value.1.StandsFor g rep := by
  induction g using pass_induction digest with
  | last g hlast =>
      rw [run_value_of_pass, if_pos hlast]
      exact ⟨id, .refl g⟩
  | more g hmore ih =>
      obtain ⟨rep, hrep⟩ := ih
      rw [run_value_of_pass, if_neg hmore]
      exact ⟨rep ∘ leader g.types, (standsFor_pass digest g).trans hrep⟩

/-- The check comes to one verdict before a pass and after it, and before
a run and after it; for every type, dropped or kept, one is left that has
the same dangling references and the same fault in its count. -/
theorem verify_value_of_merged (digest : Content → UInt64) (g : Graph) :
    (pass digest g).value.1.verify.value = g.verify.value
      ∧ (run digest g).value.1.verify.value = g.verify.value
      ∧ (pass digest g).value.1.StandsFor g (leader g.types)
      ∧ ∃ rep, (run digest g).value.1.StandsFor g rep := by
  have hpass := standsFor_pass digest g
  obtain ⟨rep, hrun⟩ := standsFor_run digest g
  exact ⟨hpass.isSound_eq, hrun.isSound_eq, hpass, rep, hrun⟩

end Merge

end SymbolGraph
