/-
What merging keeps. A merged graph is a collapsed one (`merge_value`), and
a collapse only drops types and redirects references: header, ids and
lengths stay. Merging what has been merged drops nothing: no two of its
types are the same any more, so each is the least of its class
(`merge_merge`).
-/
import SymbolGraph.Proofs.Codec.Binary
import SymbolGraph.Proofs.Merge.Verdict

namespace SymbolGraph

variable {g : Graph} {rep : UInt32 → UInt32}

-- ========================================================== one collapse

/-- The types of a collapsed graph are types of the graph, with their
references redirected. -/
theorem Graph.of_mem_collapse_types {t : TypeSymbol}
    (h : t ∈ (g.collapse rep).types.values) :
    ∃ s ∈ g.types.values, t = s.mapReferences rep := by
  obtain ⟨k, hget⟩ := Table.mem_values.1 h
  obtain ⟨-, s, hs, ht⟩ := Merge.get?_collapse_eq_some_iff.1 hget
  exact ⟨s, Table.mem_values.2 ⟨k, hs⟩, ht⟩

theorem Graph.collapse_functions_values (rep : UInt32 → UInt32) (g : Graph) :
    (g.collapse rep).functions.values
      = g.functions.values.map (·.mapReferences rep) :=
  Table.values_map _ _

/-- Symbols that stand under their ids stay there. -/
theorem Graph.Indexed.collapse (h : g.Indexed) (rep : UInt32 → UInt32) :
    (g.collapse rep).Indexed where
  types k t hget := by
    obtain ⟨-, s, hs, rfl⟩ := Merge.get?_collapse_eq_some_iff.1 hget
    exact h.types k s hs
  functions k f hget := by
    have hget : (g.functions.map (·.mapReferences rep)).get? k = some f := hget
    rw [Table.get?_map, Option.map_eq_some_iff] at hget
    obtain ⟨s, hs, rfl⟩ := hget
    exact h.functions k s hs

theorem TypeSymbol.Countable.mapReferences {t : TypeSymbol}
    (h : t.Countable) (r : UInt32 → UInt32) :
    (t.mapReferences r).Countable where
  name := h.name
  fields := by
    show (t.fields.map _).length < 2 ^ 64
    rw [List.length_map]
    exact h.fields
  fieldNames := by
    intro f hf
    obtain ⟨s, hs, rfl⟩ := List.mem_map.1 hf
    exact h.fieldNames s hs

theorem FunctionSymbol.Countable.mapReferences {f : FunctionSymbol}
    (h : f.Countable) (r : UInt32 → UInt32) :
    (f.mapReferences r).Countable where
  name := h.name
  argumentTypes := by
    show (f.argumentTypes.map r).length < 2 ^ 64
    rw [List.length_map]
    exact h.argumentTypes

theorem Graph.Countable.collapse (h : g.Countable) (rep : UInt32 → UInt32) :
    (g.collapse rep).Countable where
  types := by
    intro t ht
    obtain ⟨s, hs, rfl⟩ := Graph.of_mem_collapse_types ht
    exact (h.types s hs).mapReferences rep
  functions := by
    intro f hf
    rw [Graph.collapse_functions_values] at hf
    obtain ⟨s, hs, rfl⟩ := List.mem_map.1 hf
    exact (h.functions s hs).mapReferences rep

namespace Merge

/-- There is only one choice of least keys. -/
theorem IsRepresentative.unique {rep' : UInt32 → UInt32}
    (h : IsRepresentative g.types rep) (h' : IsRepresentative g.types rep') :
    rep = rep' := by
  funext k
  cases hk : g.types.contains k with
  | true =>
      exact UInt32.le_antisymm (h.least (h'.same hk)) (h'.least (h.same hk))
  | false => rw [h.of_not_key hk, h'.of_not_key hk]

/-- A run on what a run has left drops nothing. -/
theorem run_run (digest : Content → UInt64) (g : Graph) :
    (run digest (run digest g).value.1).value
      = ((run digest g).value.1, 0) := by
  induction g using pass_induction digest with
  | last g h =>
      have hrun : (run digest g).value = (g, 0) := by
        rw [run_value_of_pass, if_pos h]
      rw [hrun]
      exact hrun
  | more g h ih =>
      have hrun : (run digest g).value.1
          = (run digest (pass digest g).value.1).value.1 := by
        rw [run_value_of_pass, if_neg h]
      rw [hrun]
      exact ih

end Merge

-- ============================================================== merging

namespace Graph

/-- A merged graph is the graph collapsed onto its least keys. -/
theorem merge_value (g : Graph) :
    ∃ rep, Merge.IsRepresentative g.types rep
      ∧ g.merge.value.1 = g.collapse rep := by
  obtain ⟨rep, hrep, hrun⟩ := Merge.run_value Content.digest g
  exact ⟨rep, hrep, congrArg Prod.fst hrun⟩

theorem merge_header (g : Graph) : g.merge.value.1.header = g.header := by
  obtain ⟨rep, -, hmerge⟩ := g.merge_value
  rw [hmerge]
  rfl

theorem Indexed.merge (h : g.Indexed) : g.merge.value.1.Indexed := by
  obtain ⟨rep, -, hmerge⟩ := g.merge_value
  rw [hmerge]
  exact h.collapse rep

theorem Countable.merge (h : g.Countable) : g.merge.value.1.Countable := by
  obtain ⟨rep, -, hmerge⟩ := g.merge_value
  rw [hmerge]
  exact h.collapse rep

/-- Merging leaves a sound graph sound. -/
theorem isSound_merge (h : g.isSound = true) :
    g.merge.value.1.isSound = true := by
  obtain ⟨rep, hstands⟩ := Merge.standsFor_run Content.digest g
  exact hstands.isSound_eq.trans h

/-- Merging a second time drops nothing and changes nothing. -/
theorem merge_merge (g : Graph) :
    g.merge.value.1.merge.value = (g.merge.value.1, 0) :=
  Merge.run_run Content.digest g

/-- The selected format takes no part in merging. -/
theorem merge_withFormat (g : Graph) (format : Option Format) :
    ({ g with format }.merge.value.1 : Graph)
      = { g.merge.value.1 with format } := by
  obtain ⟨rep, hrep, hmerge⟩ := g.merge_value
  obtain ⟨rep', hrep', hmerge'⟩ := merge_value { g with format }
  rw [hmerge, hmerge', hrep.unique hrep']
  rfl

end Graph

end SymbolGraph
