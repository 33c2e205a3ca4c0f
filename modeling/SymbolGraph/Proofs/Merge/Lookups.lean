/-
Look-ups by name. Merging keeps one type of each class, and a look-up stops at
the first type of a name, so they could miss each other: a survivor that is not
the first of its class would be found later, or after a type of another class.
But types that are the same have one name, and the survivor has the least key of
its class. So the first type of a name has nothing of its class in front of it,
and is its own survivor (`IsRepresentative.first`). A look-up finds it under the
key under which it stood before.
-/
import SymbolGraph.Proofs.Merge.Run

namespace SymbolGraph

open Merge

variable {g : Graph} {rep : UInt32 → UInt32} {name : String} {k : UInt32}

-- ============================================================== first types

/-- The type has the name, and no type under a lesser key has. -/
abbrev Graph.FirstType (g : Graph) (name : String) : UInt32 → TypeSymbol → Prop :=
  g.types.IsFirst fun t => t.name == name

/-- The function has the name, and no function under a lesser key has. -/
abbrev Graph.FirstFunction (g : Graph) (name : String) :
    UInt32 → FunctionSymbol → Prop :=
  g.functions.IsFirst fun f => f.name == name

/-- No type in front of the first one of a name stands for it. -/
theorem Merge.IsRepresentative.first (hrep : IsRepresentative g.types rep)
    {t : TypeSymbol} (h : g.FirstType name k t) : rep k = k := by
  have hkey := Table.contains_of_get? h.stands
  obtain ⟨s, hs⟩ := Table.contains_iff.1 (hrep.fixed hkey).1
  have hname : t.name = s.name := ((hrep.same hkey).agrees h.stands hs).name
  have hle : k ≤ rep k := by
    refine h.least _ s hs ?_
    rw [← hname]
    exact h.satisfies
  exact UInt32.le_antisymm (hrep.le k) hle

theorem Graph.FirstType.collapse {t : TypeSymbol} (h : g.FirstType name k t)
    (hrep : IsRepresentative g.types rep) :
    (g.collapse rep).FirstType name k (t.mapReferences rep) where
  stands := get?_collapse_eq_some_iff.2 ⟨hrep.first h, t, h.stands, rfl⟩
  satisfies := h.satisfies
  least j u hu hname := by
    obtain ⟨-, s, hs, rfl⟩ := get?_collapse_eq_some_iff.1 hu
    exact h.least j s hs hname

theorem Graph.FirstFunction.collapse {f : FunctionSymbol}
    (h : g.FirstFunction name k f) (rep : UInt32 → UInt32) :
    (g.collapse rep).FirstFunction name k (f.mapReferences rep) := by
  have hget : ∀ j, (g.collapse rep).functions.get? j
      = (g.functions.get? j).map (·.mapReferences rep) := Table.get?_map _ _
  refine ⟨by rw [hget, h.stands]; rfl, h.satisfies, fun j u hu hname => ?_⟩
  rw [hget, Option.map_eq_some_iff] at hu
  obtain ⟨s, hs, rfl⟩ := hu
  exact h.least j s hs hname

-- ================================================================= look-ups

/-- A look-up finds the first type of the name, and the empty type if there is
none. -/
theorem Graph.typeByName_cases (g : Graph) (name : String) :
    (g.typeByName name = {} ∧ ∀ k t, g.types.get? k = some t → t.name ≠ name)
      ∨ ∃ k t, g.FirstType name k t := by
  unfold typeByName
  cases hfind : g.types.find? fun t => t.name == name with
  | none =>
      refine .inl ⟨rfl, fun k t hget => ?_⟩
      simpa using Table.find?_eq_none_iff.1 hfind k t hget
  | some t =>
      obtain ⟨k, hfirst⟩ := Table.isFirst_of_find? hfind
      exact .inr ⟨k, t, hfirst⟩

theorem Graph.functionByName_cases (g : Graph) (name : String) :
    (g.functionByName name = {}
        ∧ ∀ k f, g.functions.get? k = some f → f.name ≠ name)
      ∨ ∃ k f, g.FirstFunction name k f := by
  unfold functionByName
  cases hfind : g.functions.find? fun f => f.name == name with
  | none =>
      refine .inl ⟨rfl, fun k f hget => ?_⟩
      simpa using Table.find?_eq_none_iff.1 hfind k f hget
  | some f =>
      obtain ⟨k, hfirst⟩ := Table.isFirst_of_find? hfind
      exact .inr ⟨k, f, hfirst⟩

theorem Graph.FirstType.typeByName_eq {t : TypeSymbol}
    (h : g.FirstType name k t) : g.typeByName name = t := by
  unfold Graph.typeByName
  rw [h.find?_eq]
  rfl

theorem Graph.FirstFunction.functionByName_eq {f : FunctionSymbol}
    (h : g.FirstFunction name k f) : g.functionByName name = f := by
  unfold Graph.functionByName
  rw [h.find?_eq]
  rfl

/-- Merging does not change what a look-up by name finds. It is the empty symbol
before and after, or the first symbol of the name, which keeps its key and is
the first one afterwards; only its references are redirected, each from a key to
a key that is left and whose type is the same, and from no other number. -/
theorem Merge.run_lookups (digest : Content → UInt64) (g : Graph) :
    let merged := (run digest g).value.1
    ∃ rep : UInt32 → UInt32,
      (∀ r, g.types.contains r = false → rep r = r)
      ∧ (∀ r, g.types.contains r = true →
        Same g.types r (rep r) ∧ merged.types.contains (rep r) = true)
      ∧ (∀ name,
        (g.typeByName name = {} ∧ merged.typeByName name = {}
            ∧ ∀ k t, g.types.get? k = some t → t.name ≠ name)
          ∨ ∃ k t, g.FirstType name k t
            ∧ merged.FirstType name k (t.mapReferences rep)
            ∧ g.typeByName name = t
            ∧ merged.typeByName name = t.mapReferences rep)
      ∧ ∀ name,
        (g.functionByName name = {} ∧ merged.functionByName name = {}
            ∧ ∀ k f, g.functions.get? k = some f → f.name ≠ name)
          ∨ ∃ k f, g.FirstFunction name k f
            ∧ merged.FirstFunction name k (f.mapReferences rep)
            ∧ g.functionByName name = f
            ∧ merged.functionByName name = f.mapReferences rep := by
  intro merged
  obtain ⟨rep, hrep, hrun⟩ := run_value digest g
  have hmerged : merged = g.collapse rep := congrArg Prod.fst hrun
  rw [hmerged]
  refine ⟨rep, fun r => hrep.of_not_key, fun r hr => ⟨hrep.same hr, ?_⟩,
    fun name => ?_, fun name => ?_⟩
  · obtain ⟨hkey, hfixed⟩ := hrep.fixed hr
    exact contains_collapse_iff.2 ⟨hfixed, hkey⟩
  · rcases g.typeByName_cases name with ⟨hempty, hnone⟩ | ⟨k, t, hfirst⟩
    · refine .inl ⟨hempty, ?_, hnone⟩
      rcases (g.collapse rep).typeByName_cases name with ⟨h, -⟩ | ⟨k, t, h⟩
      · exact h
      · obtain ⟨-, s, hs, rfl⟩ := get?_collapse_eq_some_iff.1 h.stands
        exact absurd (beq_iff_eq.1 h.satisfies) (hnone k s hs)
    · have hafter := hfirst.collapse hrep
      exact .inr ⟨k, t, hfirst, hafter, hfirst.typeByName_eq,
        hafter.typeByName_eq⟩
  · rcases g.functionByName_cases name with ⟨hempty, hnone⟩ | ⟨k, f, hfirst⟩
    · refine .inl ⟨hempty, ?_, hnone⟩
      rcases (g.collapse rep).functionByName_cases name with ⟨h, -⟩ | ⟨k, f, h⟩
      · exact h
      · have hget : (g.functions.map (·.mapReferences rep)).get? k = some f :=
          h.stands
        rw [Table.get?_map, Option.map_eq_some_iff] at hget
        obtain ⟨s, hs, rfl⟩ := hget
        exact absurd (beq_iff_eq.1 h.satisfies) (hnone k s hs)
    · have hafter := hfirst.collapse rep
      exact .inr ⟨k, f, hfirst, hafter, hfirst.functionByName_eq,
        hafter.functionByName_eq⟩

end SymbolGraph
