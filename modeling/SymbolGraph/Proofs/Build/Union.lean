/-
The union of what several readers build. Along the steps of a reader that asks
for functions with ids of its own only, the whole stays the base and the part
together (`Within.beside`), and the part stays the reader's own (`Within.own`).

A sequence of readers is then a matter of lists of graphs. `Builder.Gathers`
says what a builder holds after some parts have been built onto a base, and one
more part in front of them is one step of an induction
(`Builder.Gathers.cons`). What is gathered onto the empty builder is the union
of the parts (`Graph.IsUnion`).
-/
import SymbolGraph.Proofs.Build.Beside
import SymbolGraph.Proofs.Build.Steps

namespace SymbolGraph

variable {σ H ε α β : Type}

open Build

-- ================================================================= steps

namespace Build

variable {source : Source σ H ε} {ids : UInt32 → Prop} {types : H → Prop}
  {functions : FunctionNode H → Prop} {x : Step σ α} {base part whole : Builder}

/-- What a step adds is the reader's own, and nothing stays in progress. -/
theorem Within.own (h : Within source types functions x)
    (hsource : source.Confined ids) (hids : ∀ node, functions node → ids node.id)
    (s : Builder × σ) (hidle : s.1.inProgress = []) (hown : s.1.Own ids) :
    (x s).value.2.1.inProgress = [] ∧ (x s).value.2.1.Own ids := by
  induction h generalizing s with
  | pure | lift => exact ⟨hidle, hown⟩
  | after _ ih => exact ih s hidle hown
  | bind _ _ ihx ihf =>
      obtain ⟨hidle', hown'⟩ := ihx s hidle hown
      exact ihf _ _ hidle' hown'
  | type h _ =>
      have hbuilds := builderType_builds source h s hidle
      exact ⟨hbuilds.inProgress_eq.trans hidle, hbuilds.own hsource hown⟩
  | function node hnode =>
      cases hstored : s.1.graph.functions.contains node.id with
      | true =>
          rw [function_value_of_contains source hstored]
          exact ⟨hidle, hown⟩
      | false =>
          obtain ⟨answers, inner, hbuilds, hvalue⟩ :=
            function_builds source hidle hstored
          rw [hvalue]
          have hinner := hbuilds.own hsource hown
          refine ⟨hbuilds.inProgress_eq.trans hidle, hinner.types, ?_,
            hinner.pointerCount⟩
          intro k f hget
          rcases Table.get?_insert_eq_some_iff.1 hget with ⟨rfl, -⟩ | ⟨-, hget⟩
          · exact hids node hnode
          · exact hinner.functions k f hget

theorem beside_storeFunction (h : Beside base part whole) (id : UInt32)
    (f : FunctionSymbol) :
    Beside base (part.storeFunction id f) (whole.storeFunction id f) :=
  { h with functions := Joined.insert h.functions rfl }

/-- A step answers in the part what it answers in the whole. -/
theorem Within.beside (h : Within source types functions x)
    (hsource : source.Confined ids) (hids : ∀ node, functions node → ids node.id)
    (hfree : base.Free ids)
    (hidle : part.inProgress = []) (hbeside : Beside base part whole) (st : σ) :
    ∃ a st' part' whole', (x (part, st)).value = (a, part', st')
      ∧ (x (whole, st)).value = (a, whole', st')
      ∧ part'.inProgress = [] ∧ Beside base part' whole' := by
  induction h generalizing part whole st with
  | pure a => exact ⟨a, st, part, whole, rfl, rfl, hidle, hbeside⟩
  | lift l => exact ⟨l.value, st, part, whole, rfl, rfl, hidle, hbeside⟩
  | after _ ih => exact ih hidle hbeside st
  | bind _ _ ihx ihf =>
      obtain ⟨a, st', part', whole', hpart, hwhole, hidle', hbeside'⟩ :=
        ihx hidle hbeside st
      simp only [step_bind, hpart, hwhole]
      exact ihf a hidle' hbeside' st'
  | type h _ =>
      have hpart := builderType_builds source h (part, st) hidle
      have hwhole := builderType_builds source h (whole, st)
        (hbeside.inProgress.trans hidle)
      obtain ⟨whole', hbuilds, hbeside'⟩ :=
        hpart.beside hsource hfree hbeside
      obtain ⟨hanswers, hstates⟩ := hwhole.unique hbuilds
      refine ⟨_, _, _, whole', rfl, ?_, hpart.inProgress_eq.trans hidle,
        hbeside'⟩
      exact Prod.ext (List.singleton_inj.1 hanswers) hstates
  | function node hnode =>
      have hidle' : whole.inProgress = [] := hbeside.inProgress.trans hidle
      have hstored : whole.graph.functions.contains node.id
          = part.graph.functions.contains node.id :=
        (hbeside.functions node.id).isSome_eq (hfree node.id (hids node hnode)).2
      cases hpart : part.graph.functions.contains node.id with
      | true =>
          rw [hpart] at hstored
          exact ⟨node.id, st, part, whole,
            function_value_of_contains source hpart,
            function_value_of_contains source hstored, hidle, hbeside⟩
      | false =>
          rw [hpart] at hstored
          obtain ⟨answers, inner, hbuilds, hvalue⟩ :=
            function_builds source (s := (part, st)) hidle hpart
          obtain ⟨answers', inner', hbuilds', hvalue'⟩ :=
            function_builds source (s := (whole, st)) hidle' hstored
          obtain ⟨whole', hwhole, hbeside'⟩ :=
            hbuilds.beside hsource hfree hbeside
          obtain ⟨rfl, rfl⟩ := hbuilds'.unique hwhole
          exact ⟨_, _, _, _, hvalue, hvalue',
            hbuilds.inProgress_eq.trans hidle,
            beside_storeFunction hbeside' node.id _⟩

end Build

-- ================================================================ unions

/-- How many pointer types some graphs have together. -/
def Graph.allPointers (parts : List Graph) : Nat :=
  parts.foldr (fun part n => part.pointers + n) 0

theorem Graph.allPointers_cons (part : Graph) (parts : List Graph) :
    allPointers (part :: parts) = part.pointers + allPointers parts := rfl

/-- A type of one of the parts, renumbered by `n` and by all pointers of the
parts before it. -/
def Graph.Contributes (n : Nat) (parts : List Graph) (k : UInt32)
    (t : TypeSymbol) : Prop :=
  ∃ before part after t₀, parts = before ++ part :: after
    ∧ part.types.get? k = some t₀
    ∧ t₀.Renumbered (n + allPointers before) t

/-- The graphs have no keys in common. -/
def Graph.Apart (g g' : Graph) : Prop :=
  ∀ k, (g.types.contains k = true → g'.types.contains k = false)
    ∧ (g.functions.contains k = true → g'.functions.contains k = false)

/-- The disjoint union of some graphs. The pointers of each graph are numbered
behind those of the graphs before it. -/
structure Graph.IsUnion (parts : List Graph) (g : Graph) : Prop where
  apart : parts.Pairwise Apart
  contains : ∀ k, g.types.contains k = true
    ↔ ∃ part ∈ parts, part.types.contains k = true
  types : ∀ k t, g.types.get? k = some t ↔ Contributes 0 parts k t
  functions : ∀ k f, g.functions.get? k = some f
    ↔ ∃ part ∈ parts, part.functions.get? k = some f

/-- The builder holds the base and the parts, which were built onto it one
after another. -/
structure Builder.Gathers (base : Builder) (parts : List Graph) (b : Builder) :
    Prop where
  header : b.graph.header = base.graph.header
  contains : ∀ k, b.graph.types.contains k = true
    ↔ base.graph.types.contains k = true
      ∨ ∃ part ∈ parts, part.types.contains k = true
  types : ∀ k t, b.graph.types.get? k = some t
    ↔ base.graph.types.get? k = some t
      ∨ Graph.Contributes base.pointerCount parts k t
  functions : ∀ k f, b.graph.functions.get? k = some f
    ↔ base.graph.functions.get? k = some f
      ∨ ∃ part ∈ parts, part.functions.get? k = some f

theorem Graph.contributes_nil {n : Nat} {k : UInt32} {t : TypeSymbol} :
    ¬ Contributes n [] k t := by
  rintro ⟨before, part, after, t₀, hparts, -⟩
  cases List.append_eq_nil_iff.1 hparts.symm with
  | intro _ h => cases h

/-- The first part is renumbered by `n` alone, and the others by its pointers
too. -/
theorem Graph.contributes_cons {n : Nat} {p : Graph} {parts : List Graph}
    {k : UInt32} {t : TypeSymbol} :
    Contributes n (p :: parts) k t
      ↔ (∃ t₀, p.types.get? k = some t₀ ∧ t₀.Renumbered n t)
        ∨ Contributes (n + p.pointers) parts k t := by
  constructor
  · rintro ⟨before, part, after, t₀, hparts, hget, ht⟩
    rcases List.cons_eq_append_iff.1 hparts with
      ⟨rfl, hcons⟩ | ⟨before, rfl, hrest⟩
    · cases hcons
      exact .inl ⟨t₀, hget, ht⟩
    · refine .inr ⟨before, part, after, t₀, hrest, hget, ?_⟩
      rwa [allPointers_cons, ← Nat.add_assoc] at ht
  · rintro (⟨t₀, hget, ht⟩ | ⟨before, part, after, t₀, rfl, hget, ht⟩)
    · exact ⟨[], p, parts, t₀, rfl, hget, ht⟩
    · refine ⟨p :: before, part, after, t₀, rfl, hget, ?_⟩
      rwa [allPointers_cons, ← Nat.add_assoc]

namespace Builder

variable {base part mid b : Builder} {ids : UInt32 → Prop} {parts : List Graph}

theorem Gathers.nil (base : Builder) : base.Gathers [] base where
  header := rfl
  contains k := by simp
  types k t := (or_iff_left Graph.contributes_nil).symm
  functions k f := by simp

/-- What is free in the base, and not the reader's, is free in the whole. -/
theorem free_of_beside {ids' : UInt32 → Prop} (hbeside : Beside base part mid)
    (hown : part.Own ids) (hfree : base.Free ids')
    (hids : ∀ k, ids' k → ¬ ids k) : mid.Free ids' := by
  intro k hk
  obtain ⟨hbase, hbase'⟩ := hfree k hk
  obtain ⟨hpart, hpart'⟩ := hown.free hids k hk
  exact ⟨(hbeside.types k).eq_none hbase hpart,
    (hbeside.functions k).eq_none hbase' hpart'⟩

/-- Builders that hold different ids have graphs with no key in common. -/
theorem apart_of_own {b b' : Builder} {ids' : UInt32 → Prop} (h : b.Own ids)
    (h' : b'.Own ids') (hids : ∀ k, ids k → ¬ ids' k) :
    b.graph.Apart b'.graph := by
  have hfree : b'.Free ids := h'.free hids
  intro k
  constructor
  · intro hcontains
    obtain ⟨t, hget⟩ := Table.contains_iff.1 hcontains
    exact Table.get?_eq_none_iff.1 (hfree k (h.types k t hget)).1
  · intro hcontains
    obtain ⟨f, hget⟩ := Table.contains_iff.1 hcontains
    exact Table.get?_eq_none_iff.1 (hfree k (h.functions k f hget)).2

/-- A part that is built onto the base comes in front of those that are built
onto both. -/
theorem Gathers.cons (hbeside : Beside base part mid) (hown : part.Own ids)
    (hfree : base.Free ids) (h : mid.Gathers parts b) :
    base.Gathers (part.graph :: parts) b where
  header := h.header.trans hbeside.header
  contains k := by
    have hmid : mid.graph.types.contains k = true
        ↔ base.graph.types.contains k = true
          ∨ part.graph.types.contains k = true :=
      (hbeside.types k).isSome_iff
    simp only [h.contains, hmid, List.mem_cons, or_and_right, exists_or,
      exists_eq_left, or_assoc]
  types k t := by
    have hbase : (part.graph.types.get? k).isSome = true →
        base.graph.types.get? k = none := by
      intro hsome
      obtain ⟨t₀, hget⟩ := Option.isSome_iff_exists.1 hsome
      exact (hfree k (hown.types k t₀ hget)).1
    have hmid := (hbeside.types k).eq_some_iff (a := t)
      (fun _ _ _ => TypeSymbol.Renumbered.unique) hbase
    rw [h.types, hmid, hbeside.pointerCount, hown.pointerCount,
      Graph.contributes_cons, or_assoc]
  functions k f := by
    have hbase : (part.graph.functions.get? k).isSome = true →
        base.graph.functions.get? k = none := by
      intro hsome
      obtain ⟨f₀, hget⟩ := Option.isSome_iff_exists.1 hsome
      exact (hfree k (hown.functions k f₀ hget)).2
    have hmid := (hbeside.functions k).eq_some_iff (a := f)
      (fun _ _ _ h h' => h.symm.trans h') hbase
    simp only [exists_eq_right] at hmid
    simp only [h.functions, hmid, List.mem_cons, or_and_right, exists_or,
      exists_eq_left, or_assoc]

/-- What is built onto nothing is the union of the parts. -/
theorem Gathers.isUnion {header : Header} (h : (new header).Gathers parts b)
    (hapart : parts.Pairwise Graph.Apart) : Graph.IsUnion parts b.graph where
  apart := hapart
  contains k := (h.contains k).trans (or_iff_right nofun)
  types k t := (h.types k t).trans (or_iff_right nofun)
  functions k f := (h.functions k f).trans (or_iff_right nofun)

end Builder

end SymbolGraph
