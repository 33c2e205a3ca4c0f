/-
All passes together: merging collapses a graph onto the least keys of its
classes of same types.

Each pass collapses the graph onto its leaders, and collapsing twice is
collapsing once, along both steps (`collapse_collapse`). So the run as a
whole is one collapse, and the only question is along what. When a pass
drops nothing, every type is the same as itself only, so the identity
picks least keys. And if `rep` picks them after a pass, then `rep` of the
leader does before it, since the pass keeps sameness and a leader is not
above what it leads (`isRepresentative_comp`).

The run is bounded by the size of the type table, which each pass but the
last makes smaller; `Passes` is the loop without that bound, and the run
is one of its runs (`passes_run`).
-/
import SymbolGraph.Proofs.Merge.Congruence

namespace SymbolGraph.Merge

variable {types : Table TypeSymbol} {g : Graph} {rep : UInt32 → UInt32}
  {a b k : UInt32}

-- ==================================================== representatives

/-- `rep` sends every key to the least key of its class, and leaves every
other number alone. -/
structure IsRepresentative (types : Table TypeSymbol)
    (rep : UInt32 → UInt32) : Prop where
  of_not_key : ∀ {k}, types.contains k = false → rep k = k
  same : ∀ {k}, types.contains k = true → Same types k (rep k)
  least : ∀ {k j}, Same types k j → rep k ≤ j

theorem IsRepresentative.le (h : IsRepresentative types rep) (k : UInt32) :
    rep k ≤ k := by
  cases hk : types.contains k with
  | true => exact h.least ((same_isCongruence types).refl hk)
  | false =>
      rw [h.of_not_key hk]
      exact UInt32.le_refl k

/-- The types that stand for themselves are the least of their classes. -/
theorem IsRepresentative.eq_self_iff (h : IsRepresentative types rep)
    (hk : types.contains k = true) :
    rep k = k ↔ ∀ j, Same types k j → k ≤ j := by
  constructor
  · intro hself j hj
    rw [← hself]
    exact h.least hj
  · intro hleast
    exact UInt32.le_antisymm (h.le k) (hleast _ (h.same hk))

/-- Keys are the same just if one key stands for both. -/
theorem IsRepresentative.eq_iff (hrep : IsRepresentative types rep)
    (ha : types.contains a = true) (hb : types.contains b = true) :
    rep a = rep b ↔ Same types a b := by
  have hsame := same_isCongruence types
  constructor
  · intro heq
    have hab := hrep.same ha
    rw [heq] at hab
    exact hsame.trans hab (hsame.symm (hrep.same hb))
  · intro hab
    exact UInt32.le_antisymm (hrep.least (hsame.trans hab (hrep.same hb)))
      (hrep.least (hsame.trans (hsame.symm hab) (hrep.same ha)))

/-- What stands for a key is a key, and stands for itself. -/
theorem IsRepresentative.fixed (hrep : IsRepresentative types rep)
    (ha : types.contains a = true) :
    types.contains (rep a) = true ∧ rep (rep a) = rep a := by
  have hsame := same_isCongruence types
  have haa := hrep.same ha
  have hkey := (hsame.keys haa).2
  exact ⟨hkey, (hrep.eq_iff hkey ha).2 (hsame.symm haa)⟩

theorem isRepresentative_id (hself : ∀ k, leader types k = k) :
    IsRepresentative types id where
  of_not_key _ := rfl
  same h := (same_isCongruence types).refl h
  least h := by
    rw [eq_of_same hself h]
    exact UInt32.le_refl _

/-- What picks least keys after a pass picks, of the leaders, the least
keys before it. -/
theorem isRepresentative_comp
    (h : IsRepresentative (g.collapse (leader g.types)).types rep) :
    IsRepresentative g.types (rep ∘ leader g.types) := by
  have hafter := same_isCongruence (g.collapse (leader g.types)).types
  constructor
  · intro k hk
    rw [Function.comp, leader_of_not_key hk,
      h.of_not_key (not_contains_collapse hk)]
  · intro k hk
    have hsame := h.same (contains_leader hk)
    -- the least key of the class is a leader itself
    obtain ⟨hself, hrep⟩ := contains_collapse_iff.1 (hafter.keys hsame).2
    refine (same_leaders_iff hk hrep).1 ?_
    rw [hself]
    exact hsame
  · intro k j hkj
    exact UInt32.le_trans (h.least (same_leaders_of_same hkj))
      (leader_le g.types j)

-- =================================================== collapsing twice

theorem map_mapReferences (f : UInt32 → UInt32) (t : TypeSymbol) :
    (t.mapReferences f).mapReferences rep = t.mapReferences (rep ∘ f) := by
  simp [TypeSymbol.mapReferences]

/-- Collapsing along decreasing steps twice is collapsing along both: what
both steps together leave alone, each leaves alone. -/
theorem collapse_collapse {f : UInt32 → UInt32} (hf : ∀ k, f k ≤ k)
    (hrep : ∀ k, rep k ≤ k) (g : Graph) :
    (g.collapse f).collapse rep = g.collapse (rep ∘ f) := by
  have hfixed : ∀ k, rep (f k) = k ↔ rep k = k ∧ f k = k := by
    intro k
    constructor
    · intro h
      have hfk : f k = k :=
        UInt32.le_antisymm (hf k) (by
          calc k = rep (f k) := h.symm
            _ ≤ f k := hrep (f k))
      rw [hfk] at h
      exact ⟨h, hfk⟩
    · rintro ⟨hk, hfk⟩
      rw [hfk, hk]
  have htypes : ((g.collapse f).collapse rep).types
      = (g.collapse (rep ∘ f)).types := by
    refine Table.ext_get? fun k => ?_
    rw [get?_collapse, get?_collapse, get?_collapse]
    by_cases hk : rep (f k) = k
    · obtain ⟨h1, h2⟩ := (hfixed k).1 hk
      rw [if_pos h1, if_pos h2, Function.comp, if_pos hk, Option.map_map]
      congr 1
      funext t
      exact map_mapReferences f t
    · rw [Function.comp, if_neg hk]
      by_cases h1 : rep k = k
      · have h2 : f k ≠ k := fun h2 => hk ((hfixed k).2 ⟨h1, h2⟩)
        rw [if_pos h1, if_neg h2]
        rfl
      · rw [if_neg h1]
  have hfunctions : ((g.collapse f).collapse rep).functions
      = (g.collapse (rep ∘ f)).functions := by
    refine Table.ext_get? fun k => ?_
    show ((g.functions.map (·.mapReferences f)).map
        (·.mapReferences rep)).get? k
      = (g.functions.map (·.mapReferences (rep ∘ f))).get? k
    rw [Table.get?_map, Table.get?_map, Table.get?_map, Option.map_map]
    congr 1
    funext φ
    simp [FunctionSymbol.mapReferences]
  exact Graph.ext rfl htypes hfunctions rfl

-- =========================================================== counting

theorem keys_collapse (rep : UInt32 → UInt32) (g : Graph) :
    (g.collapse rep).types.keys
      = g.types.keys.filter fun k => rep k == k := by
  show ((g.types.map (·.mapReferences rep)).filterKeys _).keys = _
  rw [Table.keys_filterKeys, Table.keys_map]

/-- A collapse drops the keys that something else stands for. -/
theorem size_collapse (rep : UInt32 → UInt32) (g : Graph) :
    (g.collapse rep).types.size
        + (g.types.keys.filter fun k => rep k != k).length
      = g.types.size := by
  rw [← Table.length_keys, ← Table.length_keys, keys_collapse]
  have hsplit := List.length_eq_length_filter_add (l := g.types.keys)
    fun k => rep k == k
  rw [hsplit]
  rfl

-- ============================================================ the run

/-- Passes until one drops nothing, from a graph to the graph and the
count that they end with. -/
inductive Passes (digest : Content → UInt64) : Graph → Graph × Nat → Prop
  | last {g : Graph} : (pass digest g).value.2 = 0 →
      Passes digest g ((pass digest g).value.1, 0)
  | more {g : Graph} {r : Graph × Nat} : (pass digest g).value.2 ≠ 0 →
      Passes digest (pass digest g).value.1 r →
      Passes digest g (r.1, (pass digest g).value.2 + r.2)

/-- A pass that drops something leaves a smaller table, and only such a
pass does. -/
theorem size_pass_lt_iff (digest : Content → UInt64) (g : Graph) :
    (pass digest g).value.1.types.size < g.types.size
      ↔ (pass digest g).value.2 ≠ 0 := by
  have hsize := size_collapse (leader g.types) g
  rw [pass_value]
  show (g.collapse (leader g.types)).types.size < g.types.size
    ↔ (g.types.keys.filter fun k => leader g.types k != k).length ≠ 0
  omega

theorem run_value_of_pass (digest : Content → UInt64) (g : Graph) :
    (run digest g).value
      = if (pass digest g).value.2 = 0 then (g, 0)
        else ((run digest (pass digest g).value.1).value.1,
          (pass digest g).value.2
            + (run digest (pass digest g).value.1).value.2) := by
  have hlt := size_pass_lt_iff digest g
  rw [run]
  by_cases h : (pass digest g).value.2 = 0
  · rw [if_neg (fun hsize => hlt.1 hsize h), if_pos h]
    rfl
  · rw [if_pos (hlt.2 h), if_neg h]
    rfl

theorem leader_eq_self_of_pass {digest : Content → UInt64}
    (h : (pass digest g).value.2 = 0) (k : UInt32) :
    leader g.types k = k := by
  by_contra hk
  rw [pass_value] at h
  have := mem_followers.2 hk
  rw [List.length_eq_zero_iff.1 h] at this
  cases this

/-- Induction over the passes of a run: what holds of a graph whose pass
drops nothing, and of every graph if it does of what its pass leaves,
holds of every graph. -/
theorem pass_induction (digest : Content → UInt64) {P : Graph → Prop}
    (last : ∀ g, (pass digest g).value.2 = 0 → P g)
    (more : ∀ g, (pass digest g).value.2 ≠ 0 →
      P (pass digest g).value.1 → P g) (g : Graph) : P g := by
  induction hn : g.types.size using Nat.strongRecOn generalizing g with
  | _ n ih =>
      by_cases h : (pass digest g).value.2 = 0
      · exact last g h
      · have hlt := (size_pass_lt_iff digest g).2 h
        exact more g h (ih _ (hn ▸ hlt) _ rfl)

/-- The loop ends, and with what the run answers. -/
theorem passes_run (digest : Content → UInt64) (g : Graph) :
    Passes digest g (run digest g).value := by
  induction g using pass_induction digest with
  | last g h =>
      rw [run_value_of_pass, if_pos h]
      have hpass : (pass digest g).value.1 = g := by
        rw [pass_value]
        exact collapse_eq_self (leader_eq_self_of_pass h) g
      have := Passes.last h
      rwa [hpass] at this
  | more g h ih =>
      rw [run_value_of_pass, if_neg h]
      exact .more h ih

/-- A run is one collapse, onto the least keys of the classes. -/
theorem run_value (digest : Content → UInt64) (g : Graph) :
    ∃ rep, IsRepresentative g.types rep
      ∧ (run digest g).value
        = (g.collapse rep,
            (g.types.keys.filter fun k => rep k != k).length) := by
  induction g using pass_induction digest with
  | last g h =>
      refine ⟨id, isRepresentative_id (leader_eq_self_of_pass h), ?_⟩
      have hself : g.collapse id = g := collapse_eq_self (fun _ => rfl) g
      rw [run_value_of_pass, if_pos h, hself]
      simp
  | more g h ih =>
      rw [pass_value] at ih
      obtain ⟨rep, hrep, hrun⟩ := ih
      refine ⟨rep ∘ leader g.types, isRepresentative_comp hrep, ?_⟩
      have hcollapse :=
        collapse_collapse (leader_le g.types) hrep.le g
      rw [run_value_of_pass, if_neg h, pass_value, hrun, hcollapse]
      refine Prod.ext rfl ?_
      -- both counts are what the table lost
      have hfirst := size_collapse (leader g.types) g
      have hrest := size_collapse rep (g.collapse (leader g.types))
      have hboth := size_collapse (rep ∘ leader g.types) g
      rw [hcollapse] at hrest
      show (g.types.keys.filter fun k => leader g.types k != k).length
          + ((g.collapse (leader g.types)).types.keys.filter
              fun k => rep k != k).length
        = (g.types.keys.filter
            fun k => (rep ∘ leader g.types) k != k).length
      omega

/-- Merging ends. It keeps the least key of every class of same types,
sends every reference to the least key of its class, changes nothing else,
and counts the dropped keys. -/
theorem run_collapses_to_least (digest : Content → UInt64) (g : Graph) :
    IsLeast {r | IsCongruence g.types r} (Same g.types)
      ∧ Passes digest g (run digest g).value
      ∧ ∃ rep : UInt32 → UInt32,
        (∀ k, g.types.contains k = false → rep k = k)
        ∧ (∀ k, g.types.contains k = true →
            IsLeast {j | Same g.types k j} (rep k))
        ∧ (run digest g).value.1 = g.collapse rep
        ∧ (∀ k, (run digest g).value.1.types.contains k = true
            ↔ g.types.contains k = true ∧ ∀ j, Same g.types k j → k ≤ j)
        ∧ (run digest g).value.2 = (g.types.keys.filter fun k =>
            !(run digest g).value.1.types.contains k).length := by
  obtain ⟨rep, hrep, hrun⟩ := run_value digest g
  refine ⟨same_isLeast g.types, passes_run digest g, rep,
    fun _ h => hrep.of_not_key h,
    fun _ h => ⟨hrep.same h, fun _ hj => hrep.least hj⟩, ?_, ?_, ?_⟩
  · rw [hrun]
  · intro k
    rw [hrun]
    show (g.collapse rep).types.contains k = true ↔ _
    rw [contains_collapse_iff]
    constructor
    · rintro ⟨hself, hk⟩
      exact ⟨hk, (hrep.eq_self_iff hk).1 hself⟩
    · rintro ⟨hk, hleast⟩
      exact ⟨(hrep.eq_self_iff hk).2 hleast, hk⟩
  · rw [hrun]
    show (g.types.keys.filter _).length = _
    congr 1
    refine List.filter_congr fun k hk => ?_
    have hkey := Table.mem_keys.1 hk
    have hiff : (g.collapse rep).types.contains k = true
        ↔ rep k = k ∧ g.types.contains k = true := contains_collapse_iff
    by_cases hself : rep k = k
    · have := hiff.2 ⟨hself, hkey⟩
      simp [hself, this]
    · have : (g.collapse rep).types.contains k = false := by
        by_contra hkept
        exact hself (hiff.1 (by simpa using hkept)).1
      simp [hself, this]

end SymbolGraph.Merge
