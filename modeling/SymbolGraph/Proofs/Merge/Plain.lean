/-
One pass as one would write it down at first (`plainPass`): every type is
compared with every type, member by member, no digest is taken and nothing is
remembered on the way. The pass that sorts the types into buckets comes to the
same, for every digest, good, bad or constant.

Two things make it so. Types are equal member by member just if their contents
are equal (`equals_iff`), so this is an equivalence, and equal types have one
digest, whatever it is. And the scan finds in a bucket what it would find
in the whole table (`Tracks`), which is what `pass_value` says of it.
-/
import SymbolGraph.Proofs.Merge.Pass

namespace SymbolGraph

-- =================================================== member by member

/-- The fields are equal in all members but their ids. -/
def Field.equals (a b : Field) : Bool :=
  a.typeId == b.typeId && a.offset == b.offset && a.name == b.name
    && a.inAnonymousUnion == b.inAnonymousUnion && a.unionId == b.unionId

/-- The types have equal length, field count, name and aliased type, and as
many fields, which are equal one by one. -/
def TypeSymbol.equals (a b : TypeSymbol) : Bool :=
  a.length == b.length && a.fieldCount == b.fieldCount && a.name == b.name
    && a.aliasOf == b.aliasOf && a.fields.length == b.fields.length
    && (a.fields.zip b.fields).all fun p => p.1.equals p.2

theorem Field.equals_iff {a b : Field} :
    a.equals b = true ↔ a.content = b.content := by
  simp only [equals, content, Bool.and_eq_true, beq_iff_eq,
    FieldContent.mk.injEq]
  tauto

theorem Field.all_equals_iff {a b : List Field} :
    a.length = b.length ∧ ((a.zip b).all fun p => p.1.equals p.2) = true
      ↔ a.map Field.content = b.map Field.content := by
  induction a generalizing b with
  | nil => cases b <;> simp
  | cons f a ih =>
      cases b with
      | nil => simp
      | cons f' b =>
          rw [List.zip_cons_cons, List.all_cons, Bool.and_eq_true,
            List.map_cons, List.map_cons, List.cons.injEq, ← ih,
            Field.equals_iff, List.length_cons, List.length_cons,
            Nat.add_right_cancel_iff]
          tauto

theorem TypeSymbol.equals_iff {a b : TypeSymbol} :
    a.equals b = true ↔ a.content = b.content := by
  simp only [equals, content, Bool.and_eq_true, beq_iff_eq,
    Content.mk.injEq, ← Field.all_equals_iff]
  tauto

namespace Merge

variable {types : Table TypeSymbol} {k : UInt32} {t : TypeSymbol}

-- ====================================================== the plain pass

/-- The keys of the types that equal a type. -/
def equalKeys (types : Table TypeSymbol) (t : TypeSymbol) : List UInt32 :=
  (types.entries.filter fun e => e.2.equals t).map Prod.fst

/-- The lowest key whose type equals the type under a key. What is no key
stays as it is. -/
def lowest (types : Table TypeSymbol) (k : UInt32) : UInt32 :=
  match types.get? k with
  | none => k
  | some t => (equalKeys types t).min?.getD k

/-- The keys of the types that equal a type under a lower key. -/
def duplicates (types : Table TypeSymbol) : List UInt32 :=
  (types.entries.filter fun e =>
    (equalKeys types e.2).any fun j => j < e.1).map Prod.fst

/-- Drops every type that equals a type under a lower key, sends every
reference to the lowest key with an equal type, and counts what was
dropped. -/
def plainPass (g : Graph) : Graph × Nat :=
  ({ g with
      types := (g.types.map (·.mapReferences (lowest g.types))).filterKeys
        fun k => !(duplicates g.types).contains k
      functions := g.functions.map (·.mapReferences (lowest g.types)) },
    (duplicates g.types).length)

theorem mem_equalKeys :
    k ∈ equalKeys types t
      ↔ ∃ s, types.get? k = some s ∧ s.content = t.content := by
  unfold equalKeys
  simp only [List.mem_map, List.mem_filter, TypeSymbol.equals_iff]
  constructor
  · rintro ⟨e, ⟨hmem, hcontent⟩, rfl⟩
    exact ⟨e.2, Table.get?_eq_some_iff.2 hmem, hcontent⟩
  · rintro ⟨s, hget, hcontent⟩
    exact ⟨(k, s), ⟨Table.get?_eq_some_iff.1 hget, hcontent⟩, rfl⟩

theorem lowest_eq_leader (types : Table TypeSymbol) :
    lowest types = leader types := by
  funext k
  unfold lowest
  cases hget : types.get? k with
  | none => exact (leader_of_not_key (Table.get?_eq_none_iff.1 hget)).symm
  | some t =>
      obtain ⟨s, hs, hcontent, hleast⟩ := leader_spec hget
      have hmin : (equalKeys types t).min? = some (leader types k) := by
        rw [List.min?_eq_some_iff]
        refine ⟨mem_equalKeys.2 ⟨s, hs, hcontent⟩, fun j hj => ?_⟩
        obtain ⟨u, hu, hcontent⟩ := mem_equalKeys.1 hj
        exact hleast hu hcontent
      dsimp only
      rw [hmin, Option.getD_some]

/-- The types that equal one under a lower key are those that do not lead
themselves. -/
theorem duplicates_eq_followers (types : Table TypeSymbol) :
    duplicates types = followers types := by
  unfold duplicates followers Table.keys
  rw [List.filter_map]
  refine congrArg _ (List.filter_congr fun e he => ?_)
  have hget := Table.get?_eq_some_iff.2 he
  obtain ⟨s, hs, hcontent, hleast⟩ := leader_spec hget
  rw [Bool.eq_iff_iff, List.any_eq_true, Function.comp, bne_iff_ne]
  constructor
  · rintro ⟨j, hj, hlt⟩ hself
    obtain ⟨u, hu, hcontent⟩ := mem_equalKeys.1 hj
    have hle := hleast hu hcontent
    rw [hself] at hle
    exact UInt32.not_lt.2 hle (of_decide_eq_true hlt)
  · intro hne
    exact ⟨leader types e.1, mem_equalKeys.2 ⟨s, hs, hcontent⟩,
      decide_eq_true (UInt32.lt_of_le_of_ne (leader_le types e.1) hne)⟩

/-- A pass comes to the same as the plain one, the graph and the count,
whatever the digest is. -/
theorem pass_eq_plainPass (digest : Content → UInt64) (g : Graph) :
    (pass digest g).value = plainPass g := by
  have hstays : (fun k => leader g.types k == k)
      = fun k => !(followers g.types).contains k := by
    funext k
    rw [Bool.eq_iff_iff, beq_iff_eq, Bool.not_eq_true', ← Bool.not_eq_true,
      List.contains_iff_mem, mem_followers, not_not]
  rw [pass_value]
  unfold plainPass Graph.collapse
  rw [lowest_eq_leader, duplicates_eq_followers, hstays]

end Merge

end SymbolGraph
