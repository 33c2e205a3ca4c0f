/-
What a reference means: the type it leads to, laid open to a depth. An
unfolding shows names, sizes and fields but no ids, so two graphs mean the
same by a reference if its unfoldings are equal at every depth, whatever
numbers the types behind it have.

Merging keeps all meanings (`run_preserves_unfoldings`). The same types
have the same unfoldings, because having them is a congruence, and
sameness is the least. From there one induction on the depth carries a
reference over to the collapsed graph: what stands for a type has that
type's unfolding, and its own references stand for those of the type.

Zero must not be a key. A reference 0 names nothing, so a type under key 0
could take over references to a type that can be named.
-/
import SymbolGraph.Proofs.Merge.Run

namespace SymbolGraph

-- ========================================================== unfoldings

/-- What an unfolding shows of a field itself. -/
structure FieldFace where
  name : String
  offset : Int32
  inAnonymousUnion : Bool
  unionId : UInt32
deriving DecidableEq

def Field.face (f : Field) : FieldFace :=
  { name := f.name, offset := f.offset,
    inAnonymousUnion := f.inAnonymousUnion, unionId := f.unionId }

/-- A type laid open to some depth. -/
inductive Unfolding where
  /-- The reference is 0. -/
  | none
  /-- The reference names no type. -/
  | dangling (id : UInt32)
  /-- There is a type, but too deep to show. -/
  | cut
  | type (name : String) (length : UInt64) (fieldCount : UInt32)
    (fields : List (FieldFace × Unfolding)) (aliasOf : Unfolding)

/-- A type, with `below` in place of its references. -/
def TypeSymbol.unfoldOver (below : UInt32 → Unfolding) (t : TypeSymbol) :
    Unfolding :=
  .type t.name t.length t.fieldCount
    (t.fields.map fun f => (f.face, below f.typeId)) (below t.aliasOf)

/-- What a reference leads to, down to `depth` types below one another. -/
def unfold (types : Table TypeSymbol) (depth : Nat) (r : UInt32) : Unfolding :=
  if r = 0 then .none
  else
    match types.get? r with
    | none => .dangling r
    | some t =>
      match depth with
      | 0 => .cut
      | depth + 1 => t.unfoldOver (unfold types depth)

namespace Merge

variable {types : Table TypeSymbol} {g : Graph} {rep : UInt32 → UInt32}
  {a b r : UInt32} {s t : TypeSymbol}

theorem unfold_zero_reference (types : Table TypeSymbol) (n : Nat) :
    unfold types n 0 = .none := by
  rw [unfold, if_pos rfl]

theorem unfold_dangling (hr : r ≠ 0) (h : types.get? r = none) (n : Nat) :
    unfold types n r = .dangling r := by
  rw [unfold, if_neg hr, h]

theorem unfold_cut (hr : r ≠ 0) (h : types.get? r = some t) :
    unfold types 0 r = .cut := by
  rw [unfold, if_neg hr, h]

theorem unfold_succ (hr : r ≠ 0) (h : types.get? r = some t) (n : Nat) :
    unfold types (n + 1) r = t.unfoldOver (unfold types n) := by
  rw [unfold, if_neg hr, h]

-- ====================================================== the same types

/-- Types whose references have equal unfoldings unfold equally. -/
theorem unfoldOver_eq_of_agrees {below : UInt32 → Unfolding}
    (h : s.Agrees (fun x y => below x = below y) t) :
    s.unfoldOver below = t.unfoldOver below := by
  have hfields : s.fields.map (fun f => (f.face, below f.typeId))
      = t.fields.map fun f => (f.face, below f.typeId) := by
    rw [← List.forall₂_eq_eq_eq, List.forall₂_map_left_iff,
      List.forall₂_map_right_iff]
    refine h.fields.imp ?_
    intro x y hxy
    unfold Field.face
    rw [hxy.name, hxy.offset, hxy.inAnonymousUnion, hxy.unionId, hxy.typeId]
  unfold TypeSymbol.unfoldOver
  rw [h.name, h.length, h.fieldCount, hfields, h.aliasOf]

/-- The same types have the same unfoldings. -/
theorem unfold_eq_of_same (h0 : types.contains 0 = false)
    (h : Same types a b) (n : Nat) : unfold types n a = unfold types n b := by
  have hzero : ∀ {k t}, types.get? k = some t → k ≠ 0 := by
    rintro k t hk rfl
    rw [Table.contains_of_get? hk] at h0
    cases h0
  revert n
  refine h.induction (P := fun a b => ∀ n, unfold types n a = unfold types n b)
    (fun _ _ _ => rfl) (fun _ _ h n => (h n).symm)
    (fun _ _ _ h h' n => (h n).trans (h' n)) ?_
  intro a b s t ha hb hagrees n
  cases n with
  | zero => rw [unfold_cut (hzero ha) ha, unfold_cut (hzero hb) hb]
  | succ n =>
      rw [unfold_succ (hzero ha) ha, unfold_succ (hzero hb) hb]
      refine unfoldOver_eq_of_agrees (hagrees.mono ?_)
      rintro x y (rfl | hxy)
      · rfl
      · exact hxy n

-- ================================================= the collapsed graph

/-- What stands for a key is a key in both graphs, with a type that the
collapse redirects. -/
theorem get?_representative (h0 : g.types.contains 0 = false)
    (hrep : IsRepresentative g.types rep) (hr : g.types.contains r = true) :
    rep r ≠ 0 ∧ ∃ s, g.types.get? (rep r) = some s
      ∧ (g.collapse rep).types.get? (rep r)
        = some (s.mapReferences rep) := by
  obtain ⟨hkey, hself⟩ := hrep.fixed hr
  obtain ⟨s, hs⟩ := Table.contains_iff.1 hkey
  refine ⟨?_, s, hs, get?_collapse_eq_some_iff.2 ⟨hself, s, hs, rfl⟩⟩
  intro hzero
  rw [hzero, h0] at hkey
  cases hkey

/-- A number that is no key leads to nothing, before as after. -/
theorem unfold_of_not_key (hr : g.types.contains r = false) (n : Nat) :
    unfold (g.collapse rep).types n r = unfold g.types n r := by
  by_cases hzero : r = 0
  · rw [hzero, unfold_zero_reference, unfold_zero_reference]
  · have hbefore := Table.get?_eq_none_iff.2 hr
    have hafter : (g.collapse rep).types.get? r = none := by
      rw [get?_collapse, hbefore]
      simp
    rw [unfold_dangling hzero hbefore, unfold_dangling hzero hafter]

theorem unfoldOver_mapReferences (below : UInt32 → Unfolding)
    (f : UInt32 → UInt32) (t : TypeSymbol) :
    (t.mapReferences f).unfoldOver below
      = t.unfoldOver fun r => below (f r) := by
  simp [TypeSymbol.unfoldOver, TypeSymbol.mapReferences, Field.face]

/-- In the collapsed graph, what stands for a reference unfolds to what
the reference did before. -/
theorem unfold_collapse (h0 : g.types.contains 0 = false)
    (hrep : IsRepresentative g.types rep) (n : Nat) (r : UInt32) :
    unfold (g.collapse rep).types n (rep r) = unfold g.types n r := by
  induction n generalizing r with
  | zero =>
      cases hr : g.types.contains r with
      | false =>
          rw [hrep.of_not_key hr]
          exact unfold_of_not_key hr 0
      | true =>
          obtain ⟨hne, s, hs, hs'⟩ := get?_representative h0 hrep hr
          rw [unfold_eq_of_same h0 (hrep.same hr) 0, unfold_cut hne hs',
            unfold_cut hne hs]
  | succ n ih =>
      cases hr : g.types.contains r with
      | false =>
          rw [hrep.of_not_key hr]
          exact unfold_of_not_key hr (n + 1)
      | true =>
          obtain ⟨hne, s, hs, hs'⟩ := get?_representative h0 hrep hr
          rw [unfold_eq_of_same h0 (hrep.same hr) (n + 1),
            unfold_succ hne hs', unfold_succ hne hs,
            unfoldOver_mapReferences]
          congr 1
          funext r
          exact ih r

/-- Merging keeps the meaning of every reference, at every depth: of the
return and argument types of every function, and of the field types and
the aliased type of every type that is left. -/
theorem run_preserves_unfoldings (digest : Content → UInt64) (g : Graph)
    (h0 : g.types.contains 0 = false) (n : Nat) :
    (∀ k f, g.functions.get? k = some f →
      ∃ f', (run digest g).value.1.functions.get? k = some f'
        ∧ unfold (run digest g).value.1.types n f'.returnType
          = unfold g.types n f.returnType
        ∧ f'.argumentTypes.map (unfold (run digest g).value.1.types n)
          = f.argumentTypes.map (unfold g.types n))
    ∧ (∀ k t', (run digest g).value.1.types.get? k = some t' →
      ∃ t, g.types.get? k = some t
        ∧ t'.fields.map
            (fun f => unfold (run digest g).value.1.types n f.typeId)
          = t.fields.map (fun f => unfold g.types n f.typeId)
        ∧ unfold (run digest g).value.1.types n t'.aliasOf
          = unfold g.types n t.aliasOf) := by
  obtain ⟨rep, hrep, hrun⟩ := run_value digest g
  have hunfold := unfold_collapse h0 hrep n
  rw [hrun]
  constructor
  · intro k f hf
    refine ⟨f.mapReferences rep, ?_, hunfold f.returnType, ?_⟩
    · show (g.functions.map (·.mapReferences rep)).get? k = _
      rw [Table.get?_map, hf]
      rfl
    · show (f.argumentTypes.map rep).map _ = _
      rw [List.map_map]
      exact List.map_congr_left fun r _ => hunfold r
  · intro k t' ht'
    obtain ⟨-, t, ht, rfl⟩ := get?_collapse_eq_some_iff.1 ht'
    refine ⟨t, ht, ?_, hunfold t.aliasOf⟩
    show (t.fields.map _).map _ = _
    rw [List.map_map]
    exact List.map_congr_left fun f _ => hunfold f.typeId

/-- Two copies of a list node and of the number in it, and a function that
returns the second node. The numbers merge; the nodes do not, as each
leads to itself only. -/
def twinNodes : Graph where
  types := Table.ofList [
    (1, { id := 1, name := "int32_t", kind := .base, length := 4 }),
    (2, { id := 2, name := "int32_t", kind := .base, length := 4 }),
    (3, {
      id := 3, name := "node", kind := .struct, length := 16, fieldCount := 2
      fields := [{ id := 30, name := "value", typeId := 1 },
        { id := 31, name := "next", typeId := 3, offset := 8 }] }),
    (4, {
      id := 4, name := "node", kind := .struct, length := 16, fieldCount := 2
      fields := [{ id := 40, name := "value", typeId := 2 },
        { id := 41, name := "next", typeId := 4, offset := 8 }] })]
  functions := Table.ofList [
    (20, { id := 20, name := "last", returnType := 4, argumentCount := 1,
           argumentTypes := [4] })]

theorem run_preserves_unfoldings_twinNodes :
    twinNodes.types.contains 0 = false
      ∧ ∃ f, (run Content.digest twinNodes).value.1.functions.get? 20 = some f
        ∧ unfold (run Content.digest twinNodes).value.1.types 2 f.returnType
          = .type "node" 16 2
            [(⟨"value", 0, false, 0⟩, .type "int32_t" 4 0 [] .none),
              (⟨"next", 8, false, 0⟩, .type "node" 16 2
                [(⟨"value", 0, false, 0⟩, .cut), (⟨"next", 8, false, 0⟩, .cut)]
                .none)]
            .none := by
  have h0 : twinNodes.types.contains 0 = false := by decide
  have hget : twinNodes.functions.get? 20 = some
      { id := 20, name := "last", returnType := 4, argumentCount := 1,
        argumentTypes := [4] } := by rfl
  obtain ⟨f, hf, hreturn, -⟩ :=
    (run_preserves_unfoldings Content.digest twinNodes h0 2).1 20 _ hget
  exact ⟨h0, f, hf, hreturn.trans rfl⟩

end Merge

end SymbolGraph
