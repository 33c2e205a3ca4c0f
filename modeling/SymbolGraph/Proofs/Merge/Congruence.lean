/-
Which types are the same. Two types agree along a relation if they differ
at most in ids, kinds and ids of fields, and their references are related
place by place. Two keys are the same if the least relation says so that
is an equivalence and holds of any two types that agree along it, equal
numbers included. Being the least matters: two rings of types that mirror
each other agree along the relation that pairs them up, and yet they are
different types, since nothing in the rings is the same to begin with.

# One pass and sameness

A pass makes no types the same and none different: leaders are the same
after it just if the keys were before it (`same_leaders_iff`). Both
directions are by leastness. Forwards, "the leaders are the same
afterwards" is a congruence of the table before the pass; backwards,
sameness before the pass is a congruence of the table after it.
-/
import Mathlib.Data.List.Forall2
import Mathlib.Order.Bounds.Basic
import SymbolGraph.Proofs.Merge.Pass

namespace SymbolGraph

-- ========================================================== agreement

/-- The fields differ at most in their ids and in types that `r`
relates. -/
structure Field.Agrees (r : UInt32 → UInt32 → Prop) (a b : Field) : Prop where
  name : a.name = b.name
  typeId : r a.typeId b.typeId
  offset : a.offset = b.offset
  inAnonymousUnion : a.inAnonymousUnion = b.inAnonymousUnion
  unionId : a.unionId = b.unionId

/-- The types differ at most in their ids, their kinds, the ids of their
fields and in references that `r` relates. -/
structure TypeSymbol.Agrees (r : UInt32 → UInt32 → Prop)
    (s t : TypeSymbol) : Prop where
  length : s.length = t.length
  fieldCount : s.fieldCount = t.fieldCount
  name : s.name = t.name
  fields : List.Forall₂ (Field.Agrees r) s.fields t.fields
  aliasOf : r s.aliasOf t.aliasOf

section Agreement

variable {r q : UInt32 → UInt32 → Prop} {a b : Field} {s t u : TypeSymbol}

theorem Field.Agrees.mono (h : a.Agrees r b) (hrq : ∀ x y, r x y → q x y) :
    a.Agrees q b :=
  { h with typeId := hrq _ _ h.typeId }

theorem TypeSymbol.Agrees.mono (h : s.Agrees r t)
    (hrq : ∀ x y, r x y → q x y) : s.Agrees q t :=
  { h with
    fields := h.fields.imp fun _ _ hab => hab.mono hrq
    aliasOf := hrq _ _ h.aliasOf }

theorem TypeSymbol.Agrees.refl (hr : ∀ x, r x x) (t : TypeSymbol) :
    t.Agrees r t where
  length := rfl
  fieldCount := rfl
  name := rfl
  fields := List.forall₂_same.2 fun f _ => ⟨rfl, hr f.typeId, rfl, rfl, rfl⟩
  aliasOf := hr t.aliasOf

theorem TypeSymbol.Agrees.symm (h : s.Agrees r t)
    (hrq : ∀ x y, r x y → q y x) : t.Agrees q s where
  length := h.length.symm
  fieldCount := h.fieldCount.symm
  name := h.name.symm
  fields := List.Forall₂.flip (h.fields.imp fun _ _ hab =>
    ⟨hab.name.symm, hrq _ _ hab.typeId, hab.offset.symm,
      hab.inAnonymousUnion.symm, hab.unionId.symm⟩)
  aliasOf := hrq _ _ h.aliasOf

/-- The references of types that agree are related one by one. -/
theorem TypeSymbol.Agrees.references (h : s.Agrees r t) :
    List.Forall₂ r s.references t.references := by
  unfold TypeSymbol.references
  refine List.rel_append (R := r) ?_ (.cons h.aliasOf .nil)
  rw [List.forall₂_map_left_iff, List.forall₂_map_right_iff]
  exact h.fields.imp fun _ _ hab => hab.typeId

/-- Only what the types refer to needs to be related. -/
theorem TypeSymbol.Agrees.mono_of_mem (h : s.Agrees r t)
    (hrq : ∀ x ∈ s.references, ∀ y ∈ t.references, r x y → q x y) :
    s.Agrees q t := by
  have hmem : ∀ {u : TypeSymbol} {f : Field}, f ∈ u.fields →
      f.typeId ∈ u.references := fun hf =>
    List.mem_append_left _ (List.mem_map_of_mem hf)
  have halias : ∀ u : TypeSymbol, u.aliasOf ∈ u.references := fun u =>
    List.mem_append_right _ (List.mem_singleton_self _)
  have hleft := (List.forall₂_and_left _ _).2 ⟨fun _ hf => hf, h.fields⟩
  have hboth := (List.forall₂_and_left _ _).2 ⟨fun _ hf => hf, hleft.flip⟩
  refine { h with
    fields := hboth.flip.imp ?_
    aliasOf := hrq _ (halias s) _ (halias t) h.aliasOf }
  rintro f f' ⟨hf', hf, hab⟩
  exact { hab with typeId := hrq _ (hmem hf) _ (hmem hf') hab.typeId }

/-- Equal contents are contents that agree along equality. -/
theorem Field.content_eq_iff : a.content = b.content ↔ a.Agrees Eq b := by
  unfold Field.content
  rw [FieldContent.mk.injEq]
  constructor
  · rintro ⟨hname, htype, hoffset, hunion, hid⟩
    exact ⟨hname, htype, hoffset, hunion, hid⟩
  · intro h
    exact ⟨h.name, h.typeId, h.offset, h.inAnonymousUnion, h.unionId⟩

theorem TypeSymbol.content_eq_iff : s.content = t.content ↔ s.Agrees Eq t := by
  have hfields : s.fields.map Field.content = t.fields.map Field.content
      ↔ List.Forall₂ (Field.Agrees Eq) s.fields t.fields := by
    rw [← List.forall₂_eq_eq_eq, List.forall₂_map_left_iff,
      List.forall₂_map_right_iff]
    simp only [Field.content_eq_iff]
  unfold TypeSymbol.content
  rw [Content.mk.injEq, hfields]
  constructor
  · rintro ⟨hlength, hcount, hname, hfields, halias⟩
    exact ⟨hlength, hcount, hname, hfields, halias⟩
  · intro h
    exact ⟨h.length, h.fieldCount, h.name, h.fields, h.aliasOf⟩

private theorem forall₂_comp {R S T : Field → Field → Prop}
    (hcomp : ∀ a b c, R a b → S b c → T a c) {l m n : List Field}
    (hlm : List.Forall₂ R l m) (hmn : List.Forall₂ S m n) :
    List.Forall₂ T l n := by
  induction hlm generalizing n with
  | nil =>
      cases hmn
      exact .nil
  | cons hab _ ih =>
      cases hmn with
      | cons hbc hrest => exact .cons (hcomp _ _ _ hab hbc) (ih hrest)

theorem TypeSymbol.Agrees.comp (hst : s.Agrees r t) (htu : t.Agrees q u) :
    s.Agrees (Relation.Comp r q) u where
  length := hst.length.trans htu.length
  fieldCount := hst.fieldCount.trans htu.fieldCount
  name := hst.name.trans htu.name
  fields := by
    refine forall₂_comp ?_ hst.fields htu.fields
    intro a b c hab hbc
    exact ⟨hab.name.trans hbc.name, ⟨_, hab.typeId, hbc.typeId⟩,
      hab.offset.trans hbc.offset,
      hab.inAnonymousUnion.trans hbc.inAnonymousUnion,
      hab.unionId.trans hbc.unionId⟩
  aliasOf := ⟨_, hst.aliasOf, htu.aliasOf⟩

/-- Agreement depends on the contents alone. -/
theorem TypeSymbol.Agrees.congr {s' t' : TypeSymbol} (h : s.Agrees r t)
    (hs : s'.content = s.content) (ht : t.content = t'.content) :
    s'.Agrees r t' := by
  refine (((content_eq_iff.1 hs).comp h).comp (content_eq_iff.1 ht)).mono ?_
  rintro x y ⟨z, ⟨w, rfl, hwz⟩, rfl⟩
  exact hwz

/-- Redirected types agree if the types agree along the redirection. -/
theorem TypeSymbol.agrees_mapReferences {f : UInt32 → UInt32} :
    (s.mapReferences f).Agrees r (t.mapReferences f)
      ↔ s.Agrees (fun x y => r (f x) (f y)) t := by
  constructor
  · intro h
    refine ⟨h.length, h.fieldCount, h.name, ?_, h.aliasOf⟩
    have hfields := h.fields
    unfold TypeSymbol.mapReferences at hfields
    rw [List.forall₂_map_left_iff, List.forall₂_map_right_iff] at hfields
    exact hfields.imp fun _ _ hab =>
      ⟨hab.name, hab.typeId, hab.offset, hab.inAnonymousUnion, hab.unionId⟩
  · intro h
    refine ⟨h.length, h.fieldCount, h.name, ?_, h.aliasOf⟩
    unfold TypeSymbol.mapReferences
    rw [List.forall₂_map_left_iff, List.forall₂_map_right_iff]
    exact h.fields.imp fun _ _ hab =>
      ⟨hab.name, hab.typeId, hab.offset, hab.inAnonymousUnion, hab.unionId⟩

end Agreement

-- ========================================================= congruences

namespace Merge

/-- An equivalence on the keys of a table that holds of any two whose
types agree along it; references may also be equal numbers. -/
structure IsCongruence (types : Table TypeSymbol)
    (r : UInt32 → UInt32 → Prop) : Prop where
  keys : ∀ {a b}, r a b → types.contains a = true ∧ types.contains b = true
  refl : ∀ {a}, types.contains a = true → r a a
  symm : ∀ {a b}, r a b → r b a
  trans : ∀ {a b c}, r a b → r b c → r a c
  agrees : ∀ {a b s t}, types.get? a = some s → types.get? b = some t →
    s.Agrees (fun x y => x = y ∨ r x y) t → r a b

/-- Two keys are the same if every congruence of the table says so. -/
def Same (types : Table TypeSymbol) (a b : UInt32) : Prop :=
  ∀ r, IsCongruence types r → r a b

variable {types : Table TypeSymbol} {a b : UInt32} {s t : TypeSymbol}

theorem same_isCongruence (types : Table TypeSymbol) :
    IsCongruence types (Same types) where
  keys := by
    intro a b h
    -- all keys together are a congruence, so nothing else is the same
    refine h (fun a b => types.contains a = true ∧ types.contains b = true)
      ⟨id, fun h => ⟨h, h⟩, And.symm, fun h h' => ⟨h.1, h'.2⟩, ?_⟩
    intro a b s t ha hb _
    exact ⟨Table.contains_of_get? ha, Table.contains_of_get? hb⟩
  refl h := fun _ hr => hr.refl h
  symm h := fun r hr => hr.symm (h r hr)
  trans h h' := fun r hr => hr.trans (h r hr) (h' r hr)
  agrees := by
    intro a b s t ha hb h r hr
    refine hr.agrees ha hb (h.mono ?_)
    rintro x y (heq | hsame)
    · exact .inl heq
    · exact .inr (hsame r hr)

/-- Sameness is the least congruence of a table. -/
theorem same_isLeast (types : Table TypeSymbol) :
    IsLeast {r | IsCongruence types r} (Same types) :=
  ⟨same_isCongruence types, fun r hr _ _ h => h r hr⟩

/-- Induction over sameness: what holds of a key and itself, either way
round and along chains, and of any two keys whose types agree along it,
holds of keys that are the same. -/
theorem Same.induction {P : UInt32 → UInt32 → Prop}
    (refl : ∀ a, types.contains a = true → P a a)
    (symm : ∀ a b, P a b → P b a)
    (trans : ∀ a b c, P a b → P b c → P a c)
    (agrees : ∀ a b s t, types.get? a = some s → types.get? b = some t →
      s.Agrees (fun x y => x = y ∨ P x y) t → P a b)
    (h : Same types a b) : P a b := by
  refine (h (fun a b =>
    (types.contains a = true ∧ types.contains b = true) ∧ P a b) ?_).2
  refine ⟨And.left, fun ha => ⟨⟨ha, ha⟩, refl _ ha⟩,
    fun h => ⟨h.1.symm, symm _ _ h.2⟩,
    fun h h' => ⟨⟨h.1.1, h'.1.2⟩, trans _ _ _ h.2 h'.2⟩, ?_⟩
  intro a b s t ha hb hagrees
  refine ⟨⟨Table.contains_of_get? ha, Table.contains_of_get? hb⟩, ?_⟩
  exact agrees a b s t ha hb
    (hagrees.mono fun x y hxy => hxy.imp_right And.right)

/-- Types that are the same agree along sameness: nothing else makes them
the same. -/
theorem Same.agrees (h : Same types a b) (ha : types.get? a = some s)
    (hb : types.get? b = some t) :
    s.Agrees (fun x y => x = y ∨ Same types x y) t := by
  have hsame := same_isCongruence types
  -- keys whose types agree along sameness are a congruence
  obtain ⟨-, s', t', hs', ht', hagrees⟩ := h (fun a b => Same types a b
    ∧ ∃ s t, types.get? a = some s ∧ types.get? b = some t
      ∧ s.Agrees (fun x y => x = y ∨ Same types x y) t) {
    keys := fun h => hsame.keys h.1
    refl := by
      intro a ha
      obtain ⟨t, ht⟩ := Table.contains_iff.1 ha
      exact ⟨hsame.refl ha, t, t, ht, ht, .refl (fun _ => .inl rfl) t⟩
    symm := by
      rintro a b ⟨hab, s, t, hs, ht, hagrees⟩
      refine ⟨hsame.symm hab, t, s, ht, hs, hagrees.symm ?_⟩
      exact fun x y hxy => hxy.imp Eq.symm hsame.symm
    trans := by
      rintro a b c ⟨hab, s, t, hs, ht, hst⟩ ⟨hbc, t', u, ht', hu, htu⟩
      cases ht.symm.trans ht'
      refine ⟨hsame.trans hab hbc, s, u, hs, hu, (hst.comp htu).mono ?_⟩
      rintro x z ⟨y, rfl | hxy, rfl | hyz⟩
      · exact .inl rfl
      · exact .inr hyz
      · exact .inr hxy
      · exact .inr (hsame.trans hxy hyz)
    agrees := by
      intro a b s t hs ht hagrees
      have hagrees : s.Agrees (fun x y => x = y ∨ Same types x y) t :=
        hagrees.mono fun x y hxy => hxy.imp_right And.left
      exact ⟨hsame.agrees hs ht hagrees, s, t, hs, ht, hagrees⟩ }
  cases ha.symm.trans hs'
  cases hb.symm.trans ht'
  exact hagrees

/-- Keys of equal content are the same. -/
theorem same_of_content (ha : types.get? a = some s)
    (hb : types.get? b = some t) (h : s.content = t.content) :
    Same types a b :=
  (same_isCongruence types).agrees ha hb
    ((TypeSymbol.content_eq_iff.1 h).mono fun _ _ heq => .inl heq)

/-- If no two types have equal content, every type is the same as itself
only. -/
theorem eq_of_same (hself : ∀ k, leader types k = k) (h : Same types a b) :
    a = b := by
  refine h.induction (fun _ _ => rfl) (fun _ _ => Eq.symm)
    (fun _ _ _ => Eq.trans) ?_
  intro a b s t ha hb hagrees
  have hcontent : s.content = t.content :=
    TypeSymbol.content_eq_iff.2 (hagrees.mono fun _ _ h => or_self_iff.1 h)
  rw [← hself a, leader_eq_of_content ha hb hcontent, hself b]

-- ============================================================ one pass

theorem same_leader (h : types.contains a = true) :
    Same types a (leader types a) := by
  obtain ⟨t, ha⟩ := Table.contains_iff.1 h
  obtain ⟨s, hs, hst, -⟩ := leader_spec ha
  exact same_of_content ha hs hst.symm

/-- References whose leaders are equal or the same are themselves equal or
the same: a leader other than the number itself is a key, and so is what
it leads. -/
theorem eq_or_same_of_leaders {x y : UInt32}
    (h : leader types x = leader types y
      ∨ Same types (leader types x) (leader types y)) :
    x = y ∨ Same types x y := by
  have hsame := same_isCongruence types
  have hkey : ∀ {x}, types.contains (leader types x) = true →
      types.contains x = true := by
    intro x h
    by_contra hx
    rw [leader_of_not_key (by simpa using hx)] at h
    exact hx h
  cases hx : types.contains x with
  | true =>
      have hxl := same_leader hx
      have hlead : Same types (leader types x) (leader types y) := by
        rcases h with heq | hlead
        · rw [← heq]
          exact hsame.refl (hsame.keys hxl).2
        · exact hlead
      have hyl := same_leader (hkey (hsame.keys hlead).2)
      exact .inr (hsame.trans hxl (hsame.trans hlead (hsame.symm hyl)))
  | false =>
      have hxl := leader_of_not_key hx
      rcases h with heq | hlead
      · refine .inl ?_
        cases hy : types.contains y with
        | true =>
            have hyl := (hsame.keys (same_leader hy)).2
            rw [← heq, hxl, hx] at hyl
            cases hyl
        | false => rw [← hxl, heq, leader_of_not_key hy]
      · have hxk := (hsame.keys hlead).1
        rw [hxl, hx] at hxk
        cases hxk

section Pass

variable {g : Graph} {rep : UInt32 → UInt32}

/-- What a collapsed graph answers for a key. -/
theorem get?_collapse (rep : UInt32 → UInt32) (g : Graph) (k : UInt32) :
    (g.collapse rep).types.get? k
      = if rep k = k then (g.types.get? k).map (·.mapReferences rep)
        else none := by
  show ((g.types.map (·.mapReferences rep)).filterKeys _).get? k = _
  rw [Table.get?_filterKeys, Table.get?_map]
  by_cases h : rep k = k <;> simp [h]

theorem get?_collapse_eq_some_iff :
    (g.collapse rep).types.get? a = some t
      ↔ rep a = a ∧ ∃ s, g.types.get? a = some s ∧ t = s.mapReferences rep := by
  rw [get?_collapse]
  by_cases h : rep a = a
  · rw [if_pos h, Option.map_eq_some_iff]
    simp [h, eq_comm]
  · rw [if_neg h]
    simp [h]

theorem contains_collapse_iff :
    (g.collapse rep).types.contains a = true
      ↔ rep a = a ∧ g.types.contains a = true := by
  rw [Table.contains_iff, Table.contains_iff]
  constructor
  · rintro ⟨t, ht⟩
    obtain ⟨h, s, hs, -⟩ := get?_collapse_eq_some_iff.1 ht
    exact ⟨h, s, hs⟩
  · rintro ⟨h, s, hs⟩
    exact ⟨_, get?_collapse_eq_some_iff.2 ⟨h, s, hs, rfl⟩⟩

/-- A collapse makes no keys. -/
theorem not_contains_collapse (h : g.types.contains a = false) :
    (g.collapse rep).types.contains a = false := by
  by_contra hkept
  have := (contains_collapse_iff.1 (by simpa using hkept)).2
  rw [h] at this
  cases this

/-- The leader of a key is a key after the pass. -/
theorem contains_leader (h : g.types.contains a = true) :
    (g.collapse (leader g.types)).types.contains (leader g.types a)
      = true := by
  obtain ⟨t, ha⟩ := Table.contains_iff.1 h
  obtain ⟨s, hs, -, -⟩ := leader_spec ha
  exact contains_collapse_iff.2
    ⟨leader_leader g.types a, Table.contains_of_get? hs⟩

/-- After a pass the leaders of two keys that agree along `r` agree along
every relation that `r` implies of leaders. -/
theorem agrees_leader {r q : UInt32 → UInt32 → Prop}
    (ha : g.types.get? a = some s) (hb : g.types.get? b = some t)
    (h : s.Agrees r t)
    (hrq : ∀ x y, r x y → q (leader g.types x) (leader g.types y)) :
    ∃ s' t',
      (g.collapse (leader g.types)).types.get? (leader g.types a) = some s'
      ∧ (g.collapse (leader g.types)).types.get? (leader g.types b) = some t'
      ∧ s'.Agrees q t' := by
  obtain ⟨s', hs', hs, -⟩ := leader_spec ha
  obtain ⟨t', ht', ht, -⟩ := leader_spec hb
  refine ⟨s'.mapReferences (leader g.types), t'.mapReferences (leader g.types),
    get?_collapse_eq_some_iff.2 ⟨leader_leader _ a, s', hs', rfl⟩,
    get?_collapse_eq_some_iff.2 ⟨leader_leader _ b, t', ht', rfl⟩, ?_⟩
  rw [TypeSymbol.agrees_mapReferences]
  exact (h.congr hs ht.symm).mono hrq

/-- What was the same has leaders that are the same after the pass. -/
theorem same_leaders_of_same (h : Same g.types a b) :
    Same (g.collapse (leader g.types)).types
      (leader g.types a) (leader g.types b) := by
  have hafter := same_isCongruence (g.collapse (leader g.types)).types
  refine h.induction (P := fun a b =>
      Same (g.collapse (leader g.types)).types
        (leader g.types a) (leader g.types b))
    (fun _ ha => hafter.refl (contains_leader ha))
    (fun _ _ => hafter.symm) (fun _ _ _ => hafter.trans) ?_
  intro a b s t ha hb hagrees
  obtain ⟨s', t', hs', ht', hagrees'⟩ := agrees_leader ha hb hagrees
    (q := fun x y => x = y ∨ Same (g.collapse (leader g.types)).types x y) (by
      rintro x y (rfl | hsame)
      · exact .inl rfl
      · exact .inr hsame)
  exact hafter.agrees hs' ht' hagrees'

/-- What is the same after a pass was the same before it. -/
theorem same_of_same_collapse
    (h : Same (g.collapse (leader g.types)).types a b) : Same g.types a b := by
  have hbefore := same_isCongruence g.types
  refine h.induction
    (fun _ ha => hbefore.refl (contains_collapse_iff.1 ha).2)
    (fun _ _ => hbefore.symm) (fun _ _ _ => hbefore.trans) ?_
  intro a b s t ha hb hagrees
  obtain ⟨-, s', hs', rfl⟩ := get?_collapse_eq_some_iff.1 ha
  obtain ⟨-, t', ht', rfl⟩ := get?_collapse_eq_some_iff.1 hb
  refine hbefore.agrees hs' ht'
    ((TypeSymbol.agrees_mapReferences.1 hagrees).mono ?_)
  intro x y hxy
  exact eq_or_same_of_leaders hxy

/-- Keys are the same just if their leaders are after the pass. -/
theorem same_leaders_iff (ha : g.types.contains a = true)
    (hb : g.types.contains b = true) :
    Same (g.collapse (leader g.types)).types
        (leader g.types a) (leader g.types b) ↔ Same g.types a b := by
  have hbefore := same_isCongruence g.types
  constructor
  · intro h
    exact hbefore.trans (same_leader ha)
      (hbefore.trans (same_of_same_collapse h)
        (hbefore.symm (same_leader hb)))
  · exact same_leaders_of_same

end Pass

end Merge

end SymbolGraph
