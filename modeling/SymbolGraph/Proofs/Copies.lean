/-
Merging the same types, reported twice. A type and its copy become one,
unless there is a pointer among what they need, and nothing else becomes
one that is not one already in the original (`copies_merged`). So without
pointers as many types are left of both copies as of one.

# Pointers

The builder names pointers by a count of its own, so a pointer and its copy
have different names, and what refers to the one does not agree with what
refers to the other, all the way up. Without pointers a type agrees with
its copy as soon as its references do, so they are the same from below.
-/
import SymbolGraph.Proofs.Build.Twice
import SymbolGraph.Proofs.Merge.Classes

namespace SymbolGraph

variable {σ H ε : Type}

open Relation (TransGen ReflTransGen)
open Build Merge

/-- The graph that a fresh builder makes of the roots. -/
def Builder.graphFrom (source : Source σ H ε) (header : Header) (st : σ)
    (roots : List H) : Graph :=
  (Builder.types source roots (Builder.new header, st)).value.2.1.graph

/-- By fields and targets of aliases one comes from the type to a pointer,
or it is one. -/
def Source.OnPointer (source : Source σ H ε) (id : UInt32) : Prop :=
  ∃ p, ReflTransGen source.DependsOn id p ∧ source.IsPointer p

-- ========================================================= same copies

/-- Two renamings of one type agree if its references do. -/
theorem TypeSymbol.agrees_rename {r : UInt32 → UInt32 → Prop}
    (e φ e' φ' : UInt32 → UInt32) {t : TypeSymbol}
    (h : ∀ x ∈ t.references, r (e x) (e' x)) :
    (t.rename e φ).Agrees r (t.rename e' φ') where
  length := rfl
  fieldCount := rfl
  name := rfl
  fields := by
    unfold rename
    rw [List.forall₂_map_left_iff, List.forall₂_map_right_iff,
      List.forall₂_same]
    intro f hf
    exact ⟨rfl, h _ (List.mem_append_left _ (List.mem_map_of_mem hf)), rfl,
      rfl, rfl⟩
  aliasOf := h _ (List.mem_append_right _ (List.mem_singleton_self _))

theorem Source.not_onPointer_of_dependsOn {source : Source σ H ε}
    {a c : UInt32} (ha : ¬ source.OnPointer a) (hac : source.DependsOn a c) :
    ¬ source.OnPointer c := by
  rintro ⟨p, hcp, hp⟩
  exact ha ⟨p, .head hac hcp, hp⟩

/-- One builder has built the types behind the roots, the other one these
types and their copies. -/
structure Source.BuiltTwice (source : Source σ H ε) (ρ φ : UInt32 → UInt32)
    (roots : List H) (roots' : List (H ⊕ H)) (one both : Builder) : Prop where
  consistent : source.Consistent
  renames : source.Renames ρ φ
  acyclic : ∀ id, source.Reached roots id →
    ¬ TransGen source.DependsOn id id
  asked : ∀ h, (.inl h ∈ roots' ↔ h ∈ roots) ∧ (.inr h ∈ roots' ↔ h ∈ roots)
  one : source.Built roots one
  both : (source.twice ρ φ).sealed.Built roots' both

namespace Source.BuiltTwice

variable {source : Source σ H ε} {ρ φ : UInt32 → UInt32} {roots : List H}
  {roots' : List (H ⊕ H)} {one both : Builder} {a c : UInt32}

theorem twice_consistent (h : source.BuiltTwice ρ φ roots roots' one both) :
    (source.twice ρ φ).sealed.Consistent :=
  sealed_twice_consistent h.consistent h.renames

/-- The keys of the second builder are the original ids and their
copies. -/
theorem contains_iff (h : source.BuiltTwice ρ φ roots roots' one both)
    {j : UInt32} :
    both.graph.types.contains j = true
      ↔ ∃ a, source.Reached roots a ∧ (j = a ∨ j = ρ a) :=
  (h.both.contains_iff j).trans
    (reached_twice_iff h.consistent h.renames h.asked)

theorem contains_zero (h : source.BuiltTwice ρ φ roots roots' one both) :
    one.graph.types.contains 0 = false
      ∧ both.graph.types.contains 0 = false := by
  rw [Bool.eq_false_iff, Bool.eq_false_iff, ne_eq, ne_eq, h.one.contains_iff,
    h.both.contains_iff]
  exact ⟨fun hzero => hzero.ne_zero rfl, fun hzero => hzero.ne_zero rfl⟩

/-- A copy is never a type of the original. -/
theorem copy_ne (h : source.BuiltTwice ρ φ roots roots' one both)
    (ha : source.Reached roots a) : a ≠ ρ a := by
  intro heq
  have hmem := ha.mem_ids
  rw [heq] at hmem
  exact ha.ne_zero (h.renames.disjoint a ha.mem_ids hmem)

/-- What stands under an id and under its copy, compared with what stands
there without the copies. -/
theorem symbols (h : source.BuiltTwice ρ φ roots roots' one both)
    (ha : source.Reached roots a) :
    ∃ t u u', one.graph.types.get? a = some t
      ∧ both.graph.types.get? a = some u
      ∧ both.graph.types.get? (ρ a) = some u'
      ∧ u.references = t.references ∧ u'.references = t.references.map ρ
      ∧ (¬ source.IsPointer a → u = t ∧ u' = t.rename ρ φ) := by
  have hleft := embeds_left source ρ φ
  have hright := embeds_right h.renames
  obtain ⟨t, ht⟩ := h.one.get? ha
  obtain ⟨u, hu⟩ := h.both.get?
    ((reached_twice_iff h.consistent h.renames h.asked).2 ⟨a, ha, .inl rfl⟩)
  obtain ⟨u', hu'⟩ := h.both.get?
    ((reached_twice_iff h.consistent h.renames h.asked).2 ⟨a, ha, .inr rfl⟩)
  obtain ⟨hname, heq⟩ :=
    hleft.eq_rename h.twice_consistent h.acyclic h.one h.both ha ht hu
  obtain ⟨hname', heq'⟩ :=
    hright.eq_rename h.twice_consistent h.acyclic h.one h.both ha ht hu'
  rw [rename_id] at hname heq
  refine ⟨t, u, u', ht, hu, hu', ?_, ?_, fun hpointer =>
    ⟨(heq hpointer).symm, (heq' hpointer).symm⟩⟩
  · rw [← hname]
    rfl
  · rw [← TypeSymbol.references_rename ρ φ t, ← hname']
    rfl

/-- Without pointers a type is the same as its copy. -/
theorem same_copy (h : source.BuiltTwice ρ φ roots roots' one both)
    (ha : source.Reached roots a) (hpointer : ¬ source.OnPointer a) :
    Same both.graph.types a (ρ a) := by
  induction a using (wellFounded_dependsOn h.acyclic).induction with
  | _ a ih =>
      obtain ⟨t, u, u', ht, hu, hu', -, -, heq⟩ := h.symbols ha
      obtain ⟨rfl, rfl⟩ := heq fun hself => hpointer ⟨a, .refl, hself⟩
      refine (same_isCongruence _).agrees hu hu' ?_
      have hagrees := TypeSymbol.agrees_rename id id ρ φ (t := u)
        (r := fun x y => x = y ∨ Same both.graph.types x y) ?_
      · rwa [rename_id] at hagrees
      · intro x hx
        by_cases hzero : x = 0
        · left
          rw [hzero, h.renames.zero, id]
        · have hdepends :=
            (h.one.dependsOn_iff h.consistent ht).2 ⟨hzero, hx⟩
          exact .inr (ih x ⟨ha, .single hdepends⟩ (.link ha hdepends)
            (Source.not_onPointer_of_dependsOn hpointer hdepends))

/-- Sameness with the copy goes down the references. -/
theorem same_copy_of_dependsOn
    (h : source.BuiltTwice ρ φ roots roots' one both)
    (ha : source.Reached roots a) (hac : source.DependsOn a c)
    (hsame : Same both.graph.types a (ρ a)) :
    Same both.graph.types c (ρ c) := by
  obtain ⟨t, u, u', ht, hu, hu', hrefs, hrefs', -⟩ := h.symbols ha
  obtain ⟨-, hc⟩ := (h.one.dependsOn_iff h.consistent ht).1 hac
  have hpairs := (hsame.agrees hu hu').references
  rw [hrefs, hrefs', List.forall₂_map_right_iff, List.forall₂_same] at hpairs
  exact (hpairs c hc).resolve_left (h.copy_ne (.link ha hac))

/-- A type that needs a pointer is not the same as its copy. -/
theorem not_same_copy (h : source.BuiltTwice ρ φ roots roots' one both)
    (ha : source.Reached roots a) (hpointer : source.OnPointer a) :
    ¬ Same both.graph.types a (ρ a) := by
  obtain ⟨p, hap, hp⟩ := hpointer
  intro hsame
  induction hap using ReflTransGen.head_induction_on with
  | refl =>
      -- the pointer and its copy have one name, and yet different numbers
      obtain ⟨t, u, u', -, hu, hu', -⟩ := h.symbols ha
      refine h.copy_ne ha (h.both.numbered.distinct p (ρ p) u u' hu hu' ?_ ?_
        (hsame.agrees hu hu').name)
      · exact ((embeds_left source ρ φ).isPointer_iff h.twice_consistent
          ha).2 hp
      · exact ((embeds_right h.renames).isPointer_iff h.twice_consistent
          ha).2 hp
  | head hac _ ih =>
      exact ih (.link ha hac) (h.same_copy_of_dependsOn ha hac hsame)

/-- Which types without pointers are the same does not change by the
copies. -/
theorem same_iff (h : source.BuiltTwice ρ φ roots roots' one both)
    (ha : source.Reached roots a) (hc : source.Reached roots c)
    (hpointer : ¬ source.OnPointer a) (hpointer' : ¬ source.OnPointer c) :
    Same both.graph.types a c ↔ Same one.graph.types a c := by
  have hshared : ∀ x, source.Reached roots x ∧ ¬ source.OnPointer x →
      ∃ t, one.graph.types.get? x = some t ∧ both.graph.types.get? x = some t
        ∧ ∀ y ∈ t.references, y ≠ 0 →
          (source.Reached roots y ∧ ¬ source.OnPointer y)
            ∧ source.Reached roots x ∧ TransGen source.DependsOn x y := by
    rintro x ⟨hx, hpointer⟩
    obtain ⟨t, u, u', ht, hu, -, -, -, heq⟩ := h.symbols hx
    obtain ⟨rfl, -⟩ := heq fun hself => hpointer ⟨x, .refl, hself⟩
    refine ⟨u, ht, hu, fun y hy hne => ?_⟩
    have hdepends := (h.one.dependsOn_iff h.consistent ht).2 ⟨hne, hy⟩
    exact ⟨⟨.link hx hdepends,
      Source.not_onPointer_of_dependsOn hpointer hdepends⟩,
      hx, .single hdepends⟩
  have hwf := wellFounded_dependsOn h.acyclic
  constructor
  · refine same_of_shared (P := fun x => source.Reached roots x
      ∧ ¬ source.OnPointer x) hwf h.contains_zero.2 ?_ ⟨ha, hpointer⟩
      ⟨hc, hpointer'⟩
    intro x t hx hget
    obtain ⟨t', hone, hboth, hrefs⟩ := hshared x hx
    cases hget.symm.trans hboth
    exact ⟨hone, hrefs⟩
  · refine same_of_shared (P := fun x => source.Reached roots x
      ∧ ¬ source.OnPointer x) hwf h.contains_zero.1 ?_ ⟨ha, hpointer⟩
      ⟨hc, hpointer'⟩
    intro x t hx hget
    obtain ⟨t', hone, hboth, hrefs⟩ := hshared x hx
    cases hget.symm.trans hone
    exact ⟨hboth, hrefs⟩

-- ============================================================= merging

variable {rep rep' : UInt32 → UInt32}

theorem contains_of_reached (h : source.BuiltTwice ρ φ roots roots' one both)
    (ha : source.Reached roots a) :
    one.graph.types.contains a = true ∧ both.graph.types.contains a = true
      ∧ both.graph.types.contains (ρ a) = true :=
  ⟨(h.one.contains_iff a).2 ha, h.contains_iff.2 ⟨a, ha, .inl rfl⟩,
    h.contains_iff.2 ⟨a, ha, .inr rfl⟩⟩

/-- One type stands for a type and its copy just if no pointer is
needed. -/
theorem rep_copy_iff (h : source.BuiltTwice ρ φ roots roots' one both)
    (hrep' : IsRepresentative both.graph.types rep')
    (ha : source.Reached roots a) :
    rep' a = rep' (ρ a) ↔ ¬ source.OnPointer a := by
  obtain ⟨-, hkey, hcopy⟩ := h.contains_of_reached ha
  rw [hrep'.eq_iff hkey hcopy]
  exact ⟨fun hsame hpointer => h.not_same_copy ha hpointer hsame,
    h.same_copy ha⟩

/-- Types without pointers have one that stands for both, just if they do
without the copies. -/
theorem rep_iff (h : source.BuiltTwice ρ φ roots roots' one both)
    (hrep : IsRepresentative one.graph.types rep)
    (hrep' : IsRepresentative both.graph.types rep')
    (ha : source.Reached roots a) (hc : source.Reached roots c)
    (hpointer : ¬ source.OnPointer a) (hpointer' : ¬ source.OnPointer c) :
    rep' a = rep' c ↔ rep a = rep c := by
  obtain ⟨hone, hboth, -⟩ := h.contains_of_reached ha
  obtain ⟨hone', hboth', -⟩ := h.contains_of_reached hc
  rw [hrep'.eq_iff hboth hboth', hrep.eq_iff hone hone']
  exact h.same_iff ha hc hpointer hpointer'

/-- Without any pointers, as many types are left as without the copies. -/
theorem size_eq (h : source.BuiltTwice ρ φ roots roots' one both)
    (hrep : IsRepresentative one.graph.types rep)
    (hrep' : IsRepresentative both.graph.types rep')
    (hnone : ∀ a, source.Reached roots a → ¬ source.IsPointer a) :
    (one.graph.collapse rep).types.size
      = (both.graph.collapse rep').types.size := by
  have hfree : ∀ {a}, source.Reached roots a → ¬ source.OnPointer a := by
    rintro a ha ⟨p, hap, hp⟩
    exact hnone p (ha.trans hap) hp
  refine size_collapse_eq hrep hrep' ?_ ?_ ?_
  · intro a ha
    exact (h.contains_of_reached ((h.one.contains_iff a).1 ha)).2.1
  · intro a c ha hc
    have ha := (h.one.contains_iff a).1 ha
    have hc := (h.one.contains_iff c).1 hc
    exact h.rep_iff hrep hrep' ha hc (hfree ha) (hfree hc)
  · intro j hj
    obtain ⟨a, ha, rfl | rfl⟩ := h.contains_iff.1 hj
    · exact ⟨j, (h.contains_of_reached ha).1, rfl⟩
    · exact ⟨a, (h.contains_of_reached ha).1,
        (h.rep_copy_iff hrep' ha).2 (hfree ha)⟩

end Source.BuiltTwice

theorem types_builtTwice {source : Source σ H ε} (hsource : source.Consistent)
    {ρ φ : UInt32 → UInt32} (hren : source.Renames ρ φ) {roots : List H}
    (hacyclic : ∀ id, source.Reached roots id →
      ¬ TransGen source.DependsOn id id)
    {roots' : List (H ⊕ H)}
    (hroots : ∀ h, (.inl h ∈ roots' ↔ h ∈ roots)
      ∧ (.inr h ∈ roots' ↔ h ∈ roots))
    (header header' : Header) (st st' : σ) :
    source.BuiltTwice ρ φ roots roots'
      (Builder.types source roots (Builder.new header, st)).value.2.1
      (Builder.types (source.twice ρ φ) roots'
        (Builder.new header', st')).value.2.1 where
  consistent := hsource
  renames := hren
  acyclic := hacyclic
  asked := hroots
  one := (types_builds source roots (Builder.new header, st) rfl).built
    hsource hacyclic
  both := by
    have hbuilds := types_builds (source.twice ρ φ) roots'
      (Builder.new header', st') rfl
    exact hbuilds.sealed.built (sealed_twice_consistent hsource hren)
      fun _ => acyclic_twice hsource hren hacyclic hroots

/-- Building the types behind the roots, and these types and their copies,
and merging both graphs. The keys are the ids that are reached, and their
copies. A type is merged with its copy just if it needs no pointer; types
that need none are merged with each other just if they are without the
copies; and if there are no pointers at all, as many types are left of both
copies as of one. -/
theorem copies_merged {source : Source σ H ε} (hsource : source.Consistent)
    {ρ φ : UInt32 → UInt32} (hren : source.Renames ρ φ) {roots : List H}
    (hacyclic : ∀ id, source.Reached roots id →
      ¬ TransGen source.DependsOn id id)
    {roots' : List (H ⊕ H)}
    (hroots : ∀ h, (.inl h ∈ roots' ↔ h ∈ roots)
      ∧ (.inr h ∈ roots' ↔ h ∈ roots))
    (digest : Content → UInt64) (header header' : Header) (st st' : σ) :
    let one := Builder.graphFrom source header st roots
    let both := Builder.graphFrom (source.twice ρ φ) header' st' roots'
    ∃ rep rep' : UInt32 → UInt32,
      IsRepresentative one.types rep
      ∧ (run digest one).value.1 = one.collapse rep
      ∧ IsRepresentative both.types rep'
      ∧ (run digest both).value.1 = both.collapse rep'
      ∧ (∀ a, one.types.contains a = true ↔ source.Reached roots a)
      ∧ (∀ j, both.types.contains j = true
        ↔ ∃ a, source.Reached roots a ∧ (j = a ∨ j = ρ a))
      ∧ (∀ a, source.Reached roots a →
        (rep' a = rep' (ρ a) ↔ ¬ source.OnPointer a))
      ∧ (∀ a c, source.Reached roots a → source.Reached roots c →
        ¬ source.OnPointer a → ¬ source.OnPointer c →
        (rep' a = rep' c ↔ rep a = rep c))
      ∧ ((∀ a, source.Reached roots a → ¬ source.IsPointer a) →
        (run digest one).value.1.types.size
          = (run digest both).value.1.types.size) := by
  intro one both
  have h := types_builtTwice hsource hren hacyclic hroots header header' st st'
  obtain ⟨rep, hrep, hrun⟩ := run_value digest one
  obtain ⟨rep', hrep', hrun'⟩ := run_value digest both
  rw [hrun, hrun']
  refine ⟨rep, rep', hrep, rfl, hrep', rfl, h.one.contains_iff,
    fun _ => h.contains_iff, fun _ => h.rep_copy_iff hrep',
    fun _ _ => h.rep_iff hrep hrep', h.size_eq hrep hrep'⟩

-- ============================================================== tables

/-- A reader of finitely many types, given by their ids and nodes. A handle
is a place in the table. -/
def Source.ofTypes {n : Nat} (types : Fin n → UInt32 × Node (Fin n)) :
    Source Unit (Fin n) Empty where
  typeId h := return some (types h).1
  describe h st := return (.ok (types h).2, st)
  message := nofun

section OfTypes

variable {n : Nat} {types : Fin n → UInt32 × Node (Fin n)}

theorem mem_ids_ofTypes {a : UInt32} :
    a ∈ (Source.ofTypes types).ids ↔ ∃ h, (types h).1 = a :=
  exists_congr fun _ => Option.some_inj

/-- The ids of a table are checked for a renaming one by one. -/
theorem renames_ofTypes {ρ φ : UInt32 → UInt32} (hzero : ρ 0 = 0)
    (hne : ∀ h, ρ (types h).1 = 0 → (types h).1 = 0)
    (hinjective : ∀ h h', ρ (types h).1 = ρ (types h').1 →
      (types h).1 = (types h').1)
    (hdisjoint : ∀ h h', ρ (types h).1 = (types h').1 → (types h).1 = 0)
    (hfield : ∀ x, φ x = 0 ↔ x = 0) :
    (Source.ofTypes types).Renames ρ φ where
  zero := hzero
  injective := by
    intro a ha c hc heq
    rcases ha with rfl | ha
    · rcases hc with rfl | hc
      · rfl
      · obtain ⟨h, rfl⟩ := mem_ids_ofTypes.1 hc
        exact (hne h (heq.symm.trans hzero)).symm
    · obtain ⟨h, rfl⟩ := mem_ids_ofTypes.1 ha
      rcases hc with rfl | hc
      · exact hne h (heq.trans hzero)
      · obtain ⟨h', rfl⟩ := mem_ids_ofTypes.1 hc
        exact hinjective h h' heq
  disjoint := by
    intro a ha hcopy
    obtain ⟨h, rfl⟩ := mem_ids_ofTypes.1 ha
    obtain ⟨h', heq⟩ := mem_ids_ofTypes.1 hcopy
    exact hdisjoint h h' heq.symm
  field := hfield

theorem ofTypes_consistent
    (hone : ∀ h h', (types h).1 = (types h').1 → h = h') :
    (Source.ofTypes types).Consistent := by
  intro h h' id st st' hid hid'
  cases hone h h' (Option.some.inj (hid.trans hid'.symm))
  rfl

/-- If all links lead to types of lesser ids, none depends on itself. -/
theorem ofTypes_acyclic
    (hlinks : ∀ h, ∀ h' ∈ (types h).2.shape.links, (types h').1 < (types h).1)
    (id : UInt32) : ¬ TransGen (Source.ofTypes types).DependsOn id id := by
  have hless : ∀ {a c}, TransGen (Source.ofTypes types).DependsOn a c →
      c < a := by
    intro a c hac
    have hstep : ∀ {x y}, (Source.ofTypes types).DependsOn x y → y < x := by
      rintro x y ⟨node, ⟨h, st, hid, hok⟩, h', hmem, hid', -⟩
      cases hid
      cases hid'
      cases hok
      exact hlinks h h' hmem
    induction hac with
    | single hac => exact hstep hac
    | tail _ hcd ih => exact UInt32.lt_trans (hstep hcd) ih
  exact fun hcycle => UInt32.lt_irrefl id (hless hcycle)

end OfTypes

/-- A header that two units include: an integer 1, a structure 2 of two
integers that share storage, an alias 3 of it, and a structure 4 with a
field of the alias. -/
def headerTypes : Fin 4 → UInt32 × Node (Fin 4)
  | 0 => (1, ⟨none, 4, .base .int⟩)
  | 1 => (2, ⟨some "pair", 4, .aggregate .struct
      [some ⟨5, "low", 0, 0⟩, some ⟨6, "high", 0, 0⟩]⟩)
  | 2 => (3, ⟨some "pair_t", 0, .typedef (some 1)⟩)
  | 3 => (4, ⟨some "span", 8, .aggregate .struct
      [some ⟨7, "start", 0, 2⟩, some ⟨8, "size", 4, 0⟩]⟩)

theorem copies_merged_headerTypes :
    let ρ : UInt32 → UInt32 := fun id => if id = 0 then 0 else id + 10
    let φ : UInt32 → UInt32 := fun id => -id
    let source := Source.ofTypes headerTypes
    let one := Builder.graphFrom source {} () [3]
    let both := Builder.graphFrom (source.twice ρ φ) {} () [.inl 3, .inr 3]
    source.Consistent ∧ source.Renames ρ φ
      ∧ one.types.keys = [1, 2, 3, 4]
      ∧ both.types.keys = [1, 2, 3, 4, 11, 12, 13, 14]
      ∧ one.merge.value.1.types.size = 4
      ∧ both.merge.value.1.types.size = 4 := by
  intro ρ φ source one both
  have hconsistent : source.Consistent := ofTypes_consistent (by decide)
  have hfield : ∀ x, φ x = 0 ↔ x = 0 := by
    intro x
    rw [← UInt32.neg_inj (a := x), UInt32.neg_zero]
  have hren : source.Renames ρ φ :=
    renames_ofTypes rfl (by decide) (by decide) (by decide) hfield
  have hacyclic : ∀ id, source.Reached [3] id →
      ¬ TransGen source.DependsOn id id :=
    fun id _ => ofTypes_acyclic (by decide) id
  have hpointer : ∀ a, source.Reached [3] a → ¬ source.IsPointer a := by
    rintro a - ⟨node, ⟨h, st, -, hok⟩, hshape⟩
    cases hok
    match h with
    | 0 => cases hshape
    | 1 => cases hshape
    | 2 => cases hshape
    | 3 => cases hshape
  have hroots : ∀ h : Fin 4,
      (.inl h ∈ ([.inl 3, .inr 3] : List (Fin 4 ⊕ Fin 4)) ↔ h ∈ [3])
      ∧ (.inr h ∈ ([.inl 3, .inr 3] : List (Fin 4 ⊕ Fin 4)) ↔ h ∈ [3]) := by
    simp
  obtain ⟨-, -, -, -, -, -, -, -, -, -, hsize⟩ :=
    copies_merged hconsistent hren hacyclic hroots Content.digest {} {} () ()
  have hone : one.merge.value.1.types.size = 4 :=
    size_merge_of_pass (by decide +kernel)
  exact ⟨hconsistent, hren, by rfl, by rfl, hone,
    (hsize hpointer).symm.trans hone⟩

-- =============================================== what the copies need

/-- A disjoint copy of types that do not depend on themselves, which differs
by injective renamings alone; and how many types are left of the original,
and of both. -/
structure Source.Leaves (source : Source Unit H Empty) (ρ φ : UInt32 → UInt32)
    (roots : List H) (roots' : List (H ⊕ H)) (one both : Nat) : Prop where
  types : Set.InjOn ρ source.ids
  disjoint : ∀ a ∈ source.ids, ρ a ∉ source.ids
  fields : Function.Injective φ
  acyclic : ∀ id, source.Reached roots id →
    ¬ TransGen source.DependsOn id id
  asked : ∀ h, (.inl h ∈ roots' ↔ h ∈ roots) ∧ (.inr h ∈ roots' ↔ h ∈ roots)
  one : (Builder.graphFrom source {} () roots).merge.value.1.types.size = one
  both : (Builder.graphFrom (source.twice ρ φ) {} ()
    roots').merge.value.1.types.size = both

theorem ofTypes_leaves {n : Nat} (types : Fin n → UInt32 × Node (Fin n))
    {ρ φ : UInt32 → UInt32} {roots : List (Fin n)}
    {roots' : List (Fin n ⊕ Fin n)} {one both : Nat}
    (hinjective : ∀ h h', ρ (types h).1 = ρ (types h').1 →
      (types h).1 = (types h').1)
    (hdisjoint : ∀ h h', ρ (types h).1 ≠ (types h').1)
    (hfields : Function.Injective φ)
    (hlinks : ∀ h, ∀ h' ∈ (types h).2.shape.links, (types h').1 < (types h).1)
    (hroots : ∀ h, (.inl h ∈ roots' ↔ h ∈ roots)
      ∧ (.inr h ∈ roots' ↔ h ∈ roots))
    (hone : (Builder.graphFrom (Source.ofTypes types) {} ()
      roots).merge.value.1.types.size = one)
    (hboth : (Builder.graphFrom ((Source.ofTypes types).twice ρ φ) {} ()
      roots').merge.value.1.types.size = both) :
    (Source.ofTypes types).Leaves ρ φ roots roots' one both where
  types := by
    intro a ha c hc heq
    obtain ⟨h, rfl⟩ := mem_ids_ofTypes.1 ha
    obtain ⟨h', rfl⟩ := mem_ids_ofTypes.1 hc
    exact hinjective h h' heq
  disjoint := by
    intro a ha hcopy
    obtain ⟨h, rfl⟩ := mem_ids_ofTypes.1 ha
    obtain ⟨h', heq⟩ := mem_ids_ofTypes.1 hcopy
    exact hdisjoint h h' heq.symm
  fields := hfields
  acyclic id _ := ofTypes_acyclic hlinks id
  asked := hroots
  one := hone
  both := hboth

/-- One pointer. -/
def pointerTypes : Fin 1 → UInt32 × Node (Fin 1)
  | 0 => (1, ⟨none, 8, .pointer⟩)

/-- An integer 1, and a structure 2 of two integers that share storage. -/
def pairTypes : Fin 2 → UInt32 × Node (Fin 2)
  | 0 => (1, ⟨none, 4, .base .int⟩)
  | 1 => (2, ⟨some "pair", 4, .aggregate .struct
      [some ⟨5, "low", 0, 0⟩, some ⟨6, "high", 0, 0⟩]⟩)

/-- Two descriptions of one type. -/
def ambiguousTypes : Fin 2 → UInt32 × Node (Fin 2)
  | 0 => (1, ⟨some "here", 4, .enum⟩)
  | 1 => (1, ⟨some "there", 4, .enum⟩)

/-- More is left of both copies than of one if there is a pointer, if the
copy of a field or of a type gets the id 0, or if a type has several
descriptions and another one comes first in the copy. -/
theorem leaves_more_of_both :
    (Source.ofTypes pointerTypes).Leaves (· + 10) (fun id => id) [0]
        [.inl 0, .inr 0] 1 2
      ∧ (Source.ofTypes pairTypes).Leaves (· + 10) (· - 5) [1]
        [.inl 1, .inr 1] 2 3
      ∧ (Source.ofTypes pairTypes).Leaves
        (fun id => if id = 1 then 0 else id + 10) (fun id => id) [0, 1]
        [.inl 0, .inl 1, .inr 0, .inr 1] 2 3
      ∧ (Source.ofTypes ambiguousTypes).Leaves (· + 10) (fun id => id) [0, 1]
        [.inl 0, .inl 1, .inr 1, .inr 0] 1 2 := by
  have hminus : Function.Injective fun id : UInt32 => id - 5 :=
    fun _ _ => (UInt32.sub_left_inj 5).1
  have hid : Function.Injective fun id : UInt32 => id := fun _ _ heq => heq
  refine ⟨?_, ?_, ?_, ?_⟩
  · exact ofTypes_leaves pointerTypes (by decide) (by decide) hid (by decide)
      (by simp) (size_merge_of_pass (by decide +kernel))
      (size_merge_of_pass (by decide +kernel))
  · exact ofTypes_leaves pairTypes (by decide) (by decide) hminus (by decide)
      (by simp) (size_merge_of_pass (by decide +kernel))
      (size_merge_of_pass (by decide +kernel))
  · exact ofTypes_leaves pairTypes (by decide) (by decide) hid (by decide)
      (by simp) (size_merge_of_pass (by decide +kernel))
      (size_merge_of_pass (by decide +kernel))
  · exact ofTypes_leaves ambiguousTypes (by decide) (by decide) hid (by decide)
      (by simp [or_comm]) (size_merge_of_pass (by decide +kernel))
      (size_merge_of_pass (by decide +kernel))

end SymbolGraph
