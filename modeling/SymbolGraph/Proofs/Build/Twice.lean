/-
The same types, reported twice: once under their own ids and once under
others, as two compile units report one header (`Source.twice`). The
original is embedded in the combined reader, and so is the copy, and
nothing else is in it (`reached_twice_iff`).

A type id must not be in both, or the builder would take one for the other
(`Source.Renames`). Only 0 is: handles with the reserved id are never asked
for a description, so what the copies say about them does not matter. The
combined reader is consistent if this is taken out of it
(`Source.sealed`).
-/
import SymbolGraph.Proofs.Build.Embedding

namespace SymbolGraph

variable {σ H ε : Type}

open Relation (TransGen ReflTransGen)
open Build

-- =============================================================== copies

/-- A reader's types, and a copy of them with type ids renamed by `ρ` and
field ids by `φ`. The handles of the copy are those on the right. -/
def Source.twice (source : Source σ H ε) (ρ φ : UInt32 → UInt32) :
    Source σ (H ⊕ H) ε where
  typeId
    | .inl h => source.typeId h
    | .inr h => do return (← source.typeId h).map ρ
  describe
    | .inl h, st => do
      let (described, st) ← source.describe h st
      return (described.map (Node.rename .inl id), st)
    | .inr h, st => do
      let (described, st) ← source.describe h st
      return (described.map (Node.rename .inr φ), st)
  message := source.message

/-- The renaming gives a copy that has no type in common with the original.
It keeps 0 and the ids that are not 0 apart. -/
structure Source.Renames (source : Source σ H ε) (ρ φ : UInt32 → UInt32) :
    Prop where
  zero : ρ 0 = 0
  injective : Set.InjOn ρ (insert 0 source.ids)
  disjoint : ∀ a ∈ source.ids, ρ a ∈ source.ids → a = 0
  field : ∀ x, φ x = 0 ↔ x = 0

/-- The reader with one description for all handles of the reserved id. -/
def Source.sealed (source : Source σ H ε) : Source σ H ε where
  typeId := source.typeId
  describe h st :=
    if (source.typeId h).value = some 0 then
      return (.ok { name := none, length := 0, shape := .enum }, st)
    else source.describe h st
  message := source.message

section Sealed

variable {source : Source σ H ε}

theorem sealed_describe {h : H} {id : UInt32}
    (hid : (source.typeId h).value = some id) (hne : id ≠ 0) (st : σ) :
    source.sealed.describe h st = source.describe h st := by
  unfold Source.sealed
  dsimp only
  rw [hid, if_neg]
  simpa using hne

/-- Only the descriptions of types count. -/
theorem sealed_consistent
    (h : ∀ (x y : H) (id : UInt32) (st st' : σ), id ≠ 0 →
      (source.typeId x).value = some id → (source.typeId y).value = some id →
      (source.describe x st).value.1.toOption
        = (source.describe y st').value.1.toOption) :
    source.sealed.Consistent := by
  intro x y id st st' hx hy
  have hx : (source.typeId x).value = some id := hx
  have hy : (source.typeId y).value = some id := hy
  by_cases hzero : id = 0
  · subst hzero
    unfold Source.sealed
    dsimp only
    rw [if_pos hx, if_pos hy]
    rfl
  · rw [sealed_describe hx hzero, sealed_describe hy hzero]
    exact h x y id st st' hzero hx hy

/-- The reserved id is never described. -/
theorem Build.Builds.sealed {hs : List H} {s s' : Builder × σ}
    {answers : List (Answer ε)} (h : Builds source hs s answers s') :
    Builds source.sealed hs s answers s' := by
  refine h.simulate (f := fun st => st) (fun _ => rfl) ?_
  intro x id st hid hne
  rw [sealed_describe hid hne st]

end Sealed

section Twice

variable {source : Source σ H ε} {ρ φ : UInt32 → UInt32}

theorem embeds_left (source : Source σ H ε) (ρ φ : UInt32 → UInt32) :
    source.Embeds (source.twice ρ φ).sealed .inl id id where
  zero := rfl
  injective := Set.injOn_id _
  field _ := Iff.rfl
  typeId h := by
    show (source.typeId h).value = (source.typeId h).value.map id
    rw [Option.map_id_fun, id]
  describe h a st hid hne := by
    have htwice : ((source.twice ρ φ).typeId (.inl h)).value = some a := hid
    rw [sealed_describe htwice hne]
    rfl

theorem embeds_right (hren : source.Renames ρ φ) :
    source.Embeds (source.twice ρ φ).sealed .inr ρ φ where
  zero := hren.zero
  injective := hren.injective
  field := hren.field
  typeId _ := rfl
  describe h a st hid hne := by
    have htwice : ((source.twice ρ φ).typeId (.inr h)).value
        = some (ρ a) := by
      show (source.typeId h).value.map ρ = some (ρ a)
      rw [hid]
      rfl
    rw [sealed_describe htwice]
    · rfl
    · intro hzero
      rw [← hren.zero] at hzero
      exact hne (hren.injective (.inr ⟨h, hid⟩) (.inl rfl) hzero)

/-- Handles of one type have one description, also in the two copies: no
type is in both. -/
theorem sealed_twice_consistent (hsource : source.Consistent)
    (hren : source.Renames ρ φ) : (source.twice ρ φ).sealed.Consistent := by
  have htoOption : ∀ {K : Type} (f : Node H → Node K)
      (d : Except ε (Node H)), (d.map f).toOption = d.toOption.map f := by
    intro K f d
    cases d <;> rfl
  have hapart : ∀ {h h' : H} {j : UInt32}, (source.typeId h).value = some j →
      (source.typeId h').value.map ρ = some j → j = 0 := by
    intro h h' j hid hid'
    obtain ⟨a, ha, rfl⟩ := Option.map_eq_some_iff.1 hid'
    rw [hren.disjoint a ⟨h', ha⟩ ⟨h, hid⟩]
    exact hren.zero
  refine sealed_consistent fun x y j st st' hzero hx hy => ?_
  cases x with
  | inl h =>
      cases y with
      | inl h' =>
          have hsame := hsource h h' j st st' hx hy
          refine (htoOption _ _).trans (Eq.trans ?_ (htoOption _ _).symm)
          rw [hsame]
      | inr h' => exact absurd (hapart hx hy) hzero
  | inr h =>
      cases y with
      | inl h' => exact absurd (hapart hy hx) hzero
      | inr h' =>
          obtain ⟨a, ha, hj⟩ := Option.map_eq_some_iff.1 hx
          obtain ⟨a', ha', hj'⟩ := Option.map_eq_some_iff.1 hy
          have heq : a = a' := hren.injective (.inr ⟨h, ha⟩)
            (.inr ⟨h', ha'⟩) (hj.trans hj'.symm)
          subst heq
          have hsame := hsource h h' a st st' ha ha'
          refine (htoOption _ _).trans (Eq.trans ?_ (htoOption _ _).symm)
          rw [hsame]

variable {roots : List H} {roots' : List (H ⊕ H)} {a c j : UInt32}

/-- What the roots of both copies reach is what the original roots reach,
and its copy. -/
theorem reached_twice_iff (hsource : source.Consistent)
    (hren : source.Renames ρ φ)
    (hroots : ∀ h, (.inl h ∈ roots' ↔ h ∈ roots)
      ∧ (.inr h ∈ roots' ↔ h ∈ roots)) :
    (source.twice ρ φ).sealed.Reached roots' j
      ↔ ∃ a, source.Reached roots a ∧ (j = a ∨ j = ρ a) := by
  have hleft := embeds_left source ρ φ
  have hright := embeds_right hren
  have htwice := sealed_twice_consistent hsource hren
  constructor
  · intro hj
    induction hj with
    | @root x j hmem hres =>
        cases x with
        | inl h =>
            obtain ⟨a, horiginal, rfl⟩ := hleft.resolves_iff.1 hres
            exact ⟨a, .root ((hroots h).1.1 hmem) horiginal, .inl rfl⟩
        | inr h =>
            obtain ⟨a, horiginal, rfl⟩ := hright.resolves_iff.1 hres
            exact ⟨a, .root ((hroots h).2.1 hmem) horiginal, .inr rfl⟩
    | link _ hdepends ih =>
        obtain ⟨a, ha, rfl | rfl⟩ := ih
        · obtain ⟨c, hac, rfl⟩ := hleft.of_dependsOn htwice ha hdepends
          exact ⟨c, .link ha hac, .inl rfl⟩
        · obtain ⟨c, hac, rfl⟩ := hright.of_dependsOn htwice ha hdepends
          exact ⟨c, .link ha hac, .inr rfl⟩
  · rintro ⟨a, ha, rfl | rfl⟩
    · exact hleft.reached (fun h hmem => (hroots h).1.2 hmem) ha
    · exact hright.reached (fun h hmem => (hroots h).2.2 hmem) ha

/-- If no type of the original depends on itself, none of the copies
does. -/
theorem acyclic_twice (hsource : source.Consistent)
    (hren : source.Renames ρ φ)
    (hacyclic : ∀ id, source.Reached roots id →
      ¬ TransGen source.DependsOn id id)
    (hroots : ∀ h, (.inl h ∈ roots' ↔ h ∈ roots)
      ∧ (.inr h ∈ roots' ↔ h ∈ roots))
    (hj : (source.twice ρ φ).sealed.Reached roots' j) :
    ¬ TransGen (source.twice ρ φ).sealed.DependsOn j j := by
  have htwice := sealed_twice_consistent hsource hren
  obtain ⟨a, ha, rfl | rfl⟩ := (reached_twice_iff hsource hren hroots).1 hj
  · intro hcycle
    obtain ⟨c, hac, rfl⟩ :=
      (embeds_left source ρ φ).of_transGen_dependsOn htwice ha hcycle
    exact hacyclic c ha hac
  · intro hcycle
    obtain ⟨c, hac, heq⟩ :=
      (embeds_right hren).of_transGen_dependsOn htwice ha hcycle
    have hc := ha.trans hac.to_reflTransGen
    have hself : c = a :=
      hren.injective (.inr hc.mem_ids) (.inr ha.mem_ids) heq
    rw [hself] at hac
    exact hacyclic a ha hac

end Twice

end SymbolGraph
