/-
Classes of same types, counted and compared between graphs. A merged graph
has one type for each class of the keys, so graphs whose keys fall into
classes alike are left with equally many (`size_collapse_eq`).

Two tables that share some types, with all that these refer to, agree on
which of them are the same (`same_of_shared`). Sameness as such does
not give this: as the least congruence it may come about by way of types
that only one of the tables has. But types that are the same agree along
sameness (`Same.agrees`), and so it can be followed down the references,
if these end somewhere.
-/
import Mathlib.Data.Finset.Card
import SymbolGraph.Proofs.Merge.Run

namespace SymbolGraph.Merge

variable {types types' : Table TypeSymbol} {g h : Graph}
  {rep rep' : UInt32 → UInt32} {a b : UInt32}

-- =========================================================== counting

theorem card_keys (t : Table TypeSymbol) : t.keys.toFinset.card = t.size := by
  have hnodup : t.keys.Nodup := t.keys_ascending.imp UInt32.ne_of_lt
  rw [List.toFinset_card_of_nodup hnodup, Table.length_keys]

/-- Two collapsed graphs have equally many types, if the keys of the first
are keys of the second, fall into classes alike in both, and meet all
classes of the second. -/
theorem size_collapse_eq (hrep : IsRepresentative g.types rep)
    (hrep' : IsRepresentative h.types rep')
    (hkey : ∀ a, g.types.contains a = true → h.types.contains a = true)
    (hclass : ∀ a b, g.types.contains a = true → g.types.contains b = true →
      (rep' a = rep' b ↔ rep a = rep b))
    (hmeet : ∀ a, h.types.contains a = true →
      ∃ b, g.types.contains b = true ∧ rep' b = rep' a) :
    (g.collapse rep).types.size = (h.collapse rep').types.size := by
  have hmem : ∀ {g : Graph} {rep : UInt32 → UInt32} {a : UInt32},
      a ∈ (g.collapse rep).types.keys.toFinset
        ↔ rep a = a ∧ g.types.contains a = true := by
    intro g rep a
    rw [List.mem_toFinset, Table.mem_keys, contains_collapse_iff]
  rw [← card_keys, ← card_keys]
  refine Finset.card_nbij rep' ?_ ?_ ?_
  · intro a ha
    obtain ⟨-, ha⟩ := hmem.1 ha
    exact hmem.2 (hrep'.fixed (hkey a ha)).symm
  · intro a ha b hb hab
    obtain ⟨hself, ha⟩ := hmem.1 ha
    obtain ⟨hself', hb⟩ := hmem.1 hb
    rw [← hself, ← hself', (hclass a b ha hb).1 hab]
  · intro a ha
    obtain ⟨hself, ha⟩ := hmem.1 ha
    obtain ⟨b, hb, hba⟩ := hmeet a ha
    obtain ⟨hb', hfixed⟩ := hrep.fixed hb
    refine ⟨rep b, hmem.2 ⟨hfixed, hb'⟩, ?_⟩
    rw [(hclass (rep b) b hb' hb).2 hfixed, hba, hself]

/-- If a pass leaves no two types of equal content, it is the whole run. -/
theorem run_eq_of_followers (digest : Content → UInt64)
    (hdone : followers (g.collapse (leader g.types)).types = []) :
    (run digest g).value.1 = g.collapse (leader g.types) := by
  have hpass := pass_value digest g
  have hlast : ∀ {g : Graph}, (pass digest g).value.2 = 0 →
      (run digest g).value = (g, 0) := by
    intro g hnone
    rw [run_value_of_pass, if_pos hnone]
  by_cases hnone : (pass digest g).value.2 = 0
  · rw [hlast hnone, collapse_eq_self (leader_eq_self_of_pass hnone)]
  · rw [run_value_of_pass, if_neg hnone, hpass]
    dsimp only
    rw [hlast]
    rw [pass_value, hdone]
    rfl

/-- The types that are left when one pass is the whole run. -/
theorem size_merge_of_pass {n : Nat}
    (h : followers (g.collapse (leader g.types)).types = []
      ∧ (g.collapse (leader g.types)).types.size = n) :
    g.merge.value.1.types.size = n := by
  unfold Graph.merge
  rw [run_eq_of_followers _ h.1]
  exact h.2

-- ====================================================== shared types

/-- What is the same in one table is so in another, if they share the two
types and all that these refer to, down to types without references. -/
theorem same_of_shared {P : UInt32 → Prop} {below : UInt32 → UInt32 → Prop}
    (hwf : WellFounded below) (h0 : types.contains 0 = false)
    (hshared : ∀ a t, P a → types.get? a = some t →
      types'.get? a = some t ∧ ∀ r ∈ t.references, r ≠ 0 → P r ∧ below r a)
    (ha : P a) (hb : P b) (hab : Same types a b) : Same types' a b := by
  induction a using hwf.induction generalizing b with
  | _ a ih =>
      obtain ⟨hkey, hkey'⟩ := (same_isCongruence types).keys hab
      obtain ⟨s, hs⟩ := Table.contains_iff.1 hkey
      obtain ⟨t, ht⟩ := Table.contains_iff.1 hkey'
      obtain ⟨hs', hsrefs⟩ := hshared a s ha hs
      obtain ⟨ht', htrefs⟩ := hshared b t hb ht
      refine (same_isCongruence types').agrees hs' ht'
        ((hab.agrees hs ht).mono_of_mem ?_)
      rintro x hx y hy (rfl | hxy)
      · exact .inl rfl
      · have hne : ∀ {z}, types.contains z = true → z ≠ 0 := by
          rintro z hz rfl
          rw [h0] at hz
          cases hz
        obtain ⟨hxkey, hykey⟩ := (same_isCongruence types).keys hxy
        obtain ⟨hxP, hbelow⟩ := hsrefs x hx (hne hxkey)
        obtain ⟨hyP, -⟩ := htrefs y hy (hne hykey)
        exact .inr (ih x hbelow hxP hyP hxy)

end SymbolGraph.Merge
