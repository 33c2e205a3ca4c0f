/-
How deep a construction nests. A nested call has an id that no call further
up has and that is not stored either, and a derivation forgets no id. So
the ids that a builder does not know (`unknown`) only become fewer, by one
at least on the way down, though the mark of an id in progress is taken
away again on the way back: the type is stored in the same step.

With one level more than there are ids the recursion never comes to its
end. That is said by congruence: a derivation is determined by what is
asked (`Builds.unique`), so every such bound gives what the bound of the
program gives (`type_value_of_lt`), and what it gives is no failure of
nesting.
-/
import Mathlib.Data.Finset.Card
import SymbolGraph.Proofs.Build.Soundness

namespace SymbolGraph

variable {σ H ε : Type}

namespace Build

variable {source : Source σ H ε} {ids : Finset UInt32}

/-- How many of the ids a builder does not know. -/
def unknown (ids : Finset UInt32) (b : Builder) : Nat :=
  (ids.filter fun id => b.knows id = false).card

theorem unknown_le (ids : Finset UInt32) (b : Builder) :
    unknown ids b ≤ ids.card :=
  Finset.card_filter_le ..

theorem unknown_mono {b b' : Builder}
    (h : ∀ id, b.knows id = true → b'.knows id = true) :
    unknown ids b' ≤ unknown ids b := by
  refine Finset.card_le_card fun id hid => ?_
  obtain ⟨hmem, hnew⟩ := Finset.mem_filter.1 hid
  refine Finset.mem_filter.2 ⟨hmem, ?_⟩
  by_contra hb
  rw [h id (by simpa using hb)] at hnew
  cases hnew

/-- An id that comes into progress is unknown no longer. -/
theorem unknown_start {b : Builder} {id : UInt32} (hmem : id ∈ ids)
    (hnew : b.knows id = false) : unknown ids (b.start id) < unknown ids b := by
  have hstart : (ids.filter fun j => (b.start id).knows j = false)
      = (ids.filter fun j => b.knows j = false).erase id := by
    ext j
    rw [Finset.mem_filter, Finset.mem_erase, Finset.mem_filter,
      Bool.eq_false_iff, ne_eq, Builder.knows_start_iff, not_or,
      Bool.not_eq_true, and_left_comm]
  unfold unknown
  rw [hstart]
  exact Finset.card_erase_lt_of_mem (Finset.mem_filter.2 ⟨hmem, hnew⟩)

/-- Levels that are more than the ids that are not known suffice. -/
theorem unknown_suffices
    (hids : ∀ h id, (source.typeId h).value = some id → id ∈ ids) :
    Suffices source fun depth b => unknown ids b < depth where
  zero _ := Nat.not_lt_zero _
  keeps _ _ _ _ _ hbuilds hlt :=
    Nat.lt_of_le_of_lt (unknown_mono fun _ => hbuilds.knows_mono) hlt
  start hlt hid hnew := by
    have := unknown_start (hids _ _ hid) hnew
    omega

/-- A reply is determined by what is asked. -/
theorem Replies.unique {h : H} {b : Builder} {st st₁ st₂ : σ}
    {answer₁ answer₂ : Answer ε} (h₁ : Replies source h b st answer₁ st₁)
    (h₂ : Replies source h b st answer₂ st₂) :
    answer₁ = answer₂ ∧ st₁ = st₂ := by
  cases h₁ <;> cases h₂ <;> simp_all

/-- A type that is described is not answered at once. -/
theorem Replies.not_described {h : H} {b : Builder} {st st' : σ}
    {answer : Answer ε} {id : UInt32} {node : Node H}
    (hreply : Replies source h b st answer st')
    (hid : (source.typeId h).value = some id) (hne : id ≠ 0)
    (hnew : b.knows id = false)
    (hnode : (source.describe h st).value.1 = .ok node) : False := by
  cases hreply <;> simp_all

/-- A derivation is determined by what is asked. -/
theorem Builds.unique {hs : List H} {s s₁ s₂ : Builder × σ}
    {answers₁ answers₂ : List (Answer ε)}
    (h₁ : Builds source hs s answers₁ s₁)
    (h₂ : Builds source hs s answers₂ s₂) : answers₁ = answers₂ ∧ s₁ = s₂ := by
  induction h₁ generalizing answers₂ s₂ with
  | nil =>
      cases h₂
      exact ⟨rfl, rfl⟩
  | replied hreply _ ih =>
      cases h₂ with
      | replied hreply' hrest' =>
          obtain ⟨rfl, rfl⟩ := hreply.unique hreply'
          obtain ⟨rfl, rfl⟩ := ih hrest'
          exact ⟨rfl, rfl⟩
      | described hid hne hnew hnode _ _ =>
          exact (hreply.not_described hid hne hnew hnode).elim
  | described hid hne hnew hnode _ _ ihlinks ih =>
      cases h₂ with
      | replied hreply' _ =>
          exact (hreply'.not_described hid hne hnew hnode).elim
      | described hid' _ _ hnode' hlinks' hrest' =>
          cases hid.symm.trans hid'
          cases hnode.symm.trans hnode'
          obtain ⟨rfl, rfl⟩ := ihlinks hlinks'
          obtain ⟨rfl, rfl⟩ := ih hrest'
          exact ⟨rfl, rfl⟩

theorem card_ids_lt (ids : Finset UInt32) : ids.card < depthBound := by
  have hcard := Finset.card_le_univ ids
  rw [card_ids] at hcard
  unfold depthBound
  omega

/-- More levels than there are ids give what the program gives. -/
theorem type_value_of_lt
    (hids : ∀ h id, (source.typeId h).value = some id → id ∈ ids)
    {depth : Nat} (hdepth : ids.card < depth) (h : H) (s : Builder × σ) :
    (type source depth h s).value = (Builder.type source h s).value
      ∧ (Builder.type source h s).value.1 ≠ .error .nesting := by
  have hbuilds : ∀ {levels : Nat}, ids.card < levels →
      Builds source [h] s [(type source levels h s).value.1]
        (type source levels h s).value.2 := fun hlevels =>
    type_derives (unknown_suffices hids) _ h s
      (Nat.lt_of_le_of_lt (unknown_le ids s.1) hlevels)
  have hprogram := hbuilds (card_ids_lt ids)
  obtain ⟨hanswer, hstate⟩ := (hbuilds hdepth).unique hprogram
  exact ⟨Prod.ext (List.singleton_inj.1 hanswer) hstate, hprogram.ne_nesting⟩

end Build

end SymbolGraph
