/-
Where types come from. A builder learns an id by a handle of the reader, and the
handle is one that was asked for or one that a description led to. So if all of
these are handles of some kind, the new ids are ids of that kind
(`Within.exists_handle`), and nothing else has to be known about what the reader
does. Each new type is put together from a description, whatever was called for
before (`calls_adds`).
-/
import SymbolGraph.Proofs.Build.Frame
import SymbolGraph.Proofs.Build.Steps

namespace SymbolGraph

variable {σ H ε α : Type}

open Build

variable {source : Source σ H ε} {created : H → Prop}

-- ================================================================= handles

/-- Descriptions of handles of a kind lead to such handles. -/
def Source.Closed (source : Source σ H ε) (created : H → Prop) : Prop :=
  ∀ h st node, created h → (source.describe h st).value.1 = .ok node →
    ∀ link ∈ node.shape.links, created link

namespace Build

theorem Builds.exists_handle (hclosed : source.Closed created)
    {hs : List H} {s s' : Builder × σ} {answers : List (Answer ε)}
    (h : Builds source hs s answers s') (hcreated : ∀ h ∈ hs, created h)
    {id : UInt32} (hid : s'.1.knows id = true) :
    s.1.knows id = true
      ∨ ∃ h, created h ∧ (source.typeId h).value = some id := by
  induction h with
  | nil => exact .inl hid
  | replied _ _ ih => exact ih (List.forall_mem_cons.1 hcreated).2 hid
  | described hown _ _ hnode hlinks _ ihlinks ih =>
      obtain ⟨hfirst, hrest⟩ := List.forall_mem_cons.1 hcreated
      rcases ih hrest hid with hid | hfound
      · rw [Builder.knows_finish hlinks.inProgress_of_start] at hid
        rcases ihlinks (hclosed _ _ _ hfirst hnode) hid with hid | hfound
        · rcases Builder.knows_start_iff.1 hid with rfl | hid
          · exact .inr ⟨_, hfirst, hown⟩
          · exact .inl hid
        · exact .inr hfound
      · exact .inr hfound

/-- The types that a step adds have handles that it may ask for. -/
theorem Within.exists_handle {functions : FunctionNode H → Prop}
    {x : Step σ α} (h : Within source created functions x)
    (hclosed : source.Closed created)
    (hfunctions : ∀ node, functions node →
      ∀ h ∈ node.places.filterMap id, created h)
    {s : Builder × σ} (hidle : s.1.inProgress = []) :
    (x s).value.2.1.inProgress = []
      ∧ ∀ id, (x s).value.2.1.knows id = true → s.1.knows id = true
        ∨ ∃ h, created h ∧ (source.typeId h).value = some id := by
  induction h generalizing s with
  | pure | lift => exact ⟨hidle, fun _ => .inl⟩
  | after _ ih => exact ih hidle
  | bind _ _ ihx ihf =>
      obtain ⟨hidle', hbefore⟩ := ihx hidle
      obtain ⟨hidle'', hbehind⟩ := ihf _ hidle'
      exact ⟨hidle'', fun id hid =>
        (hbehind id hid).elim (hbefore id) .inr⟩
  | type h hcreated =>
      have hbuilds := builderType_builds source h s hidle
      exact ⟨hbuilds.inProgress_eq.trans hidle, fun id =>
        hbuilds.exists_handle hclosed (List.forall_mem_singleton.2 hcreated)⟩
  | function node hnode =>
      cases hstored : s.1.graph.functions.contains node.id with
      | true =>
          rw [function_value_of_contains source hstored]
          exact ⟨hidle, fun _ => .inl⟩
      | false =>
          obtain ⟨answers, inner, hbuilds, hvalue⟩ :=
            function_builds source hidle hstored
          rw [hvalue]
          exact ⟨hbuilds.inProgress_eq.trans hidle, fun id =>
            hbuilds.exists_handle hclosed (hfunctions node hnode)⟩

end Build

-- ================================================================== calls

/-- One call after another. -/
theorem Source.Adds.trans {b b' b'' : Builder} (h : source.Adds b b')
    (h' : source.Adds b' b'') : source.Adds b b'' where
  stored := h.stored.trans h'.stored
  idle := h'.idle
  whole id t hget := by
    have hknown : ∀ id, b'.graph.types.contains id = true →
        b''.graph.types.contains id = true := by
      intro id hid
      obtain ⟨t, hget⟩ := Table.contains_iff.1 hid
      exact Table.contains_of_get? (h'.stored.types id t hget)
    rcases h'.whole id t hget with hget | hwhole
    · exact (h.whole id t hget).imp_right (Source.Whole.mono hknown)
    · exact .inr hwhole

/-- A run of calls adds whole types only. -/
theorem Builder.Reachable.calls_adds {b : Builder} (hb : b.Reachable)
    (source : Source σ H ε) (st : σ) (calls : List (Builder.Call H)) :
    source.Adds b (Builder.calls source calls (b, st)).value.2.1 := by
  induction calls generalizing b st with
  | nil => exact ⟨.refl b, hb.invariant.1, fun _ _ => .inl⟩
  | cons call calls ih =>
      obtain ⟨hfirst, -⟩ := hb.call_adds source st call
      have hreachable :
          (Builder.call source call (b, st)).value.2.1.Reachable := by
        cases call with
        | type h => exact .type source h st hb
        | function node => exact .function source node st hb
      exact hfirst.trans (ih hreachable _)

end SymbolGraph
