/-
Runs of calls to one reader, said without the order of the calls. Between two
calls every stored type is recorded, and the aliases of a type are as long as
the type, unless it depends on itself (`Source.Kept`). A run loses nothing,
stores each type that is asked for and can be described, and each function, from
what its handles resolve to (`Source.Ran`). Both are said of one call first, and
calls go together because what one of them stores stays stored.
-/
import SymbolGraph.Proofs.Build.Functions

namespace SymbolGraph

variable {σ H ε : Type}

open Relation (TransGen)
open Build

-- =========================================================== signatures

/-- The entry of a signature for a handle: the id that it resolves to, and 0 if
there is no handle or it does not resolve. -/
def Source.Fills (source : Source σ H ε) : Option H → UInt32 → Prop
  | none, entry => entry = 0
  | some h, entry => ∃ answer, source.Answers h answer ∧ entry = answer.getD 0

/-- The symbol of a function has the entries of its signature. -/
def Source.Signs (source : Source σ H ε) (node : FunctionNode H)
    (f : FunctionSymbol) : Prop :=
  ∃ returnType argumentTypes, source.Fills node.returnType returnType
    ∧ List.Forall₂ source.Fills node.argumentHandles argumentTypes
    ∧ f = node.symbol returnType argumentTypes

section Signatures

variable {source : Source σ H ε}

theorem Source.Fills.eq_of_resolves {h : H} {entry id : UInt32}
    (hentry : source.Fills (some h) entry) (hres : source.Resolves h id) :
    entry = id := by
  obtain ⟨answer, hanswer, rfl⟩ := hentry
  rw [hanswer.unique hres.answers]
  rfl

theorem Source.Fills.eq_zero {h : H} {entry : UInt32}
    (hentry : source.Fills (some h) entry)
    (hres : ∀ id, ¬ source.Resolves h id) : entry = 0 := by
  obtain ⟨answer, hanswer, rfl⟩ := hentry
  rw [hanswer.unique (Source.answers_none hres)]
  rfl

/-- Answers to the handles in some places fill the places. -/
theorem Source.fills_signatureIds {places : List (Option H)}
    {answers : List (Option UInt32)}
    (h : List.Forall₂ source.Answers (places.filterMap id) answers) :
    List.Forall₂ source.Fills places (signatureIds places answers) := by
  induction places generalizing answers with
  | nil => exact .nil
  | cons place places ih =>
      cases place with
      | none => exact .cons rfl (ih h)
      | some handle =>
          cases h with
          | cons hfirst hrest => exact .cons ⟨_, hfirst, rfl⟩ (ih hrest)

theorem Source.signs_functionOf {node : FunctionNode H}
    {answers : List (Option UInt32)}
    (h : List.Forall₂ source.Answers (node.places.filterMap id) answers) :
    source.Signs node (functionOf node answers) := by
  rw [places_eq] at h
  have hfilled := fills_signatureIds h
  unfold functionOf
  rw [places_eq]
  generalize signatureIds _ answers = entries at hfilled
  cases hfilled with
  | cons hreturn harguments => exact ⟨_, _, hreturn, harguments, rfl⟩

end Signatures

-- ================================================================= runs

/-- Between two calls: nothing is in progress, what is stored is recorded, and
the aliases of a type have its length, unless it depends on itself. -/
structure Source.Kept (source : Source σ H ε) (roots : List H) (b : Builder) :
    Prop where
  idle : b.inProgress = []
  records : source.Records roots b
  measured : ∀ a, ¬ TransGen source.DependsOn a a → source.MeasuredAt b a

/-- What calls make of a builder. -/
structure Source.Ran (source : Source σ H ε) (calls : List (Builder.Call H))
    (b b' : Builder) : Prop where
  stored : b.Extends b'
  types : ∀ h id, .type h ∈ calls → source.Resolves h id →
    b'.graph.types.contains id = true
  called : ∀ node, .function node ∈ calls →
    b'.graph.functions.contains node.id = true
  functions : ∀ id f, b'.graph.functions.get? id = some f →
    b.graph.functions.get? id = some f
      ∨ ∃ node, .function node ∈ calls ∧ node.id = id ∧ source.Signs node f

section Runs

variable {source : Source σ H ε} {roots : List H} {b b' b'' : Builder}

theorem Source.kept_new (header : Header) :
    source.Kept roots (Builder.new header) where
  idle := rfl
  records := records_new header
  measured _ _ _ _ _ _ hget := by cases hget

theorem Source.ran_nil (b : Builder) : source.Ran [] b b where
  stored := .refl b
  types _ _ hcall := by cases hcall
  called _ hcall := by cases hcall
  functions _ _ hget := .inl hget

theorem Builder.Extends.contains_types (h : b.Extends b') {k : UInt32}
    (hk : b.graph.types.contains k = true) :
    b'.graph.types.contains k = true := by
  obtain ⟨t, hget⟩ := Table.contains_iff.1 hk
  exact Table.contains_of_get? (h.types k t hget)

theorem Builder.Extends.contains_functions (h : b.Extends b') {k : UInt32}
    (hk : b.graph.functions.contains k = true) :
    b'.graph.functions.contains k = true := by
  obtain ⟨f, hget⟩ := Table.contains_iff.1 hk
  exact Table.contains_of_get? (h.functions k f hget)

/-- Calls behind calls. -/
theorem Source.Ran.append {calls calls' : List (Builder.Call H)}
    (h : source.Ran calls b b') (h' : source.Ran calls' b' b'') :
    source.Ran (calls ++ calls') b b'' where
  stored := h.stored.trans h'.stored
  types handle id hcall hres := by
    rcases List.mem_append.1 hcall with hcall | hcall
    · exact h'.stored.contains_types (h.types handle id hcall hres)
    · exact h'.types handle id hcall hres
  called node hcall := by
    rcases List.mem_append.1 hcall with hcall | hcall
    · exact h'.stored.contains_functions (h.called node hcall)
    · exact h'.called node hcall
  functions id f hget := by
    rcases h'.functions id f hget with hget | ⟨node, hcall, hnode⟩
    · rcases h.functions id f hget with hget | ⟨node, hcall, hnode⟩
      · exact .inl hget
      · exact .inr ⟨node, List.mem_append_left _ hcall, hnode⟩
    · exact .inr ⟨node, List.mem_append_right _ hcall, hnode⟩

namespace Build

variable {s s' : Builder × σ}

theorem Builds.kept {hs : List H} {answers : List (Answer ε)}
    (h : Builds source hs s answers s') (hsource : source.Consistent)
    (hroots : ∀ h ∈ hs, h ∈ roots) (hkept : source.Kept roots s.1) :
    source.Kept roots s'.1
      ∧ List.Forall₂ source.Answers hs (answers.map Except.toOption) := by
  have hreached : ∀ h ∈ hs, ∀ id, source.Resolves h id →
      source.Reached roots id := fun h hmem id => .root (hroots h hmem)
  have hbelow : source.Below s.1 hs := by
    intro p hp
    rw [hkept.idle] at hp
    cases hp
  obtain ⟨hrecords, hanswers⟩ := h.records hsource hreached hkept.records
  exact ⟨⟨h.inProgress_eq.trans hkept.idle, hrecords, fun a ha =>
    h.measuredAt hsource ha hreached hkept.records hbelow
      (hkept.measured a ha)⟩, hanswers⟩

theorem type_ran (hsource : source.Consistent) {h : H} (hroot : h ∈ roots)
    (hkept : source.Kept roots s.1) :
    source.Kept roots (Builder.type source h s).value.2.1
      ∧ source.Ran [.type h] s.1 (Builder.type source h s).value.2.1 := by
  have hbuilds := builderType_builds source h s hkept.idle
  obtain ⟨hkept', hanswers⟩ := hbuilds.kept hsource
    (List.forall_mem_singleton.2 hroot) hkept
  refine ⟨hkept', hbuilds.extends, ?_, by simp, fun id f hget => .inl ?_⟩
  · intro h' id hcall hres
    cases List.mem_singleton.1 hcall
    have hanswer := (Source.mem_answers_iff hanswers).2
      ⟨h, List.mem_singleton_self h, hres⟩
    rw [← Builder.knows_of_idle hkept'.idle]
    exact hbuilds.knows_answer hanswer
  · rwa [hbuilds.graph_eq] at hget

theorem function_ran (hsource : source.Consistent) {node : FunctionNode H}
    (hroots : ∀ h ∈ node.places.filterMap id, h ∈ roots)
    (hkept : source.Kept roots s.1) :
    source.Kept roots (Builder.function source node s).value.2.1
      ∧ source.Ran [.function node] s.1
        (Builder.function source node s).value.2.1 := by
  cases hstored : s.1.graph.functions.contains node.id with
  | true =>
      rw [function_value_of_contains source hstored]
      refine ⟨hkept, .refl _, by simp, ?_, fun _ _ => .inl⟩
      intro node' hcall
      cases List.mem_singleton.1 hcall
      exact hstored
  | false =>
      obtain ⟨answers, inner, hbuilds, hvalue⟩ :=
        function_builds source hkept.idle hstored
      rw [hvalue]
      obtain ⟨hinner, hanswers⟩ := hbuilds.kept hsource hroots hkept
      have hnew : inner.1.graph.functions.contains node.id = false := by
        rw [hbuilds.graph_eq]
        exact hstored
      -- a function that is stored is in no type's way
      refine ⟨⟨hinner.idle, { hinner.records with }, hinner.measured⟩,
        hbuilds.extends.trans (Builder.extends_storeFunction hnew _), by simp,
        ?_, fun id f hget => ?_⟩
      · intro node' hcall
        cases List.mem_singleton.1 hcall
        exact Table.contains_iff.2
          ⟨_, (Table.get?_insert _ _ _ _).trans (if_pos rfl)⟩
      · rcases Table.get?_insert_eq_some_iff.1 hget with ⟨rfl, rfl⟩ | ⟨-, hget⟩
        · exact .inr ⟨node, List.mem_singleton_self _, rfl,
            Source.signs_functionOf hanswers⟩
        · rw [hbuilds.graph_eq] at hget
          exact .inl hget

theorem call_ran (hsource : source.Consistent) (call : Builder.Call H)
    (hroots : ∀ h ∈ call.handles, h ∈ roots) (hkept : source.Kept roots s.1) :
    source.Kept roots (Builder.call source call s).value.2.1
      ∧ source.Ran [call] s.1 (Builder.call source call s).value.2.1 := by
  cases call with
  | type h => exact type_ran hsource (hroots h (List.mem_singleton_self h)) hkept
  | function node => exact function_ran hsource hroots hkept

/-- Whatever is called for, one call after another. -/
theorem calls_ran (hsource : source.Consistent) (calls : List (Builder.Call H))
    (hroots : ∀ call ∈ calls, ∀ h ∈ call.handles, h ∈ roots)
    (hkept : source.Kept roots s.1) :
    source.Kept roots (Builder.calls source calls s).value.2.1
      ∧ source.Ran calls s.1 (Builder.calls source calls s).value.2.1 := by
  induction calls generalizing s with
  | nil => exact ⟨hkept, Source.ran_nil s.1⟩
  | cons call calls ih =>
      obtain ⟨hfirst, hrest⟩ := List.forall_mem_cons.1 hroots
      obtain ⟨hkept', hran⟩ := call_ran hsource call hfirst hkept
      obtain ⟨hkept'', hran'⟩ := ih hrest hkept'
      exact ⟨hkept'', hran.append hran'⟩

end Build

end Runs

end SymbolGraph
