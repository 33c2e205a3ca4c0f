/-
What holds of every builder, whatever it was asked to build and whichever
readers answered it. Between two calls nothing is in progress, and the
graph is well-formed (`Graph.WellFormed`): keys are the ids of their
symbols, references name stored types, counts are right.

# The invariant

Within a call the graph is not well-formed in this sense. The type of a
field may be one that is still being built further up, and then the symbol
that is stored refers to an id that no key has yet. So references are held
against what the builder knows, stored or in progress. A symbol is stored
in the same step in which its id stops being in progress, so the ids that
are known never become fewer (`knows_finish`), and a reference once good
stays good. When nothing is in progress, what is known is what is stored.
-/
import SymbolGraph.Proofs.Build.WellFormed

namespace SymbolGraph

variable {σ H ε : Type}

-- ======================================================== what is known

theorem Builder.knows_start_iff {b : Builder} {id j : UInt32} :
    (b.start id).knows j = true ↔ j = id ∨ b.knows j = true := by
  show (b.graph.types.contains j || (id :: b.inProgress).contains j) = true ↔ _
  unfold knows
  rw [List.contains_cons, Bool.or_left_comm, Bool.or_eq_true, beq_iff_eq]

/-- An id is known as long as it is in progress, and from then on it is
known because it is stored. -/
theorem Builder.knows_finish {b : Builder} {id : UInt32} {rest : List UInt32}
    (h : b.inProgress = id :: rest) (node : Node H)
    (answers : List (Option UInt32)) (j : UInt32) :
    (b.finish id node answers).knows j = b.knows j := by
  unfold knows
  rw [Build.finish_inProgress, Build.finish_types, Table.contains_insert, h,
    List.erase_cons_head, List.contains_cons, Bool.or_assoc,
    Bool.or_left_comm]

theorem Builder.get?_of_not_knows {b : Builder} {id : UInt32}
    (h : b.knows id = false) : b.graph.types.get? id = none := by
  unfold knows at h
  rw [Bool.or_eq_false_iff] at h
  exact Table.get?_eq_none_iff.2 h.1

theorem Builder.knows_of_get? {b : Builder} {id : UInt32} {t : TypeSymbol}
    (h : b.graph.types.get? id = some t) : b.knows id = true := by
  unfold knows
  rw [Table.contains_of_get? h, Bool.true_or]

theorem Builder.knows_of_idle {b : Builder} (h : b.inProgress = [])
    (id : UInt32) : b.knows id = b.graph.types.contains id := by
  unfold knows
  rw [h, List.contains_nil, Bool.or_false]

namespace Build

section Known

variable {source : Source σ H ε} {hs : List H} {s s' : Builder × σ}
  {answers : List (Answer ε)}

/-- Nothing that is known is forgotten. -/
theorem Builds.knows_mono (h : Builds source hs s answers s') {j : UInt32}
    (hj : s.1.knows j = true) : s'.1.knows j = true := by
  induction h with
  | nil => exact hj
  | replied _ _ ih => exact ih hj
  | described _ _ _ _ hlinks _ ihlinks ih =>
      apply ih
      rw [Builder.knows_finish hlinks.inProgress_of_start]
      exact ihlinks (Builder.knows_start_iff.2 (.inr hj))

/-- An id that is answered is known from then on. -/
theorem Builds.knows_answer (h : Builds source hs s answers s') {j : UInt32}
    (hj : some j ∈ answers.map Except.toOption) : s'.1.knows j = true := by
  induction h with
  | nil => cases hj
  | replied hreply hrest ih =>
      rcases List.mem_cons.1 hj with hfirst | hj
      · cases hreply with
        | known _ _ hknown =>
            cases hfirst
            exact hrest.knows_mono hknown
        | _ => cases hfirst
      · exact ih hj
  | described _ _ _ _ hlinks hrest _ ih =>
      rcases List.mem_cons.1 hj with hfirst | hj
      · cases hfirst
        apply hrest.knows_mono
        rw [Builder.knows_finish hlinks.inProgress_of_start]
        exact hlinks.knows_mono (Builder.knows_start_iff.2 (.inl rfl))
      · exact ih hj

end Known

end Build

-- ============================================================ invariant

/-- The graph is well-formed, if what is in progress counts as stored. -/
def Builder.Sound (b : Builder) : Prop :=
  b.graph.WellFormed fun id => b.knows id = true

theorem Builder.sound_new (header : Header) : (new header).Sound where
  types _ _ hget := by cases hget
  functions _ _ hget := by cases hget

theorem Builder.Sound.start {b : Builder} (h : b.Sound) (id : UInt32) :
    (b.start id).Sound := by
  refine Graph.WellFormed.mono h ?_
  intro j hj
  exact knows_start_iff.2 (.inr hj)

/-- Storing the symbol of the id that is innermost in progress. -/
theorem Builder.Sound.finish {b : Builder} {id : UInt32} {rest : List UInt32}
    (h : b.Sound) (hid : id ≠ 0) (hprogress : b.inProgress = id :: rest)
    (node : Node H) {answers : List (Option UInt32)}
    (hanswers : ∀ r, some r ∈ answers → b.knows r = true) :
    (b.finish id node answers).Sound := by
  have hknows : ∀ j, b.knows j = true →
      (b.finish id node answers).knows j = true := by
    intro j hj
    rw [knows_finish hprogress, hj]
  have hold := Graph.WellFormed.mono h hknows
  refine ⟨?_, ?_⟩
  · intro k t hget
    rw [Build.finish_types] at hget
    rcases Table.get?_insert_eq_some_iff.1 hget with ⟨rfl, rfl⟩ | ⟨-, hget⟩
    · exact Build.symbolOf_wellFormed hid node b
        fun r hr => hknows r (hanswers r hr)
    · exact hold.types k t hget
  · intro k f hget
    rw [Build.finish_functions] at hget
    exact hold.functions k f hget

theorem Builder.Sound.storeFunction {b : Builder} (h : b.Sound)
    (node : FunctionNode H) {answers : List (Option UInt32)}
    (hanswers : ∀ r, some r ∈ answers → b.knows r = true) :
    (b.storeFunction node.id (Build.functionOf node answers)).Sound := by
  refine ⟨h.types, ?_⟩
  intro k f hget
  rcases Table.get?_insert_eq_some_iff.1 hget with ⟨rfl, rfl⟩ | ⟨-, hget⟩
  · exact Build.functionOf_wellFormed node hanswers
  · exact h.functions k f hget

/-- A derivation keeps the invariant. -/
theorem Build.Builds.sound {source : Source σ H ε} {hs : List H}
    {s s' : Builder × σ} {answers : List (Answer ε)}
    (h : Builds source hs s answers s') (hsound : s.1.Sound) :
    s'.1.Sound := by
  induction h with
  | nil => exact hsound
  | replied _ _ ih => exact ih hsound
  | described _ hid _ _ hlinks _ ihlinks ih =>
      apply ih
      exact (ihlinks (hsound.start _)).finish hid hlinks.inProgress_of_start _
        fun _ hr => hlinks.knows_answer hr

-- ================================================== reachable builders

/-- The builders that come about by calls from outside: each call may
bring a reader and a reader's state of its own. -/
inductive Builder.Reachable : Builder → Prop
  | new (header : Header) : Reachable (Builder.new header)
  | type {σ H ε : Type} {b : Builder} (source : Source σ H ε) (handle : H)
      (state : σ) : Reachable b →
      Reachable (Builder.type source handle (b, state)).value.2.1
  | function {σ H ε : Type} {b : Builder} (source : Source σ H ε)
      (node : FunctionNode H) (state : σ) : Reachable b →
      Reachable (Builder.function source node (b, state)).value.2.1

/-- Between two calls nothing is in progress, and the graph is sound. -/
theorem Builder.Reachable.invariant {b : Builder} (h : b.Reachable) :
    b.inProgress = [] ∧ b.Sound := by
  induction h with
  | new header => exact ⟨rfl, sound_new header⟩
  | @type σ H ε b source handle state _ ih =>
      obtain ⟨hidle, hsound⟩ := ih
      have hbuilds := Build.builderType_builds source handle (b, state) hidle
      exact ⟨hbuilds.inProgress_eq.trans hidle, hbuilds.sound hsound⟩
  | @function σ H ε b source node state _ ih =>
      obtain ⟨hidle, hsound⟩ := ih
      cases hstored : b.graph.functions.contains node.id with
      | true =>
          rw [Build.function_value_of_contains source hstored]
          exact ⟨hidle, hsound⟩
      | false =>
          obtain ⟨answers, inner, hbuilds, hvalue⟩ :=
            Build.function_builds source (s := (b, state)) hidle hstored
          rw [hvalue]
          exact ⟨hbuilds.inProgress_eq.trans hidle,
            (hbuilds.sound hsound).storeFunction node
              fun _ hr => hbuilds.knows_answer hr⟩

/-- After any calls, on any readers: nothing is in progress, every symbol
stands under its own id, no type under 0, every reference but 0 names a
stored type, and the counts are those of the lists, as far as 32 bits go.
So the check of references passes, unless a list of fields is too long. -/
theorem Builder.Reachable.graph_wellFormed {b : Builder} (h : b.Reachable) :
    b.inProgress = []
      ∧ b.graph.WellFormed (fun id => b.graph.types.contains id = true)
      ∧ ((∀ t ∈ b.graph.types.values, t.fields.length < 2 ^ 32) →
        b.graph.verify.value = true) := by
  obtain ⟨hidle, hsound⟩ := h.invariant
  have hwell : b.graph.WellFormed
      fun id => b.graph.types.contains id = true := by
    refine Graph.WellFormed.mono hsound ?_
    intro id hknows
    rwa [← knows_of_idle hidle]
  exact ⟨hidle, hwell, hwell.isSound⟩

/-- A reader of two types that need each other, a structure 1 with a field
of type 2 and an alias 2 of type 1. A handle is the id of its type. -/
def mutualSource : Source Unit UInt32 Empty where
  typeId handle := pure (some handle)
  describe handle state :=
    let shape :=
      if handle = 1 then .aggregate .struct [some ⟨5, "next", 0, 2⟩]
      else .typedef (some 1)
    pure (.ok ⟨none, 8, shape⟩, state)
  message := nofun

/-- The builder of both types, from a call for the structure. -/
def mutualBuilder : Builder :=
  (Builder.type mutualSource 1 (Builder.new {}, ())).value.2.1

theorem mutualBuilder_graph_wellFormed :
    mutualBuilder.Reachable ∧ mutualBuilder.graph.types.keys = [1, 2]
      ∧ mutualBuilder.inProgress = []
      ∧ mutualBuilder.graph.WellFormed
        (fun id => mutualBuilder.graph.types.contains id = true)
      ∧ mutualBuilder.graph.verify.value = true := by
  have hreachable : mutualBuilder.Reachable :=
    .type mutualSource 1 () (.new {})
  obtain ⟨hidle, hwell, hverify⟩ := hreachable.graph_wellFormed
  refine ⟨hreachable, by rfl, hidle, hwell, hverify ?_⟩
  decide

end SymbolGraph
