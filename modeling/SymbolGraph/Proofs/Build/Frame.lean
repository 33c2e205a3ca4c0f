/-
What a call leaves alone. Calls only add: a symbol that is stored stays as it
is under its key (`Builder.Extends`), and a call that fails adds nothing. It
fails for reasons of its own handle only (`Source.Refuses`). What goes wrong
further down becomes a gap in the symbol, a placeholder or a 0, and the symbol
is put together all the same, from one outcome for each of its links
(`Source.Whole`).

The danger is the time between the start of a type and its end, when any
number of types may be built. None of them can take its key: an id that is in
progress is known, and an id that is known is never described, so what the
table says under it does not change (`Builds.get?_of_knows`).
-/
import SymbolGraph.Proofs.Build.Descriptions
import SymbolGraph.Proofs.Build.Order

namespace SymbolGraph

variable {σ H ε : Type}

open Build

-- =========================================================== extension

/-- What is stored stays as it is. -/
structure Builder.Extends (b b' : Builder) : Prop where
  header : b'.graph.header = b.graph.header
  types : ∀ k t, b.graph.types.get? k = some t →
    b'.graph.types.get? k = some t
  functions : ∀ k f, b.graph.functions.get? k = some f →
    b'.graph.functions.get? k = some f

theorem Builder.Extends.refl (b : Builder) : b.Extends b where
  header := rfl
  types _ _ hget := hget
  functions _ _ hget := hget

theorem Builder.Extends.trans {b b' b'' : Builder} (h : b.Extends b')
    (h' : b'.Extends b'') : b.Extends b'' where
  header := h'.header.trans h.header
  types k t hget := h'.types k t (h.types k t hget)
  functions k f hget := h'.functions k f (h.functions k f hget)

/-- A function that is stored under a new key is in nobody's way. -/
theorem Builder.extends_storeFunction {b : Builder} {id : UInt32}
    (hnew : b.graph.functions.contains id = false) (f : FunctionSymbol) :
    b.Extends (b.storeFunction id f) where
  header := rfl
  types _ _ hget := hget
  functions k g hget := by
    have hne : k ≠ id := by
      rintro rfl
      rw [Table.contains_of_get? hget] at hnew
      cases hnew
    exact (Table.get?_insert_of_ne _ f hne).trans hget

namespace Build

variable {source : Source σ H ε} {hs : List H} {s s' : Builder × σ}
  {answers : List (Answer ε)}

theorem finish_graph (id : UInt32) (node : Node H)
    (answers : List (Option UInt32)) (b : Builder) :
    (b.finish id node answers).graph
      = { b.graph with types := (b.finish id node answers).graph.types } := by
  obtain ⟨name, length, shape⟩ := node
  cases shape <;> rfl

/-- Of the graph, a derivation touches the types only. -/
theorem Builds.graph_eq (h : Builds source hs s answers s') :
    s'.1.graph = { s.1.graph with types := s'.1.graph.types } := by
  induction h with
  | nil => rfl
  | replied _ _ ih => exact ih
  | described _ _ _ _ _ _ ihlinks ih =>
      rw [ih, finish_graph, ihlinks]
      rfl

theorem Builds.extends (h : Builds source hs s answers s') :
    s.1.Extends s'.1 where
  header := by rw [h.graph_eq]
  types k t hget := by
    rw [h.get?_of_knows (Builder.knows_of_get? hget)]
    exact hget
  functions k f hget := by
    rw [h.graph_eq]
    exact hget

end Build

-- ============================================================ outcomes

/-- Why a type is not built. That a part of it cannot be built is no
reason. -/
inductive Source.Refuses (source : Source σ H ε) (b : Builder) (h : H)
    (st : σ) : Failure ε → Prop
  | unreadable : (source.typeId h).value = none →
      Refuses source b h st .unreadableId
  | reserved : (source.typeId h).value = some 0 →
      Refuses source b h st .reservedId
  | undescribed {id : UInt32} {e : ε} : (source.typeId h).value = some id →
      id ≠ 0 → b.graph.types.contains id = false →
      (source.describe h st).value.1 = .error e →
      Refuses source b h st (.source e)

/-- What a link came to: the id behind it, which is known by now, or none if
it was refused at some moment. -/
def Source.Settles (source : Source σ H ε) (known : UInt32 → Prop) (h : H) :
    Option UInt32 → Prop
  | some id => (source.typeId h).value = some id ∧ id ≠ 0 ∧ known id
  | none => ∃ b st failure, source.Refuses b h st failure

/-- The symbol of a type that was built to its end: what the reader described,
put together from one outcome for each link. -/
def Source.Whole (source : Source σ H ε) (known : UInt32 → Prop)
    (id : UInt32) (t : TypeSymbol) : Prop :=
  ∃ h st node answers b, (source.typeId h).value = some id
    ∧ (source.describe h st).value.1 = .ok node
    ∧ List.Forall₂ (source.Settles known) node.shape.links answers
    ∧ t = symbolOf id node answers b

section Outcomes

variable {source : Source σ H ε} {known known' : UInt32 → Prop} {h : H}

theorem Source.Settles.mono (hknown : ∀ id, known id → known' id)
    {answer : Option UInt32} (hanswer : source.Settles known h answer) :
    source.Settles known' h answer := by
  cases answer with
  | none => exact hanswer
  | some id =>
      obtain ⟨hid, hne, hid'⟩ := hanswer
      exact ⟨hid, hne, hknown id hid'⟩

theorem Source.Whole.mono (hknown : ∀ id, known id → known' id) {id : UInt32}
    {t : TypeSymbol} (ht : source.Whole known id t) :
    source.Whole known' id t := by
  obtain ⟨h, st, node, answers, b, hid, hnode, hanswers, heq⟩ := ht
  exact ⟨h, st, node, answers, b, hid, hnode,
    hanswers.imp fun _ _ => Source.Settles.mono hknown, heq⟩

namespace Build

variable {hs : List H} {s s' : Builder × σ} {answers : List (Answer ε)}

theorem Replies.settles {b : Builder} {st st' : σ} {answer : Answer ε}
    (hreply : Replies source h b st answer st')
    (hknown : ∀ id, b.knows id = true → known id) :
    source.Settles known h answer.toOption := by
  cases hreply with
  | unreadable hid => exact ⟨b, st, _, .unreadable hid⟩
  | reserved hid => exact ⟨b, st, _, .reserved hid⟩
  | known hid hne hknows => exact ⟨hid, hne, hknown _ hknows⟩
  | undescribed hid hne hnew herror =>
      have hcontains := Table.get?_eq_none_iff.1 (Builder.get?_of_not_knows hnew)
      exact ⟨b, st, _, .undescribed hid hne hcontains herror⟩

/-- A derivation settles every handle, and what it adds is whole. -/
theorem Builds.whole (h : Builds source hs s answers s') :
    List.Forall₂ (source.Settles fun id => s'.1.knows id = true) hs
        (answers.map Except.toOption)
      ∧ ∀ id t, s'.1.graph.types.get? id = some t →
        s.1.graph.types.get? id = some t
          ∨ source.Whole (fun id => s'.1.knows id = true) id t := by
  induction h with
  | nil => exact ⟨.nil, fun _ _ => .inl⟩
  | replied hreply hrest ih =>
      obtain ⟨hanswers, hadded⟩ := ih
      exact ⟨.cons (hreply.settles fun _ => hrest.knows_mono) hanswers, hadded⟩
  | @described h hs id b st inner s' node links answers hid hne hnew hnode
      hlinks hrest ihlinks ih =>
      obtain ⟨hlinkAnswers, hlinkAdded⟩ := ihlinks
      obtain ⟨hanswers, hadded⟩ := ih
      have hknown : ∀ j, inner.1.knows j = true → s'.1.knows j = true := by
        intro j hj
        apply hrest.knows_mono
        rwa [Builder.knows_finish hlinks.inProgress_of_start]
      have hstarted : inner.1.knows id = true :=
        hlinks.knows_mono (Builder.knows_start_iff.2 (.inl rfl))
      refine ⟨.cons ⟨hid, hne, hknown id hstarted⟩ hanswers, ?_⟩
      intro j t hget
      rcases hadded j t hget with hget | hwhole
      · rw [finish_types] at hget
        rcases Table.get?_insert_eq_some_iff.1 hget with ⟨rfl, rfl⟩ | ⟨-, hget⟩
        · refine .inr ⟨h, st, node, _, inner.1, hid, hnode, ?_, rfl⟩
          exact hlinkAnswers.imp fun _ _ => Source.Settles.mono hknown
        · exact (hlinkAdded j t hget).imp_right (Source.Whole.mono hknown)
      · exact .inr hwhole

/-- A refusal leaves the builder as it is. -/
theorem Builds.eq_of_error {failure : Failure ε}
    (hbuilds : Builds source [h] s [.error failure] s') : s'.1 = s.1 := by
  cases hbuilds with
  | replied _ hrest =>
      cases hrest
      rfl

/-- While no type is in progress, a handle is answered by a failure if and
only if it is refused. -/
theorem Builds.eq_error_iff {answer : Answer ε} {failure : Failure ε}
    (hidle : s.1.inProgress = []) (hbuilds : Builds source [h] s [answer] s') :
    answer = .error failure ↔ source.Refuses s.1 h s.2 failure := by
  constructor
  · rintro rfl
    cases hbuilds with
    | replied hreply _ =>
        cases hreply with
        | unreadable hid => exact .unreadable hid
        | reserved hid => exact .reserved hid
        | undescribed hid hne hnew herror =>
            rw [Builder.knows_of_idle hidle] at hnew
            exact .undescribed hid hne hnew herror
  · intro hrefuses
    have hreply : ∃ st', Replies source h s.1 s.2 (.error failure) st' := by
      cases hrefuses with
      | unreadable hid => exact ⟨_, .unreadable hid⟩
      | reserved hid => exact ⟨_, .reserved hid⟩
      | undescribed hid hne hnew herror =>
          rw [← Builder.knows_of_idle hidle] at hnew
          exact ⟨_, .undescribed hid hne hnew herror⟩
    obtain ⟨st', hreply⟩ := hreply
    obtain ⟨hanswers, -⟩ := hbuilds.unique (.replied hreply .nil)
    exact List.singleton_inj.1 hanswers

end Build

end Outcomes

-- =============================================================== calls

/-- From one builder to the next nothing is lost, nothing stays in progress,
and each type that is new is whole. -/
structure Source.Adds (source : Source σ H ε) (b b' : Builder) : Prop where
  stored : b.Extends b'
  idle : b'.inProgress = []
  whole : ∀ id t, b'.graph.types.get? id = some t →
    b.graph.types.get? id = some t
      ∨ source.Whole (fun id => b'.graph.types.contains id = true) id t

/-- What a call came to, by what was asked for. A type is refused, or answered
by its id and stored. A function is built, from one outcome for each type of
its signature, unless it is stored already. -/
def Builder.Call.Ended (source : Source σ H ε) (b : Builder) (st : σ)
    (answer : Answer ε) (b' : Builder) : Builder.Call H → Prop
  | .type h =>
    (∀ failure, answer = .error failure ↔ source.Refuses b h st failure)
      ∧ (∀ failure, answer = .error failure → b' = b)
      ∧ ∀ id, answer = .ok id → (source.typeId h).value = some id
        ∧ b'.graph.types.contains id = true
  | .function node =>
    answer = .ok node.id
      ∧ (b.graph.functions.contains node.id = true → b' = b)
      ∧ (b.graph.functions.contains node.id = false → ∃ answers,
        List.Forall₂
          (source.Settles fun id => b'.graph.types.contains id = true)
          (node.places.filterMap id) answers
        ∧ b'.graph.functions.get? node.id = some (functionOf node answers))

section Calls

variable {source : Source σ H ε} {b : Builder}

/-- A derivation that begins with nothing in progress. -/
theorem Build.Builds.adds {hs : List H} {s s' : Builder × σ}
    {answers : List (Answer ε)} (hidle : s.1.inProgress = [])
    (h : Builds source hs s answers s') :
    source.Adds s.1 s'.1
      ∧ List.Forall₂
        (source.Settles fun id => s'.1.graph.types.contains id = true) hs
        (answers.map Except.toOption) := by
  have hidle' : s'.1.inProgress = [] := h.inProgress_eq.trans hidle
  have hknown : ∀ id, s'.1.knows id = true →
      s'.1.graph.types.contains id = true := by
    intro id hid
    rwa [← Builder.knows_of_idle hidle']
  obtain ⟨hanswers, hadded⟩ := h.whole
  refine ⟨⟨h.extends, hidle', fun id t hget => ?_⟩, ?_⟩
  · exact (hadded id t hget).imp_right (Source.Whole.mono hknown)
  · exact hanswers.imp fun _ _ => Source.Settles.mono hknown

theorem Builder.type_ended (source : Source σ H ε) (hidle : b.inProgress = [])
    (st : σ) (h : H) :
    let run := (Builder.type source h (b, st)).value
    source.Adds b run.2.1 ∧ (Call.type h).Ended source b st run.1 run.2.1 := by
  intro run
  have hbuilds : Builds source [h] (b, st) [run.1] run.2 :=
    builderType_builds source h (b, st) hidle
  obtain ⟨hadds, hsettled⟩ := hbuilds.adds hidle
  refine ⟨hadds, fun failure => hbuilds.eq_error_iff hidle, ?_, ?_⟩
  · intro failure hanswer
    rw [hanswer] at hbuilds
    exact hbuilds.eq_of_error
  · intro id hanswer
    rw [hanswer] at hsettled
    cases hsettled with
    | cons hfirst _ => exact ⟨hfirst.1, hfirst.2.2⟩

theorem Builder.function_ended (source : Source σ H ε)
    (hidle : b.inProgress = []) (st : σ) (node : FunctionNode H) :
    let run := (Builder.function source node (b, st)).value
    source.Adds b run.2.1
      ∧ (Call.function node).Ended source b st (.ok run.1) run.2.1 := by
  cases hstored : b.graph.functions.contains node.id with
  | true =>
      rw [function_value_of_contains source hstored]
      refine ⟨⟨.refl b, hidle, fun _ _ => .inl⟩, rfl, fun _ => rfl, ?_⟩
      intro hnew
      cases hstored.symm.trans hnew
  | false =>
      obtain ⟨answers, inner, hbuilds, hvalue⟩ :=
        function_builds source (s := (b, st)) hidle hstored
      rw [hvalue]
      obtain ⟨hadds, hsettled⟩ := hbuilds.adds hidle
      have hnew : inner.1.graph.functions.contains node.id = false := by
        rw [hbuilds.graph_eq]
        exact hstored
      have hextends :=
        extends_storeFunction hnew (functionOf node (answers.map Except.toOption))
      refine ⟨{ hadds with stored := hadds.stored.trans hextends }, rfl, ?_,
        fun _ => ⟨_, hsettled, ?_⟩⟩
      · intro hold
        cases hold.symm.trans hstored
      · exact (Table.get?_insert _ _ _ _).trans (if_pos rfl)

/-- On any builder that calls lead to, whatever the reader: a call leaves
every symbol that was stored as it was, nothing in progress, and no new type
but whole ones. A call for a type fails if and only if its handle has no id
that can be a key, or the id is not stored and the type cannot be described;
then the builder is what it was before. A call for a function never fails. -/
theorem Builder.Reachable.call_adds (hb : b.Reachable) (source : Source σ H ε)
    (st : σ) (call : Builder.Call H) :
    let run := (Builder.call source call (b, st)).value
    source.Adds b run.2.1 ∧ call.Ended source b st run.1 run.2.1 := by
  obtain ⟨hidle, -⟩ := hb.invariant
  cases call with
  | type h => exact type_ended source hidle st h
  | function node => exact function_ended source hidle st node

end Calls

/-- The structure of the tangled reader is built though one of its fields is
lost, and the type of that field, asked for itself, is refused. -/
theorem call_adds_tangledSource :
    let b := (Builder.type tangledSource 0 (Builder.new {}, 0)).value.2.1
    let built := (Builder.call tangledSource (.type 1) (b, 1)).value
    let refused := (Builder.call tangledSource (.type 2) (b, 1)).value
    b.Reachable ∧ b.graph.types.keys = [1]
      ∧ built.1 = .ok 2 ∧ built.2.1.graph.types.keys = [1, 2]
      ∧ tangledSource.Adds b built.2.1
      ∧ refused.1 = .error (.source ()) ∧ refused.2.1 = b := by
  intro b built refused
  have hreachable : b.Reachable := .type tangledSource 0 0 (.new {})
  have hrefused : refused.1 = .error (.source ()) := by rfl
  obtain ⟨hadds, -⟩ := hreachable.call_adds tangledSource 1 (.type 1)
  obtain ⟨-, -, hsame, -⟩ := hreachable.call_adds tangledSource 1 (.type 2)
  exact ⟨hreachable, by rfl, by rfl, by rfl, hadds, hrefused,
    hsame _ hrefused⟩

end SymbolGraph
