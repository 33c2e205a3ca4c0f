/-
What a construction stores, said without the order in which it went: the
ids that are reached from the roots by links (`Source.Reached`), and under
each id the symbol of what the reader says about it, with each link
answered by the id behind it, if that can be described (`Source.Answers`).

This needs a reader that is consistent: handles of one type have one
description. Otherwise it would matter which handle of a type comes first.

# The invariant

`Records` holds of a builder at every moment, also between a type's start
and its end. It has no clause for an id in progress other than that it is
reached: the answer to a link is its id as soon as that id is known, and
what the answer is does not depend on whether the type behind it is built,
being built or built just now. This is why cycles do no harm.
-/
import Mathlib.Data.List.Forall2
import Mathlib.Logic.Relation
import SymbolGraph.Proofs.Build.Soundness

namespace SymbolGraph

variable {σ H ε : Type}

-- ============================================================== readers

/-- Handles of one type have one description, whatever the reader went
through before it is asked. -/
def Source.Consistent (source : Source σ H ε) : Prop :=
  ∀ (h h' : H) (id : UInt32) (st st' : σ),
    (source.typeId h).value = some id → (source.typeId h').value = some id →
    (source.describe h st).value.1.toOption
      = (source.describe h' st').value.1.toOption

/-- The type with this id is described by this node. -/
def Source.Describes (source : Source σ H ε) (id : UInt32) (node : Node H) :
    Prop :=
  ∃ h st, (source.typeId h).value = some id
    ∧ (source.describe h st).value.1 = .ok node

/-- Behind the handle there is a type that can be described, and its id can
be a key. -/
def Source.Resolves (source : Source σ H ε) (h : H) (id : UInt32) : Prop :=
  (source.typeId h).value = some id ∧ id ≠ 0
    ∧ ∃ st node, (source.describe h st).value.1 = .ok node

/-- The first type has a field of the second, or is an alias of it. -/
def Source.DependsOn (source : Source σ H ε) (a b : UInt32) : Prop :=
  ∃ node, source.Describes a node
    ∧ ∃ h ∈ node.shape.links, source.Resolves h b

/-- The least set of ids that has those of the roots and, with the id of a
type, those of the types it depends on. -/
inductive Source.Reached (source : Source σ H ε) (roots : List H) :
    UInt32 → Prop
  | root {h : H} {id : UInt32} : h ∈ roots → source.Resolves h id →
      Reached source roots id
  | link {a b : UInt32} : Reached source roots a → source.DependsOn a b →
      Reached source roots b

/-- The answer to a handle: the id behind it, if it resolves. -/
def Source.Answers (source : Source σ H ε) (h : H) (answer : Option UInt32) :
    Prop :=
  ∀ id, answer = some id ↔ source.Resolves h id

section Readers

variable {source : Source σ H ε} {h : H} {id : UInt32} {node node' : Node H}

/-- In whatever state it is asked, the reader describes a type by its
node. -/
theorem Source.Consistent.describe_eq (hsource : source.Consistent)
    (hnode : source.Describes id node) (hid : (source.typeId h).value = some id)
    (st : σ) : (source.describe h st).value.1 = .ok node := by
  obtain ⟨h', st', hid', hok⟩ := hnode
  have hsame := hsource h h' id st st' hid hid'
  rw [hok] at hsame
  cases hdescribed : (source.describe h st).value.1 with
  | error e =>
      rw [hdescribed] at hsame
      cases hsame
  | ok node' =>
      rw [hdescribed] at hsame
      cases hsame
      rfl

theorem Source.Consistent.describes_unique (hsource : source.Consistent)
    (hnode : source.Describes id node) (hnode' : source.Describes id node') :
    node = node' := by
  obtain ⟨h, st, hid, hok⟩ := hnode'
  have hdescribed := hsource.describe_eq hnode hid st
  rw [hok] at hdescribed
  cases hdescribed
  rfl

theorem Source.Resolves.describes (hres : source.Resolves h id) :
    ∃ node, source.Describes id node := by
  obtain ⟨hid, -, st, node, hok⟩ := hres
  exact ⟨node, h, st, hid, hok⟩

theorem Source.Reached.describes {roots : List H}
    (hreached : source.Reached roots id) :
    ∃ node, source.Describes id node := by
  cases hreached with
  | root _ hres => exact hres.describes
  | link _ hdepends =>
      obtain ⟨_, _, _, _, hres⟩ := hdepends
      exact hres.describes

/-- More roots reach more. -/
theorem Source.Reached.mono {roots roots' : List H}
    (hroots : ∀ h ∈ roots, h ∈ roots') (hreached : source.Reached roots id) :
    source.Reached roots' id := by
  induction hreached with
  | root hmem hres => exact .root (hroots _ hmem) hres
  | link _ hdepends ih => exact .link ih hdepends

theorem Source.Resolves.answers (hres : source.Resolves h id) :
    source.Answers h (some id) := by
  intro j
  constructor
  · intro hj
    cases hj
    exact hres
  · intro hres'
    exact hres.1.symm.trans hres'.1

theorem Source.answers_none (hres : ∀ id, ¬ source.Resolves h id) :
    source.Answers h none := by
  intro id
  constructor
  · intro hid
    cases hid
  · intro hid
    exact absurd hid (hres id)

theorem Source.Answers.unique {answer answer' : Option UInt32}
    (ha : source.Answers h answer) (ha' : source.Answers h answer') :
    answer = answer' := by
  ext id
  rw [ha id, ha' id]

theorem Source.answers_unique {hs : List H}
    {answers answers' : List (Option UInt32)}
    (ha : List.Forall₂ source.Answers hs answers)
    (ha' : List.Forall₂ source.Answers hs answers') : answers = answers' := by
  induction ha generalizing answers' with
  | nil =>
      cases ha'
      rfl
  | cons hfirst _ ih =>
      cases ha' with
      | cons hfirst' hrest' => rw [hfirst.unique hfirst', ih hrest']

/-- The ids that are answered are those that the handles resolve to. -/
theorem Source.mem_answers_iff {hs : List H} {answers : List (Option UInt32)}
    (ha : List.Forall₂ source.Answers hs answers) :
    some id ∈ answers ↔ ∃ h ∈ hs, source.Resolves h id := by
  induction ha with
  | nil => simp
  | @cons h answer hs answers hfirst _ ih =>
      rw [List.mem_cons, ih, List.exists_mem_cons_iff, eq_comm, hfirst id]

end Readers

-- ============================================================== records

/-- The symbol is that of the type's node, with its links answered, and the
answers are known. -/
def Source.Recorded (source : Source σ H ε) (known : UInt32 → Prop)
    (id : UInt32) (t : TypeSymbol) : Prop :=
  ∃ node answers b, source.Describes id node
    ∧ List.Forall₂ source.Answers node.shape.links answers
    ∧ (∀ r, some r ∈ answers → known r)
    ∧ t = Build.symbolOf id node answers b

/-- What the builder knows is reached, and what it stores is recorded. -/
structure Source.Records (source : Source σ H ε) (roots : List H)
    (b : Builder) : Prop where
  reached : ∀ id, b.knows id = true → source.Reached roots id
  recorded : ∀ id t, b.graph.types.get? id = some t →
    source.Recorded (fun r => b.knows r = true) id t

namespace Build

section Records

variable {source : Source σ H ε} {roots : List H} {b : Builder} {id : UInt32}

theorem records_new (header : Header) :
    source.Records roots (Builder.new header) where
  reached _ hknows := by cases hknows
  recorded _ _ hget := by cases hget

theorem records_start (h : source.Records roots b)
    (hid : source.Reached roots id) : source.Records roots (b.start id) where
  reached := by
    intro j hj
    rcases Builder.knows_start_iff.1 hj with rfl | hj
    · exact hid
    · exact h.reached j hj
  recorded := by
    intro k t hget
    obtain ⟨node, answers, b', hnode, hanswers, hknown, ht⟩ :=
      h.recorded k t hget
    refine ⟨node, answers, b', hnode, hanswers, ?_, ht⟩
    intro r hr
    exact Builder.knows_start_iff.2 (.inr (hknown r hr))

theorem records_finish {rest : List UInt32} {node : Node H}
    {answers : List (Option UInt32)} (h : source.Records roots b)
    (hprogress : b.inProgress = id :: rest) (hnode : source.Describes id node)
    (hanswers : List.Forall₂ source.Answers node.shape.links answers)
    (hknown : ∀ r, some r ∈ answers → b.knows r = true) :
    source.Records roots (b.finish id node answers) where
  reached := by
    intro j hj
    rw [Builder.knows_finish hprogress] at hj
    exact h.reached j hj
  recorded := by
    intro k t hget
    have hknows := Builder.knows_finish hprogress node answers
    rw [finish_types] at hget
    rcases Table.get?_insert_eq_some_iff.1 hget with ⟨rfl, rfl⟩ | ⟨-, hget⟩
    · refine ⟨node, answers, b, hnode, hanswers, ?_, rfl⟩
      intro r hr
      rw [hknows, hknown r hr]
    · obtain ⟨node', answers', b', hnode', hanswers', hknown', ht⟩ :=
        h.recorded k t hget
      refine ⟨node', answers', b', hnode', hanswers', ?_, ht⟩
      intro r hr
      rw [hknows, hknown' r hr]

/-- The links of a reached type lead to reached types. -/
theorem reached_of_link {node : Node H} (hid : source.Reached roots id)
    (hnode : source.Describes id node) :
    ∀ h ∈ node.shape.links, ∀ j, source.Resolves h j →
      source.Reached roots j :=
  fun h hmem _ hres => .link hid ⟨node, hnode, h, hmem, hres⟩

/-- What is answered at once is what the reader would answer. -/
theorem Replies.answers (hsource : source.Consistent)
    (hrecords : source.Records roots b) {h : H} {st st' : σ}
    {answer : Answer ε} (hreply : Replies source h b st answer st') :
    source.Answers h answer.toOption := by
  cases hreply with
  | unreadable hid =>
      apply Source.answers_none
      rintro j ⟨hj, -⟩
      rw [hid] at hj
      cases hj
  | reserved hid =>
      apply Source.answers_none
      rintro j ⟨hj, hne, -⟩
      rw [hid] at hj
      cases hj
      exact hne rfl
  | @known id hid hne hknown =>
      obtain ⟨node, hnode⟩ := (hrecords.reached id hknown).describes
      have hres : source.Resolves h id :=
        ⟨hid, hne, st, node, hsource.describe_eq hnode hid st⟩
      exact hres.answers
  | undescribed _ _ _ herror =>
      apply Source.answers_none
      rintro j ⟨hj, -, st', node, hok⟩
      have hdescribed := hsource.describe_eq ⟨h, st', hj, hok⟩ hj st
      rw [herror] at hdescribed
      cases hdescribed

/-- A derivation keeps the records, and answers every handle as the reader
would. -/
theorem Builds.records {hs : List H} {s s' : Builder × σ}
    {answers : List (Answer ε)} (hsource : source.Consistent)
    (h : Builds source hs s answers s')
    (hreached : ∀ h ∈ hs, ∀ id, source.Resolves h id →
      source.Reached roots id)
    (hrecords : source.Records roots s.1) :
    source.Records roots s'.1
      ∧ List.Forall₂ source.Answers hs (answers.map Except.toOption) := by
  induction h with
  | nil => exact ⟨hrecords, .nil⟩
  | replied hreply _ ih =>
      obtain ⟨hrest, hanswers⟩ :=
        ih (List.forall_mem_cons.1 hreached).2 hrecords
      exact ⟨hrest, .cons (hreply.answers hsource hrecords) hanswers⟩
  | @described h hs id b st inner s' node links answers hid hne _ hok hlinks _
      ihlinks ih =>
      have hres : source.Resolves h id := ⟨hid, hne, st, node, hok⟩
      have hnode : source.Describes id node := ⟨h, st, hid, hok⟩
      have hroot : source.Reached roots id :=
        hreached h List.mem_cons_self id hres
      obtain ⟨hinner, hlinkAnswers⟩ :=
        ihlinks (reached_of_link hroot hnode) (records_start hrecords hroot)
      have hfinish := records_finish hinner hlinks.inProgress_of_start hnode
        hlinkAnswers fun _ hr => hlinks.knows_answer hr
      obtain ⟨hrest, hanswers⟩ :=
        ih (List.forall_mem_cons.1 hreached).2 hfinish
      exact ⟨hrest, .cons hres.answers hanswers⟩

end Records

end Build

end SymbolGraph
