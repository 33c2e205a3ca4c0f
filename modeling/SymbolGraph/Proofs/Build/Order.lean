/-
The order in which types are asked for does not show in the graph, but in
two places: pointers are numbered as they come, and an alias that is
stored before its target takes the length its own node gives. Without
types that depend on themselves an alias never comes before its target,
and then the lengths are the same as well (`types_independent_of_order`).

# Why an alias comes after its target

While a type is built, everything that is asked for is a dependency of
every type in progress (`Source.Below`). So if the target of an alias is
answered because it is in progress, it depends on itself. If it does not,
it is stored before its alias (`Builds.measuredAt`), and what is stored is
never changed (`Builds.get?_of_knows`). Where no type depends on itself,
the lengths of the two graphs are then compared from the targets up.
-/
import Mathlib.Data.Fintype.EquivFin
import Mathlib.Order.WellFounded
import SymbolGraph.Proofs.Build.Reach

namespace SymbolGraph

variable {σ H ε : Type}

open Relation (TransGen)

/-- Builds the types behind handles, one after another. -/
def Builder.types (source : Source σ H ε) :
    List H → Build.Step σ (List (Build.Answer ε))
  | [] => return []
  | h :: rest => do
    let first ← Builder.type source h
    return first :: (← Builder.types source rest)

/-- The types of the graph that a fresh builder makes of the roots. -/
def Builder.typesFrom (source : Source σ H ε) (header : Header) (st : σ)
    (roots : List H) : Table TypeSymbol :=
  (Builder.types source roots (Builder.new header, st)).value.2.1.graph.types

namespace Build

theorem types_builds (source : Source σ H ε) (hs : List H) (s : Builder × σ)
    (hidle : s.1.inProgress = []) :
    Builds source hs s (Builder.types source hs s).value.1
      (Builder.types source hs s).value.2 := by
  induction hs generalizing s with
  | nil => exact .nil
  | cons h rest ih =>
      have hfirst := builderType_builds source h s hidle
      exact hfirst.append (ih _ (hfirst.inProgress_eq.trans hidle))

-- ================================================================= keys

section Keys

variable {source : Source σ H ε} {roots : List H} {b : Builder}

/-- When nothing is in progress, the keys are closed under dependency. -/
theorem contains_of_reached (hsource : source.Consistent)
    (hrecords : source.Records roots b) (hidle : b.inProgress = [])
    (hroots : ∀ h ∈ roots, ∀ id, source.Resolves h id → b.knows id = true)
    {id : UInt32} (hreached : source.Reached roots id) :
    b.graph.types.contains id = true := by
  rw [← Builder.knows_of_idle hidle]
  induction hreached with
  | root hmem hres => exact hroots _ hmem _ hres
  | link _ hdepends ih =>
      obtain ⟨node, hnode, h, hmem, hres⟩ := hdepends
      rw [Builder.knows_of_idle hidle] at ih
      obtain ⟨t, hget⟩ := Table.contains_iff.1 ih
      obtain ⟨node', answers, b', hnode', hanswers, hknown, -⟩ :=
        hrecords.recorded _ t hget
      cases hsource.describes_unique hnode hnode'
      exact hknown _ ((Source.mem_answers_iff hanswers).2 ⟨h, hmem, hres⟩)

/-- A derivation from a fresh builder stores what its handles reach. -/
theorem Builds.contains_iff (hsource : source.Consistent) {header : Header}
    {st : σ} {answers : List (Answer ε)} {s' : Builder × σ}
    (h : Builds source roots (Builder.new header, st) answers s')
    (id : UInt32) :
    s'.1.graph.types.contains id = true ↔ source.Reached roots id := by
  have hidle := h.inProgress_eq
  obtain ⟨hrecords, hanswers⟩ :=
    h.records hsource (fun h hmem id hres => .root hmem hres)
      (records_new header)
  constructor
  · intro hcontains
    obtain ⟨t, hget⟩ := Table.contains_iff.1 hcontains
    exact hrecords.reached id (Builder.knows_of_get? hget)
  · apply contains_of_reached hsource hrecords hidle
    intro r hmem j hres
    have hanswered := (Source.mem_answers_iff hanswers).2 ⟨r, hmem, hres⟩
    exact h.knows_answer hanswered

/-- A fresh builder that was asked for the roots stores what they reach. -/
theorem typesFrom_contains_iff (hsource : source.Consistent) (header : Header)
    (st : σ) (roots : List H) (id : UInt32) :
    (Builder.typesFrom source header st roots).contains id = true
      ↔ source.Reached roots id :=
  (types_builds source roots (Builder.new header, st) rfl).contains_iff
    hsource id

end Keys

end Build

-- ============================================================== symbols

/-- The two symbols of a type of this shape are the same, except for the
name of a pointer and the length of an alias. -/
def Shape.Alike (shape : Shape H) (t t' : TypeSymbol) : Prop :=
  match shape with
  | .pointer => { t with name := t'.name } = t'
  | .typedef (some _) => { t with length := t'.length } = t'
  | _ => t = t'

/-- Symbols of one length differ at most in the name of a pointer. -/
theorem Shape.Alike.eq_of_length {shape : Shape H} {t t' : TypeSymbol}
    (h : shape.Alike t t') (hlength : t.length = t'.length) :
    { t with name := t'.name } = t' ∧ (shape ≠ .pointer → t = t') := by
  have hsame : t = t' → { t with name := t'.name } = t' := by
    rintro rfl
    rfl
  cases shape with
  | pointer => exact ⟨h, fun hne => absurd rfl hne⟩
  | typedef target =>
      cases target with
      | none => exact ⟨hsame h, fun _ => h⟩
      | some target =>
          have heq : t = t' := by
            have h : { t with length := t'.length } = t' := h
            rwa [← hlength] at h
          exact ⟨hsame heq, fun _ => heq⟩
  | _ => exact ⟨hsame h, fun _ => h⟩

namespace Build

/-- The builder shows in a symbol in no other place. -/
theorem symbolOf_alike (id : UInt32) (node : Node H)
    (answers : List (Option UInt32)) (b b' : Builder) :
    node.shape.Alike (symbolOf id node answers b)
      (symbolOf id node answers b') := by
  obtain ⟨name, length, shape⟩ := node
  cases shape with
  | typedef target =>
      cases target with
      | none => rfl
      | some target =>
          unfold Shape.Alike symbolOf
          dsimp only
          split <;> rfl
  | _ => rfl

/-- The only answer that the links of an alias get. -/
theorem answers_of_typedef {source : Source σ H ε} {shape : Shape H}
    {target : H} {answers : List (Option UInt32)}
    (hshape : shape = .typedef (some target))
    (hanswers : List.Forall₂ source.Answers shape.links answers) :
    ∃ answer, answers = [answer] ∧ source.Answers target answer := by
  subst hshape
  cases hanswers with
  | cons hfirst hrest =>
      cases hrest
      exact ⟨_, rfl, hfirst⟩

/-- The length does not depend on the builder, unless it is that of an
aliased type. -/
theorem symbolOf_length_eq_or (id : UInt32) (node : Node H)
    (answers : List (Option UInt32)) (b b' : Builder) :
    (symbolOf id node answers b).length = (symbolOf id node answers b').length
      ∨ ∃ target a, node.shape = .typedef (some target)
        ∧ some a ∈ answers := by
  obtain ⟨name, length, shape⟩ := node
  cases shape with
  | typedef target =>
      cases target with
      | none => exact .inl rfl
      | some target =>
          cases answers with
          | nil => exact .inl rfl
          | cons answer answers =>
              cases answer with
              | none => exact .inl rfl
              | some a =>
                  exact .inr ⟨target, a, rfl, List.mem_cons_self⟩
  | _ => exact .inl rfl

section Typedefs

variable {id a : UInt32} {node : Node H} {target : H} {b : Builder}

theorem symbolOf_kind_of_typedef {answers : List (Option UInt32)}
    {target : Option H} (hshape : node.shape = .typedef target) :
    (symbolOf id node answers b).kind = .typedef
      ∧ (symbolOf id node answers b).name = node.name.getD "" := by
  obtain ⟨name, length, shape⟩ := node
  cases hshape
  unfold symbolOf
  cases target with
  | none => exact ⟨rfl, rfl⟩
  | some target =>
      dsimp only
      split <;> exact ⟨rfl, rfl⟩

theorem symbolOf_of_no_target {answers : List (Option UInt32)}
    (hshape : node.shape = .typedef none) :
    (symbolOf id node answers b).length = 0
      ∧ (symbolOf id node answers b).aliasOf = 0 := by
  unfold symbolOf
  rw [hshape]
  exact ⟨rfl, rfl⟩

theorem symbolOf_of_lost_target (hshape : node.shape = .typedef (some target)) :
    (symbolOf id node [none] b).length = node.length
      ∧ (symbolOf id node [none] b).aliasOf = 0 := by
  unfold symbolOf
  rw [hshape]
  exact ⟨rfl, rfl⟩

theorem symbolOf_aliasOf_of_target
    (hshape : node.shape = .typedef (some target)) :
    (symbolOf id node [some a] b).aliasOf = a := by
  unfold symbolOf
  rw [hshape]
  rfl

end Typedefs

theorem symbolOf_length_of_target {id a : UInt32} {node : Node H}
    {target : H} {b : Builder} {u : TypeSymbol}
    (hshape : node.shape = .typedef (some target))
    (hu : b.graph.types.get? a = some u) :
    (symbolOf id node [some a] b).length = u.length := by
  obtain ⟨name, length, shape⟩ := node
  cases hshape
  show ((b.graph.types.get? a).map (·.length)).getD length = u.length
  rw [hu]
  rfl

/-- What is recorded under an id is determined, up to those places. -/
theorem recorded_alike {source : Source σ H ε} (hsource : source.Consistent)
    {known known' : UInt32 → Prop} {id : UInt32} {t t' : TypeSymbol}
    (ht : source.Recorded known id t) (ht' : source.Recorded known' id t') :
    ∃ node, source.Describes id node ∧ node.shape.Alike t t' := by
  obtain ⟨node, answers, b, hnode, hanswers, -, rfl⟩ := ht
  obtain ⟨node', answers', b', hnode', hanswers', -, rfl⟩ := ht'
  cases hsource.describes_unique hnode hnode'
  cases Source.answers_unique hanswers hanswers'
  exact ⟨node, hnode, symbolOf_alike id node answers b b'⟩

-- ============================================================== lengths

/-- What is stored or in progress stays as it is in the table. -/
theorem Builds.get?_of_knows {source : Source σ H ε} {hs : List H}
    {s s' : Builder × σ} {answers : List (Answer ε)}
    (h : Builds source hs s answers s') {j : UInt32}
    (hj : s.1.knows j = true) :
    s'.1.graph.types.get? j = s.1.graph.types.get? j := by
  induction h with
  | nil => rfl
  | replied _ _ ih => exact ih hj
  | @described h hs id b st inner s' node links answers _ _ hnew _ hlinks _
      ihlinks ih =>
      have hne : j ≠ id := by
        rintro rfl
        rw [hj] at hnew
        cases hnew
      have hstart : (b.start id).knows j = true :=
        Builder.knows_start_iff.2 (.inr hj)
      have hfinish : (inner.1.finish id node
          (links.map Except.toOption)).knows j = true := by
        rw [Builder.knows_finish hlinks.inProgress_of_start]
        exact hlinks.knows_mono hstart
      rw [ih hfinish, finish_types, Table.get?_insert_of_ne _ _ hne,
        ihlinks hstart]
      rfl

/-- The links of a type are built before the type is stored. -/
theorem Builds.get?_of_start {source : Source σ H ε} {hs : List H}
    {s' : Builder × σ} {answers : List (Answer ε)} {id : UInt32} {b : Builder}
    {st : σ} (h : Builds source hs (b.start id, st) answers s')
    (hnew : b.knows id = false) : s'.1.graph.types.get? id = none := by
  have hsame : s'.1.graph.types.get? id = b.graph.types.get? id :=
    h.get?_of_knows (Builder.knows_start_iff.2 (.inl rfl))
  rw [hsame]
  exact Builder.get?_of_not_knows hnew

end Build

/-- All that is asked for is a dependency of all that is in progress. -/
def Source.Below (source : Source σ H ε) (b : Builder) (hs : List H) : Prop :=
  ∀ p ∈ b.inProgress, ∀ h ∈ hs, ∀ id, source.Resolves h id →
    TransGen source.DependsOn p id

/-- The target of a stored alias is stored, and as long as the alias. -/
def Source.Measured (source : Source σ H ε) (b : Builder) : Prop :=
  ∀ id t node target a, b.graph.types.get? id = some t →
    source.Describes id node → node.shape = .typedef (some target) →
    source.Resolves target a →
    ∃ t', b.graph.types.get? a = some t' ∧ t.length = t'.length

/-- Stored aliases of a type are as long as the type, which is stored. -/
def Source.MeasuredAt (source : Source σ H ε) (b : Builder) (a : UInt32) :
    Prop :=
  ∀ id t node target, b.graph.types.get? id = some t →
    source.Describes id node → node.shape = .typedef (some target) →
    source.Resolves target a →
    ∃ t', b.graph.types.get? a = some t' ∧ t.length = t'.length

namespace Build

section Lengths

variable {source : Source σ H ε} {roots : List H} {b : Builder}

theorem below_new (header : Header) (hs : List H) :
    source.Below (Builder.new header) hs := by
  intro p hp
  cases hp

theorem measured_new (header : Header) :
    source.Measured (Builder.new header) := by
  intro id t node target a hget
  cases hget

theorem below_start {id : UInt32} {node : Node H} {h : H} {hs : List H}
    (hbelow : source.Below b (h :: hs)) (hres : source.Resolves h id)
    (hnode : source.Describes id node) :
    source.Below (b.start id) node.shape.links := by
  intro p hp h' hmem j hres'
  have hdepends : source.DependsOn id j := ⟨node, hnode, h', hmem, hres'⟩
  rcases List.mem_cons.1 hp with rfl | hp
  · exact .single hdepends
  · exact (hbelow p hp h List.mem_cons_self id hres).tail hdepends

theorem measuredAt_finish (hsource : source.Consistent) {id a : UInt32}
    {node : Node H} {answers : List (Option UInt32)}
    (hmeasured : source.MeasuredAt b a) (hnode : source.Describes id node)
    (hnew : b.graph.types.get? id = none)
    (hanswers : List.Forall₂ source.Answers node.shape.links answers)
    (hstored : some a ∈ answers → b.graph.types.contains a = true) :
    source.MeasuredAt (b.finish id node answers) a := by
  intro k t node' target hget hnode' hshape hres
  have hkeep : ∀ j u, b.graph.types.get? j = some u →
      (b.finish id node answers).graph.types.get? j = some u := by
    intro j u hj
    have hne : j ≠ id := by
      rintro rfl
      rw [hnew] at hj
      cases hj
    rw [finish_types, Table.get?_insert_of_ne _ _ hne, hj]
  rw [finish_types] at hget
  rcases Table.get?_insert_eq_some_iff.1 hget with ⟨rfl, rfl⟩ | ⟨-, hget⟩
  · cases hsource.describes_unique hnode hnode'
    obtain ⟨answer, rfl, hanswer⟩ := answers_of_typedef hshape hanswers
    cases (hanswer a).2 hres
    obtain ⟨u, hu⟩ := Table.contains_iff.1 (hstored List.mem_cons_self)
    exact ⟨u, hkeep a u hu, symbolOf_length_of_target hshape hu⟩
  · obtain ⟨u, hu, hlength⟩ := hmeasured k t node' target hget hnode' hshape hres
    exact ⟨u, hkeep a u hu, hlength⟩

/-- What is answered is stored, unless it depends on itself: an id that is
answered because it is in progress is a dependency of itself. -/
theorem Builds.stored_of_acyclic {hs : List H} {s s' : Builder × σ}
    {answers : List (Answer ε)} (h : Builds source hs s answers s')
    (hanswers : List.Forall₂ source.Answers hs (answers.map Except.toOption))
    (hbelow : source.Below s.1 hs) {a : UInt32}
    (hacyclic : ¬ TransGen source.DependsOn a a)
    (ha : some a ∈ answers.map Except.toOption) :
    s'.1.graph.types.contains a = true := by
  obtain ⟨h', hmem, hres⟩ := (Source.mem_answers_iff hanswers).1 ha
  have hknows := h.knows_answer ha
  unfold Builder.knows at hknows
  rw [Bool.or_eq_true, List.contains_iff_mem, h.inProgress_eq] at hknows
  rcases hknows with hcontains | hprogress
  · exact hcontains
  · exact absurd (hbelow a hprogress h' hmem a hres) hacyclic

/-- A derivation keeps the lengths of the aliases of a type right, unless the
type depends on itself. -/
theorem Builds.measuredAt {hs : List H} {s s' : Builder × σ}
    {answers : List (Answer ε)} (hsource : source.Consistent) {a : UInt32}
    (hacyclic : ¬ TransGen source.DependsOn a a)
    (h : Builds source hs s answers s')
    (hreached : ∀ h ∈ hs, ∀ id, source.Resolves h id →
      source.Reached roots id)
    (hrecords : source.Records roots s.1) (hbelow : source.Below s.1 hs)
    (hmeasured : source.MeasuredAt s.1 a) : source.MeasuredAt s'.1 a := by
  induction h with
  | nil => exact hmeasured
  | replied _ _ ih =>
      exact ih (List.forall_mem_cons.1 hreached).2 hrecords
        (fun p hp => (List.forall_mem_cons.1 (hbelow p hp)).2) hmeasured
  | @described h hs id b st inner s' node links answers hid hne hnew hok hlinks
      _ ihlinks ih =>
      have hres : source.Resolves h id := ⟨hid, hne, st, node, hok⟩
      have hnode : source.Describes id node := ⟨h, st, hid, hok⟩
      have hroot : source.Reached roots id :=
        hreached h List.mem_cons_self id hres
      have hlinksReached := reached_of_link hroot hnode
      have hlinksBelow := below_start hbelow hres hnode
      obtain ⟨hinner, hanswers⟩ := hlinks.records hsource hlinksReached
        (records_start hrecords hroot)
      apply ih (List.forall_mem_cons.1 hreached).2
      · exact records_finish hinner hlinks.inProgress_of_start hnode hanswers
          fun _ ha => hlinks.knows_answer ha
      · intro p hp
        rw [hlinks.inProgress_finish] at hp
        exact (List.forall_mem_cons.1 (hbelow p hp)).2
      · have hinnerMeasured :=
          ihlinks hlinksReached (records_start hrecords hroot) hlinksBelow
            hmeasured
        exact measuredAt_finish hsource hinnerMeasured hnode
          (hlinks.get?_of_start hnew) hanswers
          (hlinks.stored_of_acyclic hanswers hlinksBelow hacyclic)

/-- Where no type depends on itself, all lengths are right if those of the
aliases of each type are. -/
theorem measured_of_measuredAt
    (hacyclic : ∀ id, source.Reached roots id →
      ¬ TransGen source.DependsOn id id)
    (hrecords : source.Records roots b)
    (h : ∀ a, ¬ TransGen source.DependsOn a a → source.MeasuredAt b a) :
    source.Measured b := by
  intro id t node target a hget hnode hshape hres
  have hmem : target ∈ node.shape.links := by
    rw [hshape]
    exact List.mem_singleton_self target
  have hreached : source.Reached roots id :=
    hrecords.reached id (Builder.knows_of_get? hget)
  have hreached' : source.Reached roots a :=
    .link hreached ⟨node, hnode, target, hmem, hres⟩
  exact h a (hacyclic a hreached') id t node target hget hnode hshape hres

/-- A derivation keeps the lengths right, if no type depends on itself. -/
theorem Builds.measured {hs : List H} {s s' : Builder × σ}
    {answers : List (Answer ε)} (hsource : source.Consistent)
    (hacyclic : ∀ id, source.Reached roots id →
      ¬ TransGen source.DependsOn id id)
    (h : Builds source hs s answers s')
    (hreached : ∀ h ∈ hs, ∀ id, source.Resolves h id →
      source.Reached roots id)
    (hrecords : source.Records roots s.1) (hbelow : source.Below s.1 hs)
    (hmeasured : source.Measured s.1) : source.Measured s'.1 :=
  measured_of_measuredAt hacyclic (h.records hsource hreached hrecords).1
    fun a ha => h.measuredAt hsource ha hreached hrecords hbelow
      fun id t node target => hmeasured id t node target a

/-- Where no type depends on itself, dependencies come to an end: there are
only so many ids. -/
theorem wellFounded_dependsOn
    (hacyclic : ∀ id, source.Reached roots id →
      ¬ TransGen source.DependsOn id id) :
    WellFounded fun a c =>
      source.Reached roots c ∧ TransGen source.DependsOn c a := by
  have : IsTrans UInt32 fun a c =>
      source.Reached roots c ∧ TransGen source.DependsOn c a :=
    ⟨fun a c d hac hcd => ⟨hcd.1, hcd.2.trans hac.2⟩⟩
  have : Std.Irrefl fun a c =>
      source.Reached roots c ∧ TransGen source.DependsOn c a :=
    ⟨fun a ha => hacyclic a ha.1 ha.2⟩
  exact Finite.wellFounded_of_trans_of_irrefl _

/-- Lengths are determined where no type depends on itself. -/
theorem length_eq_of_acyclic {b' : Builder} (hsource : source.Consistent)
    (hacyclic : ∀ id, source.Reached roots id →
      ¬ TransGen source.DependsOn id id)
    (hrecords : source.Records roots b) (hrecords' : source.Records roots b')
    (hmeasured : source.Measured b) (hmeasured' : source.Measured b')
    (id : UInt32) {t t' : TypeSymbol} (hget : b.graph.types.get? id = some t)
    (hget' : b'.graph.types.get? id = some t') : t.length = t'.length := by
  induction id using (wellFounded_dependsOn hacyclic).induction
      generalizing t t' with
  | _ id ih =>
      obtain ⟨node, answers, b₁, hnode, hanswers, -, ht⟩ :=
        hrecords.recorded id t hget
      obtain ⟨node', answers', b₂, hnode', hanswers', -, ht'⟩ :=
        hrecords'.recorded id t' hget'
      cases hsource.describes_unique hnode hnode'
      cases Source.answers_unique hanswers hanswers'
      rcases symbolOf_length_eq_or id node answers b₁ b₂ with
        heq | ⟨target, a, hshape, hmem⟩
      · rw [ht, ht', heq]
      · obtain ⟨answer, rfl, hanswer⟩ := answers_of_typedef hshape hanswers
        cases List.mem_singleton.1 hmem
        have hres : source.Resolves target a := (hanswer a).1 rfl
        have hdepends : source.DependsOn id a := by
          refine ⟨node, hnode, target, ?_, hres⟩
          rw [hshape]
          exact List.mem_singleton_self target
        have hreached : source.Reached roots id :=
          hrecords.reached id (Builder.knows_of_get? hget)
        obtain ⟨u, hu, hlength⟩ :=
          hmeasured id t node target a hget hnode hshape hres
        obtain ⟨u', hu', hlength'⟩ :=
          hmeasured' id t' node target a hget' hnode hshape hres
        rw [hlength, hlength']
        exact ih a ⟨hreached, .single hdepends⟩ hu hu'

end Lengths

-- ================================================================ order

/-- Two fresh builders that are asked for the same roots, in any order and
any number of times. The keys are what the roots reach; under a key both
have the same symbol, except for the names of pointers and the lengths of
aliases; and the lengths are the same too if no type depends on itself. -/
theorem types_independent_of_order {source : Source σ H ε}
    (hsource : source.Consistent) {roots roots' : List H}
    (hroots : ∀ h, h ∈ roots ↔ h ∈ roots') (header : Header) (st st' : σ) :
    let types := Builder.typesFrom source header st roots
    let types' := Builder.typesFrom source header st' roots'
    (∀ id, types.contains id = true ↔ source.Reached roots id)
      ∧ (∀ id, types'.contains id = true ↔ source.Reached roots id)
      ∧ (∀ id t t', types.get? id = some t → types'.get? id = some t' →
        ∃ node, source.Describes id node ∧ node.shape.Alike t t')
      ∧ ((∀ id, source.Reached roots id →
          ¬ TransGen source.DependsOn id id) →
        ∀ id t t', types.get? id = some t → types'.get? id = some t' →
          t.length = t'.length) := by
  intro types types'
  have hbuilds := types_builds source roots (Builder.new header, st) rfl
  have hbuilds' := types_builds source roots' (Builder.new header, st') rfl
  have hreached : ∀ h ∈ roots, ∀ id, source.Resolves h id →
      source.Reached roots id := fun h hmem id hres => .root hmem hres
  have hreached' : ∀ h ∈ roots', ∀ id, source.Resolves h id →
      source.Reached roots id :=
    fun h hmem id hres => .root ((hroots h).2 hmem) hres
  obtain ⟨hrecords, -⟩ := hbuilds.records hsource hreached (records_new header)
  obtain ⟨hrecords', -⟩ :=
    hbuilds'.records hsource hreached' (records_new header)
  refine ⟨typesFrom_contains_iff hsource header st roots, ?_, ?_, ?_⟩
  · intro id
    refine (typesFrom_contains_iff hsource header st' roots' id).trans ?_
    constructor
    · exact Source.Reached.mono fun h => (hroots h).2
    · exact Source.Reached.mono fun h => (hroots h).1
  · intro id t t' hget hget'
    exact recorded_alike hsource (hrecords.recorded id t hget)
      (hrecords'.recorded id t' hget')
  · intro hacyclic id t t' hget hget'
    have hmeasured : source.Measured _ :=
      hbuilds.measured hsource hacyclic hreached (records_new header)
        (below_new header _) (measured_new header)
    have hmeasured' : source.Measured _ :=
      hbuilds'.measured hsource hacyclic hreached' (records_new header)
        (below_new header _) (measured_new header)
    exact length_eq_of_acyclic hsource hacyclic hrecords hrecords' hmeasured
      hmeasured' id hget hget'

/-- A reader of an integer 1, an alias 2 of it, and pointers under all other
ids. A handle is the id of its type. -/
def aliasSource : Source Unit UInt32 Empty where
  typeId handle := pure (some handle)
  describe handle state :=
    let node : Node UInt32 :=
      if handle = 1 then ⟨none, 4, .base .int⟩
      else if handle = 2 then ⟨some "word", 0, .typedef (some 1)⟩
      else ⟨none, 8, .pointer⟩
    pure (.ok node, state)
  message := nofun

/-- Only the alias depends on anything, and that is the integer. -/
theorem dependsOn_aliasSource {a b : UInt32}
    (h : aliasSource.DependsOn a b) : a = 2 ∧ b = 1 := by
  obtain ⟨node, ⟨handle, st, hid, hok⟩, target, hmem, hres, -⟩ := h
  cases hid
  cases hres
  have hnode := Except.ok.inj hok
  subst hnode
  by_cases hinteger : a = 1
  · rw [if_pos hinteger] at hmem
    cases hmem
  · by_cases halias : a = 2
    · rw [if_neg hinteger, if_pos halias] at hmem
      exact ⟨halias, List.mem_singleton.1 hmem⟩
    · rw [if_neg hinteger, if_neg halias] at hmem
      cases hmem

theorem types_independent_of_order_aliasSource :
    let types := Builder.typesFrom aliasSource {} () [3, 4, 2]
    let types' := Builder.typesFrom aliasSource {} () [2, 4, 3, 2]
    aliasSource.Consistent
      ∧ types.keys = [1, 2, 3, 4] ∧ types'.keys = [1, 2, 3, 4]
      ∧ ∀ id t t', types.get? id = some t → types'.get? id = some t' →
        t.length = t'.length := by
  have hconsistent : aliasSource.Consistent := by
    intro h h' id st st' hid hid'
    cases hid
    cases hid'
    rfl
  have hroots : ∀ h : UInt32, h ∈ [3, 4, 2] ↔ h ∈ [2, 4, 3, 2] := by
    intro h
    simp only [List.mem_cons, List.not_mem_nil, or_false]
    grind
  refine ⟨hconsistent, by rfl, by rfl, ?_⟩
  apply (types_independent_of_order hconsistent hroots {} () ()).2.2.2
  intro id _ hcycle
  obtain ⟨a, hfirst, -⟩ := TransGen.head'_iff.1 hcycle
  obtain ⟨c, -, hlast⟩ := TransGen.tail'_iff.1 hcycle
  have hboth := (dependsOn_aliasSource hfirst).1.symm.trans
    (dependsOn_aliasSource hlast).2
  exact absurd hboth (by decide)

end Build

end SymbolGraph
