/-
The lengths of aliases. A reader need not know how long an alias is: it takes
the length of its target, if that can be built, and so do the aliases of the
alias. The builder looks the length up in the table, where it finds nothing as
long as the target is in progress. But if no type depends on itself, a target is
never in progress when its alias asks for it, and the table has it
(`Source.Measured`, kept by every derivation).

So along a chain of aliases all lengths are one (`Graph.Measured.chain`), and
every chain comes to an end, since each step of it is a dependency
(`Source.Settled.exists_end`). Merging keeps this: what stands for the target is
the same type, and types that are the same are of one length
(`Graph.Measured.collapse`).
-/
import SymbolGraph.Proofs.Build.Runs
import SymbolGraph.Proofs.Copies
import SymbolGraph.Proofs.Merge.Unfolding

namespace SymbolGraph

variable {σ H ε : Type}

open Relation (TransGen ReflTransGen)
open Build Merge

-- ============================================================== graphs

/-- The type under the one key is an alias of the type under the other. -/
def Graph.IsAlias (g : Graph) (a c : UInt32) : Prop :=
  ∃ t, g.types.get? a = some t ∧ t.aliasOf = c ∧ c ≠ 0

/-- The target of every alias is stored, and as long as the alias. -/
def Graph.Measured (g : Graph) : Prop :=
  ∀ a t, g.types.get? a = some t → t.aliasOf ≠ 0 →
    ∃ u, g.types.get? t.aliasOf = some u ∧ t.length = u.length

namespace Graph.Measured

variable {g : Graph} {a c : UInt32} {t : TypeSymbol}

/-- A chain of aliases leads to types of one length only. -/
theorem chain (h : g.Measured) (hchain : ReflTransGen g.IsAlias a c)
    (ht : g.types.get? a = some t) :
    ∃ u, g.types.get? c = some u ∧ t.length = u.length := by
  induction hchain with
  | refl => exact ⟨t, ht, rfl⟩
  | tail _ hstep ih =>
      obtain ⟨u, hu, hlength⟩ := ih
      obtain ⟨u', hu', rfl, hne⟩ := hstep
      cases hu.symm.trans hu'
      obtain ⟨v, hv, hlength'⟩ := h _ u hu hne
      exact ⟨v, hv, hlength.trans hlength'⟩

/-- In a collapsed graph a type is as long as before, and an alias if it was one
before, of something of its length. -/
theorem collapse {rep : UInt32 → UInt32} (h : g.Measured)
    (h0 : g.types.contains 0 = false) (hrep : IsRepresentative g.types rep) :
    (g.collapse rep).Measured
      ∧ ∀ a t, (g.collapse rep).types.get? a = some t →
        ∃ s, g.types.get? a = some s ∧ t.length = s.length
          ∧ (t.aliasOf = 0 ↔ s.aliasOf = 0) := by
  have hzero : rep 0 = 0 := hrep.of_not_key h0
  constructor
  · intro a t ht halias
    obtain ⟨-, s, hs, rfl⟩ := get?_collapse_eq_some_iff.1 ht
    have hne : s.aliasOf ≠ 0 := by
      intro heq
      apply halias
      show rep s.aliasOf = 0
      rw [heq, hzero]
    obtain ⟨u, hu, hlength⟩ := h a s hs hne
    have hkey := Table.contains_of_get? hu
    obtain ⟨-, v, hv, hv'⟩ := get?_representative h0 hrep hkey
    have hsame : u.length = v.length :=
      ((hrep.same hkey).agrees hu hv).length
    exact ⟨_, hv', hlength.trans hsame⟩
  · intro a t ht
    obtain ⟨-, s, hs, rfl⟩ := get?_collapse_eq_some_iff.1 ht
    refine ⟨s, hs, rfl, ?_, fun heq => ?_⟩
    · intro halias
      by_contra hne
      obtain ⟨u, hu, -⟩ := h a s hs hne
      exact (get?_representative h0 hrep (Table.contains_of_get? hu)).1 halias
    · show rep s.aliasOf = 0
      rw [heq, hzero]

end Graph.Measured

-- ============================================================= symbols

namespace Build

variable {id : UInt32} {node : Node H} {answers : List (Option UInt32)}
  {b : Builder}

/-- Nothing but a typedef with a target becomes an alias. -/
theorem exists_target_of_aliasOf_ne_zero
    (h : (symbolOf id node answers b).aliasOf ≠ 0) :
    ∃ target, node.shape = .typedef (some target) := by
  obtain ⟨name, length, shape⟩ := node
  cases shape with
  | typedef target =>
      cases target with
      | none => exact absurd rfl h
      | some target => exact ⟨target, rfl⟩
  | _ => exact absurd rfl h

end Build

/-- The symbol of a typedef, by its target and the length that its node gives.
Without a target it has no length; a target that cannot be built leaves it the
length of the node; and any other target is named, is stored, and gives its
length. -/
def Source.Aliases (source : Source σ H ε) (g : Graph) (length : UInt64)
    (t : TypeSymbol) : Option H → Prop
  | none => t.length = 0 ∧ t.aliasOf = 0
  | some target =>
    ((∀ a, ¬ source.Resolves target a) → t.length = length ∧ t.aliasOf = 0)
      ∧ ∀ a, source.Resolves target a →
        t.aliasOf = a ∧ ∃ u, g.types.get? a = some u ∧ t.length = u.length

-- ============================================================ builders

/-- Between two calls: nothing is in progress, what is stored is recorded, and
the lengths of aliases are right. -/
structure Source.Settled (source : Source σ H ε) (roots : List H)
    (b : Builder) : Prop where
  idle : b.inProgress = []
  records : source.Records roots b
  measured : source.Measured b

namespace Source.Settled

variable {source : Source σ H ε} {roots : List H} {b : Builder}
  {a c id : UInt32} {t : TypeSymbol} {node : Node H}

theorem new (header : Header) :
    source.Settled roots (Builder.new header) where
  idle := rfl
  records := records_new header
  measured := measured_new header

theorem not_contains_zero (h : source.Settled roots b) :
    b.graph.types.contains 0 = false := by
  rw [← Builder.knows_of_idle h.idle, Bool.eq_false_iff]
  intro hknows
  exact (h.records.reached 0 hknows).ne_zero rfl

theorem describes (h : source.Settled roots b)
    (ht : b.graph.types.get? id = some t) :
    ∃ node, source.Describes id node := by
  obtain ⟨node, -, -, hnode, -⟩ := h.records.recorded id t ht
  exact ⟨node, hnode⟩

/-- What is stored from a typedef. -/
theorem aliases (h : source.Settled roots b) (hsource : source.Consistent)
    (ht : b.graph.types.get? id = some t) (hnode : source.Describes id node)
    {target : Option H} (hshape : node.shape = .typedef target) :
    source.Aliases b.graph node.length t target := by
  have hmeasured := fun target a => h.measured id t node target a ht hnode
  obtain ⟨node', answers, b', hnode', hanswers, -, rfl⟩ :=
    h.records.recorded id t ht
  cases hsource.describes_unique hnode hnode'
  cases target with
  | none => exact symbolOf_of_no_target hshape
  | some target =>
      obtain ⟨answer, rfl, hanswer⟩ := answers_of_typedef hshape hanswers
      constructor
      · intro hlost
        cases hanswer.unique (Source.answers_none hlost)
        exact symbolOf_of_lost_target hshape
      · intro a hres
        cases hanswer.unique hres.answers
        exact ⟨symbolOf_aliasOf_of_target hshape,
          hmeasured target a hshape hres⟩

/-- An alias is stored from a typedef with a target. -/
theorem exists_target (h : source.Settled roots b)
    (hsource : source.Consistent) (ht : b.graph.types.get? id = some t)
    (hnode : source.Describes id node) (halias : t.aliasOf ≠ 0) :
    ∃ target, node.shape = .typedef (some target)
      ∧ source.Resolves target t.aliasOf := by
  obtain ⟨node', answers, b', hnode', hanswers, -, rfl⟩ :=
    h.records.recorded id t ht
  cases hsource.describes_unique hnode hnode'
  obtain ⟨target, hshape⟩ := exists_target_of_aliasOf_ne_zero halias
  refine ⟨target, hshape, ?_⟩
  obtain ⟨answer, rfl, hanswer⟩ := answers_of_typedef hshape hanswers
  cases answer with
  | none => exact absurd (symbolOf_of_lost_target hshape).2 halias
  | some a =>
      rw [symbolOf_aliasOf_of_target hshape]
      exact (hanswer a).1 rfl

theorem graph_measured (h : source.Settled roots b)
    (hsource : source.Consistent) : b.graph.Measured := by
  intro a t ht halias
  obtain ⟨node, hnode⟩ := h.describes ht
  obtain ⟨target, hshape, hres⟩ := h.exists_target hsource ht hnode halias
  exact h.measured a t node target t.aliasOf ht hnode hshape hres

/-- An alias depends on its target. -/
theorem dependsOn (h : source.Settled roots b) (hsource : source.Consistent)
    (halias : b.graph.IsAlias a c) : source.DependsOn a c := by
  obtain ⟨t, ht, rfl, hne⟩ := halias
  obtain ⟨node, hnode⟩ := h.describes ht
  obtain ⟨target, hshape, hres⟩ := h.exists_target hsource ht hnode hne
  refine ⟨node, hnode, target, ?_, hres⟩
  rw [hshape]
  exact List.mem_singleton_self target

/-- A chain of aliases comes to an end. -/
theorem exists_end (h : source.Settled roots b) (hsource : source.Consistent)
    (hacyclic : ∀ id, source.Reached roots id →
      ¬ TransGen source.DependsOn id id)
    (ht : b.graph.types.get? id = some t) :
    ∃ z u, ReflTransGen b.graph.IsAlias id z
      ∧ b.graph.types.get? z = some u ∧ u.aliasOf = 0 := by
  induction id using (wellFounded_dependsOn hacyclic).induction
      generalizing t with
  | _ id ih =>
      by_cases halias : t.aliasOf = 0
      · exact ⟨id, t, .refl, ht, halias⟩
      · have hstep : b.graph.IsAlias id t.aliasOf := ⟨t, ht, rfl, halias⟩
        have hreached : source.Reached roots id :=
          h.records.reached id (Builder.knows_of_get? ht)
        obtain ⟨u, hu, -⟩ := h.graph_measured hsource id t ht halias
        obtain ⟨z, v, hchain, hend⟩ :=
          ih t.aliasOf ⟨hreached, .single (h.dependsOn hsource hstep)⟩ hu
        exact ⟨z, v, .head hstep hchain, hend⟩

end Source.Settled

-- =============================================================== calls

namespace Build

variable {source : Source σ H ε} {roots : List H} {s : Builder × σ}

theorem calls_settled (hsource : source.Consistent)
    (hacyclic : ∀ id, source.Reached roots id →
      ¬ TransGen source.DependsOn id id)
    (calls : List (Builder.Call H))
    (hroots : ∀ call ∈ calls, ∀ h ∈ call.handles, h ∈ roots)
    (hsettled : source.Settled roots s.1) :
    source.Settled roots (Builder.calls source calls s).value.2.1 := by
  have hkept : source.Kept roots s.1 :=
    ⟨hsettled.idle, hsettled.records, fun a _ id t node target =>
      hsettled.measured id t node target a⟩
  obtain ⟨hkept', -⟩ := calls_ran hsource calls hroots hkept
  exact ⟨hkept'.idle, hkept'.records,
    measured_of_measuredAt hacyclic hkept'.records hkept'.measured⟩

end Build

/-- Any calls to a fresh builder, with one reader of types that do not depend on
themselves. Every symbol that is stored from a typedef has the alias and the
length that its target gives it, and no other symbol is an alias. Along a chain
of aliases all types are stored and of one length, and the chain ends with a
type that is no alias. Merging leaves each alias an alias of something of its
length. -/
theorem Builder.calls_alias_lengths {source : Source σ H ε}
    (hsource : source.Consistent)
    (hacyclic : ∀ id, ¬ TransGen source.DependsOn id id) (header : Header)
    (st : σ) (calls : List (Builder.Call H)) :
    let run := (Builder.calls source calls (Builder.new header, st)).value
    let g := run.2.1.graph
    (∀ id t, g.types.get? id = some t →
      (∃ node, source.Describes id node)
        ∧ ∀ node, source.Describes id node →
          (∀ target, node.shape = .typedef target →
            source.Aliases g node.length t target)
          ∧ (t.aliasOf ≠ 0 → ∃ target, node.shape = .typedef (some target)))
      ∧ (∀ id t, g.types.get? id = some t →
        (∀ c, ReflTransGen g.IsAlias id c →
          ∃ u, g.types.get? c = some u ∧ t.length = u.length)
        ∧ ∃ z u, ReflTransGen g.IsAlias id z
          ∧ g.types.get? z = some u ∧ u.aliasOf = 0)
      ∧ g.Measured
      ∧ ∀ digest, (Merge.run digest g).value.1.Measured
        ∧ ∀ id t, (Merge.run digest g).value.1.types.get? id = some t →
          ∃ s, g.types.get? id = some s ∧ t.length = s.length
            ∧ (t.aliasOf = 0 ↔ s.aliasOf = 0) := by
  intro run g
  have hacyclic' : ∀ id, source.Reached (calls.flatMap Call.handles) id →
      ¬ TransGen source.DependsOn id id := fun id _ => hacyclic id
  have hroots : ∀ call ∈ calls, ∀ h ∈ call.handles,
      h ∈ calls.flatMap Call.handles :=
    fun call hcall h hmem => List.mem_flatMap.2 ⟨call, hcall, hmem⟩
  have hsettled : source.Settled (calls.flatMap Call.handles) run.2.1 :=
    calls_settled hsource hacyclic' calls hroots (.new header)
  have hmeasured : g.Measured := hsettled.graph_measured hsource
  refine ⟨fun id t ht => ⟨hsettled.describes ht, fun node hnode => ⟨?_, ?_⟩⟩,
    fun id t ht => ⟨fun c hchain => hmeasured.chain hchain ht,
      hsettled.exists_end hsource hacyclic' ht⟩, hmeasured, fun digest => ?_⟩
  · exact fun _ hshape => hsettled.aliases hsource ht hnode hshape
  · intro halias
    obtain ⟨target, hshape, -⟩ :=
      hsettled.exists_target hsource ht hnode halias
    exact ⟨target, hshape⟩
  · obtain ⟨rep, hrep, hrun⟩ := Merge.run_value digest g
    rw [hrun]
    exact hmeasured.collapse hsettled.not_contains_zero hrep

/-- An integer 1, an alias 2 of it, an alias 3 of the alias, and typedefs 4
without a target and 5 with one that cannot be built. The first alias is
reported once more, as 6, with an alias 7 of its own. -/
def aliasTypes : Fin 8 → UInt32 × Node (Fin 8)
  | 0 => (1, ⟨none, 4, .base .int⟩)
  | 1 => (2, ⟨some "word", 0, .typedef (some 0)⟩)
  | 2 => (3, ⟨some "size", 0, .typedef (some 1)⟩)
  | 3 => (4, ⟨some "handler", 8, .typedef none⟩)
  | 4 => (5, ⟨some "hidden", 8, .typedef (some 5)⟩)
  | 5 => (0, ⟨none, 4, .base .int⟩)
  | 6 => (6, ⟨some "word", 0, .typedef (some 0)⟩)
  | 7 => (7, ⟨some "count", 0, .typedef (some 6)⟩)

theorem calls_alias_lengths_aliasTypes :
    let source := Source.ofTypes aliasTypes
    let calls : List (Builder.Call (Fin 8)) := [.type 2,
      .function ⟨8, "tie", some 3, some 4, [.typed 7], .unknown, 0⟩]
    let g := (Builder.calls source calls (Builder.new {}, ())).value.2.1.graph
    source.Consistent ∧ (∀ id, ¬ TransGen source.DependsOn id id)
      ∧ g.types.values.map (fun t => (t.id, t.aliasOf, t.length))
        = [(1, 0, 4), (2, 1, 4), (3, 2, 4), (4, 0, 0), (5, 0, 8), (6, 1, 4),
          (7, 6, 4)]
      ∧ g.merge.value.1.types.size = 6
      ∧ g.Measured ∧ g.merge.value.1.Measured := by
  intro source calls g
  have hconsistent : source.Consistent := ofTypes_consistent (by decide)
  have hacyclic : ∀ id, ¬ TransGen source.DependsOn id id :=
    ofTypes_acyclic (by decide)
  obtain ⟨-, -, hmeasured, hmerged⟩ :=
    Builder.calls_alias_lengths hconsistent hacyclic {} () calls
  exact ⟨hconsistent, hacyclic, by rfl, size_merge_of_pass (by decide +kernel),
    hmeasured, (hmerged Content.digest).1⟩

end SymbolGraph
