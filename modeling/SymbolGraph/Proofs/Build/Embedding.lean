/-
Readers inside readers. A reader is embedded in another if each of its
handles is one of the other's, with the same description up to a renaming
of ids (`Source.Embeds`). Then whatever both build, the other has built
under the renamed ids: the ids that are reached are those (`reached`), and
so are the dependencies (`dependsOn`, `of_dependsOn`), and the symbols are
the renamed symbols, except for the names of pointers
(`eq_rename`).

The lengths of aliases have to be compared from the targets up, as between
two orders of one reader. All the rest of a symbol is a matter of its node
alone.
-/
import Mathlib.Data.Set.Function
import SymbolGraph.Proofs.Build.Pointers
import SymbolGraph.Proofs.Build.Renaming

namespace SymbolGraph

variable {σ H K ε : Type}

open Relation (TransGen ReflTransGen)

-- ============================================================ finished

/-- What a builder is when it has built the types behind the roots: it has
the types that they reach, as the reader describes them. -/
structure Source.Built (source : Source σ H ε) (roots : List H)
    (b : Builder) : Prop where
  contains_iff : ∀ id,
    b.graph.types.contains id = true ↔ source.Reached roots id
  records : source.Records roots b
  measured : source.Measured b
  numbered : source.Numbered b

section Built

variable {source : Source σ H ε} {roots : List H} {b : Builder}
  {a c : UInt32} {t : TypeSymbol}

/-- A derivation from a fresh builder builds all that is asked for. -/
theorem Build.Builds.built (hsource : source.Consistent)
    (hacyclic : ∀ id, source.Reached roots id →
      ¬ TransGen source.DependsOn id id)
    {header : Header} {st : σ} {answers : List (Build.Answer ε)}
    {s' : Builder × σ}
    (h : Build.Builds source roots (Builder.new header, st) answers s') :
    source.Built roots s'.1 where
  contains_iff := h.contains_iff hsource
  records := (h.records hsource (fun _ hmem _ hres => .root hmem hres)
    (Build.records_new header)).1
  measured := h.measured hsource hacyclic
    (fun _ hmem _ hres => .root hmem hres) (Build.records_new header)
    (Build.below_new header _) (Build.measured_new header)
  numbered := h.numbered hsource (Build.numbered_new header)

theorem Source.Built.get? (hb : source.Built roots b)
    (ha : source.Reached roots a) : ∃ t, b.graph.types.get? a = some t :=
  Table.contains_iff.1 ((hb.contains_iff a).2 ha)

theorem Source.Reached.ne_zero (ha : source.Reached roots a) : a ≠ 0 := by
  cases ha with
  | root _ hres => exact hres.2.1
  | link _ hdepends =>
      obtain ⟨_, _, _, _, _, hne, _⟩ := hdepends
      exact hne

/-- What a reached type depends on at any distance is reached. -/
theorem Source.Reached.trans (ha : source.Reached roots a)
    (hac : ReflTransGen source.DependsOn a c) : source.Reached roots c := by
  induction hac with
  | refl => exact ha
  | tail _ hdepends ih => exact .link ih hdepends

/-- The dependencies of a stored type are its references. -/
theorem Source.Built.dependsOn_iff (hsource : source.Consistent)
    (hb : source.Built roots b) (ht : b.graph.types.get? a = some t) :
    source.DependsOn a c ↔ c ≠ 0 ∧ c ∈ t.references := by
  obtain ⟨node, answers, b', hnode, hanswers, -, rfl⟩ :=
    hb.records.recorded a t ht
  constructor
  · rintro ⟨node', hnode', h, hmem, hres⟩
    cases hsource.describes_unique hnode hnode'
    exact ⟨hres.2.1, Build.mem_references_of_answer hanswers.length_eq.symm
      ((Source.mem_answers_iff hanswers).2 ⟨h, hmem, hres⟩)⟩
  · rintro ⟨hne, hc⟩
    obtain ⟨h, hmem, hres⟩ := (Source.mem_answers_iff hanswers).1
      (Build.mem_references_symbolOf hc hne)
    exact ⟨node, hnode, h, hmem, hres⟩

end Built

-- =========================================================== embedding

/-- The ids of a reader's types. -/
def Source.ids (source : Source σ H ε) : Set UInt32 :=
  {id | ∃ h, (source.typeId h).value = some id}

theorem Source.Reached.mem_ids {source : Source σ H ε} {roots : List H}
    {a : UInt32} (ha : source.Reached roots a) : a ∈ source.ids := by
  cases ha with
  | root _ hres => exact ⟨_, hres.1⟩
  | link _ hdepends =>
      obtain ⟨_, _, h, _, hres⟩ := hdepends
      exact ⟨h, hres.1⟩

/-- Every handle `h` of the source is a handle `η h` of the target, with
type ids renamed by `e` and field ids by `φ`. -/
structure Source.Embeds (source : Source σ H ε) (target : Source σ K ε)
    (η : H → K) (e φ : UInt32 → UInt32) : Prop where
  zero : e 0 = 0
  injective : Set.InjOn e (insert 0 source.ids)
  field : ∀ x, φ x = 0 ↔ x = 0
  typeId : ∀ h, (target.typeId (η h)).value = (source.typeId h).value.map e
  describe : ∀ h id st, (source.typeId h).value = some id → id ≠ 0 →
    (target.describe (η h) st).value.1
      = (source.describe h st).value.1.map (Node.rename η φ)

namespace Source.Embeds

variable {source : Source σ H ε} {target : Source σ K ε} {η : H → K}
  {e φ : UInt32 → UInt32} {roots : List H} {roots' : List K}
  {a c j : UInt32} {b b' : Builder} {t t' : TypeSymbol} {node : Node H}

theorem ne_zero (h : source.Embeds target η e φ) (ha : a ∈ source.ids)
    (hne : a ≠ 0) : e a ≠ 0 := by
  intro hzero
  rw [← h.zero] at hzero
  exact hne (h.injective (.inr ha) (.inl rfl) hzero)

theorem resolves_iff (h : source.Embeds target η e φ) {x : H} :
    target.Resolves (η x) j ↔ ∃ a, source.Resolves x a ∧ e a = j := by
  constructor
  · rintro ⟨hid, hne, st, node, hok⟩
    rw [h.typeId, Option.map_eq_some_iff] at hid
    obtain ⟨a, ha, rfl⟩ := hid
    have ha0 : a ≠ 0 := by
      rintro rfl
      exact hne h.zero
    rw [h.describe x a st ha ha0] at hok
    cases hdescribed : (source.describe x st).value.1 with
    | error err =>
        rw [hdescribed] at hok
        cases hok
    | ok node' => exact ⟨a, ⟨ha, ha0, st, node', hdescribed⟩, rfl⟩
  · rintro ⟨a, ⟨hid, hne, st, node, hok⟩, rfl⟩
    refine ⟨?_, h.ne_zero ⟨x, hid⟩ hne, st, node.rename η φ, ?_⟩
    · rw [h.typeId, hid]
      rfl
    · rw [h.describe x a st hid hne, hok]
      rfl

theorem describes (h : source.Embeds target η e φ) (ha : a ≠ 0)
    (hnode : source.Describes a node) :
    target.Describes (e a) (node.rename η φ) := by
  obtain ⟨x, st, hid, hok⟩ := hnode
  refine ⟨η x, st, ?_, ?_⟩
  · rw [h.typeId, hid]
    rfl
  · rw [h.describe x a st hid ha, hok]
    rfl

theorem answers (h : source.Embeds target η e φ) {xs : List H}
    {answers : List (Option UInt32)}
    (hanswers : List.Forall₂ source.Answers xs answers) :
    List.Forall₂ target.Answers (xs.map η) (answers.map (Option.map e)) := by
  rw [List.forall₂_map_left_iff, List.forall₂_map_right_iff]
  refine hanswers.imp fun x answer hanswer j => ?_
  rw [h.resolves_iff, Option.map_eq_some_iff]
  exact exists_congr fun a => and_congr_left' (hanswer a)

theorem dependsOn (h : source.Embeds target η e φ) (ha : a ≠ 0)
    (hac : source.DependsOn a c) : target.DependsOn (e a) (e c) := by
  obtain ⟨node, hnode, x, hmem, hres⟩ := hac
  refine ⟨node.rename η φ, h.describes ha hnode, η x, ?_,
    h.resolves_iff.2 ⟨c, hres, rfl⟩⟩
  rw [Node.rename, Shape.links_rename]
  exact List.mem_map_of_mem hmem

/-- A renamed type depends on renamed types only. -/
theorem of_dependsOn (h : source.Embeds target η e φ)
    (htarget : target.Consistent) (ha : source.Reached roots a)
    (hj : target.DependsOn (e a) j) : ∃ c, source.DependsOn a c ∧ e c = j := by
  obtain ⟨node, hnode⟩ := ha.describes
  obtain ⟨node', hnode', y, hmem, hres⟩ := hj
  cases htarget.describes_unique (h.describes ha.ne_zero hnode) hnode'
  rw [Node.rename, Shape.links_rename] at hmem
  obtain ⟨x, hlink, rfl⟩ := List.mem_map.1 hmem
  obtain ⟨c, hlinked, rfl⟩ := h.resolves_iff.1 hres
  exact ⟨c, ⟨node, hnode, x, hlink, hlinked⟩, rfl⟩

theorem of_transGen_dependsOn (h : source.Embeds target η e φ)
    (htarget : target.Consistent) (ha : source.Reached roots a)
    (hj : TransGen target.DependsOn (e a) j) :
    ∃ c, TransGen source.DependsOn a c ∧ e c = j := by
  induction hj with
  | single hj =>
      obtain ⟨c, hac, rfl⟩ := h.of_dependsOn htarget ha hj
      exact ⟨c, .single hac, rfl⟩
  | tail _ hj ih =>
      obtain ⟨c, hac, rfl⟩ := ih
      obtain ⟨d, hcd, rfl⟩ := h.of_dependsOn htarget (ha.trans hac.to_reflTransGen) hj
      exact ⟨d, hac.tail hcd, rfl⟩

theorem reached (h : source.Embeds target η e φ)
    (hroots : ∀ x ∈ roots, η x ∈ roots') (ha : source.Reached roots a) :
    target.Reached roots' (e a) := by
  induction ha with
  | root hmem hres =>
      exact .root (hroots _ hmem) (h.resolves_iff.2 ⟨_, hres, rfl⟩)
  | link ha hac ih => exact .link ih (h.dependsOn ha.ne_zero hac)

theorem isPointer_iff (h : source.Embeds target η e φ)
    (htarget : target.Consistent) (ha : source.Reached roots a) :
    target.IsPointer (e a) ↔ source.IsPointer a := by
  constructor
  · rintro ⟨node', hnode', hshape⟩
    obtain ⟨node, hnode⟩ := ha.describes
    cases htarget.describes_unique (h.describes ha.ne_zero hnode) hnode'
    exact ⟨node, hnode, (Shape.rename_eq_pointer_iff η φ).1 hshape⟩
  · rintro ⟨node, hnode, hshape⟩
    exact ⟨node.rename η φ, h.describes ha.ne_zero hnode,
      (Shape.rename_eq_pointer_iff η φ).2 hshape⟩

-- ============================================================= symbols

/-- A type and its renaming are the symbols of a node and of its
renaming. -/
theorem recorded (h : source.Embeds target η e φ)
    (htarget : target.Consistent) (hb : source.Built roots b)
    (hb' : target.Built roots' b') (ha : source.Reached roots a)
    (ht : b.graph.types.get? a = some t)
    (ht' : b'.graph.types.get? (e a) = some t') :
    ∃ node answers c c', source.Describes a node
      ∧ List.Forall₂ source.Answers node.shape.links answers
      ∧ t = Build.symbolOf a node answers c
      ∧ t' = Build.symbolOf (e a) (node.rename η φ)
          (answers.map (Option.map e)) c' := by
  obtain ⟨node, answers, c, hnode, hanswers, -, rfl⟩ :=
    hb.records.recorded a t ht
  obtain ⟨node', answers', c', hnode', hanswers', -, rfl⟩ :=
    hb'.records.recorded (e a) t' ht'
  cases htarget.describes_unique (h.describes ha.ne_zero hnode) hnode'
  rw [Node.rename, Shape.links_rename] at hanswers'
  cases Source.answers_unique (h.answers hanswers) hanswers'
  exact ⟨node, answers, c, c', hnode, hanswers, rfl, rfl⟩

/-- A type and its renaming have one length, if nothing depends on
itself. -/
theorem length_eq (h : source.Embeds target η e φ)
    (htarget : target.Consistent)
    (hacyclic : ∀ id, source.Reached roots id →
      ¬ TransGen source.DependsOn id id)
    (hb : source.Built roots b) (hb' : target.Built roots' b')
    (ha : source.Reached roots a) (ht : b.graph.types.get? a = some t)
    (ht' : b'.graph.types.get? (e a) = some t') : t.length = t'.length := by
  induction a using (Build.wellFounded_dependsOn hacyclic).induction
      generalizing t t' with
  | _ a ih =>
      obtain ⟨node, answers, s, s', hnode, hanswers, hts, hts'⟩ :=
        h.recorded htarget hb hb' ha ht ht'
      rcases Build.symbolOf_rename_length_eq_or η e φ a node answers s s' with
        heq | ⟨x, c, hshape, hmem⟩
      · rw [hts, hts', heq]
      · -- an alias is as long as its target, here as there
        have hlink : x ∈ node.shape.links := by
          rw [hshape]
          exact List.mem_singleton_self x
        obtain ⟨answer, rfl, hanswer⟩ :=
          Build.answers_of_typedef hshape hanswers
        have hres : source.Resolves x c :=
          (hanswer c).1 (List.mem_singleton.1 hmem).symm
        have hac : source.DependsOn a c := ⟨node, hnode, x, hlink, hres⟩
        have hshape' : (node.rename η φ).shape = .typedef (some (η x)) := by
          rw [Node.rename, hshape]
          rfl
        obtain ⟨u, hu, hlength⟩ :=
          hb.measured a t node x c ht hnode hshape hres
        obtain ⟨u', hu', hlength'⟩ :=
          hb'.measured (e a) t' _ (η x) (e c) ht' (h.describes ha.ne_zero hnode)
            hshape' (h.resolves_iff.2 ⟨c, hres, rfl⟩)
        rw [hlength, hlength']
        exact ih c ⟨ha, .single hac⟩ (.link ha hac) hu hu'

/-- The symbol under a renamed id is the renamed symbol, except for the
name of a pointer. -/
theorem eq_rename (h : source.Embeds target η e φ)
    (htarget : target.Consistent)
    (hacyclic : ∀ id, source.Reached roots id →
      ¬ TransGen source.DependsOn id id)
    (hb : source.Built roots b) (hb' : target.Built roots' b')
    (ha : source.Reached roots a) (ht : b.graph.types.get? a = some t)
    (ht' : b'.graph.types.get? (e a) = some t') :
    { t.rename e φ with name := t'.name } = t'
      ∧ (¬ source.IsPointer a → t.rename e φ = t') := by
  have hlength := h.length_eq htarget hacyclic hb hb' ha ht ht'
  obtain ⟨node, answers, s, s', hnode, -, hts, hts'⟩ :=
    h.recorded htarget hb hb' ha ht ht'
  have halike : (node.shape.rename η φ).Alike (t.rename e φ) t' := by
    rw [hts, hts']
    exact Build.symbolOf_rename η h.zero h.field a node answers s s'
  obtain ⟨hname, heq⟩ := halike.eq_of_length hlength
  refine ⟨hname, fun hpointer => heq fun hshape => hpointer ?_⟩
  exact ⟨node, hnode, (Shape.rename_eq_pointer_iff η φ).1 hshape⟩

end Source.Embeds

end SymbolGraph
