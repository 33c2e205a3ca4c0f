/-
Constructions side by side. Several readers may build into one graph, one
after another. As long as each of them keeps to ids of its own
(`Source.Confined`), none of them notices the others: what a reader builds
from an empty builder (the part) it builds as well from a builder that holds
other symbols already (the base), and the result (the whole) is the base and
the part together (`Beside`). Only the numbers of the pointers differ, for
these are counted over all readers; they move on by what the base has counted
(`TypeSymbol.Renumbered`).

The two constructions go the same way at every step: a type of the reader is
known to the whole if and only if it is known to the part, because the base
has nothing under its id. So the relation is kept along a derivation
(`Builds.beside`), from there by whole steps of a reader (`Within.beside`),
and a sequence of steps, each with ids of its own, gives the union of what
each of them gives alone (`Builder.Gathers.cons`).
-/
import SymbolGraph.Proofs.Build.Frame
import SymbolGraph.Proofs.Build.Pointers

namespace SymbolGraph

variable {σ H ε α : Type}

open Build

-- =========================================================== renumbering

/-- A pointer with the number in its name moved on, or any other type as it
is. -/
inductive TypeSymbol.Renumbered (n : Nat) (t : TypeSymbol) : TypeSymbol → Prop
  | pointer {i : Nat} : t.kind = .pointer → t.name = s!"pUnk{i}" →
      Renumbered n t { t with name := s!"pUnk{n + i}" }
  | other : t.kind ≠ .pointer → Renumbered n t t

theorem TypeSymbol.Renumbered.length_eq {n : Nat} {t t' : TypeSymbol}
    (h : t.Renumbered n t') : t'.length = t.length := by
  cases h <;> rfl

theorem TypeSymbol.Renumbered.kind_eq {n : Nat} {t t' : TypeSymbol}
    (h : t.Renumbered n t') : t'.kind = t.kind := by
  cases h <;> rfl

theorem TypeSymbol.Renumbered.unique {n : Nat} {t t' t'' : TypeSymbol}
    (h : t.Renumbered n t') (h' : t.Renumbered n t'') : t' = t'' := by
  cases h with
  | pointer hkind hname =>
      cases h' with
      | pointer _ hname' =>
          rw [pointerName_inj (hname.symm.trans hname')]
      | other hkind' => exact absurd hkind hkind'
  | other hkind =>
      cases h' with
      | pointer hkind' _ => exact absurd hkind' hkind
      | other _ => rfl

/-- How many pointer types there are. -/
def Graph.pointers (g : Graph) : Nat :=
  g.types.values.countP fun t => t.kind = .pointer

-- =============================================================== readers

/-- The reader keeps to the ids, and no aggregate of its passes for a
pointer. -/
structure Source.Confined (source : Source σ H ε) (ids : UInt32 → Prop) :
    Prop where
  typeId : ∀ h id, (source.typeId h).value = some id → ids id
  kind : ∀ h st node kind members,
    (source.describe h st).value.1 = .ok node →
    node.shape = .aggregate kind members → kind ≠ .pointer

/-- Nothing is stored under the ids. -/
def Builder.Free (ids : UInt32 → Prop) (b : Builder) : Prop :=
  ∀ k, ids k → b.graph.types.get? k = none ∧ b.graph.functions.get? k = none

/-- All that is stored is stored under the ids, and as many pointers have been
named as are stored. -/
structure Builder.Own (ids : UInt32 → Prop) (b : Builder) : Prop where
  types : ∀ k t, b.graph.types.get? k = some t → ids k
  functions : ∀ k f, b.graph.functions.get? k = some f → ids k
  pointerCount : b.pointerCount = b.graph.pointers

/-- What a table of the whole has under a key: what the part has, up to `r`,
or else what the base has. -/
inductive Joined (r : α → α → Prop) (base : Option α) :
    Option α → Option α → Prop
  | base : Joined r base none base
  | part {a a' : α} : r a a' → Joined r base (some a) (some a')

/-- The whole is the base and the part together. -/
structure Beside (base part whole : Builder) : Prop where
  header : whole.graph.header = base.graph.header
  types : ∀ k, Joined (TypeSymbol.Renumbered base.pointerCount)
    (base.graph.types.get? k) (part.graph.types.get? k)
    (whole.graph.types.get? k)
  functions : ∀ k, Joined Eq (base.graph.functions.get? k)
    (part.graph.functions.get? k) (whole.graph.functions.get? k)
  inProgress : whole.inProgress = part.inProgress
  pointerCount : whole.pointerCount = base.pointerCount + part.pointerCount

theorem Builder.own_new (ids : UInt32 → Prop) (header : Header) :
    (new header).Own ids where
  types _ _ hget := by cases hget
  functions _ _ hget := by cases hget
  pointerCount := rfl

/-- Nothing is stored but under the ids. -/
theorem Builder.Own.free {b : Builder} {ids ids' : UInt32 → Prop}
    (h : b.Own ids) (hids : ∀ k, ids' k → ¬ ids k) : b.Free ids' := by
  intro k hk
  constructor
  · exact Option.eq_none_iff_forall_ne_some.2 fun t hget =>
      hids k hk (h.types k t hget)
  · exact Option.eq_none_iff_forall_ne_some.2 fun f hget =>
      hids k hk (h.functions k f hget)

/-- At first the whole is the base. -/
theorem beside_new {base : Builder} (hidle : base.inProgress = [])
    (header : Header) : Beside base (Builder.new header) base where
  header := rfl
  types _ := .base
  functions _ := .base
  inProgress := hidle
  pointerCount := rfl

section Tables

variable {r : α → α → Prop} {base : Option α}

/-- Where the base has nothing, the whole has something just if the part
does. -/
theorem Joined.isSome_eq {part whole : Option α} (h : Joined r base part whole)
    (hbase : base = none) : whole.isSome = part.isSome := by
  cases h with
  | base => rw [hbase]
  | part _ => rfl

/-- The whole has something just if the part or the base does. -/
theorem Joined.isSome_iff {part whole : Option α}
    (h : Joined r base part whole) :
    whole.isSome = true ↔ base.isSome = true ∨ part.isSome = true := by
  cases h with
  | base => exact (or_iff_left Bool.false_ne_true).symm
  | part _ => exact iff_of_true rfl (.inr rfl)

theorem Joined.eq_none {part whole : Option α} (h : Joined r base part whole)
    (hbase : base = none) (hpart : part = none) : whole = none := by
  cases h with
  | base => exact hbase
  | part _ => cases hpart

/-- What the whole has is of the base or of the part. -/
theorem Joined.eq_some_iff {part whole : Option α} {a : α}
    (h : Joined r base part whole)
    (hunique : ∀ a₀ a a', r a₀ a → r a₀ a' → a = a')
    (hbase : part.isSome = true → base = none) :
    whole = some a ↔ base = some a ∨ ∃ a₀, part = some a₀ ∧ r a₀ a := by
  cases h with
  | base => simp
  | @part a₀ a' ha =>
      rw [hbase rfl]
      constructor
      · intro heq
        cases heq
        exact .inr ⟨a₀, rfl, ha⟩
      · rintro (hnone | ⟨_, ⟨⟩, ha'⟩)
        · cases hnone
        · rw [hunique _ _ _ ha ha']

theorem Joined.insert {base part whole : Table α} {a a' : α} {id : UInt32}
    (h : ∀ k, Joined r (base.get? k) (part.get? k) (whole.get? k))
    (ha : r a a') (k : UInt32) :
    Joined r (base.get? k) ((part.insert id a).get? k)
      ((whole.insert id a').get? k) := by
  rw [Table.get?_insert, Table.get?_insert]
  split
  · exact .part ha
  · exact h k

end Tables

-- =============================================================== symbols

namespace Build

variable {base part whole : Builder} {id : UInt32} {node : Node H}
  {answers : List (Option UInt32)}

theorem finish_header (id : UInt32) (node : Node H)
    (answers : List (Option UInt32)) (b : Builder) :
    (b.finish id node answers).graph.header = b.graph.header := by
  rw [finish_graph]

theorem finish_pointerCount (id : UInt32) (node : Node H)
    (answers : List (Option UInt32)) (b : Builder) :
    (b.finish id node answers).pointerCount
      = b.pointerCount + if node.shape matches .pointer then 1 else 0 := by
  obtain ⟨name, length, shape⟩ := node
  cases shape <;> rfl

/-- A type is stored as a pointer if and only if it was described as one. -/
theorem symbolOf_kind_eq_pointer_iff
    (hkind : ∀ kind members, node.shape = .aggregate kind members →
      kind ≠ .pointer) (b : Builder) :
    (symbolOf id node answers b).kind = .pointer
      ↔ (node.shape matches .pointer) = true := by
  obtain ⟨name, length, shape⟩ := node
  cases shape with
  | aggregate kind members =>
      exact iff_of_false (hkind kind members rfl) Bool.false_ne_true
  | pointer => exact iff_of_true rfl rfl
  | typedef target =>
      cases target with
      | none => exact iff_of_false nofun Bool.false_ne_true
      | some target =>
          refine iff_of_false ?_ Bool.false_ne_true
          unfold symbolOf
          dsimp only
          split <;> nofun
  | base | enum | array => exact iff_of_false nofun Bool.false_ne_true

/-- Put together for the whole, a symbol is that of the part, renumbered. -/
theorem symbolOf_renumbered (h : Beside base part whole)
    (hkind : ∀ kind members, node.shape = .aggregate kind members →
      kind ≠ .pointer)
    (hanswers : ∀ a, some a ∈ answers → base.graph.types.get? a = none) :
    (symbolOf id node answers part).Renumbered base.pointerCount
      (symbolOf id node answers whole) := by
  obtain ⟨name, length, shape⟩ := node
  cases shape with
  | base primitive => exact .other nofun
  | enum => exact .other nofun
  | array => exact .other nofun
  | aggregate kind members => exact .other (hkind kind members rfl)
  | pointer =>
      unfold symbolOf
      rw [h.pointerCount]
      exact .pointer rfl rfl
  | typedef target =>
      cases target with
      | none => exact .other nofun
      | some target =>
          -- of the builder an alias takes the length of its target alone
          have hlength : ∀ a, some a ∈ answers →
              (whole.graph.types.get? a).map (·.length)
                = (part.graph.types.get? a).map (·.length) := by
            intro a ha
            have hjoined := h.types a
            rw [hanswers a ha] at hjoined
            generalize part.graph.types.get? a = t at hjoined ⊢
            generalize whole.graph.types.get? a = t' at hjoined ⊢
            cases hjoined with
            | base => rfl
            | part hrenumbered => exact congrArg some hrenumbered.length_eq
          have hsame : symbolOf id ⟨name, length, .typedef (some target)⟩
              answers whole
              = symbolOf id ⟨name, length, .typedef (some target)⟩
                answers part := by
            cases answers with
            | nil => rfl
            | cons answer answers =>
                cases answer with
                | none => rfl
                | some a =>
                    unfold symbolOf
                    simp only [List.head?_cons, Option.join_some,
                      hlength a List.mem_cons_self]
          rw [hsame]
          refine .other ?_
          rw [Ne, symbolOf_kind_eq_pointer_iff hkind]
          exact Bool.false_ne_true

-- ============================================================ derivations

/-- The end of a type in the part and in the whole. -/
theorem beside_finish (h : Beside base part whole)
    (hkind : ∀ kind members, node.shape = .aggregate kind members →
      kind ≠ .pointer)
    (hanswers : ∀ a, some a ∈ answers → base.graph.types.get? a = none) :
    Beside base (part.finish id node answers)
      (whole.finish id node answers) where
  header := by rw [finish_header, h.header]
  types := by
    rw [finish_types, finish_types]
    exact Joined.insert h.types (symbolOf_renumbered h hkind hanswers)
  functions := by
    rw [finish_functions, finish_functions]
    exact h.functions
  inProgress := by rw [finish_inProgress, finish_inProgress, h.inProgress]
  pointerCount := by
    rw [finish_pointerCount, finish_pointerCount, h.pointerCount,
      Nat.add_assoc]

theorem beside_start (h : Beside base part whole) (id : UInt32) :
    Beside base (part.start id) (whole.start id) :=
  { h with inProgress := congrArg (id :: ·) h.inProgress }

theorem beside_knows (h : Beside base part whole)
    (hbase : base.graph.types.get? id = none) :
    whole.knows id = part.knows id := by
  unfold Builder.knows Table.contains
  rw [h.inProgress, (h.types id).isSome_eq hbase]

variable {source : Source σ H ε} {ids : UInt32 → Prop} {hs : List H}
  {s s' : Builder × σ}

/-- What is answered is an id of the reader. -/
theorem Builds.answers_confined {answers : List (Answer ε)}
    (h : Builds source hs s answers s') (hsource : source.Confined ids) :
    ∀ a, some a ∈ answers.map Except.toOption → ids a := by
  induction h with
  | nil => exact fun a ha => (List.not_mem_nil ha).elim
  | replied hreply _ ih =>
      intro a ha
      rcases List.mem_cons.1 ha with hfirst | hrest
      · cases hreply with
        | known hid _ _ =>
            cases hfirst
            exact hsource.typeId _ _ hid
        | unreadable | reserved | undescribed => cases hfirst
      · exact ih a hrest
  | described hid _ _ _ _ _ _ ih =>
      intro a ha
      rcases List.mem_cons.1 ha with hfirst | hrest
      · cases hfirst
        exact hsource.typeId _ _ hid
      · exact ih a hrest

/-- A derivation of the part is one of the whole. -/
theorem Builds.beside {answers : List (Answer ε)}
    (h : Builds source hs s answers s') (hsource : source.Confined ids)
    (hfree : base.Free ids) (hbeside : Beside base s.1 whole) :
    ∃ whole', Builds source hs (whole, s.2) answers (whole', s'.2)
      ∧ Beside base s'.1 whole' := by
  induction h generalizing whole with
  | nil => exact ⟨whole, .nil, hbeside⟩
  | replied hreply _ ih =>
      obtain ⟨whole', hrest, hbeside'⟩ := ih hbeside
      refine ⟨whole', .replied ?_ hrest, hbeside'⟩
      have hknows : ∀ {h id}, (source.typeId h).value = some id →
          whole.knows id = _ := fun hid =>
        beside_knows hbeside (hfree _ (hsource.typeId _ _ hid)).1
      cases hreply with
      | unreadable hid => exact .unreadable hid
      | reserved hid => exact .reserved hid
      | known hid hne hknown => exact .known hid hne ((hknows hid).trans hknown)
      | undescribed hid hne hnew herror =>
          exact .undescribed hid hne ((hknows hid).trans hnew) herror
  | @described h hs id b st inner s' node links answers hid hne hnew hnode
      hlinks _ ihlinks ih =>
      have hbase := (hfree id (hsource.typeId h id hid)).1
      have hnew' : whole.knows id = false :=
        (beside_knows hbeside hbase).trans hnew
      obtain ⟨inner', hlinks', hinner⟩ := ihlinks (beside_start hbeside id)
      have hfinish :
          Beside base (inner.1.finish id node (links.map Except.toOption))
            (inner'.finish id node (links.map Except.toOption)) := by
        apply beside_finish hinner
        · exact fun kind members => hsource.kind h st node kind members hnode
        · exact fun a ha => (hfree a (hlinks.answers_confined hsource a ha)).1
      obtain ⟨whole', hrest', hbeside'⟩ := ih hfinish
      exact ⟨whole', .described hid hne hnew' hnode hlinks' hrest', hbeside'⟩

/-- What a derivation adds is the reader's own. -/
theorem Builds.own {answers : List (Answer ε)}
    (h : Builds source hs s answers s') (hsource : source.Confined ids)
    (hown : s.1.Own ids) : s'.1.Own ids := by
  induction h with
  | nil => exact hown
  | replied _ _ ih => exact ih hown
  | @described h hs id b st inner s' node links answers hid _ hnew hnode hlinks
      _ ihlinks ih =>
      have hinner : inner.1.Own ids := ihlinks { hown with }
      have hfresh : inner.1.graph.types.contains id = false :=
        Table.get?_eq_none_iff.1 (hlinks.get?_of_start hnew)
      apply ih
      constructor
      · intro k t hget
        rw [finish_types] at hget
        rcases Table.get?_insert_eq_some_iff.1 hget with ⟨rfl, -⟩ | ⟨-, hget⟩
        · exact hsource.typeId h k hid
        · exact hinner.types k t hget
      · intro k f hget
        rw [finish_functions] at hget
        exact hinner.functions k f hget
      · unfold Graph.pointers
        rw [finish_pointerCount, finish_types, hinner.pointerCount,
          (Table.values_insert_perm hfresh _).countP_eq, List.countP_cons]
        simp only [decide_eq_true_eq, symbolOf_kind_eq_pointer_iff
          fun kind members => hsource.kind h st node kind members hnode]
        rfl

end Build

end SymbolGraph
