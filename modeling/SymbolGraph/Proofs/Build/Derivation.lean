/-
What a construction does, without its log and its bound. `Builds` relates
the handles that are built one after another, the builder and the reader
before, the answers, and the builder and the reader after. A handle may be
answered at once (`Replies`); otherwise its type is described, its links
are built, in order, and the type is then put together from the answers
(`Builder.finish`). Whatever is said about constructions is proved by
induction over these rules, and nothing behind this file opens a step.

# Why the bound is never met

A call nests only while its id is in progress, and no id is in progress
twice. So the ids in progress are distinct numbers of 32 bits, and with
one more level than there are such numbers the recursion always has a
level left. `Room` is that argument as an invariant of the ids in
progress: it is handed down to nested calls and comes back unchanged.
-/
import Mathlib.Data.FinEnum
import SymbolGraph.Build.Builder
import SymbolGraph.Proofs.Table

namespace SymbolGraph

variable {σ H ε α β : Type}

-- ======================================================== putting together

/-- The handles of the types that a node links to, in the order in which
they are built. -/
def Shape.links : Shape H → List H
  | .base _ => []
  | .aggregate _ members => members.filterMap (Option.map FieldNode.type)
  | .enum => []
  | .pointer => []
  | .typedef target => target.toList
  | .array => []

namespace Build

/-- One result for each place: `missing` where nothing is asked for, and
elsewhere what the next answer makes of the question. -/
def fill (missing : β) (result : α → Option UInt32 → β) :
    List (Option α) → List (Option UInt32) → List β
  | [], _ => []
  | none :: places, answers => missing :: fill missing result places answers
  | some a :: places, [] => result a none :: fill missing result places []
  | some a :: places, answer :: answers =>
    result a answer :: fill missing result places answers

/-- The field of a member whose type was answered. -/
def fieldOf (node : FieldNode H) : Option UInt32 → Field
  | none => .placeholder
  | some typeId =>
    { id := node.id, name := node.name, typeId, offset := node.offset }

/-- The symbol of a node whose links were answered. Of the builder it
takes the number of a pointer and the length of an aliased type. -/
def symbolOf (id : UInt32) (node : Node H) (answers : List (Option UInt32))
    (b : Builder) : TypeSymbol :=
  let name := node.name.getD ""
  let length := node.length
  match node.shape with
  | .base primitive =>
    { id, name := primitive.typeName length, kind := .base, length }
  | .aggregate kind members =>
    let built := fill .placeholder fieldOf members answers
    let fields := if kind = .union then built else AnonymousUnion.mark built
    { id, name, kind, length, fields, fieldCount := count32 fields.length }
  | .enum => { id, name, kind := .enum, length }
  | .array => { id, name, kind := .array, length }
  | .pointer =>
    { id, name := s!"pUnk{b.pointerCount}", kind := .pointer, length }
  | .typedef none => { id, name, kind := .typedef, length := 0 }
  | .typedef (some _) =>
    match answers.head?.join with
    | none => { id, name, kind := .typedef, length }
    | some aliasOf =>
      let length := ((b.graph.types.get? aliasOf).map (·.length)).getD length
      { id, name, kind := .typedef, length, aliasOf }

end Build

/-- Counts a pointer, if the node is one. -/
def Builder.count (node : Node H) (b : Builder) : Builder :=
  match node.shape with
  | .pointer => { b with pointerCount := b.pointerCount + 1 }
  | _ => b

/-- The end of building a type: it is in progress no longer, but stored. -/
def Builder.finish (id : UInt32) (node : Node H)
    (answers : List (Option UInt32)) (b : Builder) : Builder :=
  ((b.count node).stop id).store id (Build.symbolOf id node answers b)

namespace Build

-- ============================================================ the rules

/-- The handle is answered at once, and the builder stays as it is. -/
inductive Replies (source : Source σ H ε) (h : H) (b : Builder) (st : σ) :
    Answer ε → σ → Prop
  | unreadable : (source.typeId h).value = none →
      Replies source h b st (.error .unreadableId) st
  | reserved : (source.typeId h).value = some 0 →
      Replies source h b st (.error .reservedId) st
  | known {id : UInt32} : (source.typeId h).value = some id → id ≠ 0 →
      b.knows id = true → Replies source h b st (.ok id) st
  | undescribed {id : UInt32} {e : ε} : (source.typeId h).value = some id →
      id ≠ 0 → b.knows id = false →
      (source.describe h st).value.1 = .error e →
      Replies source h b st (.error (.source e)) (source.describe h st).value.2

/-- The types behind the handles are built one after another, with these
answers. -/
inductive Builds (source : Source σ H ε) :
    List H → Builder × σ → List (Answer ε) → Builder × σ → Prop
  | nil {s : Builder × σ} : Builds source [] s [] s
  | replied {h : H} {hs : List H} {b : Builder} {st st' : σ}
      {s' : Builder × σ} {answer : Answer ε} {answers : List (Answer ε)} :
      Replies source h b st answer st' →
      Builds source hs (b, st') answers s' →
      Builds source (h :: hs) (b, st) (answer :: answers) s'
  | described {h : H} {hs : List H} {id : UInt32} {b : Builder} {st : σ}
      {inner s' : Builder × σ} {node : Node H}
      {links answers : List (Answer ε)} :
      (source.typeId h).value = some id → id ≠ 0 → b.knows id = false →
      (source.describe h st).value.1 = .ok node →
      Builds source node.shape.links
        (b.start id, (source.describe h st).value.2) links inner →
      Builds source hs
        (inner.1.finish id node (links.map Except.toOption), inner.2)
        answers s' →
      Builds source (h :: hs) (b, st) (.ok id :: answers) s'

theorem Builds.append {source : Source σ H ε} {hs hs' : List H}
    {s s' s'' : Builder × σ} {answers answers' : List (Answer ε)}
    (h : Builds source hs s answers s')
    (h' : Builds source hs' s' answers' s'') :
    Builds source (hs ++ hs') s (answers ++ answers') s'' := by
  induction h with
  | nil => exact h'
  | replied hreply _ ih => exact .replied hreply (ih h')
  | described hid hne hnew hnode hlinks _ _ ih =>
      exact .described hid hne hnew hnode hlinks (ih h')

theorem Builds.length_eq {source : Source σ H ε} {hs : List H}
    {s s' : Builder × σ} {answers : List (Answer ε)}
    (h : Builds source hs s answers s') : answers.length = hs.length := by
  induction h with
  | nil => rfl
  | replied _ _ ih => exact congrArg (· + 1) ih
  | described _ _ _ _ _ _ _ ih => exact congrArg (· + 1) ih

theorem finish_inProgress (id : UInt32) (node : Node H)
    (answers : List (Option UInt32)) (b : Builder) :
    (b.finish id node answers).inProgress = b.inProgress.erase id := by
  obtain ⟨name, length, shape⟩ := node
  cases shape <;> rfl

theorem finish_types (id : UInt32) (node : Node H)
    (answers : List (Option UInt32)) (b : Builder) :
    (b.finish id node answers).graph.types
      = b.graph.types.insert id (symbolOf id node answers b) := by
  obtain ⟨name, length, shape⟩ := node
  cases shape <;> rfl

theorem finish_functions (id : UInt32) (node : Node H)
    (answers : List (Option UInt32)) (b : Builder) :
    (b.finish id node answers).graph.functions = b.graph.functions := by
  obtain ⟨name, length, shape⟩ := node
  cases shape <;> rfl

/-- What was in progress is in progress again afterwards. -/
theorem Builds.inProgress_eq {source : Source σ H ε} {hs : List H}
    {s s' : Builder × σ} {answers : List (Answer ε)}
    (h : Builds source hs s answers s') :
    s'.1.inProgress = s.1.inProgress := by
  induction h with
  | nil => rfl
  | replied _ _ ih => exact ih
  | described _ _ _ _ _ _ ihlinks ih =>
      rw [ih, finish_inProgress, ihlinks]
      exact List.erase_cons_head ..

/-- While the links of a type are built, its id is the innermost in
progress. -/
theorem Builds.inProgress_of_start {source : Source σ H ε} {hs : List H}
    {s' : Builder × σ} {answers : List (Answer ε)} {id : UInt32} {b : Builder}
    {st : σ} (h : Builds source hs (b.start id, st) answers s') :
    s'.1.inProgress = id :: b.inProgress :=
  h.inProgress_eq

/-- With its end, what was in progress before a type is so again. -/
theorem Builds.inProgress_finish {source : Source σ H ε} {hs : List H}
    {s' : Builder × σ} {answers : List (Answer ε)} {id : UInt32} {b : Builder}
    {st : σ} (h : Builds source hs (b.start id, st) answers s')
    (node : Node H) (links : List (Option UInt32)) :
    (s'.1.finish id node links).inProgress = b.inProgress := by
  rw [finish_inProgress, h.inProgress_of_start]
  exact List.erase_cons_head ..

/-- A reader that answers alike, by a part `f` of the state, builds alike.
What it says about the reserved id does not count. -/
theorem Builds.simulate {τ : Type} {source : Source τ H ε}
    {source' : Source σ H ε} {f : τ → σ} {hs : List H} {s s' : Builder × τ}
    {answers : List (Answer ε)} (h : Builds source hs s answers s')
    (hid : ∀ h, (source'.typeId h).value = (source.typeId h).value)
    (hdescribe : ∀ h id st, (source.typeId h).value = some id → id ≠ 0 →
      (source'.describe h (f st)).value
        = ((source.describe h st).value.1,
            f (source.describe h st).value.2)) :
    Builds source' hs (s.1, f s.2) answers (s'.1, f s'.2) := by
  induction h with
  | nil => exact .nil
  | @replied h hs b st st' s' answer answers hreply _ ih =>
      cases hreply with
      | unreadable hnone =>
          exact .replied (.unreadable ((hid _).trans hnone)) ih
      | reserved hzero => exact .replied (.reserved ((hid _).trans hzero)) ih
      | known hsome hne hknown =>
          exact .replied (.known ((hid _).trans hsome) hne hknown) ih
      | undescribed hsome hne hnew herror =>
          have hsame := hdescribe h _ st hsome hne
          have hreply' := Replies.undescribed ((hid h).trans hsome) hne hnew
            ((congrArg Prod.fst hsame).trans herror)
          rw [hsame] at hreply'
          exact .replied hreply' ih
  | @described h hs id b st inner s' node links answers hsome hne hnew hnode _ _
      ihlinks ih =>
      have hsame := hdescribe h id st hsome hne
      have hlinks : Builds source' node.shape.links
          (b.start id, (source'.describe h (f st)).value.2) links
          (inner.1, f inner.2) := by
        rw [hsame]
        exact ihlinks
      exact .described ((hid h).trans hsome) hne hnew
        ((congrArg Prod.fst hsame).trans hnode) hlinks ih

-- ============================================================== steps

section Steps

variable (x : Step σ α) (s : Builder × σ)

@[simp] theorem step_pure (a : α) :
    ((pure a : Step σ α) s).value = (a, s) := rfl

@[simp] theorem step_bind (f : α → Step σ β) :
    ((x >>= f) s).value = (f (x s).value.1 (x s).value.2).value := rfl

@[simp] theorem step_lift (l : Logged α) :
    ((liftM l : Step σ α) s).value = (l.value, s) := rfl

@[simp] theorem step_get :
    ((get : Step σ (Builder × σ)) s).value = (s, s) := rfl

@[simp] theorem step_set (s' : Builder × σ) :
    ((set s' : Step σ PUnit) s).value = (⟨⟩, s') := rfl

@[simp] theorem step_update (f : Builder → Builder) :
    ((update f : Step σ Unit) s).value = ((), (f s.1, s.2)) := rfl

end Steps

-- ============================================================== symbols

section Symbols

variable {source : Source σ H ε} {build : H → Step σ (Answer ε)}
  {P : Builder → Prop}

/-- Building a type by `build` is a derivation from every builder that
satisfies `P`. -/
def Derives (source : Source σ H ε) (P : Builder → Prop)
    (build : H → Step σ (Answer ε)) : Prop :=
  ∀ h s, P s.1 → Builds source [h] s [(build h s).value.1] (build h s).value.2

/-- Derivations lead from builders that satisfy `P` to such builders. -/
def Keeps (source : Source σ H ε) (P : Builder → Prop) : Prop :=
  ∀ {hs s answers s'}, Builds source hs s answers s' → P s.1 → P s'.1

theorem field_value (message : ε → String)
    (build : H → Step σ (Answer ε)) (owner : String) (node : FieldNode H)
    (s : Builder × σ) :
    (field message build owner (some node) s).value
      = (fieldOf node (build node.type s).value.1.toOption,
          (build node.type s).value.2) := by
  simp only [field, step_bind]
  cases (build node.type s).value.1 <;> rfl

theorem fields_builds (hbuild : Derives source P build)
    (hkeeps : Keeps source P) (message : ε → String) (owner : String)
    (members : List (Option (FieldNode H))) (s : Builder × σ) (hs : P s.1) :
    ∃ answers, Builds source (members.filterMap (Option.map FieldNode.type)) s
        answers (fields message build owner members s).value.2
      ∧ (fields message build owner members s).value.1
        = fill .placeholder fieldOf members (answers.map Except.toOption) := by
  induction members generalizing s with
  | nil => exact ⟨[], .nil, rfl⟩
  | cons member rest ih =>
      cases member with
      | none =>
          obtain ⟨answers, hrest, hfields⟩ := ih s hs
          refine ⟨answers, hrest, ?_⟩
          show Field.placeholder :: (fields message build owner rest s).value.1
            = _
          rw [hfields]
          rfl
      | some node =>
          have hfirst := hbuild node.type s hs
          have hvalue := field_value message build owner node s
          obtain ⟨answers, hrest, hfields⟩ :=
            ih (build node.type s).value.2 (hkeeps hfirst hs)
          refine ⟨(build node.type s).value.1 :: answers, ?_, ?_⟩
          · simp only [fields, step_bind, step_pure, hvalue]
            exact hfirst.append hrest
          · simp only [fields, step_bind, step_pure, hvalue, hfields]
            rfl

theorem aliased_value (message : ε → String) (id : UInt32) (name : String)
    (length : UInt64) (target : H) (s : Builder × σ) :
    (aliased message build id name length (some target) s).value
      = ((match (build target s).value.1.toOption with
          | none => (0, length)
          | some aliasOf =>
            (aliasOf, (((build target s).value.2.1.graph.types.get?
              aliasOf).map (·.length)).getD length)),
          (build target s).value.2) := by
  simp only [aliased, step_bind]
  cases (build target s).value.1 with
  | error e => rfl
  | ok aliasOf =>
      simp only [step_bind, step_get, Except.toOption]
      cases (build target s).value.2.1.graph.types.get? aliasOf <;> rfl

/-- The symbol of a node is put together from a derivation of its
links. -/
theorem symbol_builds (hbuild : Derives source P build)
    (hkeeps : Keeps source P) (message : ε → String) (id : UInt32)
    (node : Node H) (s : Builder × σ) (hs : P s.1) :
    ∃ answers inner, Builds source node.shape.links s answers inner
      ∧ (symbol message build id node s).value
        = (symbolOf id node (answers.map Except.toOption) inner.1,
            (inner.1.count node, inner.2)) := by
  obtain ⟨name, length, shape⟩ := node
  cases shape with
  | base primitive => exact ⟨[], s, .nil, rfl⟩
  | enum => exact ⟨[], s, .nil, rfl⟩
  | pointer => exact ⟨[], s, .nil, rfl⟩
  | array => exact ⟨[], s, .nil, rfl⟩
  | aggregate kind members =>
      obtain ⟨answers, hlinks, hfields⟩ :=
        fields_builds hbuild hkeeps message (name.getD "") members s hs
      refine ⟨answers, _, hlinks, ?_⟩
      simp only [symbol, step_bind, step_pure, hfields]
      rfl
  | typedef target =>
      cases target with
      | none => exact ⟨[], s, .nil, rfl⟩
      | some target =>
          refine ⟨_, _, hbuild target s hs, ?_⟩
          simp only [symbol, step_bind, step_pure, aliased_value]
          unfold symbolOf
          cases (build target s).value.1 <;> rfl

end Symbols

-- ================================================================ types

/-- `P depth` says that `depth` levels are enough: none never are, a
derivation leaves as much room as it found, and a nested call, which needs
an id that was not known, has room on the level below. -/
structure Suffices (source : Source σ H ε) (P : Nat → Builder → Prop) :
    Prop where
  zero : ∀ b, ¬ P 0 b
  keeps : ∀ depth, Keeps source (P depth)
  start : ∀ {depth b h id}, P (depth + 1) b →
    (source.typeId h).value = some id → b.knows id = false →
    P depth (b.start id)

/-- With room left, building a type is a derivation. -/
theorem type_derives {source : Source σ H ε} {P : Nat → Builder → Prop}
    (hroom : Suffices source P) (depth : Nat) :
    Derives source (P depth) (type source depth) := by
  induction depth with
  | zero =>
      intro h s hs
      exact absurd hs (hroom.zero s.1)
  | succ depth ih =>
      rintro h ⟨b, st⟩ hs
      simp only [type, step_bind, step_lift]
      cases hid : (source.typeId h).value with
      | none => exact .replied (.unreadable hid) .nil
      | some id =>
          by_cases hzero : id = 0
          · subst hzero
            exact .replied (.reserved hid) .nil
          · simp only [if_neg hzero, step_bind]
            -- the test is split before `get` is simplified away in it
            split
            case isTrue hknown =>
              exact .replied (.known hid hzero hknown) .nil
            case isFalse hknown =>
              have hnew : b.knows id = false := by simpa using hknown
              simp only [step_bind, step_lift, step_get, step_set]
              cases hnode : (source.describe h st).value.1 with
              | error e =>
                  exact .replied (.undescribed hid hzero hnew hnode) .nil
              | ok node =>
                  obtain ⟨answers, inner, hlinks, hsymbol⟩ :=
                    symbol_builds ih (hroom.keeps depth) source.message id
                      node (b.start id, (source.describe h st).value.2)
                      (hroom.start hs hid hnew)
                  simp only [step_bind, step_update, step_lift, hsymbol]
                  exact .described hid hzero hnew hnode hlinks .nil

/-- There is a level left for every id that may still come into
progress. -/
def Room (depth : Nat) (b : Builder) : Prop :=
  b.inProgress.Nodup ∧ depthBound ≤ b.inProgress.length + depth

theorem card_ids : Fintype.card UInt32 = 0x100000000 :=
  FinEnum.card_eq_fintypeCard.symm

/-- The ids in progress are fewer than the levels of the recursion. -/
theorem not_room_zero {b : Builder} : ¬ Room 0 b := by
  rintro ⟨hnodup, hbound⟩
  have hcard := hnodup.length_le_card
  rw [card_ids] at hcard
  unfold depthBound at hbound
  omega

/-- A nested call has room again. -/
theorem Room.start {depth : Nat} {b : Builder} {id : UInt32}
    (h : Room (depth + 1) b) (hid : b.knows id = false) :
    Room depth (b.start id) := by
  obtain ⟨hnodup, hbound⟩ := h
  have hnot : id ∉ b.inProgress := by
    intro hmem
    unfold Builder.knows at hid
    rw [List.contains_iff_mem.2 hmem, Bool.or_true] at hid
    cases hid
  refine ⟨List.nodup_cons.2 ⟨hnot, hnodup⟩, ?_⟩
  show depthBound ≤ b.inProgress.length + 1 + depth
  omega

theorem room_suffices (source : Source σ H ε) : Suffices source Room where
  zero _ := not_room_zero
  keeps depth _ s _ s' hbuilds hroom := by
    unfold Room
    rw [hbuilds.inProgress_eq]
    exact hroom
  start hroom _ hnew := hroom.start hnew

/-- Building a type while none is in progress is a derivation. -/
theorem builderType_builds (source : Source σ H ε) (h : H) (s : Builder × σ)
    (hidle : s.1.inProgress = []) :
    Builds source [h] s [(Builder.type source h s).value.1]
      (Builder.type source h s).value.2 := by
  refine type_derives (room_suffices source) depthBound h s ?_
  unfold Room
  rw [hidle]
  exact ⟨List.nodup_nil, by simp⟩

/-- No derivation ends because the levels do. -/
theorem Builds.ne_nesting {source : Source σ H ε} {h : H} {s s' : Builder × σ}
    {answer : Answer ε} (hbuilds : Builds source [h] s [answer] s') :
    answer ≠ .error .nesting := by
  rintro rfl
  cases hbuilds with
  | replied hreply _ => cases hreply

end Build

end SymbolGraph
