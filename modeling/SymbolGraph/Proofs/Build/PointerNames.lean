/-
The numbers of pointers over a whole history. Calls may come to one builder
from any readers, one after another, and these may fail and contradict each
other. A stored symbol does not tell what it was made of, for a reader may
report an aggregate of any kind, and under any name. So each reader keeps notes
of the types that it described (`Source.noting`), and the notes are handed on
from call to call (`Builder.Noted`).

A type is noted when it is described, and stored when it ends; in between the
links of the type are built. A pointer has no links. So it gets its number in
the step in which it is noted and stored, and at any time, within calls as well,
the pointers that were noted are the pointers that are stored, numbered in the
order of the notes (`Builder.Ledger`).
-/
import SymbolGraph.Proofs.Build.Frame
import SymbolGraph.Proofs.Build.Pointers

namespace SymbolGraph

variable {σ H ε : Type}

-- =============================================================== notes

def Shape.isPointer : Shape H → Bool
  | .pointer => true
  | _ => false

theorem Shape.isPointer_of_ne {shape : Shape H} (h : shape ≠ .pointer) :
    shape.isPointer = false := by
  cases shape with
  | pointer => exact absurd rfl h
  | _ => rfl

/-- A type that was described, and whether it is a pointer. -/
structure Builder.Note where
  id : UInt32
  isPointer : Bool
deriving DecidableEq

/-- What there is to note of a type that a reader was asked for. -/
def Builder.notesOf (id : Option UInt32) : Except ε (Node H) → List Note
  | .error _ => []
  | .ok node => id.toList.map fun id => ⟨id, node.shape.isPointer⟩

/-- The reader that takes notes of what it describes. -/
def Source.noting (source : Source σ H ε) :
    Source (σ × List Builder.Note) H ε where
  typeId := source.typeId
  describe h s := do
    let (described, st) ← source.describe h s.1
    return (described,
      (st, s.2 ++ Builder.notesOf (source.typeId h).value described))
  message := source.message

/-- The builders that come about by calls from outside, with the notes of all
readers so far. -/
inductive Builder.Noted : Builder → List Builder.Note → Prop
  | new (header : Header) : Noted (Builder.new header) []
  | call {σ H ε : Type} {b : Builder} {notes : List Builder.Note}
      (source : Source σ H ε) (call : Builder.Call H) (state : σ) :
      Noted b notes →
      Noted (Builder.call source.noting call (b, (state, notes))).value.2.1
        (Builder.call source.noting call (b, (state, notes))).value.2.2.2

/-- The pointers among the types that were described, in their order. -/
def Builder.pointers (notes : List Builder.Note) : List UInt32 :=
  (notes.filter (·.isPointer)).map (·.id)

/-- The names under which they are stored. -/
def Builder.pointerNames (b : Builder) (notes : List Builder.Note) :
    List (Option String) :=
  (pointers notes).map fun id => (b.graph.types.get? id).map (·.name)

-- ============================================================== ledger

/-- The notes are of the types that are known, and the pointers among them are
stored, numbered in this order. -/
structure Builder.Ledger (b : Builder) (notes : List Builder.Note) : Prop where
  known : ∀ id, b.knows id = true ↔ id ∈ notes.map (·.id)
  distinct : (notes.map (·.id)).Nodup
  named : b.pointerNames notes
    = (List.range b.pointerCount).map fun n => some s!"pUnk{n}"

open Build

namespace Builder

variable {b : Builder} {id : UInt32} {node : Node H}
  {answers : List (Option UInt32)} {notes : List Note}

theorem pointers_append_pointer (notes : List Note) (id : UInt32) :
    pointers (notes ++ [⟨id, true⟩]) = pointers notes ++ [id] := by
  simp [pointers]

theorem pointers_append_other (notes : List Note) (id : UInt32) :
    pointers (notes ++ [⟨id, false⟩]) = pointers notes := by
  simp [pointers]

theorem ledger_new (header : Header) : (new header).Ledger [] where
  known _ := iff_of_false Bool.false_ne_true List.not_mem_nil
  distinct := List.nodup_nil
  named := rfl

theorem Ledger.stored (h : b.Ledger notes) (hid : id ∈ pointers notes) :
    b.graph.types.contains id = true := by
  have hname : (b.graph.types.get? id).map (·.name) ∈ b.pointerNames notes :=
    List.mem_map_of_mem hid
  rw [h.named] at hname
  obtain ⟨n, -, hn⟩ := List.mem_map.1 hname
  obtain ⟨t, hget, -⟩ := Option.map_eq_some_iff.1 hn.symm
  exact Table.contains_of_get? hget

theorem Ledger.length_pointers (h : b.Ledger notes) :
    (pointers notes).length = b.pointerCount := by
  have hlength := congrArg List.length h.named
  simpa [pointerNames] using hlength

/-- One more type is known and noted. -/
theorem Ledger.distinct_append (h : b.Ledger notes)
    (hnew : b.knows id = false) (isPointer : Bool) :
    ((notes ++ [Note.mk id isPointer]).map Note.id).Nodup := by
  have hnot : id ∉ notes.map (·.id) := by
    rw [← h.known id, hnew]
    exact Bool.false_ne_true
  rw [List.map_append, List.map_singleton, ← List.concat_eq_append]
  exact h.distinct.concat hnot

theorem Ledger.known_append (h : b.Ledger notes) (isPointer : Bool)
    (j : UInt32) :
    (b.start id).knows j = true
      ↔ j ∈ (notes ++ [Note.mk id isPointer]).map Note.id := by
  rw [knows_start_iff, h.known j, List.map_append, List.mem_append, or_comm]
  exact or_congr_right List.mem_singleton.symm

/-- The end of a type leaves the names of other pointers as they are. -/
theorem pointerNames_finish
    (hstored : ∀ k ∈ pointers notes, b.graph.types.contains k = true)
    (hnew : b.graph.types.get? id = none) :
    (b.finish id node answers).pointerNames notes = b.pointerNames notes := by
  apply List.map_congr_left
  intro k hk
  have hne : k ≠ id := by
    rintro rfl
    rw [Table.get?_eq_none_iff, hstored k hk] at hnew
    cases hnew
  rw [finish_types, Table.get?_insert_of_ne _ _ hne]

/-- A type that is no pointer is noted when it starts. -/
theorem Ledger.start (h : b.Ledger notes) (hnew : b.knows id = false) :
    (b.start id).Ledger (notes ++ [⟨id, false⟩]) where
  known := h.known_append false
  distinct := h.distinct_append hnew false
  named := by
    unfold pointerNames
    rw [pointers_append_other]
    exact h.named

/-- The end of a type that is no pointer. -/
theorem Ledger.finish {rest : List UInt32} (h : b.Ledger notes)
    (hprogress : b.inProgress = id :: rest)
    (hnew : b.graph.types.get? id = none)
    (hshape : node.shape ≠ .pointer) :
    (b.finish id node answers).Ledger notes where
  known j := by rw [knows_finish hprogress, h.known j]
  distinct := h.distinct
  named := by
    rw [pointerNames_finish (fun _ => h.stored) hnew,
      finish_pointerCount_of_other hshape]
    exact h.named

/-- A pointer is noted, counted and stored in one step. -/
theorem Ledger.pointer (h : b.Ledger notes) (hnew : b.knows id = false)
    (hshape : node.shape = .pointer) :
    ((b.start id).finish id node answers).Ledger (notes ++ [⟨id, true⟩]) where
  known j := by rw [knows_finish rfl, h.known_append true]
  distinct := h.distinct_append hnew true
  named := by
    have hold : ((b.start id).finish id node answers).pointerNames notes
        = b.pointerNames notes :=
      pointerNames_finish (b := b.start id) (fun _ => h.stored)
        (get?_of_not_knows (b := b) hnew)
    have hown : (((b.start id).finish id node answers).graph.types.get? id).map
        (·.name) = some s!"pUnk{b.pointerCount}" := by
      rw [finish_types, Table.get?_insert, if_pos rfl, Option.map_some,
        symbolOf_name_of_pointer hshape]
      rfl
    calc ((b.start id).finish id node answers).pointerNames
            (notes ++ [⟨id, true⟩])
        = b.pointerNames notes ++ [some s!"pUnk{b.pointerCount}"] := by
          rw [← hold, ← hown]
          unfold pointerNames
          rw [pointers_append_pointer, List.map_append, List.map_singleton]
      _ = (List.range (b.pointerCount + 1)).map
            fun n => some s!"pUnk{n}" := by
          rw [h.named, List.range_succ, List.map_append, List.map_singleton]
      _ = _ := by
          rw [finish_pointerCount_of_pointer hshape]
          rfl

end Builder

-- ========================================================= derivations

namespace Build

variable {source : Source σ H ε} {b : Builder}

theorem noting_describe (h : H) (st : σ × List Builder.Note) :
    (source.noting.describe h st).value
      = ((source.describe h st.1).value.1, (source.describe h st.1).value.2,
          st.2 ++ Builder.notesOf (source.typeId h).value
            (source.describe h st.1).value.1) := rfl

/-- A derivation keeps the ledger. -/
theorem Builds.ledger {hs : List H} {s s' : Builder × (σ × List Builder.Note)}
    {answers : List (Answer ε)} (h : Builds source.noting hs s answers s')
    (hledger : s.1.Ledger s.2.2) : s'.1.Ledger s'.2.2 := by
  induction h with
  | nil => exact hledger
  | replied hreply _ ih =>
      apply ih
      cases hreply with
      | undescribed _ _ _ herror =>
          -- nothing is noted of a type that is not described
          rw [noting_describe] at herror ⊢
          rw [herror]
          rwa [Builder.notesOf, List.append_nil]
      | unreadable | reserved | known => exact hledger
  | @described h hs id b st inner s' node links answers hid _ hnew hnode hlinks
      _ ihlinks ih =>
      apply ih
      have hnoted : (source.noting.describe h st).value.2.2
          = st.2 ++ [⟨id, node.shape.isPointer⟩] := by
        rw [noting_describe] at hnode ⊢
        have hid : (source.typeId h).value = some id := hid
        rw [hnode, hid]
        rfl
      rw [hnoted] at ihlinks
      by_cases hshape : node.shape = .pointer
      · rw [hshape] at hlinks
        cases hlinks with
        | nil =>
            -- nothing is built between the start of a pointer and its end
            rw [hnoted, hshape]
            exact hledger.pointer hnew hshape
      · rw [Shape.isPointer_of_ne hshape] at ihlinks
        exact (ihlinks (hledger.start hnew)).finish hlinks.inProgress_of_start
          (hlinks.get?_of_start hnew) hshape

/-- A call keeps the ledger. -/
theorem call_ledger (source : Source σ H ε) (call : Builder.Call H) (st : σ)
    {notes : List Builder.Note} (hidle : b.inProgress = [])
    (hledger : b.Ledger notes) :
    let run := (Builder.call source.noting call (b, (st, notes))).value
    run.2.1.Ledger run.2.2.2 := by
  apply call_preserves (P := fun s => s.1.Ledger s.2.2) source.noting call
    (s := (b, (st, notes))) hidle
  · exact hledger
  · exact fun _ _ hbuilds => hbuilds.ledger hledger
  · exact fun _ _ _ hinner => { hinner with }

/-- The notes aside, nothing is changed by taking them. -/
theorem call_of_noting (source : Source σ H ε) (call : Builder.Call H) (st : σ)
    (notes : List Builder.Note) (hidle : b.inProgress = []) :
    (Builder.call source call (b, st)).value.2.1
      = (Builder.call source.noting call (b, (st, notes))).value.2.1 := by
  have hsame : (Builder.call source call (b, st)).value
      = ((Builder.call source.noting call (b, (st, notes))).value.1,
          (Builder.call source.noting call (b, (st, notes))).value.2.1,
          (Builder.call source.noting call (b, (st, notes))).value.2.2.1) :=
    call_simulate (f := Prod.fst) (s := (b, (st, notes))) (fun _ => rfl)
      (fun _ _ _ _ _ => rfl) call hidle
  exact congrArg (·.2.1) hsame

end Build

-- ============================================================ histories

namespace Builder

variable {b : Builder} {notes : List Note}

theorem Noted.invariant (h : b.Noted notes) :
    b.inProgress = [] ∧ b.Ledger notes := by
  induction h with
  | new header => exact ⟨rfl, ledger_new header⟩
  | call source call st _ ih =>
      obtain ⟨hidle, hledger⟩ := ih
      exact ⟨call_inProgress source.noting call hidle,
        call_ledger source call st hidle hledger⟩

theorem Reachable.call (h : b.Reachable) (source : Source σ H ε)
    (call : Call H) (st : σ) :
    (Builder.call source call (b, st)).value.2.1.Reachable := by
  cases call with
  | type handle => exact .type source handle st h
  | function node => exact .function source node st h

/-- Notes can be taken of the next call. -/
theorem Noted.exists_call (h : b.Noted notes) (source : Source σ H ε)
    (call : Call H) (st : σ) :
    ∃ notes', (Builder.call source call (b, st)).value.2.1.Noted notes' := by
  have hcall := Noted.call source call st h
  rw [← call_of_noting source call st notes h.invariant.1] at hcall
  exact ⟨_, hcall⟩

/-- The builders with notes are those that calls lead to. -/
theorem reachable_iff_noted : b.Reachable ↔ ∃ notes, b.Noted notes := by
  constructor
  · intro h
    induction h with
    | new header => exact ⟨[], .new header⟩
    | type source handle st _ ih =>
        obtain ⟨notes, hnoted⟩ := ih
        exact hnoted.exists_call source (.type handle) st
    | function source node st _ ih =>
        obtain ⟨notes, hnoted⟩ := ih
        exact hnoted.exists_call source (.function node) st
  · rintro ⟨notes, h⟩
    induction h with
    | new header => exact .new header
    | call source call st hnoted ih =>
        rw [← call_of_noting source call st _ hnoted.invariant.1]
        exact ih.call source call st

/-- On any builder that calls lead to, whatever the readers and their failures.
Each type that was described is noted once and is stored, and no other type is.
The pointers among them are named by their places among the pointers, from 0 on,
so no two by one name, and the next number is their count. -/
theorem pointers_numbered (b : Builder) :
    (b.Reachable ↔ ∃ notes, b.Noted notes)
      ∧ ∀ notes, b.Noted notes →
        (∀ id, b.graph.types.contains id = true ↔ id ∈ notes.map (·.id))
          ∧ (notes.map (·.id)).Nodup
          ∧ b.pointerNames notes = (List.range (pointers notes).length).map
            (fun n => some s!"pUnk{n}")
          ∧ (b.pointerNames notes).Nodup
          ∧ b.pointerCount = (pointers notes).length := by
  refine ⟨reachable_iff_noted, fun notes hnoted => ?_⟩
  obtain ⟨hidle, hledger⟩ := hnoted.invariant
  have hcount := hledger.length_pointers
  have hnamed := hledger.named
  rw [← hcount] at hnamed
  refine ⟨fun id => ?_, hledger.distinct, hnamed, ?_, hcount.symm⟩
  · rw [← hledger.known id, knows_of_idle hidle]
  · rw [hnamed]
    apply List.nodup_range.map
    intro m n hname
    exact pointerName_inj (Option.some.inj hname)

/-- Two readers that take turns. The second one fails to describe a type, which
the first one then describes as a pointer. -/
theorem pointers_numbered_turns :
    let first := (Builder.call aliasSource.noting (.type 4)
      (Builder.new {}, ((), []))).value
    let second := (Builder.call tangledSource.noting (.type 1)
      (first.2.1, (0, first.2.2.2))).value
    let third := (Builder.call aliasSource.noting
      (.function ⟨9, "tie", some 4, some 3, [.typed 5], .unknown, 0⟩)
      (second.2.1, ((), second.2.2.2))).value
    third.2.1.Noted third.2.2.2
      ∧ third.2.2.2 = [⟨4, true⟩, ⟨2, false⟩, ⟨1, false⟩, ⟨3, true⟩, ⟨5, true⟩]
      ∧ third.2.1.graph.types.keys = [1, 2, 3, 4, 5]
      ∧ third.2.1.pointerNames third.2.2.2
        = [some "pUnk0", some "pUnk1", some "pUnk2"] := by
  intro first second third
  have hnoted : third.2.1.Noted third.2.2.2 := by
    apply Noted.call
    apply Noted.call
    apply Noted.call
    exact .new {}
  obtain ⟨-, hall⟩ := pointers_numbered third.2.1
  obtain ⟨-, -, hnames, -⟩ := hall third.2.2.2 hnoted
  have hnotes : third.2.2.2 = [⟨4, true⟩, ⟨2, false⟩, ⟨1, false⟩, ⟨3, true⟩,
      ⟨5, true⟩] := by rfl
  refine ⟨hnoted, hnotes, by rfl, ?_⟩
  rw [hnames, hnotes]
  rfl

end Builder

end SymbolGraph
