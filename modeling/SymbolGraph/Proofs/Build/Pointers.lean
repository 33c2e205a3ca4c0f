/-
The names of pointers. A reader gives a pointer no name, so the builder
numbers them as they come, over the whole construction. Two pointer types
therefore never have one name, also if they point at the same type.

The invariant (`Source.Numbered`) says that the number of every stored
pointer is below the count, so the next one is new. Which of the stored
types are pointers is asked of the reader: the kind of a stored type does
not tell, since a reader may report an aggregate of any kind.
-/
import SymbolGraph.Proofs.Build.Reach

namespace SymbolGraph

variable {σ H ε : Type}

/-- The reader describes the type with this id as a pointer. -/
def Source.IsPointer (source : Source σ H ε) (id : UInt32) : Prop :=
  ∃ node, source.Describes id node ∧ node.shape = .pointer

/-- Stored pointers are named by numbers below the count, no two by the
same. -/
structure Source.Numbered (source : Source σ H ε) (b : Builder) : Prop where
  named : ∀ id t, b.graph.types.get? id = some t → source.IsPointer id →
    ∃ n < b.pointerCount, t.name = s!"pUnk{n}"
  distinct : ∀ id id' t t', b.graph.types.get? id = some t →
    b.graph.types.get? id' = some t' → source.IsPointer id →
    source.IsPointer id' → t.name = t'.name → id = id'

namespace Build

variable {source : Source σ H ε} {b : Builder} {id : UInt32} {node : Node H}

theorem pointerName_inj {m n : Nat} (h : s!"pUnk{m}" = s!"pUnk{n}") :
    m = n := by
  have htext : toString m = toString n := by simpa using h
  rw [Nat.toString_eq_ofList_toDigits, Nat.toString_eq_ofList_toDigits,
    String.ofList_inj] at htext
  calc m = Nat.ofDigitChars 10 (Nat.toDigits 10 m) 0 :=
        Nat.ofDigitChars_ten_toDigits.symm
    _ = Nat.ofDigitChars 10 (Nat.toDigits 10 n) 0 := by rw [htext]
    _ = n := Nat.ofDigitChars_ten_toDigits

theorem finish_pointerCount_of_pointer (hshape : node.shape = .pointer)
    (answers : List (Option UInt32)) :
    (b.finish id node answers).pointerCount = b.pointerCount + 1 := by
  show (b.count node).pointerCount = b.pointerCount + 1
  unfold Builder.count
  rw [hshape]

theorem finish_pointerCount_of_other (hshape : node.shape ≠ .pointer)
    (answers : List (Option UInt32)) :
    (b.finish id node answers).pointerCount = b.pointerCount := by
  obtain ⟨name, length, shape⟩ := node
  cases shape with
  | pointer => exact absurd rfl hshape
  | _ => rfl

theorem le_finish_pointerCount (answers : List (Option UInt32)) :
    b.pointerCount ≤ (b.finish id node answers).pointerCount := by
  show b.pointerCount ≤ (b.count node).pointerCount
  unfold Builder.count
  split
  · exact Nat.le_succ _
  · exact Nat.le_refl _

theorem symbolOf_name_of_pointer (hshape : node.shape = .pointer)
    (answers : List (Option UInt32)) :
    (symbolOf id node answers b).name = s!"pUnk{b.pointerCount}" := by
  unfold symbolOf
  rw [hshape]

theorem numbered_new (header : Header) :
    source.Numbered (Builder.new header) where
  named _ _ hget := by cases hget
  distinct _ _ _ _ hget := by cases hget

/-- A pointer that is stored gets the next number. -/
theorem numbered_finish (hsource : source.Consistent)
    (h : source.Numbered b) (hnode : source.Describes id node)
    (answers : List (Option UInt32)) :
    source.Numbered (b.finish id node answers) := by
  have hshape : source.IsPointer id → node.shape = .pointer := by
    rintro ⟨node', hnode', hshape⟩
    rw [hsource.describes_unique hnode hnode', hshape]
  -- an old pointer has a number that the new one does not get
  have hfresh : ∀ k t, b.graph.types.get? k = some t → source.IsPointer k →
      source.IsPointer id → t.name ≠ (symbolOf id node answers b).name := by
    intro k t hget hk hid hname
    obtain ⟨n, hn, htn⟩ := h.named k t hget hk
    rw [htn, symbolOf_name_of_pointer (hshape hid)] at hname
    exact absurd (pointerName_inj hname) (Nat.ne_of_lt hn)
  constructor
  · intro k t hget hk
    rw [finish_types] at hget
    rcases Table.get?_insert_eq_some_iff.1 hget with ⟨rfl, rfl⟩ | ⟨-, hget⟩
    · refine ⟨b.pointerCount, ?_, symbolOf_name_of_pointer (hshape hk) _⟩
      rw [finish_pointerCount_of_pointer (hshape hk)]
      exact Nat.lt_succ_self _
    · obtain ⟨n, hn, hname⟩ := h.named k t hget hk
      exact ⟨n, Nat.lt_of_lt_of_le hn (le_finish_pointerCount _), hname⟩
  · intro k k' t t' hget hget' hk hk' hname
    rw [finish_types] at hget hget'
    rcases Table.get?_insert_eq_some_iff.1 hget with ⟨rfl, rfl⟩ | ⟨-, hold⟩
    · rcases Table.get?_insert_eq_some_iff.1 hget' with
        ⟨rfl, rfl⟩ | ⟨-, hold'⟩
      · rfl
      · exact absurd hname.symm (hfresh k' t' hold' hk' hk)
    · rcases Table.get?_insert_eq_some_iff.1 hget' with
        ⟨rfl, rfl⟩ | ⟨-, hold'⟩
      · exact absurd hname (hfresh k t hold hk hk')
      · exact h.distinct k k' t t' hold hold' hk hk' hname

/-- A derivation keeps the names of pointers apart. -/
theorem Builds.numbered {hs : List H} {s s' : Builder × σ}
    {answers : List (Answer ε)} (hsource : source.Consistent)
    (h : Builds source hs s answers s') (hnumbered : source.Numbered s.1) :
    source.Numbered s'.1 := by
  induction h with
  | nil => exact hnumbered
  | replied _ _ ih => exact ih hnumbered
  | @described h hs id b st inner s' node links answers hid _ _ hok _ _ ihlinks
      ih =>
      have hstart : source.Numbered (b.start id) := { hnumbered with }
      exact ih (numbered_finish hsource (ihlinks hstart) ⟨h, st, hid, hok⟩ _)

end Build

end SymbolGraph
