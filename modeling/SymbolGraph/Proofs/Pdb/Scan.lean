/-
What the readers of type records take. No reader goes back, and a number is as
many octets as it is wide (`Scan.Takes`). Which kinds of records come to a
member, and which to a list of members, is a property of what is read
(`TypeRecord.Fits`). Both compose, so each reader is gone through once, and
`readWithin_fits` tells for the records of all kinds what they come to.
A list of fields is the one reader that goes back, to the kind of the part that
it has looked at, and so it is taken apart by hand.
-/
import SymbolGraph.Pdb.TypeRecord
import SymbolGraph.Proofs.Except

namespace SymbolGraph.Pdb

namespace Scan

variable {α β : Type} {P P' : α → Prop} {Q : β → Prop} {m n : Nat}

/-- The scan goes on by so many octets at least, and what it reads has the
property. -/
def Takes (n : Nat) (P : α → Prop) (x : Scan α) : Prop :=
  ∀ place a next, x.run place = .ok (a, next) → place + n ≤ next ∧ P a

/-- The scan does not go back. -/
abbrev Moves (x : Scan α) : Prop := Takes 0 (fun _ => True) x

-- =========================================================== composition

theorem Takes.pure {a : α} (ha : P a) : Takes 0 P (pure a) := by
  intro place _ _ h
  obtain ⟨rfl, rfl⟩ := run_pure_eq_ok_iff.1 h
  exact ⟨Nat.le_refl _, ha⟩

@[simp] theorem takes_throw (fault : Fault) : Takes n P (throw fault) :=
  fun _ _ _ h => by cases h

theorem Takes.mono {x : Scan α} (hx : Takes m P x) (hle : n ≤ m)
    (h : ∀ a, P a → P' a) : Takes n P' x := by
  intro place a next hrun
  obtain ⟨hm, ha⟩ := hx _ _ _ hrun
  exact ⟨by omega, h a ha⟩

theorem Takes.moves {x : Scan α} (hx : Takes n P x) : Moves x :=
  hx.mono (Nat.zero_le n) fun _ _ => trivial

/-- Behind steps that do not go back, the last one counts. -/
theorem Moves.then {x : Scan α} {f : α → Scan β} (hx : Moves x)
    (hf : ∀ a, Takes 0 Q (f a)) : Takes 0 Q (x >>= f) := by
  intro place b next h
  obtain ⟨a, between, hfirst, hrest⟩ := run_bind_eq_ok_iff.1 h
  obtain ⟨hle, -⟩ := hx _ _ _ hfirst
  obtain ⟨hle', hb⟩ := hf a _ _ _ hrest
  exact ⟨by omega, hb⟩

theorem Moves.map {x : Scan α} {f : α → β} (hx : Moves x)
    (hf : ∀ a, Q (f a)) : Takes 0 Q (x >>= fun a => Pure.pure (f a)) :=
  hx.then fun a => .pure (hf a)

-- ================================================================ pieces

section Pieces

variable (b : ByteArray)

variable {b} in
theorem number_eq_ok_iff {width place next k : Nat} :
    (number b width).run place = .ok (k, next)
      ↔ Bytes.number? .little b place width = some k
        ∧ next = place + width := by
  unfold number Bytes.number? StateT.run
  by_cases h : place + width ≤ b.size
  · simp [h, eq_comm]
  · simp [h]

variable {b} in
theorem take_eq_ok_iff {place next : Nat} {octets : ByteArray} :
    (take b n).run place = .ok (octets, next)
      ↔ Bytes.range? b place n = some octets ∧ next = place + n := by
  unfold take Bytes.range? StateT.run
  by_cases h : place + n ≤ b.size
  · simp [h, eq_comm]
  · simp [h]

variable {b} in
theorem skip_eq_ok_iff {place next : Nat} :
    (skip b n).run place = .ok ((), next)
      ↔ place + n ≤ b.size ∧ next = place + n := by
  unfold skip StateT.run
  by_cases h : place + n ≤ b.size
  · simp [h, eq_comm]
  · simp [h]

variable {b} in
theorem typeIndex_eq_ok_iff {place next : Nat} {index : TypeIndex} :
    (typeIndex b).run place = .ok (index, next)
      ↔ ∃ n, Bytes.number? .little b place 4 = some n
        ∧ index = UInt32.ofNat n ∧ next = place + 4 := by
  unfold typeIndex
  rw [run_bind_eq_ok_iff]
  constructor
  · intro ⟨n, between, hread, h⟩
    obtain ⟨hn, rfl⟩ := number_eq_ok_iff.1 hread
    obtain ⟨rfl, rfl⟩ := run_pure_eq_ok_iff.1 h
    exact ⟨n, hn, rfl, rfl⟩
  · intro ⟨n, hn, hindex, hnext⟩
    exact ⟨n, place + 4, number_eq_ok_iff.2 ⟨hn, rfl⟩,
      run_pure_eq_ok_iff.2 ⟨hindex.symm, hnext.symm⟩⟩

theorem takes_number (width : Nat) :
    Takes width (fun _ => True) (number b width) := by
  intro place k next h
  obtain ⟨-, rfl⟩ := number_eq_ok_iff.1 h
  exact ⟨Nat.le_refl _, trivial⟩

theorem moves_u8 : Moves (u8 b) := (takes_number b 1).moves

theorem moves_u16 : Moves (u16 b) := (takes_number b 2).moves

theorem moves_u32 : Moves (u32 b) := (takes_number b 4).moves

theorem moves_u64 : Moves (u64 b) := (takes_number b 8).moves

theorem moves_typeIndex : Moves (typeIndex b) :=
  (moves_u32 b).map fun _ => trivial

theorem moves_take (n : Nat) : Moves (take b n) := by
  intro place octets next h
  obtain ⟨-, rfl⟩ := take_eq_ok_iff.1 h
  exact ⟨Nat.le_add_right _ _, trivial⟩

theorem moves_skip (n : Nat) : Moves (skip b n) := by
  intro place _ next h
  obtain ⟨-, rfl⟩ := skip_eq_ok_iff.1 h
  exact ⟨Nat.le_add_right _ _, trivial⟩

theorem moves_zeroEnded : Moves (zeroEnded b) := by
  intro place _ _ h
  unfold zeroEnded at h
  rw [StateT.run] at h
  split at h
  · cases h
    exact ⟨by omega, trivial⟩
  · cases h

theorem moves_counted : Moves (counted b) :=
  (moves_u8 b).then fun n => (moves_take b n).map fun _ => trivial

theorem moves_get : Moves (get : Scan Nat) := by
  intro place _ _ h
  cases h
  exact ⟨Nat.le_refl _, trivial⟩

theorem moves_atEnd : Moves (atEnd b) := moves_get.map fun _ => trivial

variable {b} in
theorem atEnd_of_le {place : Nat} (h : b.size ≤ place) :
    (atEnd b).run place = .ok (true, place) := by
  rw [← decide_eq_true h]
  rfl

variable {b} in
theorem atEnd_of_lt {place : Nat} (h : place < b.size) :
    (atEnd b).run place = .ok (false, place) := by
  rw [← decide_eq_false (Nat.not_le.2 h)]
  rfl

theorem moves_peek? : Moves (peek? b) := moves_get.map fun _ => trivial

end Pieces

end Scan

namespace TypeRecord

open Scan

variable {kind k bound fuel place start next : Nat} {record : TypeRecord}

/-- The kinds of records that are data members. -/
def IsMemberKind (kind : Nat) : Prop := kind = 0x150d ∨ kind = 0x1405

instance : DecidablePred IsMemberKind :=
  fun kind => inferInstanceAs (Decidable (kind = 0x150d ∨ kind = 0x1405))

/-- What a record of this kind may come to: only a member comes to a member, and
only a list of fields to a list of members. -/
def Fits (kind : Nat) : TypeRecord → Prop
  | .member _ => IsMemberKind kind
  | .fieldList .. => kind = 0x1203
  | _ => True

/-- The member that a record is. -/
def member? : TypeRecord → Option Member
  | .member m => some m
  | _ => none

variable (b : ByteArray)

-- ============================================================== readers

theorem moves_optionalIndex : Moves (optionalIndex b) :=
  (moves_typeIndex b).map fun _ => trivial

theorem moves_unsigned : Moves (unsigned b) := by
  apply (moves_u16 b).then
  intro n
  split
  · exact .pure trivial
  · split
    · exact moves_u8 b
    · split
      · exact moves_u16 b
      · split
        · exact moves_u32 b
        · split
          · exact moves_u64 b
          · exact takes_throw _

theorem moves_skipConstant : Moves (skipConstant b) := by
  apply (moves_u16 b).then
  intro n
  split
  · exact .pure trivial
  · split
    · exact moves_skip b 1
    · split
      · exact moves_skip b 2
      · split
        · exact moves_skip b 4
        · split
          · exact moves_skip b 8
          · exact takes_throw _

theorem moves_name (kind : Nat) : Moves (name b kind) := by
  unfold name
  split
  · exact moves_counted b
  · exact moves_zeroEnded b

theorem moves_declared (kind properties : Nat) :
    Moves (declared b kind properties) := by
  apply (moves_name b kind).then
  intro plain
  dsimp only
  split
  · apply Moves.then ((moves_name b kind).map fun _ => trivial)
    exact fun _ => .pure trivial
  · exact .pure trivial

theorem moves_padding (fuel : Nat) : Moves (padding b fuel) := by
  induction fuel with
  | zero => exact .pure trivial
  | succ fuel ih =>
      apply (moves_peek? b).then
      intro octet
      cases octet with
      | none => exact .pure trivial
      | some x =>
          dsimp only
          split
          · exact (moves_skip b _).then fun _ => ih
          · exact .pure trivial

@[simp] theorem takes_readClass : Takes 0 (Fits k) (readClass b kind) :=
  (moves_skip b 2).then fun _ => (moves_u16 b).then fun _ =>
    (moves_optionalIndex b).then fun _ => (moves_skip b 8).then fun _ =>
    (moves_unsigned b).then fun _ => (moves_declared b kind _).map fun _ =>
    trivial

@[simp] theorem takes_readWideStruct :
    Takes 0 (Fits k) (readWideStruct b kind) :=
  (moves_u32 b).then fun _ => (moves_optionalIndex b).then fun _ =>
    (moves_skip b 10).then fun _ => (moves_unsigned b).then fun _ =>
    (moves_declared b kind _).map fun _ => trivial

@[simp] theorem takes_readUnion : Takes 0 (Fits k) (readUnion b kind) :=
  (moves_skip b 2).then fun _ => (moves_u16 b).then fun _ =>
    (moves_typeIndex b).then fun _ => (moves_unsigned b).then fun _ =>
    (moves_declared b kind _).map fun _ => trivial

@[simp] theorem takes_readEnum : Takes 0 (Fits k) (readEnum b kind) :=
  (moves_skip b 2).then fun _ => (moves_u16 b).then fun _ =>
    (moves_typeIndex b).then fun _ => (moves_skip b 4).then fun _ =>
    (moves_declared b kind _).map fun _ => trivial

@[simp] theorem takes_readPointer : Takes 0 (Fits k) (readPointer b) := by
  apply (moves_skip b 4).then
  intro _
  apply (moves_u32 b).then
  intro attributes
  dsimp only
  split
  · exact (moves_skip b 4).map fun _ => trivial
  · exact .pure trivial

theorem moves_dimensions (fuel : Nat) : Moves (dimensions b fuel) := by
  induction fuel with
  | zero => exact takes_throw _
  | succ fuel ih =>
      apply (moves_unsigned b).then
      intro n
      dsimp only
      split
      · exact fun _ _ _ h => by cases h
      · apply (moves_peek? b).then
        intro octet
        split
        · exact takes_throw _
        · exact (moves_skip b 1).map fun _ => trivial
        · exact ih.map fun _ => trivial

@[simp] theorem takes_readArray : Takes 0 (Fits k) (readArray b kind) := by
  have hrest : Takes 0 (Fits k) (do
      let list ← dimensions b (b.size + 1)
      padding b (b.size + 1)
      return .array list) :=
    (moves_dimensions b _).then fun _ => (moves_padding b _).map fun _ => trivial
  apply (moves_skip b 8).then
  intro _
  dsimp only
  split
  · exact (moves_skip b 4).then fun _ => hrest
  · exact hrest

@[simp] theorem takes_readProcedure : Takes 0 (Fits k) (readProcedure b) :=
  (moves_optionalIndex b).then fun _ => (moves_u16 b).then fun _ =>
    (moves_skip b 2).then fun _ => (moves_typeIndex b).map fun _ => trivial

@[simp] theorem takes_readMemberFunction :
    Takes 0 (Fits k) (readMemberFunction b) :=
  (moves_typeIndex b).then fun _ => (moves_skip b 4).then fun _ =>
    (moves_optionalIndex b).then fun _ => (moves_u16 b).then fun _ =>
    (moves_skip b 2).then fun _ => (moves_typeIndex b).then fun _ =>
    (moves_skip b 4).map fun _ => trivial

theorem moves_indices (n : Nat) : Moves (indices b n) := by
  induction n with
  | zero => exact .pure trivial
  | succ n ih => exact (moves_typeIndex b).then fun _ => ih.map fun _ => trivial

@[simp] theorem takes_readArgumentList :
    Takes 0 (Fits k) (readArgumentList b) :=
  (moves_u32 b).then fun n => (moves_indices b n).map fun _ => trivial

theorem moves_methodList (fuel : Nat) : Moves (methodList b fuel) := by
  induction fuel with
  | zero => exact .pure trivial
  | succ fuel ih =>
      apply (moves_atEnd b).then
      intro done
      split
      · exact .pure trivial
      · apply (moves_u16 b).then
        intro attributes
        apply (moves_skip b 6).then
        intro _
        dsimp only
        split
        · exact (moves_skip b 4).then fun _ => ih
        · exact ih

theorem takes_readMember :
    Takes 0 (fun record => ∃ m, record = .member m) (readMember b kind) :=
  (moves_skip b 2).then fun _ => (moves_typeIndex b).then fun _ =>
    (moves_unsigned b).then fun _ => (moves_name b kind).map fun _ => ⟨_, rfl⟩

theorem moves_numbers (list : List Nat) :
    Moves (forIn list PUnit.unit fun _ _ => do
      let _ ← unsigned b
      pure (ForInStep.yield PUnit.unit)) := by
  induction list with
  | nil => exact .pure trivial
  | cons n rest ih =>
      rw [List.forIn_cons]
      apply Moves.then ((moves_unsigned b).map fun _ => trivial)
      intro step
      cases step with
      | done => exact .pure trivial
      | yield => exact ih

@[simp] theorem takes_passOver (octets numbers : Nat) (named : Option Nat) :
    Takes 0 (Fits k) (passOver b octets numbers named) := by
  apply (moves_skip b octets).then
  intro _
  apply (moves_numbers b _).then
  intro _
  cases named with
  | none => exact .pure trivial
  | some kind => exact (moves_name b kind).map fun _ => trivial

@[simp] theorem takes_readMethod : Takes 0 (Fits k) (readMethod b kind) := by
  have hrest : Takes 0 (Fits k) (do
      let _ ← name b kind
      return .other) := (moves_name b kind).map fun _ => trivial
  apply (moves_u16 b).then
  intro attributes
  apply (moves_skip b 4).then
  intro _
  dsimp only
  split
  · exact (moves_skip b 4).then fun _ => hrest
  · exact hrest

@[simp] theorem takes_readEnumerator :
    Takes 0 (Fits k) (readEnumerator b kind) :=
  (moves_skip b 2).then fun _ => (moves_skipConstant b).then fun _ =>
    (moves_name b kind).map fun _ => trivial

-- ========================================================== field lists

variable {b} {part : Scan TypeRecord} {members : List Member}
  {continuation : Option TypeIndex}

theorem readFieldList_of_end (h : b.size ≤ place) :
    (readFieldList b part (fuel + 1) members continuation).run place
      = .ok (.fieldList members.reverse continuation, place) := by
  rw [readFieldList, run_bind_ok (atEnd_of_le h)]
  rfl

/-- Before its end, a list of fields goes on with where it is continued, or with
a record, which is read from its kind on. -/
theorem readFieldList_of_more (hmore : place < b.size) :
    (readFieldList b part (fuel + 1) members continuation).run place
      = match (u16 b).run place with
        | .error fault => .error fault
        | .ok (0x1404, start) => (do
            let next ← Scan.typeIndex b
            padding b (b.size + 1)
            readFieldList b part fuel members (some next)
              : Scan TypeRecord).run start
        | .ok _ => (do
            let record ← part
            padding b (b.size + 1)
            readFieldList b part fuel (record.member?.toList ++ members)
              continuation : Scan TypeRecord).run place := by
  have hget : (get : Scan Nat).run place = .ok (place, place) := rfl
  rw [readFieldList, run_bind_ok (atEnd_of_lt hmore),
    if_neg Bool.false_ne_true, run_bind_ok hget]
  cases hkind : (u16 b).run place with
  | error fault =>
      rw [StateT.run_bind, hkind]
      rfl
  | ok found =>
      obtain ⟨kind, start⟩ := found
      have hset : (set place : Scan PUnit).run start = .ok (⟨⟩, place) := rfl
      rw [run_bind_ok hkind]
      by_cases hlink : kind = 0x1404
      · subst hlink
        rfl
      · rw [if_neg hlink, run_bind_ok hset]
        split
        · simp_all
        · simp_all
        · congr! with record _
          cases record <;> rfl

/-- If no part goes back, nor does a list of parts, and it comes to a list of
members. -/
theorem takes_readFieldList (hpart : Moves part) (fuel : Nat)
    (members : List Member) (continuation : Option TypeIndex) :
    Takes 0 (fun record => ∃ list next, record = .fieldList list next)
      (readFieldList b part fuel members continuation) := by
  induction fuel generalizing members continuation with
  | zero => exact takes_throw _
  | succ fuel ih =>
      intro place record last h
      by_cases hmore : place < b.size
      · rw [readFieldList_of_more hmore] at h
        split at h
        case h_1 => cases h
        case h_2 start hkind =>
          have hstart := moves_u16 b _ _ _ hkind
          have hrest := ((moves_typeIndex b).then fun _ =>
            (moves_padding b _).then fun _ => ih _ _) _ _ _ h
          exact ⟨by omega, hrest.2⟩
        case h_3 =>
          exact (hpart.then fun _ =>
            (moves_padding b _).then fun _ => ih _ _) _ _ _ h
      · rw [readFieldList_of_end (Nat.not_lt.1 hmore)] at h
        cases h
        exact ⟨Nat.le_refl _, _, _, rfl⟩

-- ============================================================== records

theorem readWithin_fits (hpart : Moves (readWithin b bound))
    (h : (readWithin b (bound + 1)).run place = .ok (record, next)) :
    ∃ kind start, (u16 b).run place = .ok (kind, start) ∧ start ≤ next
      ∧ record.Fits kind := by
  unfold readWithin at h
  obtain ⟨kind, start, hkind, h⟩ := run_bind_eq_ok_iff.1 h
  refine ⟨kind, start, hkind, (?_ : Takes 0 (Fits kind) _) _ _ _ h⟩
  split
  case h_12 | h_13 =>
    exact (moves_typeIndex b).then fun _ => (moves_skip b 2).map fun _ => trivial
  case h_20 => exact (moves_methodList b _).map fun _ => trivial
  case h_21 =>
    apply (takes_readFieldList hpart _ _ _).mono (Nat.le_refl 0)
    rintro _ ⟨list, next, rfl⟩
    rfl
  case h_22 =>
    apply (takes_readMember b).mono (Nat.le_refl 0)
    rintro _ ⟨m, rfl⟩
    exact .inl rfl
  case h_23 =>
    apply (takes_readMember b).mono (Nat.le_refl 0)
    rintro _ ⟨m, rfl⟩
    exact .inr rfl
  all_goals simp

/-- A record is no shorter than its kind. -/
theorem takes_readWithin (bound : Nat) :
    Takes 2 (fun _ => True) (readWithin b bound) := by
  induction bound with
  | zero => exact takes_throw _
  | succ bound ih =>
      intro place record next h
      obtain ⟨kind, start, hkind, hle, -⟩ := readWithin_fits ih.moves h
      have hstart := takes_number b 2 _ _ _ hkind
      exact ⟨by omega, trivial⟩

end TypeRecord

end SymbolGraph.Pdb
