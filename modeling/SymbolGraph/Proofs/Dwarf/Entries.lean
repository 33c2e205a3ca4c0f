/-
What the entries of a unit come to as types. A handle leads through qualifiers
to an entry that is none (`Unit.Leads`), within a bound on their number, and
what the handle is known as and described by is told by that entry alone
(`Unit.resolves_iff`). An entry of a walk that comes to its end has no attribute
that cannot be read, so its references are plain (`Entry.reference_of_next`).
-/
import SymbolGraph.Proofs.Handles
import SymbolGraph.Proofs.Build.Reach

namespace SymbolGraph.Dwarf

-- ========================================================== references

namespace Entry

variable {e : Entry} {name : Nat}

/-- The reference of an attribute, if its value is one. -/
theorem reference_value (e : Entry) (name : Nat) :
    (e.reference name).run.value
      = (e.attribute? name).map fun
        | some (.unitReference offset) => some offset
        | _ => none := by
  unfold reference
  cases hvalue : e.attribute? name with
  | error fault => rw [value_bind_of_error rfl]; rfl
  | ok found =>
      rw [value_bind_of_ok rfl]
      cases found with
      | none => rfl
      | some v => cases v <;> rfl

theorem reference?_value (e : Entry) (name : Nat) :
    (e.reference? name).value = (e.reference name).run.value.toOption.join := rfl

/-- With all attributes read, no reference fails. -/
theorem reference_of_next {next : Nat} (h : e.next = .ok next) (name : Nat) :
    (e.reference name).run.value = .ok (e.reference? name).value := by
  rw [reference?_value, reference_value]
  unfold attribute?
  rw [h]
  cases e.attributes.lookup name <;> rfl

/-- A reference that is found was read. -/
theorem reference_of_reference? {target : Nat}
    (h : (e.reference? name).value = some target) :
    (e.reference name).run.value = .ok (some target) := by
  rw [reference?_value] at h
  cases hread : (e.reference name).run.value with
  | error fault =>
      rw [hread] at h
      cases h
  | ok found =>
      rw [hread] at h
      exact congrArg Except.ok h

end Entry

theorem Attempt.describing_value {α : Type} (a : Attempt α) :
    a.describing.run.value = a.run.value.mapError TypeFault.unreadable := rfl

-- ================================================================ chains

/-- A type that is wanted for itself is no qualifier. -/
theorem Tag.isQualifier_of_isType {tag : Nat} (h : Tag.isType tag = true) :
    Tag.isQualifier tag = false := by
  unfold Tag.isType at h
  simp only [List.contains_iff_mem, List.mem_cons, List.not_mem_nil, or_false]
    at h
  rcases h with rfl | rfl | rfl | rfl | rfl | rfl | rfl | rfl | rfl | rfl | rfl
    | rfl | rfl <;> rfl

namespace Unit

/-- The handle leads through so many qualifiers to the entry at the offset,
which is none. -/
inductive Leads (u : Unit) : Nat → Nat → Nat → Entry → Prop
  | plain {offset : Nat} {e : Entry} : u.typeEntry offset = .ok e →
      Tag.isQualifier e.tag = false → Leads u 0 offset offset e
  | qualified {n handle target offset : Nat} {q e : Entry} :
      u.typeEntry handle = .ok q → Tag.isQualifier q.tag = true →
      (q.reference Attr.type).run.value = .ok (some target) →
      Leads u n target offset e → Leads u (n + 1) handle offset e

variable {u : Unit} {n handle offset : Nat} {e : Entry} {id : UInt32}

theorem Leads.typeEntry (h : u.Leads n handle offset e) :
    u.typeEntry offset = .ok e := by
  induction h with
  | plain he _ => exact he
  | qualified _ _ _ _ ih => exact ih

/-- A chain of qualifiers is looked through if it is shorter than the bound. -/
theorem unqualifiedWithin_eq_ok_iff {bound : Nat} :
    (u.unqualifiedWithin bound handle).run.value = .ok offset
      ↔ ∃ n < bound, ∃ e, u.Leads n handle offset e := by
  induction bound generalizing handle with
  | zero => exact ⟨nofun, nofun⟩
  | succ bound ih =>
      unfold unqualifiedWithin
      rw [value_bind_eq_ok_iff]
      constructor
      · rintro ⟨q, hq, h⟩
        split at h
        case isTrue hqualifier =>
          rw [value_bind_eq_ok_iff] at h
          obtain ⟨target, htarget, h⟩ := h
          cases target with
          | none => cases h
          | some target =>
              obtain ⟨n, hn, e, hleads⟩ := ih.1 h
              exact ⟨n + 1, Nat.succ_lt_succ hn, e, .qualified hq hqualifier
                (eq_ok_of_mapError htarget) hleads⟩
        case isFalse hplain =>
          cases h
          exact ⟨0, Nat.succ_pos _, q, .plain hq (Bool.eq_false_iff.2 hplain)⟩
      · rintro ⟨n, hn, e, hleads⟩
        cases hleads with
        | plain he hplain =>
            refine ⟨e, he, ?_⟩
            rw [if_neg (Bool.eq_false_iff.1 hplain)]
            rfl
        | @qualified n _ target _ q _ hq hqualifier htarget hleads =>
            refine ⟨q, hq, ?_⟩
            rw [if_pos hqualifier, value_bind_eq_ok_iff]
            refine ⟨some target, ?_,
              ih.2 ⟨n, Nat.lt_of_succ_lt_succ hn, e, hleads⟩⟩
            rw [Attempt.describing_value, htarget]
            rfl

/-- A handle leads to one entry. -/
theorem Leads.unique {n' offset' : Nat} {e' : Entry}
    (h : u.Leads n handle offset e) (h' : u.Leads n' handle offset' e') :
    offset = offset' ∧ e = e' := by
  induction h generalizing n' with
  | plain he hplain =>
      cases h' with
      | plain he' _ => exact ⟨rfl, Except.ok.inj (he.symm.trans he')⟩
      | qualified hq hqualifier _ _ =>
          cases he.symm.trans hq
          cases hplain.symm.trans hqualifier
  | qualified hq hqualifier htarget _ ih =>
      cases h' with
      | plain he' hplain =>
          cases hq.symm.trans he'
          cases hplain.symm.trans hqualifier
      | qualified hq' _ htarget' hleads' =>
          cases hq.symm.trans hq'
          cases htarget.symm.trans htarget'
          exact ih hleads'

-- ================================================================= types

theorem unqualified_eq_ok_iff :
    (u.unqualified handle).run.value = .ok offset
      ↔ ∃ n < chainBound, ∃ e, u.Leads n handle offset e :=
  unqualifiedWithin_eq_ok_iff

theorem Leads.unqualified (h : u.Leads n handle offset e)
    (hn : n < chainBound) : (u.unqualified handle).run.value = .ok offset :=
  unqualified_eq_ok_iff.2 ⟨n, hn, e, h⟩

theorem Leads.typeId_eq_some_iff (h : u.Leads n handle offset e)
    (hn : n < chainBound) :
    (u.typeId handle).value = some id ↔ (u.idAt offset).value = some id := by
  rw [Unit.typeId_eq_some_iff, h.unqualified hn]
  constructor
  · rintro ⟨_, ⟨⟩, hid⟩
    exact hid
  · exact fun hid => ⟨offset, rfl, hid⟩

/-- The node of a type is made of the entry that its handle leads to. -/
theorem Leads.describe_eq_ok_iff (h : u.Leads n handle offset e)
    (hn : n < chainBound) {node : Node Nat} :
    (u.describe handle).run.value = .ok node
      ↔ ∃ length shape, (u.shape offset e).run.value = .ok (length, shape)
        ∧ node = ⟨u.name? e, UInt64.ofNat length, shape⟩ := by
  unfold describe
  rw [value_bind_of_ok (h.unqualified hn)]
  have hentry : (liftM (u.typeEntry offset) : Describing Entry).run.value
      = .ok e := by
    rw [h.typeEntry]
    rfl
  rw [value_bind_of_ok hentry, value_bind_eq_ok_iff]
  constructor
  · rintro ⟨⟨length, shape⟩, hshape, hnode⟩
    rw [value_bind_eq_ok_iff] at hnode
    obtain ⟨_, -, hnode⟩ := hnode
    cases hnode
    exact ⟨length, shape, hshape, rfl⟩
  · rintro ⟨length, shape, hshape, rfl⟩
    exact ⟨_, hshape, rfl⟩

/-- Handles of one type are described alike, whatever was asked before. -/
theorem consistent_source (u : Unit) : u.source.Consistent := by
  intro handle handle' id st st' hid hid'
  show (u.describe handle).run.value.toOption
    = (u.describe handle').run.value.toOption
  rw [describe_of_unqualified (unqualified_of_typeId hid hid')]

theorem Leads.describes_iff (h : u.Leads n handle offset e)
    (hn : n < chainBound) (hid : (u.idAt offset).value = some id)
    {node : Node Nat} :
    u.source.Describes id node
      ↔ ∃ length shape, (u.shape offset e).run.value = .ok (length, shape)
        ∧ node = ⟨u.name? e, UInt64.ofNat length, shape⟩ := by
  have hid' : (u.source.typeId handle).value = some id :=
    (h.typeId_eq_some_iff hn).2 hid
  rw [← h.describe_eq_ok_iff hn]
  constructor
  · exact fun hnode => u.consistent_source.describe_eq hnode hid' ⟨⟩
  · exact fun hnode => ⟨handle, ⟨⟩, hid', hnode⟩

theorem Leads.resolves_iff (h : u.Leads n handle offset e)
    (hn : n < chainBound) :
    u.source.Resolves handle id ↔ (u.idAt offset).value = some id ∧ id ≠ 0
      ∧ ∃ found, (u.shape offset e).run.value = .ok found := by
  have hnode : (∃ st node, (u.source.describe handle st).value.1 = .ok node)
      ↔ ∃ found, (u.shape offset e).run.value = .ok found := by
    constructor
    · rintro ⟨_, node, hnode⟩
      obtain ⟨_, _, hshape, -⟩ := (h.describe_eq_ok_iff hn).1 hnode
      exact ⟨_, hshape⟩
    · rintro ⟨found, hshape⟩
      exact ⟨⟨⟩, _, (h.describe_eq_ok_iff hn).2 ⟨_, _, hshape, rfl⟩⟩
  unfold Source.Resolves
  rw [hnode]
  exact and_congr_left' (h.typeId_eq_some_iff hn)

/-- What resolves leads to an entry. -/
theorem exists_leads_of_resolves (h : u.source.Resolves handle id) :
    ∃ n < chainBound, ∃ offset e, u.Leads n handle offset e := by
  obtain ⟨offset, hoffset, -⟩ := Unit.typeId_eq_some_iff.1 h.1
  obtain ⟨n, hn, e, hleads⟩ := unqualified_eq_ok_iff.1 hoffset
  exact ⟨n, hn, offset, e, hleads⟩

-- ============================================================= the walk

theorem leads_of_mem_entries (hentries : u.header.start ≤ u.header.entries)
    (he : e ∈ u.entries.1) (htag : Tag.isType e.tag = true) :
    u.Leads 0 e.offset e.offset e :=
  .plain (typeEntry_of_mem_entries hentries he)
    (Tag.isQualifier_of_isType htag)

/-- No entry stands where the section begins. -/
theorem ne_zero_of_idAt (hentries : u.header.start < u.header.entries)
    (he : u.typeEntry offset = .ok e) (hid : (u.idAt offset).value = some id) :
    id ≠ 0 := by
  have hholds := holds_of_typeEntry he
  unfold holds at hholds
  rw [Bool.and_eq_true, decide_eq_true_eq] at hholds
  have hplace : id.toNat = u.header.start + offset := toNat_of_idAt hid
  rintro rfl
  have hzero : (0 : UInt32).toNat = 0 := rfl
  omega

end Unit

end SymbolGraph.Dwarf
