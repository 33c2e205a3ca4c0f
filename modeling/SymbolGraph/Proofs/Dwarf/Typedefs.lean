/-
Typedefs. Before a typedef is described its target is looked at: the typedef of
a function signature has none. That look goes through the qualifiers of the
target, and if it finds nothing behind them, the typedef itself is lost, though
it would be stored without an alias if its target were only impossible to build.
So a typedef is in the graph just if it has no target or something stands behind
its target (`graphOf_typedef`); an alias of qualified void is not.
-/
import SymbolGraph.Proofs.Dwarf.Parts

namespace SymbolGraph.Dwarf

open Build

namespace Unit

variable {u : Unit} {e : Entry} {n offset target : Nat}

-- =============================================================== targets

theorem aliasTarget_of_none
    (h : (e.reference Attr.type).run.value = .ok none) :
    (u.aliasTarget e).run.value = .ok none := by
  unfold aliasTarget
  rw [value_bind_of_ok (a := none)]
  · rfl
  · rw [Attempt.describing_value, h]
    rfl

theorem reference?_of_aliasTarget
    (h : (u.aliasTarget e).run.value = .ok (some target)) :
    (e.reference? Attr.type).value = some target := by
  unfold aliasTarget at h
  rw [value_bind_eq_ok_iff] at h
  obtain ⟨found, hfound, h⟩ := h
  have hread : (e.reference Attr.type).run.value = .ok found :=
    eq_ok_of_mapError hfound
  rw [Entry.reference?_value, hread]
  cases found with
  | none => cases h
  | some handle =>
      dsimp only at h
      simp only [value_bind_eq_ok_iff] at h
      obtain ⟨_, -, aliased, -, h⟩ := h
      split at h
      case isTrue => cases h
      case isFalse =>
        cases h
        rfl

/-- What stands behind the qualifiers of a target decides what the typedef is
an alias of. -/
theorem aliasTarget_eq_ok_iff
    (h : (e.reference Attr.type).run.value = .ok (some target))
    {found : Option Nat} :
    (u.aliasTarget e).run.value = .ok found
      ↔ ∃ n < chainBound, ∃ offset a, u.Leads n target offset a
        ∧ found = if a.tag = Tag.subroutineType then none else some target := by
  have hreference : (e.reference Attr.type).describing.run.value
      = .ok (some target) := by
    rw [Attempt.describing_value, h]
    rfl
  unfold aliasTarget
  rw [value_bind_of_ok hreference]
  dsimp only
  rw [value_bind_eq_ok_iff]
  -- behind the qualifiers there is an entry, and its tag decides
  have hlook : ∀ {n offset : Nat} {a : Entry}, u.Leads n target offset a →
      (do
        let aliased ← (u.typeEntry offset : Except TypeFault Entry)
        if aliased.tag = Tag.subroutineType then return none
        else return some target : Describing (Option Nat)).run.value
      = .ok (if a.tag = Tag.subroutineType then none else some target) := by
    intro n offset a hleads
    rw [hleads.typeEntry]
    show (if a.tag = Tag.subroutineType then pure none else pure (some target)
      : Describing (Option Nat)).run.value = _
    split <;> rfl
  constructor
  · rintro ⟨offset, hoffset, hfound⟩
    obtain ⟨n, hn, a, hleads⟩ := unqualified_eq_ok_iff.1 hoffset
    rw [hlook hleads] at hfound
    cases hfound
    exact ⟨n, hn, offset, a, hleads, rfl⟩
  · rintro ⟨n, hn, offset, a, hleads, rfl⟩
    exact ⟨offset, hleads.unqualified hn, hlook hleads⟩

theorem shape_of_typedef (h : e.tag = Tag.typedef) :
    (u.shape offset e).run.value
      = (u.aliasTarget e).run.value.map fun target => (0, .typedef target) := by
  have hshape : u.shape offset e = (do
      return (0, .typedef (← u.aliasTarget e))) := by
    unfold shape
    dsimp only
    rw [h]
    rfl
  rw [hshape]
  cases hfound : (u.aliasTarget e).run.value with
  | error fault => exact value_bind_of_error hfound _
  | ok found => exact value_bind_of_ok hfound _

/-- A function signature is no type. -/
theorem not_resolves_of_signature {handle : Nat}
    (h : u.Leads n handle offset e) (htag : e.tag = Tag.subroutineType)
    (id : UInt32) : ¬ u.source.Resolves handle id := by
  intro hres
  obtain ⟨n', hn', offset', e', hleads⟩ := exists_leads_of_resolves hres
  obtain ⟨rfl, rfl⟩ := h.unique hleads
  obtain ⟨-, -, found, hfound⟩ := (hleads.resolves_iff hn').1 hres
  unfold shape at hfound
  dsimp only at hfound
  rw [htag] at hfound
  cases hfound

/-- A typedef can be described just if something stands behind its target. -/
theorem exists_aliasTarget_iff {found : Option Nat}
    (h : (e.reference Attr.type).run.value = .ok found) :
    (∃ target, (u.aliasTarget e).run.value = .ok target)
      ↔ ∀ handle, found = some handle →
        ∃ n < chainBound, ∃ offset a, u.Leads n handle offset a := by
  cases found with
  | none => exact ⟨fun _ => nofun, fun _ => ⟨none, aliasTarget_of_none h⟩⟩
  | some handle =>
      constructor
      · rintro ⟨_, htarget⟩ _ ⟨⟩
        obtain ⟨n, hn, offset, a, hleads, -⟩ :=
          (aliasTarget_eq_ok_iff h).1 htarget
        exact ⟨n, hn, offset, a, hleads⟩
      · intro hall
        obtain ⟨n, hn, offset, a, hleads⟩ := hall handle rfl
        exact ⟨_, (aliasTarget_eq_ok_iff h).2 ⟨n, hn, offset, a, hleads, rfl⟩⟩

-- ============================================================== typedefs

/-- What is stored for a typedef says what was found for its target. -/
theorem PartOf.exists_aliasTarget {data : ByteArray} {image : Object.Image}
    {g : Graph} (hu : u.PartOf data image g) {handle : Nat}
    (hleads : u.Leads n handle offset e) (hn : n < chainBound)
    (htag : e.tag = Tag.typedef) {id : UInt32}
    (hid : (u.idAt offset).value = some id) {t : TypeSymbol}
    (ht : g.types.get? id = some t) :
    ∃ found, (u.aliasTarget e).run.value = .ok found
      ∧ t.kind = .typedef ∧ t.name = (u.name? e).getD ""
      ∧ (found = none → t.aliasOf = 0 ∧ t.length = 0)
      ∧ ∀ handle, found = some handle →
        ((∀ a, ¬ u.source.Resolves handle a) → t.aliasOf = 0 ∧ t.length = 0)
        ∧ ∀ a, u.source.Resolves handle a → t.aliasOf = a := by
  have hk : u.header.Covers id :=
    covers_of_typeId ((hleads.typeId_eq_some_iff hn).2 hid)
  obtain ⟨_, node, answers, b, hnode, hanswers, hrenumbered⟩ :=
    hu.recorded hk ht
  obtain ⟨length, shape, hshape, rfl⟩ := (hleads.describes_iff hn hid).1 hnode
  rw [shape_of_typedef htag] at hshape
  cases hfound : (u.aliasTarget e).run.value with
  | error fault =>
      rw [hfound] at hshape
      cases hshape
  | ok found =>
      rw [hfound] at hshape
      cases hshape
      have hkind : (symbolOf id ⟨u.name? e, UInt64.ofNat 0, .typedef found⟩
          answers b).kind = .typedef := (symbolOf_kind_of_typedef rfl).1
      have hname : (symbolOf id ⟨u.name? e, UInt64.ofNat 0, .typedef found⟩
          answers b).name = (u.name? e).getD "" :=
        (symbolOf_kind_of_typedef rfl).2
      -- only pointers are renumbered
      have hsame : t = symbolOf id
          ⟨u.name? e, UInt64.ofNat 0, .typedef found⟩ answers b := by
        cases hrenumbered with
        | pointer hpointer _ => cases hkind.symm.trans hpointer
        | other _ => rfl
      refine ⟨found, rfl, hsame ▸ hkind, hsame ▸ hname, ?_, ?_⟩
      · rintro rfl
        rw [hsame]
        exact (symbolOf_of_no_target rfl).symm
      · rintro handle rfl
        obtain ⟨answer, rfl, hanswer⟩ := answers_of_typedef rfl hanswers
        constructor
        · intro hlost
          cases hanswer.unique (Source.answers_none hlost)
          rw [hsame]
          exact (symbolOf_of_lost_target rfl).symm
        · intro a hres
          cases hanswer.unique hres.answers
          rw [hsame]
          exact symbolOf_aliasOf_of_target rfl

/-- A typedef of the walk is stored just if a target is found for it. -/
theorem PartOf.contains_typedef_iff {data : ByteArray} {image : Object.Image}
    {g : Graph} (hu : u.PartOf data image g) (he : e ∈ u.entries.1)
    (htag : e.tag = Tag.typedef) (hdefined : e.isSet Attr.declaration = false)
    {id : UInt32} (hid : (u.idAt e.offset).value = some id) :
    g.types.contains id = true
      ↔ ∃ found, (u.aliasTarget e).run.value = .ok found := by
  have htype : Tag.isType e.tag = true := by rw [htag]; rfl
  constructor
  · intro hcontains
    obtain ⟨t, ht⟩ := Table.contains_iff.1 hcontains
    obtain ⟨found, hfound, -⟩ := hu.exists_aliasTarget
      (leads_of_mem_entries (Nat.le_of_lt hu.start_lt_entries) he htype)
      (by decide) htag hid ht
    exact ⟨found, hfound⟩
  · rintro ⟨found, hfound⟩
    have hshape : (u.shape e.offset e).run.value
        = .ok (0, .typedef found) := by
      rw [shape_of_typedef htag, hfound]
      rfl
    exact hu.contains_of_shape he htype hdefined hid hshape

/-- A typedef of a unit whose walk comes to its end, and which is not only
declared. It is stored if and only if it has no target in its unit, or there is
an entry behind less than 32 qualifiers of its target. What is stored is a
typedef. Without a target, or if that is a function signature or cannot be built
for another reason, it is an alias of nothing and has no length; otherwise it is
an alias of its target. -/
theorem graphOf_typedef {data : ByteArray} {image : Object.Image} {g : Graph}
    (hu : u.PartOf data image g) (hwalk : u.entries.2 = none)
    (he : e ∈ u.entries.1) (htag : e.tag = Tag.typedef)
    (hdefined : e.isSet Attr.declaration = false) {id : UInt32}
    (hid : (u.idAt e.offset).value = some id) :
    let target := (e.reference? Attr.type).value
    (g.types.contains id = true ↔ ∀ handle, target = some handle →
        ∃ n < chainBound, ∃ offset a, u.Leads n handle offset a)
      ∧ ∀ t, g.types.get? id = some t →
        t.kind = .typedef ∧ t.name = (u.name? e).getD ""
        ∧ (target = none → t.aliasOf = 0 ∧ t.length = 0)
        ∧ ∀ handle, target = some handle →
          (∀ n offset a, u.Leads n handle offset a →
            a.tag = Tag.subroutineType → t.aliasOf = 0 ∧ t.length = 0)
          ∧ ((∀ a, ¬ u.source.Resolves handle a) →
            t.aliasOf = 0 ∧ t.length = 0)
          ∧ ∀ a, u.source.Resolves handle a → t.aliasOf = a := by
  intro target
  obtain ⟨next, hnext⟩ := next_of_mem_entriesFrom hwalk he
  have hreference : (e.reference Attr.type).run.value = .ok target :=
    Entry.reference_of_next hnext Attr.type
  have hleads : u.Leads 0 e.offset e.offset e :=
    leads_of_mem_entries (Nat.le_of_lt hu.start_lt_entries) he
      (by rw [htag]; rfl)
  constructor
  · rw [hu.contains_typedef_iff he htag hdefined hid]
    exact exists_aliasTarget_iff hreference
  · intro t ht
    obtain ⟨found, hfound, hkind, hname, hnone, hsome⟩ :=
      hu.exists_aliasTarget hleads (by decide) htag hid ht
    refine ⟨hkind, hname, fun htarget => ?_, fun handle htarget => ?_⟩
    · rw [htarget] at hreference
      rw [aliasTarget_of_none hreference] at hfound
      cases hfound
      exact hnone rfl
    · rw [htarget] at hreference
      obtain ⟨n, hn, offset, a, hleads, rfl⟩ :=
        (aliasTarget_eq_ok_iff hreference).1 hfound
      by_cases hsignature : a.tag = Tag.subroutineType
      · rw [if_pos hsignature] at hnone
        refine ⟨fun _ _ _ _ _ => hnone rfl, fun _ => hnone rfl,
          fun j hres => ?_⟩
        exact absurd hres (not_resolves_of_signature hleads hsignature j)
      · rw [if_neg hsignature] at hsome
        obtain ⟨hlost, hres⟩ := hsome handle rfl
        refine ⟨fun n' offset' a' hleads' htag' => ?_, hlost, hres⟩
        obtain ⟨-, rfl⟩ := hleads.unique hleads'
        exact absurd htag' hsignature

/-- A qualifier of void, a typedef of it, and a typedef of void itself. -/
def voidTypedefs : ByteArray := ⟨#[
  1, 0x11, 1, 0, 0, 2, 0x26, 0, 0, 0, 3, 0x16, 0, 3, 8, 0x49, 0x13, 0, 0,
  4, 0x16, 0, 3, 8, 0, 0, 0,
  21, 0, 0, 0, 4, 0, 0, 0, 0, 0, 8,
  1, 2, 3, 0x63, 0x76, 0, 12, 0, 0, 0, 4, 0x76, 0, 0]⟩

def voidImage : Object.Image where
  architecture := .x86_64
  order := .little
  sections := [
    { name := some (Bytes.ascii ".debug_abbrev"), body := .plain 0 27 },
    { name := some (Bytes.ascii ".debug_info"), body := .plain 27 25 }]

/-- Of the two typedefs only that of void itself is stored. -/
theorem graphOf_typedef_voidTypedefs :
    ∃ (g : Graph) (u : Unit), u.PartOf voidTypedefs voidImage g
      ∧ u.entries.2 = none
      ∧ g.types.keys = [21]
      ∧ ∃ e ∈ u.entries.1, e.tag = Tag.typedef
        ∧ e.isSet Attr.declaration = false
        ∧ (u.idAt e.offset).value = some 13
        ∧ (e.reference? Attr.type).value = some 12
        ∧ ¬ ∃ n < chainBound, ∃ offset a, u.Leads n 12 offset a := by
  have hread := PartOf.exists_of_mem voidTypedefs voidImage
    (fun g u => u.entries.2 = none ∧ g.types.keys = [21]
      ∧ ∃ e ∈ u.entries.1, e.tag = Tag.typedef
        ∧ e.isSet Attr.declaration = false
        ∧ (u.idAt e.offset).value = some 13
        ∧ (e.reference? Attr.type).value = some 12) (by decide +kernel)
  obtain ⟨g, u, hu, hwalk, hkeys, e, he, htag, hdefined, hid, htarget⟩ := hread
  refine ⟨g, u, hu, hwalk, hkeys, e, he, htag, hdefined, hid, htarget, ?_⟩
  intro hleads
  have hcontains : g.types.contains 13 = true :=
    (graphOf_typedef hu hwalk he htag hdefined hid).1.2 fun handle hhandle => by
      cases htarget.symm.trans hhandle
      exact hleads
  rw [← Table.mem_keys, hkeys] at hcontains
  exact absurd hcontains (by decide)

end Unit

end SymbolGraph.Dwarf
