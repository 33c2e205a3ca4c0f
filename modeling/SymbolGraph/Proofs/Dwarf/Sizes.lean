/-
Sizes. The length of an array is computed from the size of its elements, and
that size is not taken from the symbol of the element type: it is computed a
second time, along the references of the unit and under a bound. The two
computations agree where an entry has a size that both take from it, and where
they go on in the same way (`Unit.Agrees`). They do not agree on all entries: an
enumeration without a size is four octets long as a symbol, and none as an
element.

Where they agree the bound is not felt (`sizeWithin_of_agrees`), and sizes fit
in 64 bits, since the constants of a unit do. So an array is as long as all its
elements, as far as its dimensions tell their number (`graphOf_array`).
-/
import SymbolGraph.Proofs.Dwarf.Dimensions
import SymbolGraph.Proofs.Dwarf.Typedefs

namespace SymbolGraph.Dwarf

theorem Tag.eq_of_aggregate? {tag : Nat} {kind : TypeKind}
    (h : aggregate? tag = some kind) :
    tag = structureType ∨ tag = classType ∨ tag = unionType
      ∨ tag = interfaceType := by
  unfold aggregate? at h
  split_ifs at h with h₁ h₂ h₃ h₄
  · exact .inl h₁
  · exact .inr (.inl h₂)
  · exact .inr (.inr (.inl h₃))
  · exact .inr (.inr (.inr h₄))

theorem Tag.eq_of_isPointer {tag : Nat} (h : isPointer tag = true) :
    tag = pointerType ∨ tag = referenceType ∨ tag = rvalueReferenceType
      ∨ tag = pointerToMemberType := by
  unfold isPointer at h
  simpa only [List.contains_iff_mem, List.mem_cons, List.not_mem_nil, or_false]
    using h

theorem Tag.isPointer_of_isQualifier {tag : Nat}
    (h : isQualifier tag = true) : isPointer tag = false := by
  unfold isQualifier at h
  simp only [List.contains_iff_mem, List.mem_cons, List.not_mem_nil, or_false]
    at h
  rcases h with rfl | rfl | rfl | rfl | rfl <;> rfl

namespace Unit

open Relation (TransGen)
open Build

variable {u : Unit} {e : Entry} {handle n m : Nat}

-- =============================================================== sizes

theorem arraySize_value (u : Unit) (size : Nat → Logged Nat) (e : Entry) :
    (u.arraySize size e).value
      = min ((match (e.reference? Attr.type).value with
          | some target => (size target).value
          | none => 0) * u.elements e.offset) longest := by
  rw [← times_min_right, ← elementCount_eq]
  unfold arraySize
  rw [Logged.value_bind]
  cases (e.reference? Attr.type).value <;> rfl

/-- Both computations take this size from the entry itself. -/
inductive OwnSize (u : Unit) (e : Entry) : Nat → Prop
  | base : e.tag = Tag.baseType → OwnSize u e (e.byteSize?.getD 0)
  | aggregate {kind : TypeKind} : Tag.aggregate? e.tag = some kind →
      OwnSize u e (e.byteSize?.getD 0)
  | pointer : Tag.isPointer e.tag = true →
      OwnSize u e (e.byteSize?.getD u.encoding.addressSize)
  | enum {size : Nat} : e.tag = Tag.enumerationType →
      e.byteSize? = some size → OwnSize u e size
  | array {size : Nat} : e.tag = Tag.arrayType → e.byteSize? = some size →
      OwnSize u e size
  | unspecified : e.tag = Tag.unspecifiedType → e.byteSize? = none →
      OwnSize u e 0

/-- On the way from a type, through so many typedefs, qualifiers and arrays at
most, the two computations of its size agree. -/
inductive Agrees (u : Unit) : Nat → Nat → Prop
  /-- The entry gives the size. -/
  | own {n handle size : Nat} {e : Entry} : u.typeEntry handle = .ok e →
      OwnSize u e size → Agrees u n handle
  /-- An array without an element type is empty. -/
  | empty {n handle : Nat} {e : Entry} : u.typeEntry handle = .ok e →
      e.tag = Tag.arrayType → e.byteSize? = none →
      (e.reference? Attr.type).value = none → Agrees u n handle
  | array {n handle target : Nat} {e : Entry} : u.typeEntry handle = .ok e →
      e.tag = Tag.arrayType → e.byteSize? = none →
      (e.reference? Attr.type).value = some target →
      Agrees u n target → Agrees u (n + 1) handle
  | qualified {n handle target : Nat} {e : Entry} :
      u.typeEntry handle = .ok e → Tag.isQualifier e.tag = true →
      e.byteSize? = none → (e.reference? Attr.type).value = some target →
      Agrees u n target → Agrees u (n + 1) handle
  /-- An alias of void has no size. -/
  | void {n handle : Nat} {e : Entry} : u.typeEntry handle = .ok e →
      e.tag = Tag.typedef → e.byteSize? = none →
      (e.reference? Attr.type).value = none → Agrees u n handle
  /-- Nor has an alias of what cannot be built, which must have none. -/
  | lost {n handle target : Nat} {e : Entry} : u.typeEntry handle = .ok e →
      e.tag = Tag.typedef → e.byteSize? = none →
      (e.reference? Attr.type).value = some target →
      (∀ a, ¬ u.source.Resolves target a) →
      (∀ bound, (u.sizeWithin bound target).value = 0) → Agrees u n handle
  /-- An alias is as long as its target, unless that depends on itself. -/
  | aliasing {n handle target : Nat} {e : Entry} {a : UInt32} :
      u.typeEntry handle = .ok e →
      e.tag = Tag.typedef → e.byteSize? = none →
      (e.reference? Attr.type).value = some target →
      u.source.Resolves target a → ¬ TransGen u.source.DependsOn a a →
      Agrees u n target → Agrees u (n + 1) handle

-- ================================================================ bounds

theorem sizeWithin_value (he : u.typeEntry handle = .ok e) (bound : Nat) :
    (u.sizeWithin (bound + 1) handle).value
      = match e.byteSize? with
        | some size => size
        | none =>
          if Tag.isPointer e.tag then u.encoding.addressSize
          else if e.tag = Tag.typedef || Tag.isQualifier e.tag then
            match (e.reference? Attr.type).value with
            | some target => (u.sizeWithin bound target).value
            | none => 0
          else if e.tag = Tag.arrayType then
            (u.arraySize (u.sizeWithin bound) e).value
          else 0 := by
  rw [sizeWithin, he]
  dsimp only
  cases e.byteSize? with
  | some size => rfl
  | none =>
      dsimp only
      split
      case isTrue => rfl
      case isFalse =>
        split
        case isTrue =>
          rw [Logged.value_bind]
          cases (e.reference? Attr.type).value <;> rfl
        case isFalse => split <;> rfl

theorem sizeWithin_of_reference (he : u.typeEntry handle = .ok e)
    (hsize : e.byteSize? = none)
    (htag : e.tag = Tag.typedef ∨ Tag.isQualifier e.tag = true) (bound : Nat) :
    (u.sizeWithin (bound + 1) handle).value
      = match (e.reference? Attr.type).value with
        | some target => (u.sizeWithin bound target).value
        | none => 0 := by
  have hpointer : ¬ Tag.isPointer e.tag = true := by
    rw [Bool.not_eq_true]
    rcases htag with htag | htag
    · rw [htag]
      rfl
    · exact Tag.isPointer_of_isQualifier htag
  have hfollow : (decide (e.tag = Tag.typedef) || Tag.isQualifier e.tag)
      = true := by
    rw [Bool.or_eq_true, decide_eq_true_eq]
    exact htag
  rw [sizeWithin_value he, hsize]
  dsimp only
  rw [if_neg hpointer, if_pos hfollow]

theorem sizeWithin_of_array (he : u.typeEntry handle = .ok e)
    (hsize : e.byteSize? = none) (htag : e.tag = Tag.arrayType) (bound : Nat) :
    (u.sizeWithin (bound + 1) handle).value
      = (u.arraySize (u.sizeWithin bound) e).value := by
  rw [sizeWithin_value he, hsize, htag]
  rfl

theorem sizeWithin_of_ownSize {size : Nat} (he : u.typeEntry handle = .ok e)
    (hsize : OwnSize u e size) (bound : Nat) :
    (u.sizeWithin (bound + 1) handle).value = size := by
  rw [sizeWithin_value he]
  cases hsize with
  | base htag =>
      rw [htag]
      cases e.byteSize? <;> rfl
  | aggregate hkind =>
      rcases Tag.eq_of_aggregate? hkind with htag | htag | htag | htag
      all_goals
        rw [htag]
        cases e.byteSize? <;> rfl
  | pointer htag =>
      rw [if_pos htag]
      cases e.byteSize? <;> rfl
  | enum _ hgiven => rw [hgiven]
  | array _ hgiven => rw [hgiven]
  | unspecified htag hnone =>
      rw [htag, hnone]
      rfl

theorem length_of_ownSize {size length : Nat} {shape : Shape Nat}
    (hsize : OwnSize u e size)
    (h : (u.shape handle e).run.value = .ok (length, shape)) :
    length = size ∧ ∀ target, shape ≠ .typedef target := by
  unfold Unit.shape at h
  dsimp only at h
  cases hsize with
  | base htag =>
      rw [htag] at h
      cases h
      exact ⟨rfl, nofun⟩
  | @aggregate kind hkind =>
      have hmembers : (do
          return (e.byteSize?.getD 0, .aggregate kind (← u.members handle))
          : Describing (Nat × Shape Nat)).run.value = .ok (length, shape) := by
        rcases Tag.eq_of_aggregate? hkind with htag | htag | htag | htag
        all_goals
          rw [htag] at h hkind
          cases hkind
          exact h
      rw [value_bind_eq_ok_iff] at hmembers
      obtain ⟨members, -, hmembers⟩ := hmembers
      cases hmembers
      exact ⟨rfl, nofun⟩
  | pointer htag =>
      rcases Tag.eq_of_isPointer htag with htag | htag | htag | htag
      all_goals
        rw [htag] at h
        cases h
        exact ⟨rfl, nofun⟩
  | enum htag hgiven =>
      rw [htag, hgiven] at h
      cases h
      exact ⟨rfl, nofun⟩
  | array htag hgiven =>
      rw [htag, hgiven] at h
      cases h
      exact ⟨rfl, nofun⟩
  | unspecified htag _ =>
      rw [htag] at h
      cases h
      exact ⟨rfl, nofun⟩

/-- A bound that is large enough is not felt. -/
theorem sizeWithin_of_agrees (h : u.Agrees n handle) {bound : Nat}
    (hbound : n ≤ bound) : (u.sizeWithin (bound + 1) handle).value
      = (u.sizeWithin (n + 1) handle).value := by
  induction h generalizing bound with
  | own he hsize =>
      rw [sizeWithin_of_ownSize he hsize, sizeWithin_of_ownSize he hsize]
  | empty he htag hsize hnone =>
      rw [sizeWithin_of_array he hsize htag, sizeWithin_of_array he hsize htag,
        arraySize_value, arraySize_value, hnone]
  | array he htag hsize htarget _ ih =>
      obtain _ | bound := bound
      · cases hbound
      rw [sizeWithin_of_array he hsize htag, sizeWithin_of_array he hsize htag,
        arraySize_value, arraySize_value, htarget]
      dsimp only
      rw [ih (Nat.le_of_succ_le_succ hbound)]
  | qualified he htag hsize htarget _ ih =>
      obtain _ | bound := bound
      · cases hbound
      rw [sizeWithin_of_reference he hsize (.inr htag),
        sizeWithin_of_reference he hsize (.inr htag), htarget]
      exact ih (Nat.le_of_succ_le_succ hbound)
  | void he htag hsize hnone =>
      rw [sizeWithin_of_reference he hsize (.inl htag),
        sizeWithin_of_reference he hsize (.inl htag), hnone]
  | lost he htag hsize htarget _ hzero =>
      rw [sizeWithin_of_reference he hsize (.inl htag),
        sizeWithin_of_reference he hsize (.inl htag), htarget]
      exact (hzero _).trans (hzero _).symm
  | aliasing he htag hsize htarget _ _ _ ih =>
      obtain _ | bound := bound
      · cases hbound
      rw [sizeWithin_of_reference he hsize (.inl htag),
        sizeWithin_of_reference he hsize (.inl htag), htarget]
      exact ih (Nat.le_of_succ_le_succ hbound)

theorem byteSize_le (hfits : ∀ a ∈ u.abbreviations, a.Fits)
    (he : u.typeEntry handle = .ok e) {size : Nat}
    (hsize : e.byteSize? = some size) : size ≤ longest := by
  obtain ⟨place, hitem⟩ := exists_itemAt_of_typeEntry he
  obtain ⟨v, hv, hconstant⟩ := Option.bind_eq_some_iff.1 hsize
  exact Nat.le_of_lt_succ (fits_of_itemAt hfits hitem hv size hconstant)

/-- In a unit whose constants fit in 64 bits, sizes do. -/
theorem sizeWithin_le (hfits : ∀ a ∈ u.abbreviations, a.Fits)
    (haddress : u.encoding.addressSize ≤ 8) (bound : Nat) :
    (u.sizeWithin bound handle).value ≤ longest := by
  induction bound generalizing handle with
  | zero => exact Nat.zero_le _
  | succ bound ih =>
      cases he : u.typeEntry handle with
      | error fault =>
          rw [sizeWithin, he]
          exact Nat.zero_le _
      | ok e =>
          rw [sizeWithin_value he]
          split
          case h_1 size hsize => exact byteSize_le hfits he hsize
          case h_2 =>
            split_ifs
            · exact Nat.le_trans haddress (by decide)
            · split
              · exact ih
              · exact Nat.zero_le _
            · rw [arraySize_value]
              exact Nat.min_le_right _ _
            · exact Nat.zero_le _

-- =============================================================== symbols

theorem shape_of_array (htag : e.tag = Tag.arrayType)
    (hsize : e.byteSize? = none) :
    (u.shape handle e).run.value
      = .ok ((u.arraySize (u.sizeWithin chainBound) e).value, .array) := by
  unfold Unit.shape
  dsimp only
  rw [htag, hsize]
  rfl

theorem not_isQualifier_of_ownSize {size : Nat} (h : OwnSize u e size) :
    Tag.isQualifier e.tag = false := by
  cases h with
  | base htag => rw [htag]; rfl
  | aggregate hkind =>
      rcases Tag.eq_of_aggregate? hkind with htag | htag | htag | htag
      all_goals
        rw [htag]
        rfl
  | pointer htag =>
      rcases Tag.eq_of_isPointer htag with htag | htag | htag | htag
      all_goals
        rw [htag]
        rfl
  | enum htag _ => rw [htag]; rfl
  | array htag _ => rw [htag]; rfl
  | unspecified htag _ => rw [htag]; rfl

theorem idAt_of_typeId (he : u.typeEntry handle = .ok e)
    (hplain : Tag.isQualifier e.tag = false) {id : UInt32}
    (hid : (u.typeId handle).value = some id) :
    (u.idAt handle).value = some id :=
  ((Leads.plain he hplain).typeId_eq_some_iff (by decide)).1 hid

/-- A qualified type has the id of what it qualifies. -/
theorem typeId_of_qualified {target : Nat} (he : u.typeEntry handle = .ok e)
    (htag : Tag.isQualifier e.tag = true)
    (htarget : (e.reference? Attr.type).value = some target) {id : UInt32}
    (hid : (u.typeId handle).value = some id) :
    (u.typeId target).value = some id := by
  obtain ⟨offset, hoffset, hid⟩ := Unit.typeId_eq_some_iff.1 hid
  obtain ⟨n, hn, e', hleads⟩ := unqualified_eq_ok_iff.1 hoffset
  cases hleads with
  | plain he' hplain =>
      cases he.symm.trans he'
      cases htag.symm.trans hplain
  | qualified he' _ htarget' hleads =>
      cases he.symm.trans he'
      cases htarget'.symm.trans (Entry.reference_of_reference? htarget)
      exact (hleads.typeId_eq_some_iff (Nat.lt_of_succ_lt hn)).2 hid

namespace PartOf

variable {data : ByteArray} {image : Object.Image} {g : Graph} {id : UInt32}
  {t : TypeSymbol}

/-- But for typedefs, a stored type has the length that it was described
with. -/
theorem exists_shape (hu : u.PartOf data image g)
    (he : u.typeEntry handle = .ok e) (hplain : Tag.isQualifier e.tag = false)
    (hid : (u.typeId handle).value = some id) (ht : g.types.get? id = some t) :
    ∃ length shape, (u.shape handle e).run.value = .ok (length, shape)
      ∧ ((∀ target, shape ≠ .typedef target) →
        t.length = UInt64.ofNat length)
      ∧ (shape = .array → t.kind = .array) := by
  obtain ⟨_, node, answers, b, hnode, -, hrenumbered⟩ :=
    hu.recorded (covers_of_typeId hid) ht
  obtain ⟨length, shape, hshape, rfl⟩ :=
    ((Leads.plain he hplain).describes_iff (by decide)
      (idAt_of_typeId he hplain hid)).1 hnode
  refine ⟨length, shape, hshape, fun hother => ?_, ?_⟩
  · rw [hrenumbered.length_eq]
    cases shape with
    | typedef target => exact absurd rfl (hother target)
    | _ => rfl
  · rintro rfl
    exact hrenumbered.kind_eq

theorem of_array (hu : u.PartOf data image g)
    (he : u.typeEntry handle = .ok e) (htag : e.tag = Tag.arrayType)
    (hsize : e.byteSize? = none) (hid : (u.typeId handle).value = some id)
    (ht : g.types.get? id = some t) :
    t.kind = .array ∧ t.length = UInt64.ofNat
      (u.arraySize (u.sizeWithin chainBound) e).value := by
  obtain ⟨length, shape, hshape, hlength, hkind⟩ :=
    hu.exists_shape he (by rw [htag]; rfl) hid ht
  rw [shape_of_array htag hsize] at hshape
  cases hshape
  exact ⟨hkind rfl, hlength nofun⟩

/-- An alias of nothing that can be built has no length. -/
theorem length_of_lost (hu : u.PartOf data image g)
    (he : u.typeEntry handle = .ok e) (htag : e.tag = Tag.typedef)
    (hid : (u.typeId handle).value = some id) (ht : g.types.get? id = some t)
    (hlost : ∀ target, (e.reference? Attr.type).value = some target →
      ∀ a, ¬ u.source.Resolves target a) : t.length = 0 := by
  have hplain : Tag.isQualifier e.tag = false := by rw [htag]; rfl
  obtain ⟨found, hfound, -, -, hnone, hsome⟩ := hu.exists_aliasTarget
    (.plain he hplain) (by decide) htag (idAt_of_typeId he hplain hid) ht
  cases found with
  | none => exact (hnone rfl).2
  | some target =>
      exact ((hsome target rfl).1
        (hlost target (reference?_of_aliasTarget hfound))).2

/-- An alias is as long as its target, unless that depends on itself. -/
theorem length_of_alias (hu : u.PartOf data image g) {target : Nat}
    {a : UInt32} (he : u.typeEntry handle = .ok e) (htag : e.tag = Tag.typedef)
    (htarget : (e.reference? Attr.type).value = some target)
    (hres : u.source.Resolves target a)
    (hacyclic : ¬ TransGen u.source.DependsOn a a)
    (hid : (u.typeId handle).value = some id) (ht : g.types.get? id = some t) :
    ∃ t', g.types.get? a = some t' ∧ t.length = t'.length := by
  have hplain : Tag.isQualifier e.tag = false := by rw [htag]; rfl
  obtain ⟨n, hn, offset, a', hleads⟩ := exists_leads_of_resolves hres
  have hother : a'.tag ≠ Tag.subroutineType := fun hsignature =>
    not_resolves_of_signature hleads hsignature a hres
  have hfound : (u.aliasTarget e).run.value = .ok (some target) :=
    (aliasTarget_eq_ok_iff (Entry.reference_of_reference? htarget)).2
      ⟨n, hn, offset, a', hleads, by rw [if_neg hother]⟩
  have hnode : u.source.Describes id
      ⟨u.name? e, UInt64.ofNat 0, .typedef (some target)⟩ := by
    refine ((Leads.plain he hplain).describes_iff (by decide)
      (idAt_of_typeId he hplain hid)).2 ⟨0, .typedef (some target), ?_, rfl⟩
    rw [shape_of_typedef htag, hfound]
    rfl
  exact hu.measured (covers_of_typeId hid) ht hnode rfl hres hacyclic

/-- Where the two computations agree, the length of a stored type is the size
that is computed for elements. -/
theorem length_of_agrees (hu : u.PartOf data image g) (h : u.Agrees n handle)
    (hn : n < chainBound) (hid : (u.typeId handle).value = some id)
    (ht : g.types.get? id = some t) :
    t.length = UInt64.ofNat (u.sizeWithin (n + 1) handle).value := by
  induction h generalizing id t with
  | own he hsize =>
      obtain ⟨length, shape, hshape, hlength, -⟩ :=
        hu.exists_shape he (not_isQualifier_of_ownSize hsize) hid ht
      obtain ⟨rfl, hother⟩ := length_of_ownSize hsize hshape
      rw [hlength hother, sizeWithin_of_ownSize he hsize]
  | empty he htag hsize hnone =>
      rw [(hu.of_array he htag hsize hid ht).2,
        sizeWithin_of_array he hsize htag, arraySize_value, arraySize_value,
        hnone]
  | @array n _ target _ he htag hsize htarget hagrees ih =>
      have hbound : (u.sizeWithin chainBound target).value
          = (u.sizeWithin (n + 1) target).value :=
        sizeWithin_of_agrees hagrees
          (show n ≤ 31 from Nat.le_of_lt_succ (Nat.lt_of_succ_lt hn))
      rw [(hu.of_array he htag hsize hid ht).2,
        sizeWithin_of_array he hsize htag, arraySize_value, arraySize_value,
        htarget]
      dsimp only
      rw [hbound]
  | qualified he htag hsize htarget _ ih =>
      rw [sizeWithin_of_reference he hsize (.inr htag), htarget]
      exact ih (Nat.lt_of_succ_lt hn) (typeId_of_qualified he htag htarget hid)
        ht
  | void he htag hsize hnone =>
      have hlength : t.length = 0 :=
        hu.length_of_lost he htag hid ht (by rw [hnone]; exact nofun)
      rw [hlength, sizeWithin_of_reference he hsize (.inl htag), hnone]
      rfl
  | lost he htag hsize htarget hlost hzero =>
      have hlength : t.length = 0 := by
        refine hu.length_of_lost he htag hid ht fun target' htarget' => ?_
        cases htarget.symm.trans htarget'
        exact hlost
      rw [hlength, sizeWithin_of_reference he hsize (.inl htag), htarget]
      exact (congrArg UInt64.ofNat (hzero _)).symm
  | aliasing he htag hsize htarget hres hacyclic _ ih =>
      obtain ⟨t', ht', hlength⟩ :=
        hu.length_of_alias he htag htarget hres hacyclic hid ht
      rw [sizeWithin_of_reference he hsize (.inl htag), htarget, hlength]
      exact ih (Nat.lt_of_succ_lt hn) hres.1 ht'

theorem abbreviations_fit (hu : u.PartOf data image g) :
    ∀ a ∈ u.abbreviations, a.Fits :=
  Abbreviation.fits_of_mem_table
    (of_ofHeader (mem_readableUnits.1 hu.readable).2).2

theorem encoding_addressSize_le (hu : u.PartOf data image g) :
    u.encoding.addressSize ≤ 8 :=
  addressSize_le (mem_readableUnits.1 hu.readable).1

end PartOf

/-- An array that does not give its size, but has a number of elements, which are
stored, and on whose size the two computations agree. If it is not only
declared, it is stored, and it is as long as all its elements, but not longer
than the greatest length. -/
theorem graphOf_array {data : ByteArray} {image : Object.Image} {g : Graph}
    (hu : u.PartOf data image g) (he : e ∈ u.entries.1)
    (htag : e.tag = Tag.arrayType) (hsize : e.byteSize? = none) {id : UInt32}
    (hid : (u.idAt e.offset).value = some id) {target : Nat} {a : UInt32}
    (htarget : (e.reference? Attr.type).value = some target)
    (ha : (u.typeId target).value = some a) {element : TypeSymbol}
    (helement : g.types.get? a = some element) (hagrees : u.Agrees n target)
    (hn : n < chainBound) {count : Nat} (hcount : u.Counts e.offset count) :
    (e.isSet Attr.declaration = false → g.types.contains id = true)
      ∧ ∀ t, g.types.get? id = some t → t.kind = .array
        ∧ t.length.toNat
          = min (element.length.toNat * count) longest := by
  have htype : Tag.isType e.tag = true := by rw [htag]; rfl
  have hleads : u.Leads 0 e.offset e.offset e :=
    leads_of_mem_entries (Nat.le_of_lt hu.start_lt_entries) he htype
  constructor
  · exact fun hdefined => hu.contains_of_shape he htype hdefined hid
      (shape_of_array htag hsize)
  · intro t ht
    have hbound : ∀ bound, (u.sizeWithin bound target).value ≤ longest :=
      sizeWithin_le hu.abbreviations_fit hu.encoding_addressSize_le
    have hlength : element.length.toNat
        = (u.sizeWithin chainBound target).value := by
      rw [hu.length_of_agrees hagrees hn ha helement,
        ← sizeWithin_of_agrees hagrees (show n ≤ 31 from Nat.le_of_lt_succ hn)]
      exact UInt64.toNat_ofNat_of_lt' (Nat.lt_succ_of_le (hbound chainBound))
    obtain ⟨hkind, harray⟩ := hu.of_array hleads.typeEntry htag hsize
      ((hleads.typeId_eq_some_iff (by decide)).2 hid) ht
    refine ⟨hkind, ?_⟩
    rw [harray, arraySize_value, htarget, hlength, elements_of_counts hcount]
    exact UInt64.toNat_ofNat_of_lt' (Nat.lt_succ_of_le (Nat.min_le_right _ _))

/-- An array of three constant integers, and one of three values of an
enumeration that gives no size. -/
def arrays : ByteArray := ⟨#[
  1, 0x11, 1, 0, 0, 2, 0x24, 0, 0x0b, 0x0b, 0, 0, 3, 0x26, 0, 0x49, 0x13, 0, 0,
  4, 1, 1, 0x49, 0x13, 0, 0, 5, 0x21, 0, 0x37, 0x0b, 0, 0, 6, 4, 0, 0, 0, 0,
  33, 0, 0, 0, 4, 0, 0, 0, 0, 0, 8,
  1, 2, 4, 3, 12, 0, 0, 0, 4, 14, 0, 0, 0, 5, 3, 0,
  6, 4, 27, 0, 0, 0, 5, 3, 0, 0]⟩

def arraysImage : Object.Image where
  architecture := .x86_64
  order := .little
  sections := [
    { name := some (Bytes.ascii ".debug_abbrev"), body := .plain 0 39 },
    { name := some (Bytes.ascii ".debug_info"), body := .plain 39 37 }]

/-- The first array is as long as its elements. The second is empty, though the
enumeration has four octets. -/
theorem graphOf_array_arrays :
    ∃ (g : Graph) (u : Unit) (e : Entry) (element t : TypeSymbol),
      u.PartOf arrays arraysImage g ∧ e ∈ u.entries.1
      ∧ e.tag = Tag.arrayType ∧ e.byteSize? = none
      ∧ (u.idAt e.offset).value = some 19
      ∧ (e.reference? Attr.type).value = some 14
      ∧ (u.typeId 14).value = some 12
      ∧ g.types.get? 12 = some element ∧ element.length = 4
      ∧ u.Agrees 1 14 ∧ 1 < chainBound ∧ u.Counts e.offset 3
      ∧ g.types.get? 19 = some t ∧ t.length.toNat = 12
      ∧ (g.types.get? 27).map TypeSymbol.length = some 4
      ∧ (g.types.get? 28).map TypeSymbol.length = some 0 := by
  have hread := PartOf.exists_of_mem arrays arraysImage
    (fun g u => (u.typeId 14).value = some 12
      ∧ (∃ element ∈ g.types.get? 12, element.length = 4)
      ∧ (g.types.get? 27).map TypeSymbol.length = some 4
      ∧ (g.types.get? 28).map TypeSymbol.length = some 0
      ∧ (∃ q ∈ (u.typeEntry 14).toOption, Tag.isQualifier q.tag = true
        ∧ q.byteSize? = none ∧ (q.reference? Attr.type).value = some 12)
      ∧ (∃ b ∈ (u.typeEntry 12).toOption, b.tag = Tag.baseType)
      ∧ ∃ e ∈ u.entries.1, e.tag = Tag.arrayType ∧ e.byteSize? = none
        ∧ (u.idAt e.offset).value = some 19
        ∧ (e.reference? Attr.type).value = some 14
        ∧ e.isSet Attr.declaration = false ∧ u.elements e.offset = 3
        ∧ ∀ c ∈ (u.children e.offset).1,
          (c.constant Attr.count).toOption = some (some 3))
    (by decide +kernel)
  obtain ⟨g, u, hu, ha, ⟨element, helement, hlength⟩, henum, hempty,
    ⟨q, hq, hqualifier, hnone, hbase⟩, ⟨b, hb, hint⟩, e, he, htag, hsize, hid,
    htarget, hdefined, hthree, hgiven⟩ := hread
  have hagrees : u.Agrees 1 14 :=
    .qualified (toOption_eq_some_iff.1 hq) hqualifier hnone hbase
      (.own (toOption_eq_some_iff.1 hb) (.base hint))
  have hbounded : u.Bounded e.offset := by
    intro c hc _ hmissing
    have hcount := hgiven c hc
    rw [hmissing] at hcount
    cases hcount
  have hcount : u.Counts e.offset 3 := hthree ▸ counts_elements hbounded
  obtain ⟨hstored, harray⟩ := graphOf_array hu he htag hsize hid htarget ha
    helement hagrees (by decide) hcount
  obtain ⟨t, ht⟩ := Table.contains_iff.1 (hstored hdefined)
  refine ⟨g, u, e, element, t, hu, he, htag, hsize, hid, htarget, ha, helement,
    hlength, hagrees, by decide, hcount, ht, ?_, henum, hempty⟩
  rw [(harray t ht).2, hlength]
  decide

end Unit

end SymbolGraph.Dwarf
