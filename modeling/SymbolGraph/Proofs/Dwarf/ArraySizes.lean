/-
The length of an array as one product. Nested arrays, typedefs and qualifiers
are followed under a bound, and the product of every array on the way is capped.
One cap at the end does as well, and the bound is not felt where the types
referred to come to an end within it: what is computed is the size that the
chain of types has (`Measures`), capped. A chain that does not come to an end,
such as one that runs in a circle, has no size and is given 0.
-/
import SymbolGraph.Proofs.Chains
import SymbolGraph.Proofs.Dwarf.Sizes

namespace SymbolGraph.Dwarf

open Relation (TransGen ReflTransGen)

namespace Unit

variable {u : Unit} {e : Entry} {n handle target last size : Nat}
  {list : List Nat}

-- ================================================================= chains

/-- The size of a type is that of the type it refers to, or is computed from
it. -/
inductive Defers (u : Unit) (handle target : Nat) : Prop
  | through {e : Entry} : u.typeEntry handle = .ok e → e.byteSize? = none →
      e.tag = Tag.typedef ∨ Tag.isQualifier e.tag = true →
      (e.reference? Attr.type).value = some target → Defers u handle target
  | array {e : Entry} : u.typeEntry handle = .ok e → e.byteSize? = none →
      e.tag = Tag.arrayType →
      (e.reference? Attr.type).value = some target → Defers u handle target

/-- The size that a type has, however great, with the number of references that
it is found through. -/
inductive Measures (u : Unit) : Nat → Nat → Nat → Prop
  | missing {handle : Nat} : (∀ e, u.typeEntry handle ≠ .ok e) →
      Measures u 0 handle 0
  | given {handle size : Nat} {e : Entry} : u.typeEntry handle = .ok e →
      e.byteSize? = some size → Measures u 0 handle size
  | pointer {handle : Nat} {e : Entry} : u.typeEntry handle = .ok e →
      e.byteSize? = none → Tag.isPointer e.tag = true →
      Measures u 0 handle u.encoding.addressSize
  /-- A type that refers to none and does not give a size. -/
  | sizeless {handle : Nat} {e : Entry} : u.typeEntry handle = .ok e →
      e.byteSize? = none → Tag.isPointer e.tag = false →
      (∀ target, ¬ u.Defers handle target) → Measures u 0 handle 0
  | through {n handle target size : Nat} {e : Entry} :
      u.typeEntry handle = .ok e → e.byteSize? = none →
      e.tag = Tag.typedef ∨ Tag.isQualifier e.tag = true →
      (e.reference? Attr.type).value = some target →
      Measures u n target size → Measures u (n + 1) handle size
  | array {n handle target size : Nat} {e : Entry} {list : List Nat} :
      u.typeEntry handle = .ok e → e.byteSize? = none →
      e.tag = Tag.arrayType → (e.reference? Attr.type).value = some target →
      u.Dimensions e.offset list → Measures u n target size →
      Measures u (n + 1) handle (size * product list)

/-- A type that defers for as long as the bound lasts is given no size. -/
theorem sizeWithin_of_chain (h : Chain u.Defers n handle last) :
    (u.sizeWithin n handle).value = 0 := by
  induction h with
  | here => rfl
  | next hdefers _ ih =>
      cases hdefers with
      | through he hsize htag htarget =>
          rw [sizeWithin_of_reference he hsize htag, htarget]
          exact ih
      | array he hsize htag htarget =>
          rw [sizeWithin_of_array he hsize htag, arraySize_value, htarget]
          dsimp only
          rw [ih, Nat.zero_mul, Nat.zero_min]

/-- Within the bound the computed size is the size, capped once. -/
theorem sizeWithin_of_measures (hfits : ∀ a ∈ u.abbreviations, a.Fits)
    (haddress : u.encoding.addressSize ≤ 8) (h : u.Measures n handle size)
    {bound : Nat} (hbound : n < bound) :
    (u.sizeWithin bound handle).value = min size longest := by
  induction h generalizing bound with
  | @missing handle hmissing =>
      obtain _ | bound := bound
      · rfl
      cases he : u.typeEntry handle with
      | ok e => exact absurd he (hmissing e)
      | error fault => rw [sizeWithin, he]; rfl
  | given he hsize =>
      obtain _ | bound := bound
      · cases hbound
      rw [sizeWithin_value he, hsize]
      exact (Nat.min_eq_left (byteSize_le hfits he hsize)).symm
  | pointer he hsize htag =>
      obtain _ | bound := bound
      · cases hbound
      rw [sizeWithin_value he, hsize]
      dsimp only
      rw [if_pos htag]
      exact (Nat.min_eq_left (Nat.le_trans haddress (by decide))).symm
  | @sizeless handle e he hsize htag hend =>
      obtain _ | bound := bound
      · cases hbound
      rw [sizeWithin_value he, hsize]
      dsimp only
      rw [if_neg (Bool.eq_false_iff.1 htag)]
      split_ifs with halias harray
      · rw [Bool.or_eq_true, decide_eq_true_eq] at halias
        cases htarget : (e.reference? Attr.type).value with
        | none => rfl
        | some target =>
            exact absurd (.through he hsize halias htarget) (hend target)
      · cases htarget : (e.reference? Attr.type).value with
        | none =>
            rw [arraySize_value, htarget]
            dsimp only
            rw [Nat.zero_mul]
        | some target =>
            exact absurd (.array he hsize harray htarget) (hend target)
      · rfl
  | through he hsize htag htarget _ ih =>
      obtain _ | bound := bound
      · cases hbound
      rw [sizeWithin_of_reference he hsize htag, htarget]
      exact ih (Nat.lt_of_succ_lt_succ hbound)
  | array he hsize htag htarget hdimensions _ ih =>
      obtain _ | bound := bound
      · cases hbound
      rw [sizeWithin_of_array he hsize htag, arraySize_value, htarget]
      dsimp only
      rw [ih (Nat.lt_of_succ_lt_succ hbound),
        elements_of_dimensions hdimensions]
      exact times_min_left _ _

-- ================================================================= arrays

/-- The size that an array takes for its elements. -/
def elementSize (u : Unit) (bound : Nat) (e : Entry) : Nat :=
  match (e.reference? Attr.type).value with
  | some target => (u.sizeWithin bound target).value
  | none => 0

theorem arraySize_of_dimensions (h : u.Dimensions e.offset list)
    (bound : Nat) : (u.arraySize (u.sizeWithin bound) e).value
      = min (u.elementSize bound e * product list) longest := by
  rw [arraySize_value, elements_of_dimensions h]
  rfl

/-- In a unit that can be read, whatever its types refer to: a chain of types
comes to its end within the bound, or the size is 0, as it is in a circle. What
comes to its end has the size that is computed, capped once. And the length of
an array whose dimensions can be read is the product of the size of its elements
and of all its extents, capped once: arrays of the same elements whose
dimensions differ in their order only are of one length, and an array of arrays
is as long as all the elements of all of them. -/
theorem arraySize_eq_product {s : Sections}
    (hu : u ∈ readableUnits s (unitHeaders s).1) :
    (∀ bound handle, (∃ n < bound, ∃ last, Chain u.Defers n handle last
        ∧ ∀ target, ¬ u.Defers last target)
      ∨ (∃ last, Chain u.Defers bound handle last)
        ∧ (u.sizeWithin bound handle).value = 0)
    ∧ (∀ handle middle, ReflTransGen u.Defers handle middle →
      TransGen u.Defers middle middle →
      ∀ bound, (u.sizeWithin bound handle).value = 0)
    ∧ (∀ n handle size, u.Measures n handle size → ∀ bound, n < bound →
      (u.sizeWithin bound handle).value = min size longest)
    ∧ ∀ bound e list, u.Dimensions e.offset list →
      (u.arraySize (u.sizeWithin bound) e).value
        = min (u.elementSize bound e * product list) longest
      ∧ (∀ e' list', u.Dimensions e'.offset list' → list.Perm list' →
        u.elementSize bound e = u.elementSize bound e' →
        (u.arraySize (u.sizeWithin bound) e).value
          = (u.arraySize (u.sizeWithin bound) e').value)
      ∧ ∀ n target size, (e.reference? Attr.type).value = some target →
        u.Measures n target size → n < bound →
        (u.arraySize (u.sizeWithin bound) e).value
          = min (size * product list) longest := by
  have hfits : ∀ a ∈ u.abbreviations, a.Fits :=
    Abbreviation.fits_of_mem_table (of_ofHeader (mem_readableUnits.1 hu).2).2
  have haddress : u.encoding.addressSize ≤ 8 :=
    addressSize_le (mem_readableUnits.1 hu).1
  have hmeasured : ∀ n handle size, u.Measures n handle size → ∀ bound,
      n < bound → (u.sizeWithin bound handle).value = min size longest :=
    fun n handle size h bound => sizeWithin_of_measures hfits haddress h
  refine ⟨fun bound handle => ?_, fun handle middle hlead hcircle bound => ?_,
    hmeasured, fun bound e list hdimensions => ?_⟩
  · rcases Chain.ends_or_lasts u.Defers bound handle with hend | ⟨last, hchain⟩
    · exact .inl hend
    · exact .inr ⟨⟨last, hchain⟩, sizeWithin_of_chain hchain⟩
  · obtain ⟨last, hchain⟩ := Chain.exists_of_circle hlead hcircle bound
    exact sizeWithin_of_chain hchain
  · have hsize := arraySize_of_dimensions hdimensions bound
    refine ⟨hsize, fun e' list' hdimensions' hperm hsame => ?_,
      fun n target size htarget hmeasures hbound => ?_⟩
    · rw [hsize, arraySize_of_dimensions hdimensions', hsame,
        product_perm hperm]
    · have helement : u.elementSize bound e = min size longest := by
        unfold elementSize
        rw [htarget]
        exact hmeasured n target size hmeasures bound hbound
      rw [hsize, helement]
      exact times_min_left _ _

/-- Two typedefs of each other; an array of 2 ^ 64 integers in two dimensions;
and an array of no such arrays, from 5 to 2. -/
def nested : Sections where
  order := .little
  abbreviations := ⟨#[
    1, 0x11, 1, 0, 0, 2, 0x24, 0, 0x0b, 0x0b, 0, 0, 3, 0x16, 0, 0x49, 0x13, 0,
    0, 4, 1, 1, 0x49, 0x13, 0, 0, 5, 0x21, 0, 0x37, 0x07, 0, 0,
    6, 0x21, 0, 0x22, 0x0b, 0x2f, 0x0b, 0, 0, 0]⟩
  info := ⟨#[
    54, 0, 0, 0, 4, 0, 0, 0, 0, 0, 8, 1, 2, 4, 3, 19, 0, 0, 0, 3, 14, 0, 0, 0,
    4, 12, 0, 0, 0, 5, 0, 0, 0, 0, 0, 0, 0, 128, 5, 2, 0, 0, 0, 0, 0, 0, 0, 0,
    4, 24, 0, 0, 0, 6, 5, 2, 0, 0]⟩
  addr := .empty
  line := .empty
  lineStr := .empty
  str := .empty
  strOffsets := .empty
  ranges := .empty
  rnglists := .empty

/-- The typedefs have no size. The first array is capped, and an extent of 0
behind it makes the second one empty all the same. -/
theorem arraySize_eq_product_nested :
    ∃ u ∈ readableUnits nested (unitHeaders nested).1,
      TransGen u.Defers 14 14 ∧ (u.sizeWithin chainBound 14).value = 0
      ∧ ∃ inner outer, u.Dimensions inner.offset [2 ^ 63, 2]
        ∧ (u.arraySize (u.sizeWithin chainBound) inner).value = longest
        ∧ (outer.reference? Attr.type).value = some 24
        ∧ u.Measures 1 24 (2 ^ 66) ∧ u.Dimensions outer.offset [0]
        ∧ (u.arraySize (u.sizeWithin chainBound) outer).value = 0 := by
  obtain ⟨u, hu⟩ :
      ∃ u, u ∈ readableUnits nested (unitHeaders nested).1 := by
    have hone : (readableUnits nested (unitHeaders nested).1).length = 1 := by
      decide +kernel
    exact List.exists_mem_of_length_pos (by rw [hone]; decide)
  have htypedefs : ∀ u ∈ readableUnits nested (unitHeaders nested).1,
      ∀ p ∈ [(14, 19), (19, 14)], ∃ e ∈ (u.typeEntry p.1).toOption,
        e.byteSize? = none ∧ e.tag = Tag.typedef
        ∧ (e.reference? Attr.type).value = some p.2 := by decide +kernel
  have hinteger : ∀ u ∈ readableUnits nested (unitHeaders nested).1,
      ∃ e ∈ (u.typeEntry 12).toOption, e.byteSize? = some 4 := by
    decide +kernel
  have harrays : ∀ u ∈ readableUnits nested (unitHeaders nested).1,
      ∀ p ∈ [(24, 12), (48, 24)], ∃ e ∈ (u.typeEntry p.1).toOption,
        e.offset = p.1 ∧ e.byteSize? = none ∧ e.tag = Tag.arrayType
        ∧ (e.reference? Attr.type).value = some p.2 := by decide +kernel
  have hextents : ∀ u ∈ readableUnits nested (unitHeaders nested).1,
      ∀ p ∈ [(24, [2 ^ 63, 2]), (48, [0])],
        (u.extents p.1).toOption = some p.2
        ∧ ∀ c ∈ (u.children p.1).1, ∀ upper ∈
            (c.constant Attr.upperBound).toOption.join, upper < longest := by
    decide +kernel
  have hcircle : TransGen u.Defers 14 14 := by
    obtain ⟨e, he, hsize, htag, htarget⟩ := htypedefs u hu (14, 19) (by decide)
    obtain ⟨e', he', hsize', htag', htarget'⟩ :=
      htypedefs u hu (19, 14) (by decide)
    exact .tail
      (.single (.through (toOption_eq_some_iff.1 he) hsize (.inl htag) htarget))
      (.through (toOption_eq_some_iff.1 he') hsize' (.inl htag') htarget')
  have hdimensions : ∀ p ∈ [(24, [2 ^ 63, 2]), (48, [0])],
      u.Dimensions p.1 p.2 := by
    intro p hp
    obtain ⟨hlist, hfits⟩ := hextents u hu p hp
    refine dimensions_of_extents (fun c hc _ _ upper hupper => ?_)
      (toOption_eq_some_iff.1 hlist)
    exact hfits c hc upper (by rw [hupper]; rfl)
  obtain ⟨b, hb, hbase⟩ := hinteger u hu
  obtain ⟨inner, hinner, hplace, hsize, htag, htarget⟩ :=
    harrays u hu (24, 12) (by decide)
  obtain ⟨outer, -, hplace', -, -, htarget'⟩ :=
    harrays u hu (48, 24) (by decide)
  have hlist : u.Dimensions inner.offset [2 ^ 63, 2] := by
    rw [hplace]
    exact hdimensions (24, [2 ^ 63, 2]) (by decide)
  have hlist' : u.Dimensions outer.offset [0] := by
    rw [hplace']
    exact hdimensions (48, [0]) (by decide)
  have hmeasures : u.Measures 1 24 (4 * product [2 ^ 63, 2]) :=
    .array (toOption_eq_some_iff.1 hinner) hsize htag htarget hlist
      (.given (toOption_eq_some_iff.1 hb) hbase)
  obtain ⟨-, hcircles, -, hproduct⟩ := arraySize_eq_product hu
  refine ⟨u, hu, hcircle, hcircles 14 14 .refl hcircle chainBound, inner,
    outer, hlist, ?_, htarget', hmeasures, hlist', ?_⟩
  · exact (hproduct chainBound inner _ hlist).2.2 0 12 4 htarget
      (.given (toOption_eq_some_iff.1 hb) hbase) (by decide)
  · exact (hproduct chainBound outer _ hlist').2.2 1 24 _ htarget' hmeasures
      (by decide)

end Unit

end SymbolGraph.Dwarf
