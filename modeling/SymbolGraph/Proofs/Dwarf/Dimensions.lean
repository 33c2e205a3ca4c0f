/-
The dimensions of an array. An entry gives one by a count or by its bounds, and
so many elements lie along it (`Entry.Spans`). Between bounds that is one more
than their difference, and the one is added first: if the upper bound is the
greatest number there is, the sum does not fit, and the entry spans nothing that
could be told. Everywhere else the number that is read is the number that is
spanned, and so is the product over the dimensions of an array
(`Unit.counts_elements`).

Products stay at the greatest length, one factor at a time. They can be capped
once, at the end (`foldl_times`), so the order of the dimensions is not felt, nor
where an extent of 0 stands.
-/
import Mathlib.Algebra.BigOperators.Group.List.Basic
import SymbolGraph.Dwarf.Types
import SymbolGraph.Proofs.Except

namespace SymbolGraph.Dwarf

/-- The greatest length. -/
def Unit.longest : Nat := 0xffffffffffffffff

-- ============================================================= dimensions

/-- The value of an attribute, if it is an unsigned constant. -/
def Entry.constant (e : Entry) (name : Nat) : Except Fault (Option Nat) :=
  (e.attribute? name).map (·.bind Value.constant?)

/-- So many elements lie along the dimension that an entry describes. -/
inductive Entry.Spans (e : Entry) : Nat → Prop
  | count {n : Nat} : e.constant Attr.count = .ok (some n) → Spans e n
  | bounds {upper : Nat} {lower : Option Nat} :
      e.constant Attr.count = .ok none →
      e.constant Attr.upperBound = .ok (some upper) → upper < Unit.longest →
      e.constant Attr.lowerBound = .ok lower →
      Spans e ((upper : Int) - (lower.getD 0 : Nat) + 1).toNat
  | unbounded : e.constant Attr.count = .ok none →
      e.constant Attr.upperBound = .ok none → Spans e 0

/-- The number of elements along all dimensions; without dimensions there are
no elements. -/
def product : List Nat → Nat
  | [] => 0
  | n :: list => (n :: list).prod

theorem product_perm {list list' : List Nat} (h : list.Perm list') :
    product list = product list' := by
  cases list with
  | nil => rw [h.nil_eq]
  | cons n list =>
      cases list' with
      | nil => exact absurd h.length_eq (Nat.succ_ne_zero _)
      | cons n' list' => exact h.prod_eq

theorem extent_eq (c : Entry) :
    Unit.extent c = (do
      match ← c.constant Attr.count with
      | some n => return n
      | none =>
        match ← c.constant Attr.upperBound with
        | none => return 0
        | some upper =>
          let lower ← c.constant Attr.lowerBound
          return (UInt64.ofNat upper + 1).toNat - lower.getD 0) := by
  unfold Unit.extent Entry.constant
  cases c.attribute? Attr.count with
  | error fault => rfl
  | ok count =>
      dsimp only [bind, Except.bind, Except.map]
      cases count.bind Value.constant? with
      | some n => rfl
      | none =>
          dsimp only
          cases c.attribute? Attr.upperBound with
          | error fault => rfl
          | ok upper =>
              dsimp only
              cases upper.bind Value.constant? with
              | none => rfl
              | some upper => cases c.attribute? Attr.lowerBound <;> rfl

/-- Above a bound that is not the greatest there is room for one more. -/
theorem toNat_bound_succ {upper : Nat} (h : upper < Unit.longest) :
    (UInt64.ofNat upper + 1).toNat = upper + 1 := by
  have hupper : (UInt64.ofNat upper).toNat = upper :=
    UInt64.toNat_ofNat_of_lt' (Nat.lt_succ_of_lt h)
  have hroom : upper + 1 < 2 ^ 64 := Nat.succ_lt_succ h
  rw [UInt64.toNat_add, hupper]
  exact Nat.mod_eq_of_lt hroom

theorem extent_bounds {upper : Nat} (lower : Nat)
    (h : upper < Unit.longest) : ((upper : Int) - lower + 1).toNat
      = (UInt64.ofNat upper + 1).toNat - lower := by
  rw [toNat_bound_succ h]
  omega

theorem extent_of_spans {c : Entry} {n : Nat} (h : c.Spans n) :
    Unit.extent c = .ok n := by
  rw [extent_eq]
  cases h with
  | count hcount => rw [hcount]; rfl
  | bounds hcount hupper hroom hlower =>
      rw [hcount, hupper, hlower, extent_bounds _ hroom]
      rfl
  | unbounded hcount hupper => rw [hcount, hupper]; rfl

/-- An entry without a count has no greatest upper bound. -/
def Entry.Bounded (c : Entry) : Prop :=
  c.constant Attr.count = .ok none →
    ∀ upper, c.constant Attr.upperBound = .ok (some upper) →
      upper < Unit.longest

/-- A dimension spans what is read of it, unless its upper bound is the greatest
number. -/
theorem spans_of_extent {c : Entry} {n : Nat} (hbounded : c.Bounded)
    (h : Unit.extent c = .ok n) : c.Spans n := by
  rw [extent_eq] at h
  obtain ⟨count, hcount, h⟩ := bind_eq_ok_iff.1 h
  cases count with
  | some n' =>
      cases h
      exact .count hcount
  | none =>
      obtain ⟨bound, hbound, h⟩ := bind_eq_ok_iff.1 h
      cases bound with
      | none =>
          cases h
          exact .unbounded hcount hbound
      | some upper =>
          obtain ⟨lower, hlower, h⟩ := bind_eq_ok_iff.1 h
          cases h
          have hroom := hbounded hcount upper hbound
          rw [← extent_bounds _ hroom]
          exact .bounds hcount hbound hroom hlower

namespace Unit

variable {u : Unit} {offset n : Nat} {list : List Nat}

-- ============================================================= products

theorem times_min_left (a b : Nat) :
    times (min a longest) b = min (a * b) longest := by
  unfold times
  show min (min a longest * b) longest = _
  rcases Nat.eq_zero_or_pos b with rfl | hb
  · rw [Nat.mul_zero, Nat.mul_zero]
  · rcases Nat.le_total a longest with ha | ha
    · rw [Nat.min_eq_left ha]
    · have hle : longest ≤ longest * b := Nat.le_mul_of_pos_right _ hb
      rw [Nat.min_eq_right ha, Nat.min_eq_right hle,
        Nat.min_eq_right (Nat.le_trans hle (Nat.mul_le_mul_right b ha))]

theorem times_min_right (a b : Nat) :
    times a (min b longest) = min (a * b) longest := by
  have hleft := times_min_left b a
  unfold times at *
  rwa [Nat.mul_comm, Nat.mul_comm a]

/-- The capped product of a list is its product, capped. -/
theorem foldl_times (list : List Nat) (a : Nat) :
    list.foldl times (min a longest) = min (a * list.prod) longest := by
  induction list generalizing a with
  | nil => rw [List.foldl_nil, List.prod_nil, Nat.mul_one]
  | cons b list ih =>
      rw [List.foldl_cons, times_min_left, ih, List.prod_cons, Nat.mul_assoc]

-- =============================================================== arrays

/-- The children of the array at an offset can be read, and its dimensions span
so many elements each. -/
def Dimensions (u : Unit) (offset : Nat) (list : List Nat) : Prop :=
  ∃ children, u.children offset = (children, none)
    ∧ List.Forall₂ Entry.Spans
      (children.filter fun c => c.tag = Tag.subrangeType) list

theorem extents_eq_ok_iff :
    u.extents offset = .ok list ↔ ∃ children,
      u.children offset = (children, none)
        ∧ (children.filter fun c => c.tag = Tag.subrangeType).mapM extent
          = .ok list := by
  unfold extents
  obtain ⟨children, fault⟩ := u.children offset
  rw [bind_eq_ok_iff]
  cases fault with
  | some fault =>
      constructor
      · rintro ⟨found, -, h⟩
        cases h
      · rintro ⟨children', h, -⟩
        cases h
  | none =>
      constructor
      · rintro ⟨found, hfound, h⟩
        cases h
        exact ⟨children, rfl, hfound⟩
      · rintro ⟨children', h, hfound⟩
        cases h
        exact ⟨list, hfound, rfl⟩

theorem extents_of_dimensions (h : u.Dimensions offset list) :
    u.extents offset = .ok list := by
  obtain ⟨children, hchildren, hspans⟩ := h
  exact extents_eq_ok_iff.2 ⟨children, hchildren,
    mapM_eq_ok_iff.2 (hspans.imp fun _ _ => extent_of_spans)⟩

/-- No dimension of the array at an offset has the greatest upper bound. -/
def Bounded (u : Unit) (offset : Nat) : Prop :=
  ∀ c ∈ (u.children offset).1, c.tag = Tag.subrangeType → c.Bounded

theorem dimensions_of_extents (hbounded : u.Bounded offset)
    (h : u.extents offset = .ok list) : u.Dimensions offset list := by
  obtain ⟨children, hchildren, hfound⟩ := extents_eq_ok_iff.1 h
  unfold Bounded at hbounded
  rw [hchildren] at hbounded
  refine ⟨children, hchildren, ?_⟩
  have hsubranges : ∀ c ∈ children.filter fun c => c.tag = Tag.subrangeType,
      c.Bounded := by
    intro c hc
    obtain ⟨hmem, htag⟩ := List.mem_filter.1 hc
    exact hbounded c hmem (of_decide_eq_true htag)
  have hboth := (List.forall₂_and_left _ _).2
    ⟨hsubranges, mapM_eq_ok_iff.1 hfound⟩
  exact hboth.imp fun c n hc => spans_of_extent hc.1 hc.2

/-- The array at an offset has so many elements: as many as its dimensions span,
or none if they cannot be read. -/
inductive Counts (u : Unit) (offset : Nat) : Nat → Prop
  | spanned {list : List Nat} :
      u.Dimensions offset list → Counts u offset (product list)
  | unreadable {fault : Fault} : u.Bounded offset →
      u.extents offset = .error fault → Counts u offset 0

/-- The number of elements that is read of an array: the product of its extents,
and 0 if it has none that can be read. -/
def elements (u : Unit) (offset : Nat) : Nat :=
  match u.extents offset with
  | .error _ => 0
  | .ok [] => 0
  | .ok list => list.prod

theorem elements_of_dimensions (h : u.Dimensions offset list) :
    u.elements offset = product list := by
  unfold elements product
  rw [extents_of_dimensions h]
  cases list <;> rfl

/-- The number that is read is that of the elements. -/
theorem elements_of_counts (h : u.Counts offset n) : u.elements offset = n := by
  cases h with
  | spanned hdimensions => exact elements_of_dimensions hdimensions
  | unreadable _ hfault =>
      unfold elements
      rw [hfault]

/-- Every array has a number of elements, but for greatest upper bounds. -/
theorem counts_elements (h : u.Bounded offset) :
    u.Counts offset (u.elements offset) := by
  cases hextents : u.extents offset with
  | error fault =>
      have hcounts := Counts.unreadable h hextents
      rwa [← elements_of_counts hcounts] at hcounts
  | ok list =>
      have hdimensions := dimensions_of_extents h hextents
      rw [elements_of_dimensions hdimensions]
      exact .spanned hdimensions

theorem elementCount_eq (u : Unit) (offset : Nat) :
    u.elementCount offset = min (u.elements offset) longest := by
  unfold elementCount elements
  cases u.extents offset with
  | error fault => rfl
  | ok list =>
      cases list with
      | nil => rfl
      | cons n list =>
          have hprod := foldl_times (n :: list) 1
          rw [Nat.one_mul] at hprod
          exact hprod

end Unit

end SymbolGraph.Dwarf
