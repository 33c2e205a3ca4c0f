/-
What a scan gives. It never goes back, and what it reads has a bound: a number
of so many octets is less than their power of 256, and a number of variable
width fits in 64 bits, because its tenth octet may bring one more bit only
(`gives_unsigned`, `gives_signed`). Both are said by one property of scans that
composes (`Scan.Gives`), so it is enough to go through the forms of values once
(`gives_value`). A constant of an attribute is either read here or was read with
the abbreviation, and fits in 64 bits in both cases.
-/
import Mathlib.Algebra.Group.Int.Defs
import SymbolGraph.Dwarf.Abbreviation
import SymbolGraph.Dwarf.Value
import SymbolGraph.Proofs.Bytes
import SymbolGraph.Proofs.Except

namespace SymbolGraph.Dwarf

variable {α β : Type} {P : α → Prop} {Q : β → Prop}

namespace Scan

/-- The scan does not go back, and what it gives has the property. -/
def Gives (P : α → Prop) (x : Scan α) : Prop :=
  ∀ place a next, x.run place = .ok (a, next) → place ≤ next ∧ P a

-- =========================================================== composition

theorem Gives.pure {a : α} (ha : P a) : Gives P (pure a) := by
  intro place _ _ h
  obtain ⟨rfl, rfl⟩ := run_pure_eq_ok_iff.1 h
  exact ⟨Nat.le_refl _, ha⟩

theorem gives_throw (fault : Fault) : Gives P (throw fault) :=
  fun _ _ _ h => by cases h

theorem gives_throw_bind (fault : Fault) (f : α → Scan β) :
    Gives Q (throw fault >>= f) :=
  fun _ _ _ h => by cases h

theorem Gives.bind {x : Scan α} {f : α → Scan β} (hx : Gives P x)
    (hf : ∀ a, P a → Gives Q (f a)) : Gives Q (x >>= f) := by
  intro place b next h
  obtain ⟨a, between, hfirst, hrest⟩ := run_bind_eq_ok_iff.1 h
  obtain ⟨hle, ha⟩ := hx _ _ _ hfirst
  obtain ⟨hle', hb⟩ := hf a ha _ _ _ hrest
  exact ⟨Nat.le_trans hle hle', hb⟩

/-- What was read is made into something. -/
theorem Gives.map {x : Scan α} {f : α → β} (hx : Gives P x)
    (hf : ∀ a, P a → Q (f a)) : Gives Q (x >>= fun a => Pure.pure (f a)) :=
  hx.bind fun a ha => .pure (hf a ha)

theorem Gives.mono {x : Scan α} {P' : α → Prop} (hx : Gives P x)
    (h : ∀ a, P a → P' a) : Gives P' x :=
  fun place a next hrun => (hx place a next hrun).imp_right (h a)

theorem gives_get : Gives (fun _ => True) (get : Scan Nat) := by
  intro place _ _ h
  cases h
  exact ⟨Nat.le_refl _, trivial⟩

theorem gives_lift (x : Except Fault α) :
    Gives (fun _ => True) (liftM x : Scan α) := by
  intro place _ _ h
  cases x with
  | error fault => cases h
  | ok a =>
      cases h
      exact ⟨Nat.le_refl _, trivial⟩

-- =============================================================== numbers

section Numbers

variable (r : Region)

theorem gives_skip (n : Nat) : Gives (fun _ => True) (skip r n) := by
  intro place _ _ h
  unfold skip at h
  rw [StateT.run] at h
  split at h
  · cases h
    exact ⟨Nat.le_add_right _ _, trivial⟩
  · cases h

theorem gives_number (width : Nat) : Gives (· < 256 ^ width) (number r width) := by
  intro place _ _ h
  unfold number at h
  rw [StateT.run] at h
  split at h
  · cases h
    refine ⟨Nat.le_add_right _ _, ?_⟩
    cases hread : Bytes.number? r.order r.data place width with
    | none => exact Nat.pow_pos (by decide)
    | some n => exact Bytes.lt_of_number? hread
  · cases h

theorem next_of_number {r : Region} {place next width n : Nat}
    (h : (number r width).run place = .ok (n, next)) :
    next = place + width := by
  unfold number at h
  rw [StateT.run] at h
  split at h
  · cases h
    rfl
  · cases h

theorem gives_u8 : Gives (· < 256) (u8 r) := gives_number r 1

/-- The octets behind the first `k` give no more than what is left of 64 bits. -/
theorem gives_unsignedFrom (fuel k : Nat) (h : fuel + k = 10) :
    Gives (fun n => n + 2 ^ (7 * k) ≤ 2 ^ 64) (unsignedFrom r fuel (7 * k)) := by
  induction fuel generalizing k with
  | zero => exact gives_throw _
  | succ fuel ih =>
      unfold unsignedFrom
      refine (gives_u8 r).bind fun b _ => ?_
      dsimp only
      by_cases hlast : 7 * k = 63 ∧ b ≠ 0 ∧ b ≠ 1
      · rw [if_pos hlast]
        exact gives_throw_bind _ _
      rw [if_neg hlast]
      have hstep : 2 ^ (7 * (k + 1)) = 128 * 2 ^ (7 * k) := by
        rw [Nat.mul_succ, Nat.pow_add, Nat.mul_comm]
      have hlow : b % 128 * 2 ^ (7 * k) ≤ 127 * 2 ^ (7 * k) :=
        Nat.mul_le_mul_right _ (by omega)
      by_cases hk : k = 9
      · -- the tenth octet has one bit
        subst hk
        have hbit : b = 0 ∨ b = 1 := by omega
        rw [if_pos (by omega)]
        refine .pure ?_
        rcases hbit with rfl | rfl <;> decide
      · have hroom : 2 ^ (7 * k) ≤ 2 ^ 56 :=
          Nat.pow_le_pow_right (by decide) (by omega)
        split
        case isTrue =>
          refine .pure ?_
          show b % 128 * 2 ^ (7 * k) + 2 ^ (7 * k) ≤ 2 ^ 64
          omega
        case isFalse =>
          refine (ih (k + 1) (by omega)).map fun n hn => ?_
          show b % 128 * 2 ^ (7 * k) + n + 2 ^ (7 * k) ≤ 2 ^ 64
          rw [hstep] at hn
          omega

theorem gives_unsigned : Gives (· < 2 ^ 64) (unsigned r) :=
  (gives_unsignedFrom r 10 0 rfl).mono fun _ h => by omega

/-- A number of variable width has one octet at least. -/
theorem lt_of_unsigned {place n next : Nat}
    (h : (unsigned r).run place = .ok (n, next)) : place < next := by
  unfold unsigned unsignedFrom at h
  rw [run_bind_eq_ok_iff] at h
  obtain ⟨b, between, hb, h⟩ := h
  have hbetween : between = place + 1 := next_of_number hb
  have hrest : between ≤ next := by
    dsimp only at h
    rw [if_neg (by omega)] at h
    split at h
    case isTrue =>
      cases h
      exact Nat.le_refl _
    case isFalse =>
      rw [run_bind_eq_ok_iff] at h
      obtain ⟨m, _, hm, h⟩ := h
      cases h
      exact (gives_unsignedFrom r 9 1 rfl _ _ _ hm).1
  omega

/-- With a sign there is one bit less. -/
theorem gives_signedFrom (fuel k : Nat) (h : fuel + k = 10) :
    Gives (fun n : Int => n + 2 ^ (7 * k) ≤ 2 ^ 63)
      (signedFrom r fuel (7 * k)) := by
  induction fuel generalizing k with
  | zero => exact gives_throw _
  | succ fuel ih =>
      unfold signedFrom
      refine (gives_u8 r).bind fun b _ => ?_
      dsimp only
      by_cases hlast : 7 * k = 63 ∧ b ≠ 0 ∧ b ≠ 0x7f
      · rw [if_pos hlast]
        exact gives_throw_bind _ _
      rw [if_neg hlast]
      have hstep : 2 ^ (7 * (k + 1)) = 128 * 2 ^ (7 * k) := by
        rw [Nat.mul_succ, Nat.pow_add, Nat.mul_comm]
      have hlow : b % 128 * 2 ^ (7 * k) ≤ 127 * 2 ^ (7 * k) :=
        Nat.mul_le_mul_right _ (by omega)
      by_cases hk : k = 9
      · subst hk
        have hsign : b = 0 ∨ b = 0x7f := by omega
        rw [if_pos (by omega)]
        refine .pure ?_
        rcases hsign with rfl | rfl <;> decide
      · have hroom : 2 ^ (7 * k) ≤ 2 ^ 56 :=
          Nat.pow_le_pow_right (by decide) (by omega)
        have hcast : (2 : Int) ^ (7 * k) = ((2 ^ (7 * k) : Nat) : Int) := by
          norm_cast
        have hcast' : (2 : Int) ^ (7 * (k + 1)) = 128 * (2 : Int) ^ (7 * k) := by
          exact_mod_cast hstep
        split
        case isTrue =>
          have hpower : Nat.pow 2 (7 * k + 7) = 128 * 2 ^ (7 * k) := hstep
          refine .pure ?_
          rw [hcast, hpower]
          change (if b < 64 then ((b % 128 * 2 ^ (7 * k) : Nat) : Int) else
            ((b % 128 * 2 ^ (7 * k) : Nat) : Int) - _) + _ ≤ _
          split <;> omega
        case isFalse =>
          refine (ih (k + 1) (by omega)).map fun n hn => ?_
          rw [hcast'] at hn
          rw [hcast] at hn ⊢
          change ((b % 128 * 2 ^ (7 * k) : Nat) : Int) + n + _ ≤ _
          omega

theorem gives_signed : Gives (· < 2 ^ 63) (signed r) :=
  (gives_signedFrom r 10 0 rfl).mono fun _ h => by omega

theorem gives_unsigned16 : Gives (fun _ => True) (unsigned16 r) := by
  unfold unsigned16
  refine (gives_u8 r).bind fun a _ => ?_
  dsimp only
  split
  case isTrue => exact .pure trivial
  case isFalse =>
    refine (gives_u8 r).bind fun b _ => ?_
    split
    case isTrue => exact .pure trivial
    case isFalse =>
      refine (gives_u8 r).bind fun c _ => ?_
      split
      case isTrue => exact gives_throw_bind _ _
      case isFalse => exact .pure trivial

theorem gives_offset (wide : Bool) :
    Gives (fun _ => True) (offset r wide) :=
  (gives_number r _).mono fun _ _ => trivial

theorem gives_addressSize : Gives (· ≤ 8) (addressSize r) := by
  unfold addressSize
  refine (gives_u8 r).bind fun n _ => ?_
  split
  case isTrue h => exact .pure (by omega)
  case isFalse => exact gives_throw _

theorem gives_text : Gives (fun _ => True) (text r) := by
  intro place _ _ h
  unfold text at h
  rw [StateT.run] at h
  split at h
  · cases h
    exact ⟨by omega, trivial⟩
  · cases h

end Numbers

end Scan

-- ================================================================ values

/-- As a constant, the value fits in 64 bits. -/
def Value.Fits (v : Value) : Prop :=
  ∀ n, v.constant? = some n → n < 2 ^ 64

/-- Most values are no constants. -/
theorem Value.fits_of_none {v : Value} (h : v.constant? = none) : v.Fits := by
  intro n hn
  rw [h] at hn
  cases hn

theorem Value.fits_unsigned {n : Nat} (h : n < 2 ^ 64) : (unsigned n).Fits := by
  rintro _ ⟨⟩
  exact h

theorem Value.fits_signed {n : Int} (h : n < 2 ^ 63) : (signed n).Fits := by
  intro m hm
  unfold constant? at hm
  dsimp only at hm
  split at hm
  · cases hm
    omega
  · cases hm

open Scan

section Values

variable (r : Region) (e : Encoding) (name : Nat)

theorem gives_resolveForm (fuel form : Nat) :
    Gives (fun _ => True) (resolveForm r fuel form) := by
  induction fuel generalizing form with
  | zero => exact gives_throw _
  | succ fuel ih =>
      unfold resolveForm
      split
      case isTrue => exact (gives_unsigned16 r).bind fun form _ => ih form
      case isFalse => exact .pure trivial

theorem gives_block {P : Nat → Prop} {length : Scan Nat} (h : Gives P length) :
    Gives Value.Fits (block r length) :=
  h.bind fun n _ => (gives_skip r n).map fun _ _ => Value.fits_of_none rfl

theorem gives_constantOrOffset {width : Nat} (h : 256 ^ width ≤ 2 ^ 64) :
    Gives Value.Fits (constantOrOffset r e name width) := by
  unfold constantOrOffset
  refine (gives_number r width).bind fun n hn => ?_
  split
  case isTrue => exact .pure (Value.fits_of_none rfl)
  case isFalse => exact .pure (Value.fits_unsigned (Nat.lt_of_lt_of_le hn h))

/-- Whatever the form, a constant that is read here fits in 64 bits. Only the
one that stands in the abbreviation was read before. -/
theorem gives_valueOfForm {P : Value → Prop} (hfits : ∀ v, Value.Fits v → P v)
    {constant : Option Int} (hconstant : ∀ n, constant = some n → P (.signed n))
    (form : Nat) : Gives P (valueOfForm r e name constant form) := by
  have hplain : ∀ {α : Type} {Q : α → Prop} {x : Scan α} {f : α → Value},
      Gives Q x → (∀ a, (f a).constant? = none) →
      Gives P (x >>= fun a => pure (f a)) := fun hx hf =>
    hx.map fun a _ => hfits _ (Value.fits_of_none (hf a))
  have hfixed : ∀ {width : Nat}, 256 ^ width ≤ 2 ^ 64 →
      Gives P (Scan.number r width >>= fun n => pure (.unsigned n)) :=
    fun hwidth => (gives_number r _).map fun n hn =>
      hfits _ (Value.fits_unsigned (Nat.lt_of_lt_of_le hn hwidth))
  unfold valueOfForm
  dsimp only
  split
  case h_5 => exact (gives_constantOrOffset r e name (by decide)).mono hfits
  case h_6 => exact (gives_constantOrOffset r e name (by decide)).mono hfits
  case h_12 =>
    exact (gives_signed r).map fun n hn => hfits _ (Value.fits_signed hn)
  case h_14 =>
    exact (gives_unsigned r).map fun n hn => hfits _ (Value.fits_unsigned hn)
  case h_31 =>
    split
    case h_1 n => exact .pure (hconstant n rfl)
    case h_2 => exact gives_throw _
  all_goals first
    | exact hfixed (by decide)
    | exact hplain (gives_number r _) fun _ => rfl
    | exact hplain (gives_unsigned r) fun _ => rfl
    | exact hplain (gives_offset r _) fun _ => rfl
    | exact hplain (gives_text r) fun _ => rfl
    | exact hplain (gives_skip r _) fun _ => rfl
    | exact (gives_block r (gives_number r _)).mono hfits
    | exact (gives_block r (gives_unsigned r)).mono hfits
    | exact .pure (hfits _ (Value.fits_of_none rfl))
    | exact gives_throw _

theorem gives_value {P : Value → Prop} (hfits : ∀ v, Value.Fits v → P v)
    {constant : Option Int} (hconstant : ∀ n, constant = some n → P (.signed n))
    (form : Nat) : Gives P (value r e name constant form) :=
  gives_get.bind fun _ _ => (gives_resolveForm r _ form).bind fun form _ =>
    gives_valueOfForm r e name hfits hconstant form

end Values

-- ========================================================= abbreviations

/-- A constant in an abbreviation fits in 64 bits, with its sign. -/
def AttributeSpec.Fits (spec : AttributeSpec) : Prop :=
  ∀ n, spec.constant = some n → n < 2 ^ 63

def Abbreviation.Fits (a : Abbreviation) : Prop :=
  ∀ spec ∈ a.attributes, spec.Fits

namespace Abbreviation

variable (r : Region)

theorem gives_readAttributes (fuel : Nat) :
    Gives (fun specs => ∀ spec ∈ specs, spec.Fits)
      (readAttributes r fuel) := by
  induction fuel with
  | zero => exact gives_throw _
  | succ fuel ih =>
      unfold readAttributes
      refine (gives_unsigned16 r).bind fun name _ =>
        (gives_unsigned16 r).bind fun form _ => ?_
      split
      case isTrue =>
        split
        case isTrue => exact .pure nofun
        case isFalse => exact gives_throw _
      case isFalse =>
        split
        case isTrue => exact gives_throw _
        case isFalse =>
          -- both ways go on alike with what they found
          have hgo : ∀ constant : Option Int,
              (∀ n, constant = some n → n < 2 ^ 63) →
              Gives (fun specs => ∀ spec ∈ specs, spec.Fits) (do
                return { name, form, constant } :: (← readAttributes r fuel)) :=
            fun constant hconstant => ih.map fun specs hspecs =>
              List.forall_mem_cons.2 ⟨hconstant, hspecs⟩
          dsimp only
          split
          case isTrue =>
            refine Gives.bind (P := fun found => ∀ n, found = some n → n < 2 ^ 63)
              ?_ hgo
            rw [map_eq_pure_bind]
            exact (gives_signed r).map fun n hn _ hsome =>
              Option.some.inj hsome ▸ hn
          case isFalse => exact Gives.bind (.pure nofun) hgo

theorem gives_read? :
    Gives (fun found => ∀ a, found = some a → a.Fits) (read? r) := by
  unfold read?
  refine (gives_unsigned r).bind fun code _ => ?_
  dsimp only
  split
  case isTrue => exact .pure nofun
  case isFalse =>
    refine (gives_unsigned16 r).bind fun tag _ => ?_
    split
    case isTrue => exact gives_throw_bind _ _
    case isFalse =>
      refine (gives_u8 r).bind fun mark _ => ?_
      split
      case isTrue => exact gives_throw_bind _ _
      case isFalse =>
        refine (gives_readAttributes r _).map fun specs hspecs _ hsome => ?_
        cases hsome
        exact hspecs

theorem gives_readFrom {seen : List Abbreviation} (fuel : Nat)
    (h : ∀ a ∈ seen, a.Fits) :
    Gives (fun table => ∀ a ∈ table, a.Fits) (readFrom r seen fuel) := by
  induction fuel generalizing seen with
  | zero => exact gives_throw _
  | succ fuel ih =>
      unfold readFrom
      refine (gives_read? r).bind fun found hfound => ?_
      cases found with
      | none => exact .pure h
      | some a =>
          dsimp only
          split
          case isTrue => exact gives_throw_bind _ _
          case isFalse => exact ih (List.forall_mem_cons.2 ⟨hfound a rfl, h⟩)

theorem fits_of_mem_table {area : Region} {offset : Nat}
    {table : List Abbreviation} (h : Abbreviation.table area offset = .ok table) :
    ∀ a ∈ table, a.Fits := by
  unfold Abbreviation.table at h
  split at h
  case isTrue => cases h
  case isFalse =>
    cases hrun : (readFrom area [] (area.stop + 1)).run offset with
    | error fault =>
        rw [hrun] at h
        cases h
    | ok found =>
        rw [hrun] at h
        cases h
        exact (gives_readFrom area _ (List.forall_mem_nil _) _ _ _ hrun).2

end Abbreviation

end SymbolGraph.Dwarf
