/-
Decimal numbers read back. The digits of a number are digits, their value
is the number, and none but 0 begins with a 0 (`decimal_eq_of_zero`). What
comes behind a number must not go on with it (`Ended`): then the scanner
stops at its last digit, and takes it for what was printed.
-/
import SymbolGraph.Codec.Json.Printer
import SymbolGraph.Codec.Json.Scanner
import SymbolGraph.Proofs.Except

namespace SymbolGraph.Json

variable {rest : List UInt8} {n : Nat}

-- ============================================================== digits

theorem digit_toNat {d : Nat} (h : d < 10) : (digit d).toNat = 48 + d :=
  UInt8.toNat_ofNat_of_lt' (by show 48 + d < 256; omega)

theorem isDigit_iff {b : UInt8} :
    isDigit b = true ↔ 48 ≤ b.toNat ∧ b.toNat ≤ 57 := by
  unfold isDigit
  rw [Bool.and_eq_true, decide_eq_true_iff, decide_eq_true_iff,
    UInt8.le_iff_toNat_le, UInt8.le_iff_toNat_le]
  exact Iff.rfl

theorem isDigit_digit {d : Nat} (h : d < 10) : isDigit (digit d) = true := by
  rw [isDigit_iff, digit_toNat h]
  omega

-- ============================================================ decimals

theorem decimal_of_lt (h : n < 10) : decimal n = [digit n] := by
  rw [decimal, if_pos h]

theorem decimal_of_le (h : 10 ≤ n) :
    decimal n = decimal (n / 10) ++ [digit (n % 10)] := by
  rw [decimal, if_neg (by omega)]

theorem decimal_ne_nil (n : Nat) : decimal n ≠ [] := by
  by_cases h : n < 10
  · rw [decimal_of_lt h]
    nofun
  · rw [decimal_of_le (by omega)]
    exact List.append_ne_nil_of_right_ne_nil _ (List.cons_ne_nil _ _)

theorem isDigit_of_mem_decimal {b : UInt8} (h : b ∈ decimal n) :
    isDigit b = true := by
  induction n using Nat.strongRecOn with
  | ind n ih =>
      by_cases hn : n < 10
      · rw [decimal_of_lt hn, List.mem_singleton] at h
        rw [h]
        exact isDigit_digit hn
      · rw [decimal_of_le (by omega), List.mem_append, List.mem_singleton] at h
        rcases h with h | rfl
        · exact ih (n / 10) (by omega) h
        · exact isDigit_digit (by omega)

theorem valueOf_concat (ds : List UInt8) (b : UInt8) :
    valueOf (ds ++ [b]) = valueOf ds * 10 + (b.toNat - 48) := by
  unfold valueOf
  rw [List.foldl_append]
  rfl

/-- The digits of a number have its value. -/
theorem valueOf_decimal (n : Nat) : valueOf (decimal n) = n := by
  induction n using Nat.strongRecOn with
  | ind n ih =>
      by_cases h : n < 10
      · rw [decimal_of_lt h]
        show 0 * 10 + ((digit n).toNat - 48) = n
        rw [digit_toNat h]
        omega
      · rw [decimal_of_le (by omega), valueOf_concat, ih (n / 10) (by omega),
          digit_toNat (by omega)]
        omega

/-- A number that begins with a 0 is 0. -/
theorem eq_zero_of_decimal {ds : List UInt8} (h : decimal n = 0x30 :: ds) :
    n = 0 := by
  induction n using Nat.strongRecOn generalizing ds with
  | ind n ih =>
      by_cases hn : n < 10
      · rw [decimal_of_lt hn] at h
        have hdigit : (digit n).toNat = 48 :=
          congrArg UInt8.toNat (List.cons.inj h).1
        rw [digit_toNat hn] at hdigit
        omega
      · rw [decimal_of_le (by omega)] at h
        cases hfirst : decimal (n / 10) with
        | nil => exact absurd hfirst (decimal_ne_nil _)
        | cons b bs =>
            rw [hfirst, List.cons_append] at h
            rw [(List.cons.inj h).1] at hfirst
            have := ih (n / 10) (by omega) hfirst
            omega

/-- A 0 stands alone. -/
theorem decimal_eq_of_zero {ds : List UInt8} (h : decimal n = 0x30 :: ds) :
    ds = [] := by
  rw [eq_zero_of_decimal h, decimal_of_lt (by omega)] at h
  exact (List.cons.inj h).2.symm

-- ========================================================== the scanner

/-- What comes behind a number does not go on with it. -/
def Ended (rest : List UInt8) : Prop :=
  ∀ b, rest.head? = some b →
    isDigit b = false ∧ b ≠ 0x2e ∧ b ≠ 0x65 ∧ b ≠ 0x45

theorem ended_cons {b : UInt8} (h : isDigit b = false) (hpoint : b ≠ 0x2e)
    (hexponent : b ≠ 0x65) (hexponent' : b ≠ 0x45) : Ended (b :: rest) := by
  rintro _ ⟨⟩
  exact ⟨h, hpoint, hexponent, hexponent'⟩

theorem peek_run (input : List UInt8) :
    peek.run input = .ok (input.head?, input) := rfl

theorem digits_run (n : Nat) (h : Ended rest) :
    digits.run (decimal n ++ rest) = .ok (decimal n, rest) := by
  have hdigits : ∀ b ∈ decimal n, isDigit b = true :=
    fun _ => isDigit_of_mem_decimal
  have hrest : rest.takeWhile isDigit = [] ∧ rest.dropWhile isDigit = rest := by
    cases rest with
    | nil => exact ⟨rfl, rfl⟩
    | cons b rest =>
        have hb := (h b rfl).1
        simp [hb]
  show Except.ok ((decimal n ++ rest).takeWhile isDigit,
    (decimal n ++ rest).dropWhile isDigit) = _
  rw [List.takeWhile_append_of_pos hdigits,
    List.dropWhile_append_of_pos hdigits, hrest.1, hrest.2, List.append_nil]

theorem someDigits_run (n : Nat) (h : Ended rest) :
    someDigits.run (decimal n ++ rest) = .ok (decimal n, rest) := by
  have hne : ¬ (decimal n).isEmpty = true := by
    rw [List.isEmpty_iff]
    exact decimal_ne_nil n
  unfold someDigits
  rw [run_bind_ok (digits_run n h), if_neg hne]
  rfl

theorem wholePart_run (n : Nat) (h : Ended rest) :
    wholePart.run (decimal n ++ rest) = .ok (decimal n, rest) := by
  unfold wholePart
  rw [run_bind_ok (someDigits_run n h)]
  split
  case h_1 b bs hzero => cases decimal_eq_of_zero hzero
  case h_2 => rfl

theorem fractionPart_run (h : Ended rest) :
    fractionPart.run rest = .ok (none, rest) := by
  unfold fractionPart
  rw [run_bind_ok (peek_run rest)]
  split
  case h_1 hpoint => exact absurd rfl (h _ hpoint).2.1
  case h_2 => rfl

theorem exponentPart_run (h : Ended rest) :
    exponentPart.run rest = .ok (none, rest) := by
  unfold exponentPart
  rw [run_bind_ok (peek_run rest)]
  split
  case h_1 b hb =>
    have hnot : ¬ (b = 0x65 ∨ b = 0x45) := not_or.2 (h b hb).2.2
    rw [if_neg hnot]
    rfl
  case h_2 => rfl

/-- A number that was printed has no parts but its digits. -/
theorem parts_run {f : List UInt8 → Option (List UInt8) → Option Int → Reader α}
    (n : Nat) (h : Ended rest) :
    (do f (← wholePart) (← fractionPart) (← exponentPart)).run
        (decimal n ++ rest)
      = (f (decimal n) none none).run rest := by
  rw [run_bind_ok (wholePart_run n h), run_bind_ok (fractionPart_run h),
    run_bind_ok (exponentPart_run h)]

theorem not_isSome_none : ¬ ((none : Option (List UInt8)).isSome = true
    ∨ (none : Option Int).isSome = true) := by nofun

/-- A natural number of 64 bits is read back as it is. -/
theorem natural_run (hn : n < 0x10000000000000000) (h : Ended rest) :
    (numberAfterSign false).run (decimal n ++ rest)
      = .ok (.natural n, rest) := by
  unfold numberAfterSign
  rw [parts_run n h, valueOf_decimal, if_neg not_isSome_none,
    if_neg Bool.false_ne_true, if_pos hn]
  rfl

/-- Behind a minus sign a number is read back as far as 64 bits with a sign
reach. Only 0 is not, for it has no integer of its own there. -/
theorem negative_run (hpos : 0 < n) (hn : n ≤ 0x8000000000000000)
    (h : Ended rest) :
    (numberAfterSign true).run (decimal n ++ rest)
      = .ok (.negative n, rest) := by
  unfold numberAfterSign
  rw [parts_run n h, valueOf_decimal, if_neg not_isSome_none, if_pos rfl,
    if_neg (by omega)]
  rfl

end SymbolGraph.Json
