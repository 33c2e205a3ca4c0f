/-
Quoted texts read back. An octet, escaped, is read as the octet
(`textOctets_escape`), whether it stands for itself, behind a backslash or
as four hexadecimal digits. So the octets between the quotes are those of
the text, and UTF-8 gives the text back. Escapes touch ASCII octets only,
but nothing here depends on that: any octets at all come back.
-/
import SymbolGraph.Codec.Json.Printer
import SymbolGraph.Codec.Json.Scanner
import SymbolGraph.Proofs.Text.Utf8

namespace SymbolGraph.Json

variable {rest : List UInt8}

-- ================================================== hexadecimal digits

theorem hexValue?_hexDigit {d : Nat} (h : d < 16) :
    hexValue? (hexDigit d) = some d :=
  have hall : ∀ i : Fin 16, hexValue? (hexDigit i) = some i.val := by decide
  hall ⟨d, h⟩

/-- The four digits that stand for an octet. -/
theorem hexFour_octet (b : UInt8) :
    hexFour 0x30 0x30 (hexDigit (b.toNat / 16)) (hexDigit (b.toNat % 16))
      = .ok b.toNat := by
  have hb : b.toNat < 256 := b.toNat_lt
  have hvalue : ((0 * 16 + 0) * 16 + b.toNat / 16) * 16 + b.toNat % 16
      = b.toNat := by omega
  unfold hexFour
  rw [hexValue?_hexDigit (by omega), hexValue?_hexDigit (by omega)]
  show Except.ok (((0 * 16 + 0) * 16 + b.toNat / 16) * 16 + b.toNat % 16) = _
  rw [hvalue]

/-- An ASCII character has one octet. -/
theorem octetsOf_octet {b : UInt8} (h : b.toNat < 128) :
    octetsOf b.toNat = [b] := by
  unfold octetsOf
  rw [Utf8.encodeChar_one h, UInt8.ofNat_toNat]

-- ============================================================= escapes

/-- Control characters, quotes and backslashes apart, an octet stands for
itself. -/
theorem escape_plain {b : UInt8} (hquote : b ≠ 0x22) (hplain : ¬ b < 0x20)
    (hbackslash : b ≠ 0x5c) : escape b = [b] := by
  have hne : ∀ c : UInt8, c < 0x20 → b ≠ c := fun c hc h => hplain (h ▸ hc)
  unfold escape
  rw [if_neg hquote, if_neg hbackslash, if_neg (hne _ (by decide)),
    if_neg (hne _ (by decide)), if_neg (hne _ (by decide)),
    if_neg (hne _ (by decide)), if_neg (hne _ (by decide)), if_neg hplain]

/-- What is read behind an octet of a text. -/
def follow (octets : List UInt8) (p : List UInt8 × List UInt8) :
    List UInt8 × List UInt8 :=
  (octets ++ p.1, p.2)

theorem textOctets_quote (rest : List UInt8) :
    textOctets (0x22 :: rest) = .ok ([], rest) := by
  rw [textOctets.eq_def]
  exact if_pos rfl

theorem textOctets_plain {b : UInt8} (hquote : b ≠ 0x22) (hplain : ¬ b < 0x20)
    (hbackslash : b ≠ 0x5c) (rest : List UInt8) :
    textOctets (b :: rest) = (textOctets rest).map (follow [b]) := by
  rw [textOctets.eq_def]
  dsimp only
  rw [if_neg hquote, if_neg hplain, if_neg hbackslash]
  rfl

theorem textOctets_short {letter b : UInt8} (h : shortEscape? letter = some b)
    (rest : List UInt8) :
    textOctets (0x5c :: letter :: rest)
      = (textOctets rest).map (follow [b]) := by
  have hletter : letter ≠ 0x75 := by
    rintro rfl
    cases h
  rw [textOctets]
  · rw [h]
    rfl
  · exact fun _ _ _ _ _ hcode => absurd hcode hletter
  · exact hletter

theorem textOctets_code {a b c d : UInt8} {n : Nat}
    (h : hexFour a b c d = .ok n) (hascii : n < 128) (rest : List UInt8) :
    textOctets (0x5c :: 0x75 :: a :: b :: c :: d :: rest)
      = (textOctets rest).map (follow (octetsOf n)) := by
  have htrailing : isTrailingSurrogate n = false := by
    unfold isTrailingSurrogate
    rw [Bool.and_eq_false_iff, decide_eq_false_iff_not]
    exact .inl (by omega)
  have hleading : isLeadingSurrogate n = false := by
    unfold isLeadingSurrogate
    rw [Bool.and_eq_false_iff, decide_eq_false_iff_not]
    exact .inl (by omega)
  rw [textOctets, h]
  show (if isTrailingSurrogate n = true then _
    else if isLeadingSurrogate n = true then _ else _) = _
  rw [htrailing, hleading]
  rfl

/-- An escaped octet is read as the octet. -/
theorem textOctets_escape (b : UInt8) (rest : List UInt8) :
    textOctets (escape b ++ rest) = (textOctets rest).map (follow [b]) := by
  unfold escape
  split_ifs with hquote hbackslash hback hform hline hreturn htab hcontrol
  · subst hquote
    exact textOctets_short rfl rest
  · subst hbackslash
    exact textOctets_short rfl rest
  · subst hback
    exact textOctets_short rfl rest
  · subst hform
    exact textOctets_short rfl rest
  · subst hline
    exact textOctets_short rfl rest
  · subst hreturn
    exact textOctets_short rfl rest
  · subst htab
    exact textOctets_short rfl rest
  · have hascii : b.toNat < 128 :=
      Nat.lt_trans (UInt8.lt_iff_toNat_lt.1 hcontrol) (by decide)
    rw [← octetsOf_octet hascii]
    exact textOctets_code (hexFour_octet b) hascii rest
  · exact textOctets_plain hquote hcontrol hbackslash rest

/-- Escaped octets are read as the octets, up to the closing quote. -/
theorem textOctets_flatMap_escape (octets rest : List UInt8) :
    textOctets (octets.flatMap escape ++ 0x22 :: rest)
      = .ok (octets, rest) := by
  induction octets with
  | nil => exact textOctets_quote rest
  | cons b octets ih =>
      rw [List.flatMap_cons, List.append_assoc, textOctets_escape, ih]
      rfl

/-- Octets in quotes are read as the text that they encode. -/
theorem textBody_run (s : String) (rest : List UInt8) :
    textBody.run ((Utf8.encode s).flatMap escape ++ 0x22 :: rest)
      = .ok (s, rest) := by
  show (textOctets _ >>= _) = _
  rw [textOctets_flatMap_escape]
  dsimp only [bind, Except.bind]
  rw [Utf8.decode_encode]

end SymbolGraph.Json
