/-
UTF-8 is one to one: octets decode to a text exactly if they are what the
text is encoded as (`decode_eq_ok_iff`).

A character is at most four octets. The first says how many, and each of
the others carries six bits. What the first octet demands of the second
keeps overlong forms, surrogates and numbers beyond the last character
away; behind the second octet nothing is demanded but the six bits. So the
number of a character is cut into groups of six bits, of which the first
two are limited, and put together from them again: `Spells` is the one
direction for a single character, `eq_of_start?` with `encodeChar_two`,
`encodeChar_three` and `encodeChar_four` the other.
-/
import Mathlib.Tactic.SplitIfs
import SymbolGraph.Text.Utf8

namespace SymbolGraph.Utf8

-- ============================================================== octets

/-- An octet with some of its high bits set. -/
theorem octet_toNat {n k : Nat} (h : n + k < 256) :
    (UInt8.ofNat (n + k)).toNat = n + k :=
  UInt8.toNat_ofNat_of_lt' h

theorem Pending.accepts_iff (p : Pending) {m : Nat} (h : m < 64) :
    p.accepts (UInt8.ofNat (m + 128)) = true
      ↔ p.low.toNat ≤ m + 128 ∧ m + 128 ≤ p.high.toNat := by
  unfold Pending.accepts
  rw [Bool.and_eq_true, decide_eq_true_iff, decide_eq_true_iff,
    UInt8.le_iff_toNat_le, UInt8.le_iff_toNat_le, octet_toNat (by omega)]

theorem Pending.push_octet (p : Pending) {m : Nat} (h : m < 64) :
    p.push (UInt8.ofNat (m + 128)) = p.bits * 64 + m := by
  unfold Pending.push
  rw [octet_toNat (by omega)]
  show p.bits * 64 + (m + 128 - 128) = p.bits * 64 + m
  omega

/-- Behind the second octet every six bits may come. -/
theorem Pending.next_accepts (p : Pending) (b : UInt8) {m : Nat}
    (h : m < 64) : (p.next b).accepts (UInt8.ofNat (m + 128)) = true := by
  rw [accepts_iff _ h]
  show 128 ≤ m + 128 ∧ m + 128 ≤ 191
  omega

-- ======================================================= first octets

theorem start?_two {n : Nat} (h : 2 ≤ n) (h' : n < 32) :
    Pending.start? (UInt8.ofNat (n + 192)) = some { bits := n, more := 1 } := by
  unfold Pending.start?
  simp only [UInt8.le_iff_toNat_le, octet_toNat (show n + 192 < 256 by omega)]
  rw [if_pos (by show 194 ≤ n + 192 ∧ n + 192 ≤ 223; omega),
    Nat.add_sub_cancel]

/-- The first octet of three, and what it demands of the second. -/
theorem start?_three {n m : Nat} (h : n < 16) (hm : m < 64)
    (hlong : n = 0 → 32 ≤ m) (hsurrogate : n = 13 → m < 32) :
    ∃ p, Pending.start? (UInt8.ofNat (n + 224)) = some p ∧ p.bits = n
      ∧ p.more = 2 ∧ p.accepts (UInt8.ofNat (m + 128)) = true := by
  simp only [Pending.accepts_iff _ hm]
  by_cases hfirst : n = 0
  · subst hfirst
    exact ⟨_, rfl, rfl, rfl, by show 160 ≤ m + 128 ∧ m + 128 ≤ 191; omega⟩
  by_cases hmiddle : n = 13
  · subst hmiddle
    exact ⟨_, rfl, rfl, rfl, by show 128 ≤ m + 128 ∧ m + 128 ≤ 159; omega⟩
  refine ⟨{ bits := n, more := 2 }, ?_, rfl, rfl,
    by show 128 ≤ m + 128 ∧ m + 128 ≤ 191; omega⟩
  unfold Pending.start?
  simp only [UInt8.le_iff_toNat_le, ← UInt8.toNat_inj,
    octet_toNat (show n + 224 < 256 by omega)]
  rw [if_neg (by show ¬ (194 ≤ n + 224 ∧ n + 224 ≤ 223); omega),
    if_neg (by show ¬ n + 224 = 224; omega),
    if_neg (by show ¬ n + 224 = 237; omega),
    if_pos (by show 225 ≤ n + 224 ∧ n + 224 ≤ 239; omega),
    Nat.add_sub_cancel]

/-- The first octet of four, and what it demands of the second. -/
theorem start?_four {n m : Nat} (h : n < 5) (hm : m < 64)
    (hlong : n = 0 → 16 ≤ m) (hlast : n = 4 → m < 16) :
    ∃ p, Pending.start? (UInt8.ofNat (n + 240)) = some p ∧ p.bits = n
      ∧ p.more = 3 ∧ p.accepts (UInt8.ofNat (m + 128)) = true := by
  simp only [Pending.accepts_iff _ hm]
  by_cases hfirst : n = 0
  · subst hfirst
    exact ⟨_, rfl, rfl, rfl, by show 144 ≤ m + 128 ∧ m + 128 ≤ 191; omega⟩
  by_cases hend : n = 4
  · subst hend
    exact ⟨_, rfl, rfl, rfl, by show 128 ≤ m + 128 ∧ m + 128 ≤ 143; omega⟩
  refine ⟨{ bits := n, more := 3 }, ?_, rfl, rfl,
    by show 128 ≤ m + 128 ∧ m + 128 ≤ 191; omega⟩
  unfold Pending.start?
  simp only [UInt8.le_iff_toNat_le, ← UInt8.toNat_inj,
    octet_toNat (show n + 240 < 256 by omega)]
  rw [if_neg (by show ¬ (194 ≤ n + 240 ∧ n + 240 ≤ 223); omega),
    if_neg (by show ¬ n + 240 = 224; omega),
    if_neg (by show ¬ n + 240 = 237; omega),
    if_neg (by show ¬ (225 ≤ n + 240 ∧ n + 240 ≤ 239); omega),
    if_neg (by show ¬ n + 240 = 240; omega),
    if_neg (by show ¬ n + 240 = 244; omega),
    if_pos (by show 241 ≤ n + 240 ∧ n + 240 ≤ 243; omega),
    Nat.add_sub_cancel]

-- ============================================================ decoding

variable {index : Nat} {p : Pending} {b : UInt8} {rest : List UInt8}

theorem decodeFrom_start (h : ¬ b < 0x80) (hp : Pending.start? b = some p) :
    decodeFrom index none (b :: rest) = decodeFrom index (some p) rest := by
  rw [decodeFrom, if_neg h, hp]

theorem decodeFrom_next (h : p.accepts b = true) (hmore : p.more ≠ 1) :
    decodeFrom index (some p) (b :: rest)
      = decodeFrom index (some (p.next b)) rest := by
  rw [decodeFrom, if_pos h, if_neg hmore]

theorem decodeFrom_last {m : Nat} (hm : m < 64) (hmore : p.more = 1)
    (h : p.accepts (UInt8.ofNat (m + 128)) = true) :
    decodeFrom index (some p) (UInt8.ofNat (m + 128) :: rest)
      = (decodeFrom (index + p.taken + 1) none rest).map
          (Char.ofNat (p.bits * 64 + m) :: ·) := by
  rw [decodeFrom, if_pos h, if_pos hmore, p.push_octet hm]

/-- An octet that begins a longer character is not ASCII. -/
theorem not_ascii {n k : Nat} (h : n + k < 256) (hk : 128 ≤ k) :
    ¬ UInt8.ofNat (n + k) < 0x80 := by
  rw [UInt8.lt_iff_toNat_lt, octet_toNat h]
  show ¬ n + k < 128
  omega

/-- Decoding passes over these octets and gives the character with a
number. -/
def Spells (octets : List UInt8) (v : Nat) : Prop :=
  ∀ index rest, ∃ next, decodeFrom index none (octets ++ rest)
    = (decodeFrom next none rest).map (Char.ofNat v :: ·)

theorem spells_one {v : Nat} (h : v < 128) : Spells [UInt8.ofNat v] v := by
  intro index rest
  have hv : (UInt8.ofNat v).toNat = v := octet_toNat (k := 0) (by omega)
  have hascii : UInt8.ofNat v < 0x80 := by
    rw [UInt8.lt_iff_toNat_lt, hv]
    exact h
  rw [List.singleton_append, decodeFrom, if_pos hascii, hv]
  exact ⟨_, rfl⟩

theorem spells_two {v : Nat} (h : 128 ≤ v) (h' : v < 2048) :
    Spells [UInt8.ofNat (v / 64 + 192), UInt8.ofNat (v % 64 + 128)] v := by
  intro index rest
  have hstart := start?_two (n := v / 64) (by omega) (by omega)
  have hlast : Pending.accepts { bits := v / 64, more := 1 }
      (UInt8.ofNat (v % 64 + 128)) = true := by
    rw [Pending.accepts_iff _ (by omega)]
    show 128 ≤ v % 64 + 128 ∧ v % 64 + 128 ≤ 191
    omega
  have hbits : v / 64 * 64 + v % 64 = v := by omega
  rw [List.cons_append, List.singleton_append,
    decodeFrom_start (not_ascii (by omega) (by omega)) hstart,
    decodeFrom_last (by omega) rfl hlast, hbits]
  exact ⟨_, rfl⟩

theorem spells_three {v : Nat} (h : 2048 ≤ v) (h' : v < 65536)
    (hvalid : v < 0xd800 ∨ 0xdfff < v) :
    Spells [UInt8.ofNat (v / 4096 + 224), UInt8.ofNat (v / 64 % 64 + 128),
      UInt8.ofNat (v % 64 + 128)] v := by
  intro index rest
  obtain ⟨p, hstart, hbits, hmore, hsecond⟩ :=
    start?_three (n := v / 4096) (m := v / 64 % 64) (by omega) (by omega)
      (by omega) (by omega)
  have hlast : (p.next (UInt8.ofNat (v / 64 % 64 + 128))).bits * 64 + v % 64
      = v := by
    show p.push _ * 64 + v % 64 = v
    rw [p.push_octet (by omega), hbits]
    omega
  rw [List.cons_append, List.cons_append, List.singleton_append,
    decodeFrom_start (not_ascii (by omega) (by omega)) hstart,
    decodeFrom_next hsecond (by omega),
    decodeFrom_last (by omega) (by show p.more - 1 = 1; omega)
      (p.next_accepts _ (by omega)), hlast]
  exact ⟨_, rfl⟩

theorem spells_four {v : Nat} (h : 65536 ≤ v) (h' : v < 0x110000) :
    Spells [UInt8.ofNat (v / 262144 + 240),
      UInt8.ofNat (v / 4096 % 64 + 128), UInt8.ofNat (v / 64 % 64 + 128),
      UInt8.ofNat (v % 64 + 128)] v := by
  intro index rest
  obtain ⟨p, hstart, hbits, hmore, hsecond⟩ :=
    start?_four (n := v / 262144) (m := v / 4096 % 64) (by omega) (by omega)
      (by omega) (by omega)
  generalize hq : p.next (UInt8.ofNat (v / 4096 % 64 + 128)) = q
  have hqbits : q.bits = v / 4096 := by
    rw [← hq]
    show p.push _ = v / 4096
    rw [p.push_octet (by omega), hbits]
    omega
  have hqmore : q.more = 2 := by
    rw [← hq]
    show p.more - 1 = 2
    omega
  have hthird : q.accepts (UInt8.ofNat (v / 64 % 64 + 128)) = true := by
    rw [← hq]
    exact p.next_accepts _ (by omega)
  have hlast : (q.next (UInt8.ofNat (v / 64 % 64 + 128))).bits * 64 + v % 64
      = v := by
    show q.push _ * 64 + v % 64 = v
    rw [q.push_octet (by omega), hqbits]
    omega
  rw [List.cons_append, List.cons_append, List.cons_append,
    List.singleton_append,
    decodeFrom_start (not_ascii (by omega) (by omega)) hstart,
    decodeFrom_next hsecond (by omega), hq,
    decodeFrom_next hthird (by omega),
    decodeFrom_last (by omega) (by show q.more - 1 = 1; omega)
      (q.next_accepts _ (by omega)), hlast]
  exact ⟨_, rfl⟩

/-- The octets of a character spell it. -/
theorem spells_encodeChar (c : Char) :
    Spells (String.utf8EncodeChar c) c.toNat := by
  have hvalid : c.toNat < 0xd800 ∨ (0xdfff < c.toNat ∧ c.toNat < 0x110000) :=
    c.valid
  unfold String.utf8EncodeChar
  rw [show c.val.toNat = c.toNat from rfl]
  generalize c.toNat = v at hvalid
  dsimp only
  split
  · exact spells_one (by omega)
  · split
    · rw [show v / 64 % 32 = v / 64 by omega]
      exact spells_two (by omega) (by omega)
    · split
      · rw [show v / 4096 % 16 = v / 4096 by omega]
        exact spells_three (by omega) (by omega) (by omega)
      · rw [show v / 262144 % 8 = v / 262144 by omega]
        exact spells_four (by omega) (by omega)

theorem encodeChars_cons (c : Char) (chars : List Char) :
    encodeChars (c :: chars) = String.utf8EncodeChar c ++ encodeChars chars :=
  List.flatMap_cons

theorem decodeFrom_encodeChars (index : Nat) (chars : List Char) :
    decodeFrom index none (encodeChars chars) = .ok chars := by
  induction chars generalizing index with
  | nil => rfl
  | cons c chars ih =>
      obtain ⟨next, hnext⟩ := spells_encodeChar c index (encodeChars chars)
      rw [encodeChars_cons, hnext, ih, Char.ofNat_toNat]
      rfl

/-- Every text is what its octets decode to. -/
theorem decode_encode (s : String) : decode (encode s) = .ok s := by
  unfold decode encode
  rw [decodeFrom_encodeChars]
  show Except.ok (String.ofList s.toList) = .ok s
  rw [String.ofList_toList]

-- ========================================================= what is read

variable {octets : List UInt8} {chars : List Char}

/-- A character begun demands of the next octet that it carries six bits,
and perhaps some more. -/
def Pending.Ranged (p : Pending) : Prop :=
  128 ≤ p.low.toNat ∧ p.high.toNat ≤ 191

theorem Pending.ranged_next (p : Pending) (b : UInt8) : (p.next b).Ranged :=
  ⟨Nat.le_refl 128, Nat.le_refl 191⟩

/-- An octet that is accepted carries six bits, in the range. -/
theorem Pending.Ranged.octet (hp : p.Ranged) (h : p.accepts b = true) :
    ∃ m < 64, b = UInt8.ofNat (m + 128)
      ∧ p.low.toNat ≤ m + 128 ∧ m + 128 ≤ p.high.toNat := by
  obtain ⟨hlow, hhigh⟩ := hp
  unfold Pending.accepts at h
  rw [Bool.and_eq_true, decide_eq_true_iff, decide_eq_true_iff,
    UInt8.le_iff_toNat_le, UInt8.le_iff_toNat_le] at h
  refine ⟨b.toNat - 128, by omega, ?_, by omega, by omega⟩
  rw [Nat.sub_add_cancel (by omega), UInt8.ofNat_toNat]

/-- Decoding within a character goes on only behind an octet that is
accepted. -/
theorem eq_of_decodeFrom_some (hp : p.Ranged)
    (h : decodeFrom index (some p) octets = .ok chars) :
    ∃ m < 64, ∃ rest, octets = UInt8.ofNat (m + 128) :: rest
      ∧ p.low.toNat ≤ m + 128 ∧ m + 128 ≤ p.high.toNat
      ∧ p.accepts (UInt8.ofNat (m + 128)) = true := by
  cases octets with
  | nil => cases h
  | cons b rest =>
      cases haccepts : p.accepts b with
      | false =>
          rw [decodeFrom, if_neg (by rw [haccepts]; nofun)] at h
          cases h
      | true =>
          obtain ⟨m, hm, rfl, hrange⟩ := hp.octet haccepts
          exact ⟨m, hm, rest, rfl, hrange.1, hrange.2, haccepts⟩

/-- An octet within a character. -/
theorem eq_of_decodeFrom_next (hp : p.Ranged) (hmore : p.more ≠ 1)
    (h : decodeFrom index (some p) octets = .ok chars) :
    ∃ m < 64, ∃ rest q, octets = UInt8.ofNat (m + 128) :: rest
      ∧ p.low.toNat ≤ m + 128 ∧ m + 128 ≤ p.high.toNat
      ∧ q.Ranged ∧ q.bits = p.bits * 64 + m ∧ q.more = p.more - 1
      ∧ decodeFrom index (some q) rest = .ok chars := by
  obtain ⟨m, hm, rest, rfl, hlow, hhigh, haccepts⟩ :=
    eq_of_decodeFrom_some hp h
  rw [decodeFrom_next haccepts hmore] at h
  exact ⟨m, hm, rest, _, rfl, hlow, hhigh, p.ranged_next _, p.push_octet hm,
    rfl, h⟩

/-- What decodes behind a first character. -/
theorem eq_cons_of_map {c : Char} {result : Except Fault (List Char)}
    (h : result.map (c :: ·) = .ok chars) :
    ∃ tail, chars = c :: tail ∧ result = .ok tail := by
  cases result with
  | error e => cases h
  | ok tail =>
      cases h
      exact ⟨tail, rfl, rfl⟩

/-- The last octet of a character, and what comes behind it. -/
theorem eq_of_decodeFrom_last (hp : p.Ranged) (hmore : p.more = 1)
    (h : decodeFrom index (some p) octets = .ok chars) :
    ∃ m < 64, ∃ rest next tail, octets = UInt8.ofNat (m + 128) :: rest
      ∧ p.low.toNat ≤ m + 128 ∧ m + 128 ≤ p.high.toNat
      ∧ chars = Char.ofNat (p.bits * 64 + m) :: tail
      ∧ decodeFrom next none rest = .ok tail := by
  obtain ⟨m, hm, rest, rfl, hlow, hhigh, haccepts⟩ :=
    eq_of_decodeFrom_some hp h
  rw [decodeFrom_last hm hmore haccepts] at h
  obtain ⟨tail, rfl, htail⟩ := eq_cons_of_map h
  exact ⟨m, hm, rest, _, tail, rfl, hlow, hhigh, rfl, htail⟩

/-- The number of a first octet, and what it demands of the second. -/
theorem eq_of_start? (h : Pending.start? b = some p) :
    p.Ranged ∧
      ((∃ n, 2 ≤ n ∧ n < 32 ∧ b = UInt8.ofNat (n + 192) ∧ p.bits = n
          ∧ p.more = 1)
        ∨ (∃ n, n < 16 ∧ b = UInt8.ofNat (n + 224) ∧ p.bits = n ∧ p.more = 2
          ∧ (n = 0 → 160 ≤ p.low.toNat) ∧ (n = 13 → p.high.toNat ≤ 159))
        ∨ ∃ n, n < 5 ∧ b = UInt8.ofNat (n + 240) ∧ p.bits = n ∧ p.more = 3
          ∧ (n = 0 → 144 ≤ p.low.toNat) ∧ (n = 4 → p.high.toNat ≤ 143)) := by
  have hback : ∀ k, k ≤ b.toNat → b = UInt8.ofNat (b.toNat - k + k) := by
    intro k hk
    rw [Nat.sub_add_cancel hk, UInt8.ofNat_toNat]
  have hplain : (128 : Nat) ≤ 128 ∧ (191 : Nat) ≤ 191 := by omega
  unfold Pending.start? at h
  simp only [UInt8.le_iff_toNat_le, ← UInt8.toNat_inj] at h
  split_ifs at h with htwo hfirst hmiddle hthree hfirst' hend hfour
  all_goals obtain rfl := Option.some.inj h
  · have htwo : 194 ≤ b.toNat ∧ b.toNat ≤ 223 := htwo
    exact ⟨hplain, .inl
      ⟨_, by omega, by omega, hback 192 (by omega), rfl, rfl⟩⟩
  · exact ⟨⟨by decide, by decide⟩, .inr (.inl ⟨0, by omega,
      UInt8.toNat_inj.1 hfirst, rfl, rfl, fun _ => Nat.le_refl _, nofun⟩)⟩
  · exact ⟨⟨by decide, by decide⟩, .inr (.inl ⟨13, by omega,
      UInt8.toNat_inj.1 hmiddle, rfl, rfl, nofun, fun _ => Nat.le_refl _⟩)⟩
  · have hthree : 225 ≤ b.toNat ∧ b.toNat ≤ 239 := hthree
    have hmiddle : ¬ b.toNat = 237 := hmiddle
    exact ⟨hplain, .inr (.inl
      ⟨_, by omega, hback 224 (by omega), rfl, rfl, by omega, by omega⟩)⟩
  · exact ⟨⟨by decide, by decide⟩, .inr (.inr ⟨0, by omega,
      UInt8.toNat_inj.1 hfirst', rfl, rfl, fun _ => Nat.le_refl _, nofun⟩)⟩
  · exact ⟨⟨by decide, by decide⟩, .inr (.inr ⟨4, by omega,
      UInt8.toNat_inj.1 hend, rfl, rfl, nofun, fun _ => Nat.le_refl _⟩)⟩
  · have hfour : 241 ≤ b.toNat ∧ b.toNat ≤ 243 := hfour
    exact ⟨hplain, .inr (.inr
      ⟨_, by omega, hback 240 (by omega), rfl, rfl, by omega, by omega⟩)⟩

-- ================================================= octets of a number

/-- The octets of the character with a number, said of the number. -/
theorem encodeChar_ofNat {v : Nat}
    (hvalid : v < 0xd800 ∨ (0xdfff < v ∧ v < 0x110000)) :
    String.utf8EncodeChar (Char.ofNat v)
      = if v ≤ 127 then [UInt8.ofNat v]
        else if v ≤ 2047 then
          [UInt8.ofNat (v / 64 % 32 + 192), UInt8.ofNat (v % 64 + 128)]
        else if v ≤ 65535 then
          [UInt8.ofNat (v / 4096 % 16 + 224), UInt8.ofNat (v / 64 % 64 + 128),
            UInt8.ofNat (v % 64 + 128)]
        else
          [UInt8.ofNat (v / 262144 % 8 + 240),
            UInt8.ofNat (v / 4096 % 64 + 128), UInt8.ofNat (v / 64 % 64 + 128),
            UInt8.ofNat (v % 64 + 128)] := by
  have hv : (Char.ofNat v).val.toNat = v := by
    unfold Char.ofNat
    rw [dif_pos hvalid]
    rfl
  unfold String.utf8EncodeChar
  rw [hv]

theorem encodeChar_one {v : Nat} (h : v < 128) :
    String.utf8EncodeChar (Char.ofNat v) = [UInt8.ofNat v] := by
  rw [encodeChar_ofNat (by omega), if_pos (by omega)]

theorem encodeChar_two {n m : Nat} (h : 2 ≤ n) (h' : n < 32) (hm : m < 64) :
    String.utf8EncodeChar (Char.ofNat (n * 64 + m))
      = [UInt8.ofNat (n + 192), UInt8.ofNat (m + 128)] := by
  rw [encodeChar_ofNat (by omega), if_neg (by omega), if_pos (by omega)]
  congr 3 <;> omega

theorem encodeChar_three {n m₁ m₂ : Nat} (h : n < 16) (hm₁ : m₁ < 64)
    (hm₂ : m₂ < 64) (hlong : n = 0 → 32 ≤ m₁) (hsurrogate : n = 13 → m₁ < 32) :
    String.utf8EncodeChar (Char.ofNat ((n * 64 + m₁) * 64 + m₂))
      = [UInt8.ofNat (n + 224), UInt8.ofNat (m₁ + 128),
        UInt8.ofNat (m₂ + 128)] := by
  rw [encodeChar_ofNat (by omega), if_neg (by omega), if_neg (by omega),
    if_pos (by omega),
    show ((n * 64 + m₁) * 64 + m₂) / 4096 % 16 = n by omega,
    show ((n * 64 + m₁) * 64 + m₂) / 64 % 64 = m₁ by omega,
    show ((n * 64 + m₁) * 64 + m₂) % 64 = m₂ by omega]

theorem encodeChar_four {n m₁ m₂ m₃ : Nat} (h : n < 5) (hm₁ : m₁ < 64)
    (hm₂ : m₂ < 64) (hm₃ : m₃ < 64) (hlong : n = 0 → 16 ≤ m₁)
    (hlast : n = 4 → m₁ < 16) :
    String.utf8EncodeChar
        (Char.ofNat (((n * 64 + m₁) * 64 + m₂) * 64 + m₃))
      = [UInt8.ofNat (n + 240), UInt8.ofNat (m₁ + 128),
        UInt8.ofNat (m₂ + 128), UInt8.ofNat (m₃ + 128)] := by
  rw [encodeChar_ofNat (by omega), if_neg (by omega), if_neg (by omega),
    if_neg (by omega),
    show (((n * 64 + m₁) * 64 + m₂) * 64 + m₃) / 262144 % 8 = n by omega,
    show (((n * 64 + m₁) * 64 + m₂) * 64 + m₃) / 4096 % 64 = m₁ by omega,
    show (((n * 64 + m₁) * 64 + m₂) * 64 + m₃) / 64 % 64 = m₂ by omega,
    show (((n * 64 + m₁) * 64 + m₂) * 64 + m₃) % 64 = m₃ by omega]

/-- What decodes is what its characters are encoded as. -/
theorem encodeChars_of_decodeFrom
    (h : decodeFrom index none octets = .ok chars) :
    encodeChars chars = octets := by
  induction hlength : octets.length using Nat.strongRecOn
    generalizing index octets chars with
  | _ n ih =>
  cases octets with
  | nil => cases h; rfl
  | cons b rest =>
    rw [decodeFrom] at h
    split at h
    case isTrue hascii =>
      have hb : b.toNat < 128 := UInt8.lt_iff_toNat_lt.1 hascii
      obtain ⟨tail, rfl, htail⟩ := eq_cons_of_map h
      rw [encodeChars_cons, encodeChar_one hb, UInt8.ofNat_toNat,
        ih _ (by simp only [← hlength, List.length_cons]; omega) htail rfl]
      rfl
    case isFalse =>
      cases hstart : Pending.start? b with
      | none => rw [hstart] at h; cases h
      | some p =>
        rw [hstart] at h
        dsimp only at h
        obtain ⟨hp, ⟨n, hn, hn', rfl, hbits, hmore⟩
          | ⟨n, hn, rfl, hbits, hmore, hlong, hsurrogate⟩
          | ⟨n, hn, rfl, hbits, hmore, hlong, hlast⟩⟩ := eq_of_start? hstart
        · obtain ⟨m, hm, rest, next, tail, rfl, -, -, rfl, htail⟩ :=
            eq_of_decodeFrom_last hp hmore h
          rw [hbits, encodeChars_cons, encodeChar_two hn hn' hm,
            ih _ (by simp only [← hlength, List.length_cons]; omega) htail rfl]
          rfl
        · obtain ⟨m, hm, rest, q, rfl, hlow, hhigh, hq, hqbits, hqmore, h⟩ :=
            eq_of_decodeFrom_next hp (by omega) h
          obtain ⟨m', hm', rest, next, tail, rfl, -, -, rfl, htail⟩ :=
            eq_of_decodeFrom_last hq (by omega) h
          rw [hqbits, hbits, encodeChars_cons,
            encodeChar_three hn hm hm' (by omega) (by omega),
            ih _ (by simp only [← hlength, List.length_cons]; omega) htail rfl]
          rfl
        · obtain ⟨m, hm, rest, q, rfl, hlow, hhigh, hq, hqbits, hqmore, h⟩ :=
            eq_of_decodeFrom_next hp (by omega) h
          obtain ⟨m', hm', rest, q', rfl, -, -, hq', hqbits', hqmore', h⟩ :=
            eq_of_decodeFrom_next hq (by omega) h
          obtain ⟨m'', hm'', rest, next, tail, rfl, -, -, rfl, htail⟩ :=
            eq_of_decodeFrom_last hq' (by omega) h
          rw [hqbits', hqbits, hbits, encodeChars_cons,
            encodeChar_four hn hm hm' hm'' (by omega) (by omega),
            ih _ (by simp only [← hlength, List.length_cons]; omega) htail rfl]
          rfl

/-- Octets are a text if and only if they are the octets of the text. -/
theorem decode_eq_ok_iff {s : String} :
    decode octets = .ok s ↔ octets = encode s := by
  constructor
  · intro h
    unfold decode at h
    cases hchars : decodeFrom 0 none octets with
    | error e => rw [hchars] at h; cases h
    | ok chars =>
        rw [hchars] at h
        cases h
        unfold encode
        rw [String.toList_ofList, encodeChars_of_decodeFrom hchars]
  · rintro rfl
    exact decode_encode s

end SymbolGraph.Utf8
