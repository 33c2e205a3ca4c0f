/-
What a reader can answer is bounded by what it is given. A reader never
leaves more octets than it found, and what it answers satisfies a condition
on their number (`Bounded`). A list has no more items than there were
octets at the start, since the loop that reads it is bounded by those at
hand; and an escape is never shorter than what it stands for, so a text has
no more octets than were read for it.

A reader is bounded because its parts are, so the lemmas follow the readers
one by one.
-/
import SymbolGraph.Codec.Json.Value
import SymbolGraph.Proofs.Except
import SymbolGraph.Proofs.Text.Utf8

namespace SymbolGraph.Json

variable {α β M : Type} {n : Nat} {P : α → Prop} {Q : β → Prop}
  {r : Reader α} {f : α → Reader β}

-- ============================================================ bounded

/-- From at most `n` octets the reader answers what satisfies `P`, and it
leaves at most `n`. -/
def Bounded (n : Nat) (P : α → Prop) (r : Reader α) : Prop :=
  ∀ input a rest, input.length ≤ n → r.run input = .ok (a, rest) →
    rest.length ≤ n ∧ P a

/-- The same where nothing is asked of the answer. -/
abbrev Shrinks (n : Nat) (r : Reader α) : Prop := Bounded n (fun _ => True) r

theorem Bounded.pure {a : α} (h : P a) : Bounded n P (pure a) := by
  intro input a' rest hinput hrun
  cases hrun
  exact ⟨hinput, h⟩

theorem bounded_throw (e : Fault) : Bounded n P (throw e : Reader α) :=
  fun _ _ _ _ hrun => nomatch hrun

theorem Bounded.bind (h : Bounded n P r) (h' : ∀ a, P a → Bounded n Q (f a)) :
    Bounded n Q (r >>= f) := by
  intro input b rest hinput hrun
  rw [StateT.run_bind, bind_eq_ok_iff] at hrun
  obtain ⟨p, hfirst, hrun⟩ := hrun
  obtain ⟨hrest, hp⟩ := h _ _ _ hinput hfirst
  exact h' p.1 hp _ _ _ hrest hrun

/-- Where nothing is to be known of what was read first. -/
theorem Bounded.then (h : Shrinks n r) (h' : ∀ a, Bounded n Q (f a)) :
    Bounded n Q (r >>= f) :=
  h.bind fun a _ => h' a

/-- Whichever of two readers it is. -/
theorem Bounded.ite {c : Prop} [Decidable c] {r' : Reader α}
    (h : Bounded n P r) (h' : Bounded n P r') :
    Bounded n P (if c then r else r') := by
  split
  · exact h
  · exact h'

theorem Bounded.shrinks (h : Bounded n P r) : Shrinks n r :=
  fun _ _ _ hinput hrun => ⟨(h _ _ _ hinput hrun).1, trivial⟩

/-- A reader that fails in any case answers nothing. -/
theorem bounded_bind_throw (r : Reader α) (e : α → Fault) :
    Bounded n Q (r >>= fun a => throw (e a)) := by
  intro input b rest _ hrun
  rw [StateT.run_bind, bind_eq_ok_iff] at hrun
  obtain ⟨p, -, hrun⟩ := hrun
  cases hrun

theorem bounded_throw_bind (e : Fault) (f : α → Reader β) :
    Bounded n Q ((throw e : Reader α) >>= f) :=
  fun _ _ _ _ hrun => nomatch hrun

-- ============================================================= octets

theorem shrinks_peek : Shrinks n peek := by
  intro input a rest hinput hrun
  cases hrun
  exact ⟨hinput, trivial⟩

theorem shrinks_advance : Shrinks n advance := by
  intro input a rest hinput hrun
  cases hrun
  refine ⟨?_, trivial⟩
  rw [List.length_tail]
  omega

theorem shrinks_peekSolid : Shrinks n peekSolid := by
  refine Bounded.then (fun input a rest hinput hrun => ?_)
    fun _ => shrinks_peek
  cases hrun
  exact ⟨Nat.le_trans (List.dropWhile_sublist _).length_le hinput, trivial⟩

theorem shrinks_word (letters : List UInt8) : Shrinks n (word letters) := by
  induction letters with
  | nil => exact .pure trivial
  | cons letter letters ih =>
      refine shrinks_peek.then fun octet => ?_
      cases octet with
      | none => exact bounded_throw _
      | some b =>
          exact .ite (shrinks_advance.then fun _ => ih) (bounded_throw _)

theorem shrinks_firstOctet : Shrinks n firstOctet := by
  refine shrinks_peekSolid.then fun octet => ?_
  cases octet with
  | none => exact bounded_throw _
  | some b => exact .pure trivial

-- ============================================================ numbers

theorem shrinks_digits : Shrinks n digits := by
  intro input a rest hinput hrun
  cases hrun
  exact ⟨Nat.le_trans (List.dropWhile_sublist _).length_le hinput, trivial⟩

theorem shrinks_someDigits : Shrinks n someDigits := by
  refine shrinks_digits.then fun ds => .ite ?_ (.pure trivial)
  refine shrinks_peek.then fun octet => ?_
  cases octet <;> exact bounded_throw _

theorem shrinks_wholePart : Shrinks n wholePart := by
  refine shrinks_someDigits.then fun ds => ?_
  split
  · exact bounded_throw _
  · exact .pure trivial

theorem shrinks_fractionPart : Shrinks n fractionPart := by
  refine shrinks_peek.then fun octet => ?_
  split
  · exact shrinks_advance.then fun _ => shrinks_someDigits.then fun _ =>
      .pure trivial
  · exact .pure trivial

theorem shrinks_exponentPart : Shrinks n exponentPart := by
  refine shrinks_peek.then fun octet => ?_
  split
  · split
    · have hdigits : ∀ isNegative : Bool, Shrinks n (do
          let m : Int := valueOf (← someDigits)
          return some (if isNegative then -m else m)) := fun _ =>
        shrinks_someDigits.then fun _ => .pure trivial
      refine shrinks_advance.then fun _ => shrinks_peek.then fun sign => ?_
      split
      · exact shrinks_advance.then fun _ => hdigits true
      · exact shrinks_advance.then fun _ => hdigits false
      · exact hdigits false
    · exact .pure trivial
  · exact .pure trivial

theorem shrinks_numberAfterSign (isNegative : Bool) :
    Shrinks n (numberAfterSign isNegative) := by
  refine shrinks_wholePart.then fun whole => shrinks_fractionPart.then
    fun fraction => shrinks_exponentPart.then fun exponent => ?_
  extract_lets value asFloat
  have hfloat : Shrinks n asFloat := by
    unfold asFloat
    split
    · exact .pure trivial
    · exact bounded_throw _
  exact .ite hfloat (.ite (.ite hfloat (.pure trivial))
    (.ite (.pure trivial) hfloat))

theorem shrinks_skipping {part : Reader Unit} (h : Shrinks n part) :
    Shrinks n (skipping part) := by
  intro input a rest hinput hrun
  refine h input a rest hinput ?_
  simp only [StateT.run, skipping] at hrun
  split at hrun
  · cases hrun
  · exact hrun

theorem shrinks_skipNumberAfterSign : Shrinks n skipNumberAfterSign :=
  shrinks_skipping (shrinks_wholePart.then fun _ =>
    shrinks_fractionPart.then fun _ => shrinks_exponentPart.then fun _ =>
      .pure trivial)

-- =============================================================== texts

theorem length_octetsOf_le (n : Nat) : (octetsOf n).length ≤ 4 := by
  unfold octetsOf
  rw [String.length_utf8EncodeChar]
  exact Char.utf8Size_le_four _

/-- Octets in front of a text, where the text has no more than stand for
it. -/
theorem length_of_front (front : List UInt8) {input octets rest : List UInt8}
    (ih : ∀ {octets rest}, textOctets input = .ok (octets, rest) →
      octets.length + rest.length ≤ input.length)
    (h : (do let p ← textOctets input; return (front ++ p.1, p.2))
      = Except.ok (octets, rest)) :
    octets.length + rest.length ≤ front.length + input.length := by
  obtain ⟨p, hp, h⟩ := bind_eq_ok_iff.1 h
  obtain ⟨rfl, rfl⟩ := Prod.ext_iff.1 (Except.ok.inj h)
  have hlength := ih hp
  show (front ++ p.1).length + p.2.length ≤ _
  rw [List.length_append]
  omega

/-- A quoted text has no more octets than stand for it. -/
theorem length_of_textOctets {input octets rest : List UInt8}
    (h : textOctets input = .ok (octets, rest)) :
    octets.length + rest.length ≤ input.length := by
  fun_induction textOctets input generalizing octets rest
  case case2 =>
    cases h
    simp
  case case5 a b c d behind ihpair ih =>
    obtain ⟨unit, -, h⟩ := bind_eq_ok_iff.1 h
    split at h
    · cases h
    · split at h
      · split at h
        case h_1 =>
          obtain ⟨unit', -, h⟩ := bind_eq_ok_iff.1 h
          split at h
          · have hlength := length_of_front _ ihpair h
            have hfront := length_octetsOf_le
              (0x10000 + (unit - 0xd800) * 0x400 + (unit' - 0xdc00))
            simp only [List.length_cons]
            omega
          · cases h
        all_goals cases h
      · have hlength := length_of_front _ ih h
        have hfront := length_octetsOf_le unit
        simp only [List.length_cons]
        omega
  case case8 ih =>
    have hlength := length_of_front [_] ih h
    simp only [List.length_cons, List.length_nil] at hlength ⊢
    omega
  case case9 ih =>
    have hlength := length_of_front [_] ih h
    simp only [List.length_cons, List.length_nil] at hlength ⊢
    omega
  all_goals cases h

theorem bounded_textBody :
    Bounded n (fun s => (Utf8.encode s).length ≤ n) textBody := by
  intro input s rest hinput hrun
  obtain ⟨⟨octets, behind⟩, hoctets, hrun⟩ := bind_eq_ok_iff.1 hrun
  have hlength := length_of_textOctets hoctets
  dsimp only at hrun
  split at hrun
  case h_1 s' hdecode =>
    cases hrun
    refine ⟨by omega, ?_⟩
    show (Utf8.encode s).length ≤ n
    rw [← Utf8.decode_eq_ok_iff.1 hdecode]
    omega
  case h_2 => cases hrun

theorem length_of_skipText {input rest : List UInt8}
    (h : skipText input = .ok rest) : rest.length ≤ input.length := by
  fun_induction skipText input
  case case2 =>
    cases h
    exact Nat.le_succ _
  case case5 ih =>
    obtain ⟨unit, -, h⟩ := bind_eq_ok_iff.1 h
    have := ih h
    simp only [List.length_cons]
    omega
  case case7 ih =>
    have := ih h
    simp only [List.length_cons]
    omega
  case case9 ih => exact Nat.le_succ_of_le (ih h)
  all_goals cases h

theorem shrinks_skipTextBody : Shrinks n skipTextBody := by
  intro input a rest hinput hrun
  obtain ⟨behind, hbehind, hrun⟩ := bind_eq_ok_iff.1 hrun
  cases hrun
  exact ⟨Nat.le_trans (length_of_skipText hbehind) hinput, trivial⟩

-- ============================================================= scalars

theorem bounded_unwanted (wanted : String) (b : UInt8) :
    Bounded n P (unwanted wanted b : Reader α) :=
  bounded_bind_throw _ _

theorem shrinks_numberValue (wanted : String) :
    Shrinks n (numberValue wanted) := by
  refine shrinks_firstOctet.then fun b => .ite ?_ (.ite ?_ ?_)
  · exact shrinks_advance.then fun _ => shrinks_numberAfterSign _
  · exact shrinks_numberAfterSign _
  · exact bounded_unwanted _ _

theorem shrinks_unsigned (limit : Nat) (wanted : String) :
    Shrinks n (unsigned limit wanted) := by
  refine (shrinks_numberValue wanted).then fun number => ?_
  cases number with
  | natural m => exact .ite (.pure trivial) (bounded_throw _)
  | negative m => exact bounded_throw _
  | float x => exact bounded_throw _

theorem shrinks_u8Value : Shrinks n u8Value :=
  (shrinks_unsigned _ _).then fun _ => .pure trivial

theorem shrinks_u32Value : Shrinks n u32Value :=
  (shrinks_unsigned _ _).then fun _ => .pure trivial

theorem shrinks_u64Value : Shrinks n u64Value :=
  (shrinks_unsigned _ _).then fun _ => .pure trivial

theorem shrinks_i32Value : Shrinks n i32Value := by
  refine (shrinks_numberValue _).then fun number => ?_
  cases number with
  | natural m => exact .ite (.pure trivial) (bounded_throw _)
  | negative m => exact .ite (.pure trivial) (bounded_throw _)
  | float x => exact bounded_throw _

theorem shrinks_boolValue : Shrinks n boolValue := by
  have hword : ∀ (letters : List UInt8) (value : Bool), Shrinks n (do
      advance
      word letters
      return value : Reader Bool) := fun letters _ =>
    shrinks_advance.then fun _ => (shrinks_word letters).then fun _ =>
      .pure trivial
  exact shrinks_firstOctet.then fun b =>
    .ite (hword _ _) (.ite (hword _ _) (bounded_unwanted _ _))

theorem bounded_textValue :
    Bounded n (fun s => (Utf8.encode s).length ≤ n) textValue :=
  shrinks_firstOctet.then fun _ => .ite
    (shrinks_advance.then fun _ => bounded_textBody) (bounded_unwanted _ _)

-- =============================================================== lists

theorem shrinks_nextItem (isFirst : Bool) : Shrinks n (nextItem isFirst) := by
  refine shrinks_firstOctet.then fun b => .ite (.pure trivial)
    (.ite (.pure trivial) (.ite ?_ (bounded_throw _)))
  refine shrinks_advance.then fun _ => shrinks_firstOctet.then fun next => ?_
  split
  · exact bounded_throw _
  · exact .pure trivial

theorem shrinks_endList : Shrinks n endList :=
  shrinks_firstOctet.then fun _ => .ite shrinks_advance (bounded_throw _)

/-- The loop gives out fewer items than its bound. -/
theorem bounded_items (h : Bounded n P r) (fuel : Nat) (isFirst : Bool) :
    Bounded n (fun l => l.length < fuel ∧ ∀ a ∈ l, P a)
      (items r fuel isFirst) := by
  induction fuel generalizing isFirst with
  | zero => exact bounded_throw _
  | succ fuel ih =>
      refine (shrinks_nextItem isFirst).then fun more => ?_
      split
      · refine h.bind fun a ha => (ih false).bind fun l hl => .pure ⟨?_, ?_⟩
        · exact Nat.succ_lt_succ hl.1
        · exact List.forall_mem_cons.2 ⟨ha, hl.2⟩
      · exact .pure ⟨Nat.succ_pos _, nofun⟩

theorem bounded_itemBound : Bounded n (fun bound => bound ≤ n + 1) itemBound := by
  intro input bound rest hinput hrun
  cases hrun
  exact ⟨hinput, Nat.succ_le_succ hinput⟩

theorem bounded_listValue (h : Bounded n P r) :
    Bounded n (fun l => l.length ≤ n ∧ ∀ a ∈ l, P a) (listValue r) := by
  refine shrinks_firstOctet.then fun b => .ite ?_ (bounded_unwanted _ _)
  refine shrinks_advance.then fun _ => bounded_itemBound.bind
    fun bound hbound => (bounded_items h bound true).bind fun l hl =>
      shrinks_endList.then fun _ => .pure ⟨?_, hl.2⟩
  omega

-- ============================================================= objects

theorem shrinks_nextKey (isFirst : Bool) : Shrinks n (nextKey isFirst) := by
  have hquote : ∀ b : UInt8, Shrinks n
      (if b = 0x22 then return true else throw .malformed : Reader Bool) :=
    fun b => .ite (.pure trivial) (bounded_throw _)
  refine shrinks_firstOctet.then fun b => .ite (.pure trivial) ?_
  split
  · exact hquote b
  · split
    · exact shrinks_advance.then fun _ => shrinks_firstOctet.then hquote
    · exact bounded_throw _

theorem shrinks_colon : Shrinks n colon :=
  shrinks_firstOctet.then fun _ => .ite shrinks_advance (bounded_throw _)

theorem shrinks_endObject : Shrinks n endObject :=
  shrinks_firstOctet.then fun _ => .ite shrinks_advance (bounded_throw _)

theorem shrinks_idKey : Shrinks n idKey := by
  refine shrinks_advance.then fun _ => shrinks_peek.then fun octet => ?_
  split
  · split
    · refine shrinks_u32Value.then fun key => shrinks_peek.then fun octet => ?_
      split
      · exact shrinks_advance.then fun _ => .pure trivial
      · exact bounded_throw _
    · exact bounded_throw_bind _ _
  · exact bounded_throw_bind _ _

theorem bounded_idMembers (h : Bounded n P r) (fuel : Nat) (isFirst : Bool) :
    Bounded n (fun l => ∀ e ∈ l, P e.2) (idMembers r fuel isFirst) := by
  induction fuel generalizing isFirst with
  | zero => exact bounded_throw _
  | succ fuel ih =>
      refine (shrinks_nextKey isFirst).then fun more => ?_
      split
      · exact shrinks_idKey.then fun key => shrinks_colon.then fun _ =>
          h.bind fun v hv => (ih false).bind fun l hl =>
            .pure (List.forall_mem_cons.2 ⟨hv, hl⟩)
      · exact .pure nofun

theorem bounded_idMapValue (h : Bounded n P r) :
    Bounded n (fun l => ∀ e ∈ l, P e.2) (idMapValue r) := by
  refine shrinks_firstOctet.then fun b => .ite ?_ (bounded_unwanted _ _)
  exact shrinks_advance.then fun _ => bounded_itemBound.shrinks.then
    fun bound => (bounded_idMembers h bound true).bind fun l hl =>
      shrinks_endObject.then fun _ => .pure hl

-- ====================================================== skipped values

theorem shrinks_skip (fuel : Nat) (containers : List Bool) (place : Skipping) :
    Shrinks n (skip fuel containers place) := by
  induction fuel generalizing containers place with
  | zero => exact bounded_throw _
  | succ fuel ih =>
      cases place with
      | value =>
          have hbehind : ∀ {x : Reader Unit}, Shrinks n x → Shrinks n (do
              x
              if containers.isEmpty then return ()
              skip fuel containers (.behind true)) := fun hx =>
            hx.then fun _ => .ite (.pure trivial) (ih _ _)
          have hword : ∀ letters : List UInt8, Shrinks n (do
              advance
              word letters
              if containers.isEmpty then return ()
              skip fuel containers (.behind true) : Reader Unit) :=
            fun letters => shrinks_advance.then fun _ =>
              hbehind (shrinks_word letters)
          exact shrinks_firstOctet.then fun b =>
            .ite (shrinks_advance.then fun _ => ih _ _)
            (.ite (hword _) (.ite (hword _) (.ite (hword _)
            (.ite (shrinks_advance.then fun _ =>
              hbehind shrinks_skipNumberAfterSign)
            (.ite (hbehind shrinks_skipNumberAfterSign)
            (.ite (shrinks_advance.then fun _ =>
              hbehind shrinks_skipTextBody)
            (hbehind (bounded_throw _))))))))
      | behind comma =>
          cases containers with
          | nil => exact .pure trivial
          | cons isObject outer =>
              exact shrinks_firstOctet.then fun b =>
                .ite (shrinks_advance.then fun _ => ih _ _)
                (.ite (.ite (shrinks_advance.then fun _ => ih _ _)
                  (bounded_throw _)) (ih _ _))
      | item =>
          have hkey : Shrinks n (do
              advance
              skipTextBody
              colon
              skip fuel containers .value) :=
            shrinks_advance.then fun _ => shrinks_skipTextBody.then fun _ =>
              shrinks_colon.then fun _ => ih _ _
          refine .ite (shrinks_firstOctet.then fun b => ?_) (ih _ _)
          exact .ite hkey ((bounded_throw _ : Shrinks n _).then fun _ => hkey)

theorem shrinks_skipValue : Shrinks n skipValue := by
  intro input a rest hinput hrun
  exact shrinks_skip _ [] .value input a rest hinput hrun

-- ============================================================= records

section Records

variable {I : M → Prop} {members : List (Member M)}

/-- Every member of a record keeps what is known of the record so far. -/
def Keeps (n : Nat) (I : M → Prop) (members : List (Member M)) : Prop :=
  ∀ m ∈ members, ∀ p, I p → Bounded n I (m.read p)

theorem keeps_nil : Keeps n I [] := nofun

theorem Keeps.cons {m : Member M} (hm : ∀ p, I p → Bounded n I (m.read p))
    (h : Keeps n I members) : Keeps n I (m :: members) :=
  List.forall_mem_cons.2 ⟨hm, h⟩

theorem bounded_objectMembers (h : Keeps n I members) (fuel : Nat)
    (isFirst : Bool) {p : M} (hp : I p) :
    Bounded n I (objectMembers members fuel isFirst p) := by
  induction fuel generalizing isFirst p with
  | zero => exact bounded_throw _
  | succ fuel ih =>
      refine (shrinks_nextKey isFirst).then fun more => ?_
      split
      · refine shrinks_advance.then fun _ => bounded_textBody.shrinks.then
          fun key => ?_
        split
        case h_1 m hm =>
          have hread : Bounded n I (do
              colon
              let p ← m.read p
              objectMembers members fuel false p) :=
            shrinks_colon.then fun _ =>
              (h m (List.mem_of_find?_eq_some hm) p hp).bind
                fun p hp => ih false hp
          split
          · exact (bounded_throw _ : Shrinks n _).then fun _ => hread
          · exact hread
        case h_2 =>
          exact shrinks_colon.then fun _ => shrinks_skipValue.then fun _ =>
            ih false hp
      · exact .pure hp

theorem bounded_listMembers (h : Keeps n I members) (wanted : String)
    (index : Nat) (isFirst : Bool) {p : M} (hp : I p) :
    Bounded n I (listMembers wanted members index isFirst p) := by
  induction members generalizing index isFirst p with
  | nil => exact .pure hp
  | cons m members ih =>
      have hfirst := h m List.mem_cons_self
      have hrest : Keeps n I members :=
        fun m hm => h m (List.mem_cons_of_mem _ hm)
      refine (shrinks_nextItem isFirst).then fun more => ?_
      split
      · exact (hfirst p hp).bind fun p hp => ih hrest _ _ hp
      · split
        · exact ih hrest _ _ hp
        · exact bounded_throw _

theorem bounded_recordValue (h : Keeps n I members) (name : String) (empty : M)
    (hempty : I empty) : Bounded n I (recordValue name members empty) := by
  refine shrinks_firstOctet.then fun b => ?_
  split
  · refine shrinks_advance.then fun _ => bounded_itemBound.shrinks.then
      fun bound => (bounded_objectMembers h bound true hempty).bind
        fun p hp => ?_
    split
    · exact bounded_throw _
    · exact shrinks_endObject.then fun _ => .pure hp
  · split
    · exact shrinks_advance.then fun _ =>
        (bounded_listMembers h _ 0 true hempty).bind fun p hp =>
          shrinks_endList.then fun _ => .pure hp
    · exact bounded_unwanted _ _

end Records

end SymbolGraph.Json
