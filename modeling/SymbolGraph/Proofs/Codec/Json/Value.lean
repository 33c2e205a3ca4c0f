/-
Values read back. A reader takes a text for a value (`Reads`) if it finds
the value behind any blanks and leaves exactly what follows the text.

Lists and objects are read item by item, and between two items stand a
comma and a line break, before the first only a line break, behind the last
a line break and the closing octet. `remaining` is what is at hand before
an item, so each loop has one statement, by induction on the items still to
come. An object fills a record member by member (`Fills`); nothing is said
of the order in which the members come.
-/
import Mathlib.Data.List.Forall2
import SymbolGraph.Codec.Json.Value
import SymbolGraph.Proofs.Codec.Json.Numeral
import SymbolGraph.Proofs.Codec.Json.Text

namespace SymbolGraph.Json

variable {α β P : Type} {r : Reader α} {a : α} {b : UInt8}
  {blanks text rest : List UInt8}

-- ============================================================== blanks

def Blank (blanks : List UInt8) : Prop := ∀ b ∈ blanks, isBlank b = true

theorem blank_nil : Blank [] := nofun

theorem blank_space : Blank [0x20] := List.forall_mem_singleton.2 rfl

theorem blank_newline (level : Nat) : Blank (newline level) := by
  intro b hb
  rcases List.mem_cons.1 hb with rfl | hb
  · rfl
  · rw [List.eq_of_mem_replicate hb]
    rfl

/-- Blanks are passed over. -/
theorem peekSolid_run (hblanks : Blank blanks) (hb : isBlank b = false) :
    peekSolid.run (blanks ++ b :: rest) = .ok (some b, b :: rest) := by
  have hdrop : (blanks ++ b :: rest).dropWhile isBlank = b :: rest := by
    rw [List.dropWhile_append_of_pos hblanks,
      List.dropWhile_cons_of_neg (by rw [hb]; nofun)]
  show peek.run ((blanks ++ b :: rest).dropWhile isBlank) = _
  rw [hdrop]
  rfl

theorem firstOctet_run (hblanks : Blank blanks) (hb : isBlank b = false) :
    firstOctet.run (blanks ++ b :: rest) = .ok (b, b :: rest) := by
  unfold firstOctet
  rw [run_bind_ok (peekSolid_run hblanks hb)]
  rfl

theorem firstOctet_cons (hb : isBlank b = false) (rest : List UInt8) :
    firstOctet.run (b :: rest) = .ok (b, b :: rest) :=
  firstOctet_run blank_nil hb

theorem advance_run (b : UInt8) (rest : List UInt8) :
    advance.run (b :: rest) = .ok ((), rest) := rfl

-- ============================================================== values

/-- A reader takes a text for a value, whatever blanks stand before it and
whatever follows that does not go on with a number. The text begins with
its value, and not with the end of a list. -/
structure Reads (r : Reader α) (text : List UInt8) (a : α) : Prop where
  solid : ∃ b behind, text = b :: behind ∧ isBlank b = false ∧ b ≠ 0x5d
  run : ∀ {blanks rest}, Blank blanks → Ended rest →
    r.run (blanks ++ (text ++ rest)) = .ok (a, rest)

theorem Reads.run_here (h : Reads r text a) (hrest : Ended rest) :
    r.run (text ++ rest) = .ok (a, rest) :=
  h.run blank_nil hrest

/-- What is made of a value that has been read. -/
theorem Reads.bind {f : α → Reader β} {c : β} (h : Reads r text a)
    (hf : ∀ rest, (f a).run rest = .ok (c, rest)) : Reads (r >>= f) text c where
  solid := h.solid
  run hblanks hrest := by rw [run_bind_ok (h.run hblanks hrest), hf]

-- ============================================================= scalars

theorem digit_solid {b : UInt8} (h : isDigit b = true) :
    isBlank b = false ∧ b ≠ 0x5d ∧ b ≠ 0x2d := by
  have hrange := isDigit_iff.1 h
  have hne : ∀ c : UInt8, c.toNat < 48 ∨ 57 < c.toNat → b ≠ c := by
    rintro c hc rfl
    omega
  refine ⟨?_, hne _ (.inr (by decide)), hne _ (.inl (by decide))⟩
  unfold isBlank
  simp only [Bool.or_eq_false_iff, beq_eq_false_iff_ne]
  exact ⟨⟨⟨hne _ (.inl (by decide)), hne _ (.inl (by decide))⟩,
    hne _ (.inl (by decide))⟩, hne _ (.inl (by decide))⟩

/-- A number begins with a digit. -/
theorem decimal_cons (n : Nat) :
    ∃ b behind, decimal n = b :: behind ∧ isDigit b = true := by
  cases h : decimal n with
  | nil => exact absurd h (decimal_ne_nil n)
  | cons b behind =>
      exact ⟨b, behind, rfl, isDigit_of_mem_decimal (h ▸ List.mem_cons_self)⟩

theorem reads_natural {n : Nat} (h : n < 0x10000000000000000)
    (wanted : String) :
    Reads (numberValue wanted) (decimal n) (.natural n) := by
  obtain ⟨b, behind, hdecimal, hb⟩ := decimal_cons n
  obtain ⟨hsolid, hbracket, hsign⟩ := digit_solid hb
  refine ⟨⟨b, behind, hdecimal, hsolid, hbracket⟩, ?_⟩
  intro blanks rest hblanks hrest
  have hrun := natural_run h hrest
  rw [hdecimal] at hrun ⊢
  unfold numberValue
  rw [List.cons_append, run_bind_ok (firstOctet_run hblanks hsolid),
    if_neg hsign, if_pos hb]
  exact hrun

theorem reads_negative {n : Nat} (hpos : 0 < n) (h : n ≤ 0x8000000000000000)
    (wanted : String) :
    Reads (numberValue wanted) (0x2d :: decimal n) (.negative n) := by
  refine ⟨⟨0x2d, decimal n, rfl, by decide, by decide⟩, ?_⟩
  intro blanks rest hblanks hrest
  unfold numberValue
  rw [List.cons_append, run_bind_ok (firstOctet_run hblanks (by decide)),
    if_pos rfl]
  exact negative_run hpos h hrest

theorem reads_unsigned {n limit : Nat} (h : n < limit)
    (hlimit : limit ≤ 0x10000000000000000) (wanted : String) :
    Reads (unsigned limit wanted) (decimal n) n := by
  refine (reads_natural (by omega) wanted).bind fun rest => ?_
  dsimp only
  rw [if_pos h]
  rfl

theorem reads_u8 (n : UInt8) : Reads u8Value (decimal n.toNat) n :=
  (reads_unsigned n.toNat_lt (by decide) "u8").bind fun _ => by
    rw [UInt8.ofNat_toNat]
    rfl

theorem reads_u32 (n : UInt32) : Reads u32Value (decimal n.toNat) n :=
  (reads_unsigned n.toNat_lt (by decide) "u32").bind fun _ => by
    rw [UInt32.ofNat_toNat]
    rfl

theorem reads_u64 (n : UInt64) : Reads u64Value (decimal n.toNat) n :=
  (reads_unsigned n.toNat_lt (by decide) "u64").bind fun _ => by
    rw [UInt64.ofNat_toNat]
    rfl

theorem reads_i32 (i : Int32) : Reads i32Value (integer i.toInt) i := by
  have hlow : -2 ^ 31 ≤ i.toInt := i.le_toInt
  have hhigh : i.toInt < 2 ^ 31 := i.toInt_lt
  unfold integer
  split
  case isTrue hneg =>
    have hvalue : -(i.toInt.natAbs : Int) = i.toInt := by omega
    refine (reads_negative (by omega) (by omega) "i32").bind fun rest => ?_
    dsimp only
    rw [if_pos (by omega), hvalue, Int32.ofInt_toInt]
    rfl
  case isFalse hneg =>
    have hvalue : (i.toInt.natAbs : Int) = i.toInt := by omega
    refine (reads_natural (by omega) "i32").bind fun rest => ?_
    dsimp only
    rw [if_pos (by omega), hvalue, Int32.ofInt_toInt]
    rfl

theorem reads_truth (value : Bool) (level : Nat) :
    Reads boolValue (truth value level) value := by
  cases value with
  | true =>
      refine ⟨⟨0x74, _, rfl, by decide, by decide⟩, ?_⟩
      intro blanks rest hblanks hrest
      exact run_bind_ok (firstOctet_run hblanks (by decide))
  | false =>
      refine ⟨⟨0x66, _, rfl, by decide, by decide⟩, ?_⟩
      intro blanks rest hblanks hrest
      exact run_bind_ok (firstOctet_run hblanks (by decide))

theorem quoted_append (s : String) (rest : List UInt8) :
    quoted s ++ rest
      = 0x22 :: ((Utf8.encode s).flatMap escape ++ 0x22 :: rest) := by
  unfold quoted quotedOctets
  rw [List.cons_append, List.append_assoc, List.singleton_append]

theorem reads_text (s : String) : Reads textValue (quoted s) s := by
  refine ⟨⟨0x22, _, rfl, by decide, by decide⟩, ?_⟩
  intro blanks rest hblanks hrest
  unfold textValue
  rw [quoted_append, run_bind_ok (firstOctet_run hblanks (by decide)),
    if_pos rfl, run_bind_ok (advance_run _ _)]
  exact textBody_run s rest

-- ========================================================== containers

variable {closing : UInt8} {level fuel : Nat} {isFirst : Bool}
  {item : List UInt8} {texts : List (List UInt8)}

/-- What is at hand before an item of a container: the items to come, the
closing octet, and what follows the container. -/
def remaining (closing : UInt8) (level : Nat) (rest : List UInt8) :
    Bool → List (List UInt8) → List UInt8
  | isFirst, [] =>
    (if isFirst then [] else newline level) ++ closing :: rest
  | isFirst, item :: items =>
    (if isFirst then [] else [0x2c])
      ++ (newline (level + 1)
        ++ (item ++ remaining closing level rest false items))

/-- A container behind its opening octet. -/
theorem enclosed_append (opening closing : UInt8) (level : Nat)
    (texts : List (List UInt8)) (rest : List UInt8) :
    enclosed opening closing level texts ++ rest
      = opening :: remaining closing level rest true texts := by
  have hlines : ∀ item texts,
      lines (level + 1) (item :: texts) ++ (newline level ++ closing :: rest)
        = newline (level + 1)
          ++ (item ++ remaining closing level rest false texts) := by
    intro item texts
    induction texts generalizing item with
    | nil => exact List.append_assoc _ _ _
    | cons next texts ih =>
        show newline (level + 1) ++ item
          ++ 0x2c :: lines (level + 1) (next :: texts) ++ _ = _
        rw [List.append_assoc, List.append_assoc, List.cons_append, ih]
        rfl
  cases texts with
  | nil => rfl
  | cons item texts =>
      show opening :: (lines (level + 1) (item :: texts) ++ newline level
        ++ [closing] ++ rest) = _
      rw [List.append_assoc, List.append_assoc, List.singleton_append, hlines]
      rfl

theorem remaining_first (closing : UInt8) (level : Nat) (rest item : List UInt8)
    (texts : List (List UInt8)) :
    remaining closing level rest true (item :: texts)
      = newline (level + 1)
        ++ (item ++ remaining closing level rest false texts) := rfl

theorem remaining_next (closing : UInt8) (level : Nat) (rest item : List UInt8)
    (texts : List (List UInt8)) :
    remaining closing level rest false (item :: texts)
      = 0x2c :: (newline (level + 1)
        ++ (item ++ remaining closing level rest false texts)) := rfl

theorem ended_remaining :
    Ended (remaining closing level rest false texts) := by
  cases texts with
  | nil => exact ended_cons rfl (by decide) (by decide) (by decide)
  | cons item texts => exact ended_cons rfl (by decide) (by decide) (by decide)

/-- Behind the first item each has a comma of its own. -/
theorem length_lt_remaining :
    texts.length < (remaining closing level rest isFirst texts).length := by
  induction texts generalizing isFirst with
  | nil =>
      unfold remaining
      simp only [List.length_append, List.length_cons, List.length_nil]
      omega
  | cons item texts ih =>
      have hih : texts.length
          < (remaining closing level rest false texts).length := ih
      unfold remaining newline
      simp only [List.length_append, List.length_cons]
      omega

/-- The end of a container, where another item might stand. -/
theorem firstOctet_end (h : isBlank closing = false) :
    firstOctet.run (remaining closing level rest isFirst [])
      = .ok (closing, closing :: rest) := by
  cases isFirst with
  | true => exact firstOctet_run blank_nil h
  | false => exact firstOctet_run (blank_newline level) h

-- =============================================================== lists

theorem nextItem_end :
    (nextItem isFirst).run (remaining 0x5d level rest isFirst [])
      = .ok (false, 0x5d :: rest) := by
  unfold nextItem
  rw [run_bind_ok (firstOctet_end (by decide)), if_pos rfl]
  rfl

theorem nextItem_more
    (h : ∃ b behind, item = b :: behind ∧ isBlank b = false ∧ b ≠ 0x5d) :
    (nextItem isFirst).run (remaining 0x5d level rest isFirst (item :: texts))
      = .ok (true, item ++ remaining 0x5d level rest false texts) := by
  obtain ⟨b, behind, rfl, hb, hbracket⟩ := h
  unfold nextItem
  cases isFirst with
  | true =>
      rw [remaining_first, List.cons_append,
        run_bind_ok (firstOctet_run (blank_newline _) hb), if_neg hbracket,
        if_pos rfl]
      rfl
  | false =>
      rw [remaining_next, List.cons_append,
        run_bind_ok (firstOctet_cons (by decide) _), if_neg (by decide),
        if_neg Bool.false_ne_true, if_pos rfl, run_bind_ok (advance_run _ _),
        run_bind_ok (firstOctet_run (blank_newline _) hb), if_neg hbracket]
      rfl

theorem items_run {as : List α} (h : List.Forall₂ (Reads r) texts as)
    (hfuel : texts.length < fuel) :
    (items r fuel isFirst).run (remaining 0x5d level rest isFirst texts)
      = .ok (as, 0x5d :: rest) := by
  induction h generalizing fuel isFirst with
  | nil =>
      cases fuel with
      | zero => exact absurd hfuel (Nat.not_lt_zero _)
      | succ fuel =>
          unfold items
          rw [run_bind_ok nextItem_end]
          rfl
  | cons hitem _ ih =>
      cases fuel with
      | zero => exact absurd hfuel (Nat.not_lt_zero _)
      | succ fuel =>
          unfold items
          rw [run_bind_ok (nextItem_more hitem.solid), if_pos rfl,
            run_bind_ok (hitem.run_here ended_remaining),
            run_bind_ok (ih (Nat.lt_of_succ_lt_succ hfuel))]
          rfl

theorem itemBound_run (input : List UInt8) :
    itemBound.run input = .ok (input.length + 1, input) := rfl

theorem reads_list {as : List α} (h : List.Forall₂ (Reads r) texts as) :
    Reads (listValue r) (enclosed 0x5b 0x5d level texts) as := by
  have htext := enclosed_append 0x5b 0x5d level texts
  refine ⟨⟨0x5b, _, by rw [← List.append_nil (enclosed _ _ _ _), htext],
    by decide, by decide⟩, ?_⟩
  intro blanks rest hblanks hrest
  unfold listValue
  rw [htext, run_bind_ok (firstOctet_run hblanks (by decide)), if_pos rfl,
    run_bind_ok (advance_run _ _), run_bind_ok (itemBound_run _),
    run_bind_ok (items_run h (Nat.lt_add_right 1 length_lt_remaining))]
  rfl

-- ============================================================= objects

variable {entries : List (UInt32 × α)} {printed : List (List UInt8 × Printer)}

theorem Reads.run_space (h : Reads r text a) (hrest : Ended rest) :
    r.run (0x20 :: (text ++ rest)) = .ok (a, rest) :=
  h.run blank_space hrest

theorem member_append (level : Nat) (key : List UInt8) (value : Printer)
    (rest : List UInt8) :
    member level key value ++ rest
      = 0x22 :: (key.flatMap escape
        ++ 0x22 :: 0x3a :: 0x20 :: (value level ++ rest)) := by
  unfold member quotedOctets
  rw [List.append_assoc, List.cons_append, List.append_assoc,
    List.singleton_append, List.cons_append, List.cons_append]

theorem nextKey_end :
    (nextKey isFirst).run (remaining 0x7d level rest isFirst [])
      = .ok (false, 0x7d :: rest) := by
  unfold nextKey
  rw [run_bind_ok (firstOctet_end (by decide)), if_pos rfl]
  rfl

/-- A member is at hand, and what follows its key and its colon. -/
theorem nextKey_more {key : List UInt8} {value : Printer} :
    (nextKey isFirst).run (remaining 0x7d level rest isFirst
        (member (level + 1) key value :: texts))
      = .ok (true, 0x22 :: (key.flatMap escape
          ++ 0x22 :: 0x3a :: 0x20 :: (value (level + 1)
            ++ remaining 0x7d level rest false texts))) := by
  unfold nextKey
  cases isFirst with
  | true =>
      rw [remaining_first, member_append,
        run_bind_ok (firstOctet_run (blank_newline _) (by decide))]
      rfl
  | false =>
      rw [remaining_next, member_append,
        run_bind_ok (firstOctet_cons (by decide) _), if_neg (by decide),
        if_neg Bool.false_ne_true, if_pos rfl, run_bind_ok (advance_run _ _),
        run_bind_ok (firstOctet_run (blank_newline _) (by decide))]
      rfl

theorem colon_run (rest : List UInt8) :
    colon.run (0x3a :: rest) = .ok ((), rest) := by
  unfold colon
  rw [run_bind_ok (firstOctet_cons (by decide) _)]
  rfl

theorem endObject_run (rest : List UInt8) :
    endObject.run (0x7d :: rest) = .ok ((), rest) := by
  unfold endObject
  rw [run_bind_ok (firstOctet_cons (by decide) _)]
  rfl

-- ------------------------------------------------------ keys that are ids

/-- Digits need no escape. -/
theorem flatMap_escape_decimal (n : Nat) :
    (decimal n).flatMap escape = decimal n := by
  have hall : ∀ b ∈ decimal n, escape b = [b] := by
    intro b hb
    have hrange := isDigit_iff.1 (isDigit_of_mem_decimal hb)
    have hplain : ¬ b < 0x20 := by
      rw [UInt8.lt_iff_toNat_lt]
      show ¬ b.toNat < 32
      omega
    refine escape_plain ?_ hplain ?_
    · rintro rfl
      exact absurd hrange (by decide)
    · rintro rfl
      exact absurd hrange (by decide)
  rw [List.flatMap_congr hall, List.flatMap_singleton']

theorem idKey_run (key : UInt32) (rest : List UInt8) :
    idKey.run (0x22 :: (decimal key.toNat ++ 0x22 :: rest))
      = .ok (key, rest) := by
  obtain ⟨b, behind, hdecimal, hb⟩ := decimal_cons key.toNat
  have hquote : Ended (0x22 :: rest) :=
    ended_cons rfl (by decide) (by decide) (by decide)
  have hkey := (reads_u32 key).run_here hquote
  have hpeek : peek.run (decimal key.toNat ++ 0x22 :: rest)
      = .ok (some b, decimal key.toNat ++ 0x22 :: rest) := by
    rw [peek_run, hdecimal]
    rfl
  unfold idKey
  rw [run_bind_ok (advance_run _ _), run_bind_ok hpeek]
  dsimp only
  rw [hb, Bool.true_or, if_pos rfl, run_bind_ok hkey]
  rfl

/-- A printed member stands for the entry of a table. -/
structure IsEntry (value : Reader α) (level : Nat)
    (member : List UInt8 × Printer) (entry : UInt32 × α) : Prop where
  key : member.1 = decimal entry.1.toNat
  reads : Reads value (member.2 level) entry.2

theorem idMembers_run
    (h : List.Forall₂ (IsEntry r (level + 1)) printed entries)
    (hfuel : printed.length < fuel) :
    (idMembers r fuel isFirst).run (remaining 0x7d level rest isFirst
        (printed.map fun m => member (level + 1) m.1 m.2))
      = .ok (entries, 0x7d :: rest) := by
  induction h generalizing fuel isFirst with
  | nil =>
      cases fuel with
      | zero => exact absurd hfuel (Nat.not_lt_zero _)
      | succ fuel =>
          unfold idMembers
          rw [List.map_nil, run_bind_ok nextKey_end]
          rfl
  | cons hentry _ ih =>
      cases fuel with
      | zero => exact absurd hfuel (Nat.not_lt_zero _)
      | succ fuel =>
          unfold idMembers
          rw [List.map_cons, run_bind_ok nextKey_more, if_pos rfl, hentry.key,
            flatMap_escape_decimal, run_bind_ok (idKey_run _ _),
            run_bind_ok (colon_run _),
            run_bind_ok (hentry.reads.run_space ended_remaining),
            run_bind_ok (ih (Nat.lt_of_succ_lt_succ hfuel))]
          rfl

theorem length_lt_members (members : List (List UInt8 × Printer)) :
    members.length < (remaining closing level rest isFirst
      (members.map fun m => member (level + 1) m.1 m.2)).length + 1 := by
  refine Nat.lt_add_right 1 ?_
  rw [← List.length_map fun m => member (level + 1) m.1 m.2]
  exact length_lt_remaining

theorem object_append (printed : List (List UInt8 × Printer)) (level : Nat)
    (rest : List UInt8) :
    object printed level ++ rest
      = 0x7b :: remaining 0x7d level rest true
          (printed.map fun m => member (level + 1) m.1 m.2) :=
  enclosed_append 0x7b 0x7d level _ rest

/-- An object begins with its brace. -/
theorem object_solid (printed : List (List UInt8 × Printer)) (level : Nat) :
    ∃ b behind, object printed level = b :: behind ∧ isBlank b = false
      ∧ b ≠ 0x5d :=
  ⟨0x7b, _, by rw [← List.append_nil (object _ _), object_append],
    by decide, by decide⟩

theorem reads_idMap
    (h : List.Forall₂ (IsEntry r (level + 1)) printed entries) :
    Reads (idMapValue r) (object printed level) entries := by
  refine ⟨object_solid printed level, ?_⟩
  intro blanks rest hblanks hrest
  unfold idMapValue
  rw [object_append, run_bind_ok (firstOctet_run hblanks (by decide)),
    if_pos rfl, run_bind_ok (advance_run _ _), run_bind_ok (itemBound_run _),
    run_bind_ok (idMembers_run h (length_lt_members printed)),
    run_bind_ok (endObject_run _)]
  rfl

-- ============================================================= records

variable {members : List (Member P)} {p q : P}

/-- Printed members fill a record: each is a member of it that is not
present yet, and is read into it. -/
inductive Fills (members : List (Member P)) (level : Nat) :
    P → List (List UInt8 × Printer) → P → Prop
  | done (p : P) : Fills members level p [] p
  | member {p p' q : P} {name : String} {m : Member P} {value : Printer}
      {printed : List (List UInt8 × Printer)}
      (known : members.find? (fun m => m.name == name) = some m)
      (absent : m.isPresent p = false)
      (reads : Reads (m.read p) (value level) p')
      (others : Fills members level p' printed q) :
      Fills members level p ((Utf8.encode name, value) :: printed) q

theorem objectMembers_run (h : Fills members (level + 1) p printed q)
    (hfuel : printed.length < fuel) :
    (objectMembers members fuel isFirst p).run
        (remaining 0x7d level rest isFirst
          (printed.map fun m => member (level + 1) m.1 m.2))
      = .ok (q, 0x7d :: rest) := by
  induction h generalizing fuel isFirst with
  | done p =>
      cases fuel with
      | zero => exact absurd hfuel (Nat.not_lt_zero _)
      | succ fuel =>
          unfold objectMembers
          rw [List.map_nil, run_bind_ok nextKey_end]
          rfl
  | member known absent reads _ ih =>
      cases fuel with
      | zero => exact absurd hfuel (Nat.not_lt_zero _)
      | succ fuel =>
          unfold objectMembers
          rw [List.map_cons, run_bind_ok nextKey_more, if_pos rfl,
            run_bind_ok (advance_run _ _), run_bind_ok (textBody_run _ _),
            known]
          dsimp only
          rw [absent, if_neg Bool.false_ne_true, run_bind_ok (colon_run _),
            run_bind_ok (reads.run_space ended_remaining)]
          exact ih (Nat.lt_of_succ_lt_succ hfuel)

/-- An object that fills a record, and leaves out optional members at most,
is read as the record. -/
theorem reads_record {empty : P} (name : String)
    (h : Fills members (level + 1) empty printed q)
    (hpresent :
      members.find? (fun m => !m.isOptional && !m.isPresent q) = none) :
    Reads (recordValue name members empty) (object printed level) q := by
  refine ⟨object_solid printed level, ?_⟩
  intro blanks rest hblanks hrest
  unfold recordValue
  rw [object_append, run_bind_ok (firstOctet_run hblanks (by decide)),
    if_pos rfl, run_bind_ok (advance_run _ _), run_bind_ok (itemBound_run _),
    run_bind_ok (objectMembers_run h (length_lt_members printed)), hpresent]
  dsimp only
  rw [run_bind_ok (endObject_run _)]
  rfl

end SymbolGraph.Json
