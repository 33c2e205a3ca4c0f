/-
The fields of a type whose list goes on in other lists. `Follows` says which
lists follow each other in a stream, by its octets alone. They are read up to
the first index that is no list, and no more of them than the bound, so reading
ends where lists go on in a circle, too (`members_of_follows`). Each member
comes to one field, and takes the next id of the counter.

The counter goes round through all numbers but 0, and a type has fewer members
than it has numbers, because a list has fewer than `2 ^ 15` of them. So the
fields of a type never share an id, whatever was given before
(`fields_of_continued_lists`).
-/
import SymbolGraph.Proofs.Pdb.FieldIds
import SymbolGraph.Proofs.Pdb.FieldLists

namespace SymbolGraph.Pdb.FieldList

open SymbolGraph.Pdb.Types (idAfter iterate_nextId_idAfter)

variable {b : ByteArray} {t : Types} {list rest : Option TypeIndex}
  {lists : List (List Entry)} {n : Nat}

-- ================================================================= chains

/-- The lists that follow each other from an index on, and where the last one
goes on. -/
inductive Follows (b : ByteArray) : Option TypeIndex → List (List Entry) →
    Option TypeIndex → Prop
  | here {list : Option TypeIndex} : Follows b list [] list
  | next {index : TypeIndex} {entries : List Entry} {lists : List (List Entry)}
      {rest : Option TypeIndex} : ListAt b index entries →
      Follows b (continuation entries) lists rest →
      Follows b (some index) (entries :: lists) rest

/-- There is no list from which to go on. -/
def Ends (b : ByteArray) (rest : Option TypeIndex) : Prop :=
  ∀ index entries, rest = some index → ¬ ListAt b index entries

theorem Follows.append {middle : Option TypeIndex}
    {lists' : List (List Entry)} (h : Follows b list lists middle)
    (h' : Follows b middle lists' rest) :
    Follows b list (lists ++ lists') rest := by
  induction h with
  | here => exact h'
  | next hlist _ ih => exact .next hlist (ih h')

theorem Follows.take (h : Follows b list lists rest) (n : Nat) :
    ∃ rest', Follows b list (lists.take n) rest' := by
  induction h generalizing n with
  | here =>
      rw [List.take_nil]
      exact ⟨_, .here⟩
  | next hlist _ ih =>
      cases n with
      | zero => exact ⟨_, .here⟩
      | succ n =>
          obtain ⟨rest', hrest⟩ := ih n
          exact ⟨rest', .next hlist hrest⟩

/-- A circle is gone through as often as one likes. -/
theorem Follows.repeat (h : Follows b list lists list) (n : Nat) :
    Follows b list (List.replicate n lists).flatten list := by
  induction n with
  | zero => exact .here
  | succ n ih =>
      rw [List.replicate_succ, List.flatten_cons]
      exact h.append ih

/-- Lists that lead into a circle go on for as long as one likes. -/
theorem Follows.around {middle : Option TypeIndex}
    {before circle : List (List Entry)} (hbefore : Follows b list before middle)
    (hcircle : Follows b middle circle middle) (hne : circle ≠ []) (n : Nat) :
    ∃ rest, Follows b list
        ((before ++ (List.replicate n circle).flatten).take n) rest
      ∧ ((before ++ (List.replicate n circle).flatten).take n).length = n := by
  obtain ⟨rest, hfollows⟩ := (hbefore.append (hcircle.repeat n)).take n
  refine ⟨rest, hfollows, List.length_take_of_le ?_⟩
  have hpos := List.length_pos_iff.2 hne
  simp only [List.length_append, List.length_flatten, List.map_replicate,
    List.sum_replicate_nat]
  exact Nat.le_add_left_of_le (Nat.le_mul_of_pos_right n hpos)

/-- One list goes on there. -/
def GoesOn (b : ByteArray) (list next : Option TypeIndex) : Prop :=
  ∃ entries, Follows b list [entries] next

theorem Follows.of_chain (h : Chain (GoesOn b) n list rest) :
    ∃ lists, lists.length = n ∧ Follows b list lists rest := by
  induction h with
  | here => exact ⟨[], rfl, .here⟩
  | next hstep _ ih =>
      obtain ⟨entries, hfirst⟩ := hstep
      obtain ⟨lists, hlength, hrest⟩ := ih
      exact ⟨entries :: lists, by simp [hlength], hfirst.append hrest⟩

/-- From every index on, lists follow each other up to where there is no further
list, or up to the bound. -/
theorem exists_follows (b : ByteArray) (list : Option TypeIndex)
    (bound : Nat) :
    ∃ lists rest, Follows b list lists rest ∧ lists.length ≤ bound
      ∧ (lists.length < bound → Ends b rest) := by
  rcases Chain.ends_or_lasts (GoesOn b) bound list with
    ⟨n, hn, rest, hchain, hend⟩ | ⟨rest, hchain⟩
  · obtain ⟨lists, rfl, hfollows⟩ := Follows.of_chain hchain
    refine ⟨lists, rest, hfollows, Nat.le_of_lt hn, ?_⟩
    intro _ index entries hrest hlist
    subst hrest
    exact hend _ ⟨entries, .next hlist .here⟩
  · obtain ⟨lists, rfl, hfollows⟩ := Follows.of_chain hchain
    exact ⟨lists, rest, hfollows, Nat.le_refl _, fun h => absurd h (by simp)⟩

/-- So many lists have fewer members than there are ids. -/
theorem Follows.length_members_le (h : Follows b list lists rest) :
    (members lists.flatten).length ≤ lists.length * 2 ^ 15 := by
  induction h with
  | here => exact Nat.zero_le _
  | next hlist _ ih =>
      have hfirst := hlist.length_members_lt
      unfold members at *
      rw [List.flatten_cons, List.filterMap_append, List.length_append,
        List.length_cons]
      omega

-- ================================================================ reading

section Reading

variable (hstream : TypeTable.ofStream b = .ok t.table)

include hstream

/-- Lists that follow each other are read one behind the other. -/
theorem membersWithin_of_follows (h : Follows b list lists rest) (bound : Nat)
    (found : List (List Member)) :
    t.membersWithin (lists.length + bound) list found
      = t.membersWithin bound rest
        ((lists.map members).reverse ++ found) := by
  induction h generalizing found with
  | here =>
      rw [List.length_nil, Nat.zero_add]
      rfl
  | @next index entries lists rest hlist _ ih =>
      have hfind : t.find index
          = .ok (.fieldList (members entries) (continuation entries)) :=
        Types.find_of_ok ((find_eq_fieldList_iff hstream).2
          ⟨entries, hlist, rfl, rfl⟩)
      rw [List.length_cons, Nat.add_right_comm, Types.membersWithin, hfind]
      show t.membersWithin (lists.length + bound) _ (members entries :: found)
        = _
      rw [ih, List.map_cons, List.reverse_cons, List.append_assoc]
      rfl

/-- Where there is no list, nothing more is read. -/
theorem membersWithin_of_ends (h : Ends b rest) (bound : Nat)
    (found : List (List Member)) :
    (t.membersWithin bound rest found).1 = found := by
  unfold Types.membersWithin
  split
  case h_1 => rfl
  case h_2 => rfl
  case h_3 index =>
    split
    case h_1 hfind =>
      obtain ⟨entries, hlist, -⟩ :=
        (find_eq_fieldList_iff hstream).1 (eq_ok_of_mapError hfind)
      exact absurd hlist (h index entries rfl)
    case h_2 => rfl
    case h_3 => rfl

/-- The members of a type are those of the lists that follow each other. -/
theorem members_of_follows (h : Follows b list lists rest)
    (hle : lists.length ≤ fieldListBound)
    (hend : lists.length < fieldListBound → Ends b rest) :
    (t.members list).1 = members lists.flatten := by
  have hread := membersWithin_of_follows hstream h
    (fieldListBound - lists.length) []
  rw [Nat.add_sub_cancel' hle] at hread
  have hfound : (t.membersWithin fieldListBound list []).1
      = (lists.map members).reverse := by
    rw [hread, List.append_nil]
    rcases Nat.lt_or_eq_of_le hle with hlt | heq
    · exact membersWithin_of_ends hstream (hend hlt) _ _
    · rw [heq, Nat.sub_self]
      rfl
  show (t.membersWithin fieldListBound list []).1.reverse.flatten = _
  rw [hfound, List.reverse_reverse]
  exact (List.filterMap_flatten ..).symm

end Reading

-- ================================================================= fields

/-- The field of a member, if `n` ids were given before. An offset that is out
of range stays at the greatest one. -/
structure Shows (m : Member) (n : Nat) (f : FieldNode Handle) : Prop where
  id : f.id.toNat = n % (2 ^ 32 - 1) + 1
  name : f.name = m.name
  offset : f.offset.toInt = min (m.offset : Int) (2 ^ 31 - 1)
  type : f.type = .type m.type

/-- What reading comes to, if these are the members and `n` ids were given
before: a field for each member, in order, and the id behind theirs. -/
structure Presents (n : Nat) (members : List Member)
    (result : List (Option (FieldNode Handle)) × UInt32) : Prop where
  fields : List.Forall₂
    (fun place f => ∃ node, f = some node ∧ Shows place.1 place.2 node)
    (members.zipIdx n) result.1
  next : result.2 = idAfter (n + members.length)
  distinct : (result.1.filterMap (Option.map FieldNode.id)).Nodup
  /-- An id comes again only when all others were given in between. -/
  fresh : ∀ j < n, n + members.length < j + 2 ^ 32 →
    idAfter j ∉ result.1.filterMap (Option.map FieldNode.id)

theorem toInt_offset32 (n : Nat) :
    (Types.offset32 n).toInt = min (n : Int) (2 ^ 31 - 1) := by
  have hlt : min n 0x7fffffff < 2 ^ 31 := by omega
  unfold Types.offset32
  rw [Int32.toInt_ofNat_of_lt hlt]
  omega

theorem shows_number (n : Nat) (list : List Member) : List.Forall₂
    (fun place f => ∃ node, f = some node ∧ Shows place.1 place.2 node)
    (list.zipIdx n) ((Types.number (idAfter n) list).1.map some) := by
  induction list generalizing n with
  | nil => exact .nil
  | cons m rest ih =>
      have hnext : Types.nextId (idAfter n) = idAfter (n + 1) :=
        iterate_nextId_idAfter 1 n
      rw [List.zipIdx_cons, Types.number, hnext]
      refine .cons ⟨_, rfl, ?_⟩ (ih (n + 1))
      exact ⟨Types.toNat_idAfter_mod n, rfl, toInt_offset32 m.offset, rfl⟩

/-- Ids that are equal are as far from each other as there are ids. -/
theorem eq_of_idAfter_eq {i j : Nat} (h : idAfter i = idAfter j)
    (hle : i ≤ j) (hclose : j < i + (2 ^ 32 - 1)) : i = j := by
  have hmod := congrArg UInt32.toNat h
  rw [Types.toNat_idAfter_mod, Types.toNat_idAfter_mod] at hmod
  omega

theorem presents_number (n : Nat) {list : List Member}
    (hroom : list.length < 2 ^ 32) :
    Presents n list ((Types.number (idAfter n) list).1.map some,
      (Types.number (idAfter n) list).2) := by
  have hids : ((Types.number (idAfter n) list).1.map some).filterMap
        (Option.map FieldNode.id)
      = (List.range list.length).map fun i => idAfter (n + i) := by
    refine (Types.memberIds_number .struct (idAfter n) list).trans ?_
    exact List.map_congr_left fun i _ => iterate_nextId_idAfter i n
  refine ⟨shows_number n list, ?_, ?_, ?_⟩
  · show (Types.number (idAfter n) list).2 = _
    rw [Types.number_next, iterate_nextId_idAfter]
  · rw [hids]
    refine List.nodup_range.map_on fun i hi j hj heq => ?_
    rw [List.mem_range] at hi hj
    rcases Nat.le_total i j with hle | hle
    · have := eq_of_idAfter_eq heq (by omega) (by omega)
      omega
    · have := eq_of_idAfter_eq heq.symm (by omega) (by omega)
      omega
  · intro j hj hclose hmem
    rw [hids] at hmem
    obtain ⟨i, hi, heq⟩ := List.mem_map.1 hmem
    rw [List.mem_range] at hi
    have := eq_of_idAfter_eq heq.symm (by omega) (by omega)
    omega

theorem fields_value_eq (t : Types) (list : Option TypeIndex) (id : UInt32) :
    (t.fields list id).value
      = ((Types.number id (t.members list).1).1.map some,
        (Types.number id (t.members list).1).2) := by
  refine Prod.ext (Types.fields_value t list id) ?_
  rw [Types.fields_next, ← Types.number_next]

/-- Whatever the octets of a stream, and whichever list the fields are asked for.
Lists that follow each other are read up to the first index that is no list, if
they are no more than 65535: each of their members comes to one field, in order,
with the next id of the counter, and no other entry comes to anything. From every
index on there are such lists, or the first 65535 of more are read; where lists
go on in a circle, that many are read, and reading ends. -/
theorem fields_of_continued_lists (hstream : TypeTable.ofStream b = .ok t.table)
    (list : Option TypeIndex) (n : Nat) :
    let result := (t.fields list (idAfter n)).value
    (∀ lists rest, Follows b list lists rest → lists.length ≤ 65535 →
        (lists.length < 65535 → Ends b rest) →
        Presents n (members lists.flatten) result)
      ∧ (∃ lists rest, Follows b list lists rest ∧ lists.length ≤ 65535
        ∧ (lists.length < 65535 → Ends b rest))
      ∧ ∀ before circle middle, Follows b list before middle →
        Follows b middle circle middle → circle ≠ [] →
        Presents n (members ((before
          ++ (List.replicate 65535 circle).flatten).take 65535).flatten)
          result := by
  intro result
  have hread : ∀ lists rest, Follows b list lists rest →
      lists.length ≤ 65535 → (lists.length < 65535 → Ends b rest) →
      Presents n (members lists.flatten) result := by
    intro lists rest hfollows hle hend
    have hmembers : (t.members list).1 = members lists.flatten :=
      members_of_follows hstream hfollows hle hend
    have hroom := hfollows.length_members_le
    show Presents n _ (t.fields list (idAfter n)).value
    rw [fields_value_eq, hmembers]
    exact presents_number n (by omega)
  refine ⟨hread, exists_follows b list 65535, ?_⟩
  intro before circle middle hbefore hcircle hne
  obtain ⟨rest, hfollows, hlength⟩ := hbefore.around hcircle hne 65535
  exact hread _ rest hfollows (Nat.le_of_eq hlength)
    fun hlt => absurd hlength (Nat.ne_of_lt hlt)

/-- A list with a base, a member and a nested type, that goes on two records
behind; a list with a member, that goes on in itself; a list with a method, a
static member and a member far off, that goes on in a pointer; and the
pointer. -/
def linkedStream : ByteArray := ⟨#[
    11, 202, 49, 1, 56, 0, 0, 0, 0, 16, 0, 0, 4, 16, 0, 0, 0, 0, 0, 0, 0, 0, 0,
    0, 0, 0, 0, 0, 0, 0, 0, 0, 0, 0, 0, 0, 0, 0, 0, 0, 0, 0, 0, 0, 0, 0, 0, 0,
    0, 0, 0, 0, 0, 0, 0, 0, 42, 0, 3, 18, 0, 20, 3, 0, 3, 16, 0, 0, 0, 0, 242,
    241, 13, 21, 3, 0, 116, 0, 0, 0, 8, 0, 120, 0, 16, 21, 0, 0, 3, 16, 0, 0,
    110, 0, 4, 20, 2, 16, 0, 0, 20, 0, 3, 18, 13, 21, 3, 0, 116, 0, 0, 0, 0, 0,
    122, 0, 4, 20, 1, 16, 0, 0, 44, 0, 3, 18, 17, 21, 3, 0, 3, 16, 0, 0, 109,
    0, 14, 21, 3, 0, 116, 0, 0, 0, 115, 0, 13, 21, 3, 0, 3, 16, 0, 0, 4, 128,
    240, 255, 255, 255, 121, 0, 4, 20, 3, 16, 0, 0, 10, 0, 2, 16, 116, 0, 0, 0,
    12, 0, 1, 0]⟩

def linkedTable : TypeTable where
  minimum := 0x1000
  maximum := 0x1004
  records := #[
    .ok (.fieldList [⟨"x", 8, 0x74⟩] (some 0x1002)),
    .ok (.fieldList [⟨"z", 0, 0x74⟩] (some 0x1001)),
    .ok (.fieldList [⟨"y", 0xfffffff0, 0x1003⟩] (some 0x1003)),
    .ok (.pointer 8)]

def firstList : List Entry :=
  [.other 0x1400, .member ⟨"x", 8, 0x74⟩, .other 0x1510, .continuation 0x1002]

def ringList : List Entry :=
  [.member ⟨"z", 0, 0x74⟩, .continuation 0x1001]

def lastList : List Entry :=
  [.other 0x1511, .other 0x150e, .member ⟨"y", 0xfffffff0, 0x1003⟩,
    .continuation 0x1003]

/-- The records of the stream, without their lengths. -/
def linkedOctets : List ByteArray :=
  [linkedStream.extract 58 100, linkedStream.extract 102 122,
    linkedStream.extract 124 168, linkedStream.extract 170 180]

theorem holds_firstList : Holds (linkedStream.extract 58 100) firstList := by
  let b := linkedStream.extract 58 100
  have hbase : Stands b 2 (.other 0x1400) 12 :=
    @Stands.other _ _ _ _ .other (by decide +kernel) (by decide) (by decide)
      (by decide +kernel)
  have hmember : Stands b 14 (.member ⟨"x", 8, 0x74⟩) 26 :=
    @Stands.member _ _ 0x150d _ _ 24 _ _ (by decide +kernel) (by decide)
      (by decide +kernel) (by decide +kernel) (by decide +kernel)
  have hnested : Stands b 26 (.other 0x1510) 36 :=
    @Stands.other _ _ _ _ .other (by decide +kernel) (by decide) (by decide)
      (by decide +kernel)
  have hlink : Stands b 36 (.continuation 0x1002) 42 :=
    .continuation (by decide +kernel) (by decide +kernel)
  have hend : Lays b 42 [] := .done (by decide +kernel)
  exact ⟨by decide +kernel,
    .next hbase (by decide +kernel) <| .next hmember (by decide +kernel) <|
    .next hnested (by decide +kernel) <| .next hlink (by decide +kernel) hend⟩

theorem holds_ringList : Holds (linkedStream.extract 102 122) ringList := by
  let b := linkedStream.extract 102 122
  have hmember : Stands b 2 (.member ⟨"z", 0, 0x74⟩) 14 :=
    @Stands.member _ _ 0x150d _ _ 12 _ _ (by decide +kernel) (by decide)
      (by decide +kernel) (by decide +kernel) (by decide +kernel)
  have hlink : Stands b 14 (.continuation 0x1001) 20 :=
    .continuation (by decide +kernel) (by decide +kernel)
  have hend : Lays b 20 [] := .done (by decide +kernel)
  exact ⟨by decide +kernel, .next hmember (by decide +kernel) <|
    .next hlink (by decide +kernel) hend⟩

theorem holds_lastList : Holds (linkedStream.extract 124 168) lastList := by
  let b := linkedStream.extract 124 168
  have hmethod : Stands b 2 (.other 0x1511) 12 :=
    @Stands.other _ _ _ _ .other (by decide +kernel) (by decide) (by decide)
      (by decide +kernel)
  have hstatic : Stands b 12 (.other 0x150e) 22 :=
    @Stands.other _ _ _ _ .other (by decide +kernel) (by decide) (by decide)
      (by decide +kernel)
  have hmember : Stands b 22 (.member ⟨"y", 0xfffffff0, 0x1003⟩) 38 :=
    @Stands.member _ _ 0x150d _ _ 36 _ _ (by decide +kernel) (by decide)
      (by decide +kernel) (by decide +kernel) (by decide +kernel)
  have hlink : Stands b 38 (.continuation 0x1003) 44 :=
    .continuation (by decide +kernel) (by decide +kernel)
  have hend : Lays b 44 [] := .done (by decide +kernel)
  exact ⟨by decide +kernel,
    .next hmethod (by decide +kernel) <| .next hstatic (by decide +kernel) <|
    .next hmember (by decide +kernel) <| .next hlink (by decide +kernel) hend⟩

theorem records_linkedStream : Records linkedStream 56 linkedOctets := by
  have hlast : Records linkedStream 168 [linkedStream.extract 170 180] :=
    @Records.next _ _ 10 _ _ (by decide +kernel) (by decide)
      (by decide +kernel) (.done (by decide +kernel))
  exact @Records.next _ _ 42 _ _ (by decide +kernel) (by decide)
      (by decide +kernel) <|
    @Records.next _ _ 20 _ _ (by decide +kernel) (by decide)
      (by decide +kernel) <|
    @Records.next _ _ 44 _ _ (by decide +kernel) (by decide)
      (by decide +kernel) hlast

theorem listAt_linkedStream {index : TypeIndex} {octets : ByteArray}
    {entries : List Entry} (hlow : 0x1000 ≤ index.toNat)
    (hhigh : index.toNat ≤ 0x1004)
    (hoctets : linkedOctets[index.toNat - 0x1000]? = some octets)
    (h : Holds octets entries) : ListAt linkedStream index entries :=
  @ListAt.stored _ _ _ 56 0x1000 0x1004 _ _ (by decide +kernel)
    (by decide +kernel) (by decide +kernel) (by decide) hlow hhigh
    records_linkedStream hoctets h

/-- Of the lists that follow each other the bases, methods, nested types and
static members come to nothing. The counter starts again between the two members,
and the second one is out of range. The list that goes on in itself is read as
often as the bound allows. -/
theorem fields_of_continued_lists_linkedStream :
    let t : Types := .ofTable linkedTable 8
    TypeTable.ofStream linkedStream = .ok linkedTable
      ∧ Follows linkedStream (some 0x1000) [firstList, lastList] (some 0x1003)
      ∧ Ends linkedStream (some 0x1003)
      ∧ (∃ x y, (t.fields (some 0x1000) (idAfter (2 ^ 32 - 2))).value
          = ([some x, some y], idAfter (2 ^ 32))
        ∧ x.id = 0xffffffff ∧ x.name = "x" ∧ x.offset.toInt = 8
        ∧ y.id = 1 ∧ y.name = "y" ∧ y.offset.toInt = 0x7fffffff)
      ∧ Follows linkedStream (some 0x1001) [ringList] (some 0x1001)
      ∧ (t.fields (some 0x1001) (idAfter 0)).value.1.length = 65535 := by
  intro t
  have hstream : TypeTable.ofStream linkedStream = .ok linkedTable := by
    decide +kernel
  have hfirst : ListAt linkedStream 0x1000 firstList :=
    listAt_linkedStream (by decide) (by decide) rfl holds_firstList
  have hring : ListAt linkedStream 0x1001 ringList :=
    listAt_linkedStream (by decide) (by decide) rfl holds_ringList
  have hlast : ListAt linkedStream 0x1002 lastList :=
    listAt_linkedStream (by decide) (by decide) rfl holds_lastList
  have hchain : Follows linkedStream (some 0x1000) [firstList, lastList]
      (some 0x1003) := .next hfirst (.next hlast .here)
  have hcircle : Follows linkedStream (some 0x1001) [ringList] (some 0x1001) :=
    .next hring .here
  have hend : Ends linkedStream (some 0x1003) := by
    intro index entries heq hlist
    cases heq
    have hfind := (find_eq_fieldList_iff hstream).2 ⟨entries, hlist, rfl, rfl⟩
    have hpointer : linkedTable.find 0x1003 = .ok (.pointer 8) := by
      decide +kernel
    cases hpointer.symm.trans hfind
  obtain ⟨hread, -, -⟩ :=
    fields_of_continued_lists (t := t) hstream (some 0x1000) (2 ^ 32 - 2)
  obtain ⟨-, -, hround⟩ :=
    fields_of_continued_lists (t := t) hstream (some 0x1001) 0
  refine ⟨hstream, hchain, hend, ?_, hcircle, ?_⟩
  · obtain ⟨hfields, hnext, -, -⟩ := hread _ _ hchain (by decide) fun _ => hend
    have hmembers : members [firstList, lastList].flatten
        = [⟨"x", 8, 0x74⟩, ⟨"y", 0xfffffff0, 0x1003⟩] := rfl
    rw [hmembers] at hfields hnext
    obtain ⟨_, _, ⟨x, rfl, hx⟩, hsecond, hvalue⟩ :=
      List.forall₂_cons_left_iff.1 hfields
    obtain ⟨_, _, ⟨y, rfl, hy⟩, hnone, rfl⟩ :=
      List.forall₂_cons_left_iff.1 hsecond
    cases List.forall₂_nil_left_iff.1 hnone
    have hxid : x.id.toNat = 0xffffffff := hx.id
    have hyid : y.id.toNat = 1 := hy.id
    refine ⟨x, y, ?_, UInt32.toNat_inj.1 hxid, hx.name, hx.offset,
      UInt32.toNat_inj.1 hyid, hy.name, hy.offset⟩
    rw [← hvalue]
    exact congrArg (Prod.mk _) hnext
  · have hlength := (hround [] [ringList] _ .here hcircle
      (by decide)).fields.length_eq
    have hmembers : ∀ n, (members
        (([] ++ (List.replicate n [ringList]).flatten).take n).flatten).length
        = n := by
      intro n
      rw [List.nil_append, List.flatten_replicate_singleton, List.take_replicate,
        Nat.min_self]
      unfold members
      rw [List.filterMap_flatten, List.map_replicate]
      show (List.replicate n [(⟨"z", 0, 0x74⟩ : Member)]).flatten.length = n
      rw [List.flatten_replicate_singleton, List.length_replicate]
    rw [List.length_zipIdx, hmembers] at hlength
    exact hlength.symm

end SymbolGraph.Pdb.FieldList
