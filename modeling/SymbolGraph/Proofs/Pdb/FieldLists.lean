/-
The lists of fields in a stream of types, octet by octet. A list is a record
whose parts are entries: places where the list goes on, members, and records of
other kinds, each with padding behind it (`FieldList.Lays`). Reading keeps the
members and the last place where the list goes on, and nothing of the others
(`FieldList.parse_eq_fieldList_iff`): the fuel that it has is enough, since an
entry is no shorter than its kind. A stream is a header and records, and a
look-up takes them by number, so which indices are lists, and of which entries,
is told by the octets of the stream alone (`FieldList.find_eq_fieldList_iff`).
-/
import SymbolGraph.Proofs.Pdb.Resolution

namespace SymbolGraph.Pdb

namespace FieldList

open Scan TypeRecord

/-- A part of a list of fields. -/
inductive Entry where
  /-- Where the list goes on. -/
  | continuation (next : TypeIndex)
  | member (member : Member)
  /-- A base, a method, a nested type, a static member, or any other record. -/
  | other (kind : Nat)

def Entry.member? : Entry → Option Member
  | .member m => some m
  | _ => none

def Entry.continuation? : Entry → Option TypeIndex
  | .continuation next => some next
  | _ => none

/-- The members of a list, in order. -/
def members (entries : List Entry) : List Member :=
  entries.filterMap Entry.member?

/-- Where a list goes on: of several places the last counts. -/
def continuation (entries : List Entry) : Option TypeIndex :=
  (entries.filterMap Entry.continuation?).getLast?

variable {b octets : ByteArray} {place start behind next fuel kind : Nat}
  {e : Entry} {entries : List Entry} {record : TypeRecord}
  {list : List Member} {link : Option TypeIndex} {table : TypeTable}
  {index : TypeIndex}

theorem members_cons (e : Entry) (entries : List Entry) :
    members (e :: entries) = e.member?.toList ++ members entries := by
  unfold members
  cases e <;> rfl

theorem continuation_cons (e : Entry) (entries : List Entry) :
    continuation (e :: entries)
      = (continuation entries).or e.continuation? := by
  unfold continuation
  cases e with
  | continuation next =>
      show (next :: entries.filterMap Entry.continuation?).getLast? = _
      rw [List.getLast?_cons]
      cases (entries.filterMap Entry.continuation?).getLast? <;> rfl
  | member | other =>
      show (entries.filterMap Entry.continuation?).getLast? = _
      rw [show Entry.continuation? _ = none from rfl, Option.or_none]

-- =============================================================== entries

/-- An entry stands at a place, and ends before another one. -/
inductive Stands (b : ByteArray) (place : Nat) : Entry → Nat → Prop
  | continuation {next : Nat} :
      Bytes.number? .little b place 2 = some 0x1404 →
      Bytes.number? .little b (place + 2) 4 = some next →
      Stands b place (.continuation (UInt32.ofNat next)) (place + 6)
  /-- Attributes, which mean nothing here, the type, the offset and the name. -/
  | member {kind type offset between behind : Nat} {text : String} :
      Bytes.number? .little b place 2 = some kind → IsMemberKind kind →
      Bytes.number? .little b (place + 4) 4 = some type →
      (unsigned b).run (place + 8) = .ok (offset, between) →
      (name b kind).run between = .ok (text, behind) →
      Stands b place (.member
        { name := text, offset, type := UInt32.ofNat type }) behind
  | other {kind behind : Nat} {record : TypeRecord} :
      Bytes.number? .little b place 2 = some kind →
      kind ≠ 0x1404 → ¬ IsMemberKind kind →
      (readWithin b b.size).run place = .ok (record, behind) →
      Stands b place (.other kind) behind

/-- From a place on, the octets are these entries. -/
inductive Lays (b : ByteArray) : Nat → List Entry → Prop
  | done {place : Nat} : b.size ≤ place → Lays b place []
  | next {place behind next : Nat} {e : Entry} {entries : List Entry} :
      Stands b place e behind →
      (padding b (b.size + 1)).run behind = .ok ((), next) →
      Lays b next entries → Lays b place (e :: entries)

/-- The octets are a list of fields with these entries. -/
structure Holds (octets : ByteArray) (entries : List Entry) : Prop where
  kind : Bytes.number? .little octets 0 2 = some 0x1203
  entries : Lays octets 2 entries

theorem readMember_eq_ok_iff {m : Member} :
    (readMember b kind).run (place + 2) = .ok (.member m, behind)
      ↔ ∃ type between, Bytes.number? .little b (place + 4) 4 = some type
        ∧ m.type = UInt32.ofNat type
        ∧ (unsigned b).run (place + 8) = .ok (m.offset, between)
        ∧ (name b kind).run between = .ok (m.name, behind) := by
  unfold readMember
  simp only [run_bind_eq_ok_iff, run_pure_eq_ok_iff, typeIndex_eq_ok_iff]
  constructor
  · intro ⟨_, at4, hskip, index, at8, ⟨type, htype, hindex, hat8⟩, offset,
      between, hoffset, text, last, htext, hm, hlast⟩
    obtain ⟨-, rfl⟩ := skip_eq_ok_iff.1 hskip
    cases hm
    cases hlast
    cases hat8
    exact ⟨type, between, htype, hindex, hoffset, htext⟩
  · intro ⟨type, between, htype, hindex, hoffset, htext⟩
    have hroom := Bytes.le_of_number? htype
    refine ⟨(), place + 4, skip_eq_ok_iff.2 ⟨by omega, rfl⟩, m.type, place + 8,
      ⟨type, htype, hindex, rfl⟩, m.offset, between, hoffset, m.name, behind,
      htext, rfl, rfl⟩

/-- A record of a member's kind is read as a member. -/
theorem readWithin_of_memberKind
    (hkind : Bytes.number? .little b place 2 = some kind)
    (hmember : IsMemberKind kind) :
    (readWithin b b.size).run place = (readMember b kind).run (place + 2) := by
  have hroom := Bytes.le_of_number? hkind
  obtain ⟨bound, hbound⟩ : ∃ bound, b.size = bound + 1 :=
    ⟨b.size - 1, by omega⟩
  have hread : (u16 b).run place = .ok (kind, place + 2) :=
    number_eq_ok_iff.2 ⟨hkind, rfl⟩
  rw [hbound, readWithin, run_bind_ok hread]
  rcases hmember with rfl | rfl <;> rfl

/-- A record of another kind is read as no member. -/
theorem member?_of_readWithin
    (hkind : Bytes.number? .little b place 2 = some kind)
    (hother : ¬ IsMemberKind kind)
    (h : (readWithin b b.size).run place = .ok (record, behind)) :
    record.member? = none := by
  have hroom := Bytes.le_of_number? hkind
  obtain ⟨bound, hbound⟩ : ∃ bound, b.size = bound + 1 :=
    ⟨b.size - 1, by omega⟩
  rw [hbound] at h
  obtain ⟨kind', start, hread, -, hfits⟩ :=
    readWithin_fits (takes_readWithin bound).moves h
  obtain ⟨hkind', -⟩ := number_eq_ok_iff.1 hread
  cases hkind.symm.trans hkind'
  cases record with
  | member m => exact absurd hfits hother
  | _ => rfl

/-- What is read from a kind on is an entry, unless the kind tells that the list
goes on. -/
theorem exists_stands_of_record
    (hkind : Bytes.number? .little b place 2 = some kind) (hne : kind ≠ 0x1404)
    (h : (readWithin b b.size).run place = .ok (record, behind)) :
    ∃ e, Stands b place e behind ∧ e.member? = record.member?
      ∧ e.continuation? = none := by
  by_cases hmember : IsMemberKind kind
  · rw [readWithin_of_memberKind hkind hmember] at h
    obtain ⟨-, m, rfl⟩ := takes_readMember b _ _ _ h
    obtain ⟨type, between, htype, hindex, hoffset, htext⟩ :=
      readMember_eq_ok_iff.1 h
    have hstands := Stands.member hkind hmember htype hoffset htext
    rw [← hindex] at hstands
    exact ⟨.member m, hstands, rfl, rfl⟩
  · exact ⟨.other kind, .other hkind hne hmember h,
      (member?_of_readWithin hkind hmember h).symm, rfl⟩

/-- Reading a list goes on behind an entry, with its member, if it is one, or
with the place that it tells. -/
theorem readFieldList_of_stands (h : Stands b place e behind)
    (hpadding : (padding b (b.size + 1)).run behind = .ok ((), next)) :
    (readFieldList b (readWithin b b.size) (fuel + 1) list link).run place
      = (readFieldList b (readWithin b b.size) fuel (e.member?.toList ++ list)
          (e.continuation?.or link)).run next := by
  have hrecord : ∀ {kind : Nat} {record : TypeRecord},
      Bytes.number? .little b place 2 = some kind → kind ≠ 0x1404 →
      (readWithin b b.size).run place = .ok (record, behind) →
      (readFieldList b (readWithin b b.size) (fuel + 1) list link).run place
        = (readFieldList b (readWithin b b.size) fuel
          (record.member?.toList ++ list) link).run next := by
    intro kind record hkind hne hread
    have hroom := Bytes.le_of_number? hkind
    have hu16 : (u16 b).run place = .ok (kind, place + 2) :=
      number_eq_ok_iff.2 ⟨hkind, rfl⟩
    rw [readFieldList_of_more (by omega), hu16]
    split
    case h_1 hfault => cases hfault
    case h_2 hlink =>
      cases hlink
      exact absurd rfl hne
    case h_3 => rw [run_bind_ok hread, run_bind_ok hpadding]
  cases h with
  | @continuation index hkind hindex =>
      have hroom := Bytes.le_of_number? hkind
      have hu16 : (u16 b).run place = .ok (0x1404, place + 2) :=
        number_eq_ok_iff.2 ⟨hkind, rfl⟩
      have hread : (typeIndex b).run (place + 2)
          = .ok (UInt32.ofNat index, place + 6) :=
        typeIndex_eq_ok_iff.2 ⟨index, hindex, rfl, rfl⟩
      rw [readFieldList_of_more (by omega), hu16]
      show StateT.run (do
        let next ← typeIndex b
        padding b (b.size + 1)
        readFieldList b _ fuel list (some next) : Scan TypeRecord) _ = _
      rw [run_bind_ok hread, run_bind_ok hpadding]
      rfl
  | @member kind type offset between _ text hkind hmember htype hoffset htext =>
      have hne : kind ≠ 0x1404 := by rcases hmember with rfl | rfl <;> decide
      exact hrecord hkind hne ((readWithin_of_memberKind hkind hmember).trans
        (readMember_eq_ok_iff.2 ⟨type, between, htype, rfl, hoffset, htext⟩))
  | other hkind hne hmember hread =>
      rw [hrecord hkind hne hread, member?_of_readWithin hkind hmember hread]
      rfl

/-- Where reading a list goes on, it has read an entry. -/
theorem exists_stands_of_readFieldList (hmore : place < b.size) {last : Nat}
    (h : (readFieldList b (readWithin b b.size) (fuel + 1) list link).run place
      = .ok (record, last)) :
    ∃ e behind next, Stands b place e behind
      ∧ (padding b (b.size + 1)).run behind = .ok ((), next)
      ∧ (readFieldList b (readWithin b b.size) fuel
          (e.member?.toList ++ list) (e.continuation?.or link)).run next
        = .ok (record, last) := by
  rw [readFieldList_of_more hmore] at h
  split at h
  case h_1 => cases h
  case h_2 start hu16 =>
    obtain ⟨hkind, rfl⟩ := number_eq_ok_iff.1 hu16
    obtain ⟨index, behind, hread, hrest⟩ := run_bind_eq_ok_iff.1 h
    obtain ⟨⟨⟩, next, hpadding, hlist⟩ := run_bind_eq_ok_iff.1 hrest
    obtain ⟨n, hindex, rfl, rfl⟩ := typeIndex_eq_ok_iff.1 hread
    exact ⟨_, _, next, .continuation hkind hindex, hpadding, hlist⟩
  case h_3 found hne hu16 =>
    obtain ⟨kind, start⟩ := found
    obtain ⟨hkind, rfl⟩ := number_eq_ok_iff.1 hu16
    obtain ⟨r, behind, hread, hrest⟩ := run_bind_eq_ok_iff.1 h
    obtain ⟨⟨⟩, next, hpadding, hlist⟩ := run_bind_eq_ok_iff.1 hrest
    obtain ⟨e, hstands, hsame, hlink⟩ := exists_stands_of_record hkind
      (fun hlink => hne _ (by rw [hlink])) hread
    refine ⟨e, behind, next, hstands, hpadding, ?_⟩
    rw [hsame, hlink]
    exact hlist

-- ================================================================= lists

/-- An entry is no shorter than its kind. -/
theorem Stands.lt (h : Stands b place e behind) :
    place + 2 ≤ behind ∧ place + 2 ≤ b.size := by
  cases h with
  | continuation hkind => exact ⟨by omega, Bytes.le_of_number? hkind⟩
  | member hkind _ _ hoffset htext =>
      have hbetween := moves_unsigned b _ _ _ hoffset
      have hbehind := moves_name b _ _ _ _ htext
      exact ⟨by omega, Bytes.le_of_number? hkind⟩
  | other hkind _ _ hread =>
      exact ⟨(takes_readWithin _ _ _ _ hread).1, Bytes.le_of_number? hkind⟩

/-- So many entries need twice as many octets. -/
theorem Lays.length_le (h : Lays b place entries) :
    entries = [] ∨ place + 2 * entries.length ≤ b.size := by
  induction h with
  | done => exact .inl rfl
  | next hstands hpadding hrest ih =>
      have hpadded := moves_padding b _ _ _ _ hpadding
      have hlt := hstands.lt
      right
      rcases ih with rfl | hle
      · simpa using hlt.2
      · rw [List.length_cons]
        omega

/-- Entries are read as far as they go, if the fuel is more than their number. -/
theorem readFieldList_of_lays (h : Lays b place entries)
    (hfuel : entries.length < fuel) (list : List Member)
    (link : Option TypeIndex) :
    ∃ last, (readFieldList b (readWithin b b.size) fuel list link).run place
      = .ok (.fieldList (list.reverse ++ members entries)
          ((continuation entries).or link), last) := by
  obtain ⟨fuel, rfl⟩ : ∃ rest, fuel = rest + 1 := ⟨fuel - 1, by omega⟩
  induction h generalizing fuel list link with
  | @done place hend =>
      refine ⟨place, ?_⟩
      rw [readFieldList_of_end hend]
      simp [members, continuation]
  | @next place behind next e entries hstands hpadding _ ih =>
      rw [List.length_cons] at hfuel
      obtain ⟨fuel, rfl⟩ : ∃ rest, fuel = rest + 1 := ⟨fuel - 1, by omega⟩
      obtain ⟨last, hread⟩ := ih (e.member?.toList ++ list)
        (e.continuation?.or link) fuel (by omega)
      refine ⟨last, ?_⟩
      rw [readFieldList_of_stands hstands hpadding, hread, members_cons,
        continuation_cons, Option.or_assoc, List.reverse_append,
        List.append_assoc]
      cases e <;> rfl

/-- What was read of a list are the entries that it has. -/
theorem exists_lays_of_readFieldList {last : Nat}
    (h : (readFieldList b (readWithin b b.size) fuel list link).run place
      = .ok (record, last)) :
    ∃ entries, Lays b place entries
      ∧ record = .fieldList (list.reverse ++ members entries)
          ((continuation entries).or link) := by
  induction fuel generalizing place list link with
  | zero => cases h
  | succ fuel ih =>
      by_cases hmore : place < b.size
      · obtain ⟨e, behind, next, hstands, hpadding, hrest⟩ :=
          exists_stands_of_readFieldList hmore h
        obtain ⟨entries, hlays, rfl⟩ := ih hrest
        refine ⟨e :: entries, .next hstands hpadding hlays, ?_⟩
        rw [members_cons, continuation_cons, Option.or_assoc,
          List.reverse_append, List.append_assoc]
        cases e <;> rfl
      · have hend := Nat.not_lt.1 hmore
        rw [readFieldList_of_end hend] at h
        cases h
        refine ⟨[], .done hend, ?_⟩
        simp [members, continuation]

/-- A record is a list of these members just if it has entries, of which the
members are these. -/
theorem parse_eq_fieldList_iff :
    TypeRecord.parse octets = .ok (.fieldList list link)
      ↔ ∃ entries, Holds octets entries ∧ list = members entries
        ∧ link = continuation entries := by
  have hread : ∀ {kind : Nat},
      Bytes.number? .little octets 0 2 = some kind → kind = 0x1203 →
      (readWithin octets (octets.size + 1)).run 0
        = (readFieldList octets (readWithin octets octets.size)
          (octets.size + 1) [] none).run 2 := by
    intro kind hkind hlist
    have hu16 : (u16 octets).run 0 = .ok (kind, 2) :=
      number_eq_ok_iff.2 ⟨hkind, rfl⟩
    subst hlist
    rw [readWithin, run_bind_ok hu16]
    rfl
  constructor
  · intro h
    obtain ⟨last, hrun⟩ := run_of_result h
    obtain ⟨kind, start, hu16, -, hfits⟩ :=
      readWithin_fits (takes_readWithin _).moves hrun
    obtain ⟨hkind, -⟩ := number_eq_ok_iff.1 hu16
    have hlist : kind = 0x1203 := hfits
    rw [hread hkind hlist] at hrun
    obtain ⟨entries, hlays, heq⟩ := exists_lays_of_readFieldList hrun
    cases heq
    exact ⟨entries, ⟨hlist ▸ hkind, hlays⟩, rfl, Option.or_none⟩
  · intro ⟨entries, ⟨hkind, hlays⟩, hlist, hlink⟩
    have hfuel : entries.length < octets.size + 1 := by
      rcases hlays.length_le with rfl | hle
      · exact Nat.succ_pos _
      · omega
    obtain ⟨last, hrun⟩ := readFieldList_of_lays hlays hfuel [] none
    rw [← hread hkind rfl] at hrun
    unfold TypeRecord.parse result
    rw [hrun, hlist, hlink, Option.or_none]
    rfl

-- =============================================================== streams

/-- The records of a stream from a place on, each behind its length. -/
inductive Records (b : ByteArray) : Nat → List ByteArray → Prop
  | done {place : Nat} : b.size ≤ place → Records b place []
  | next {place length : Nat} {octets : ByteArray} {rest : List ByteArray} :
      Bytes.number? .little b place 2 = some length → 2 ≤ length →
      Bytes.range? b (place + 2) length = some octets →
      Records b (place + 2 + length) rest → Records b place (octets :: rest)

theorem Records.unique {records records' : List ByteArray}
    (h : Records b place records) (h' : Records b place records') :
    records = records' := by
  induction h generalizing records' with
  | done hend =>
      cases h' with
      | done => rfl
      | next hlength =>
          have hroom := Bytes.le_of_number? hlength
          omega
  | next hlength _ hoctets _ ih =>
      cases h' with
      | done hend =>
          have hroom := Bytes.le_of_number? hlength
          omega
      | next hlength' _ hoctets' hrest' =>
          cases hlength.symm.trans hlength'
          cases hoctets.symm.trans hoctets'
          rw [ih hrest']

/-- A record has fewer than `2 ^ 16` octets. -/
theorem Records.size_lt {records : List ByteArray} (h : Records b place records)
    (hmem : octets ∈ records) : octets.size < 2 ^ 16 := by
  induction h with
  | done => cases hmem
  | @next place length first rest hlength _ hoctets _ ih =>
      rcases List.mem_cons.1 hmem with rfl | hmem
      · rw [Bytes.size_of_range? hoctets]
        exact Bytes.lt_of_number? hlength
      · exact ih hmem

/-- The records that are read of a stream are those that it has. -/
theorem exists_records_of_readRecords {found : Array (Except Fault TypeRecord)}
    {records : Array (Except Fault TypeRecord)} {last : Nat}
    (h : (TypeTable.readRecords b fuel found).run place
      = .ok (records, last)) :
    ∃ list, Records b place list
      ∧ records.toList = found.toList ++ list.map TypeRecord.parse := by
  induction fuel generalizing place found with
  | zero => cases h
  | succ fuel ih =>
      unfold TypeTable.readRecords at h
      by_cases hmore : place < b.size
      · rw [run_bind_ok (atEnd_of_lt hmore), if_neg Bool.false_ne_true] at h
        obtain ⟨length, start, hu16, h⟩ := run_bind_eq_ok_iff.1 h
        split at h
        · cases h
        · rename_i hlong
          obtain ⟨octets, next, htake, hrest⟩ := run_bind_eq_ok_iff.1 h
          obtain ⟨hlength, rfl⟩ := number_eq_ok_iff.1 hu16
          obtain ⟨hoctets, rfl⟩ := take_eq_ok_iff.1 htake
          obtain ⟨list, hlist, hrecords⟩ := ih hrest
          refine ⟨octets :: list,
            .next hlength (by omega) hoctets hlist, ?_⟩
          rw [hrecords]
          simp
      · have hend := Nat.not_lt.1 hmore
        rw [run_bind_ok (atEnd_of_le hend)] at h
        cases h
        exact ⟨[], .done hend, by simp⟩

/-- The stream has a list with these entries at an index. The header tells where
the records begin, and which indices they have. -/
inductive ListAt (b : ByteArray) (index : TypeIndex) (entries : List Entry) :
    Prop
  | stored {start first limit : Nat} {records : List ByteArray}
      {octets : ByteArray} :
      Bytes.number? .little b 4 4 = some start →
      Bytes.number? .little b 8 4 = some first →
      Bytes.number? .little b 12 4 = some limit →
      first < limit → first ≤ index.toNat → index.toNat ≤ limit →
      Records b start records → records[index.toNat - first]? = some octets →
      Holds octets entries → ListAt b index entries

/-- A look-up finds a list of fields just if it is stored under the index and
the header covers it. -/
theorem find_eq_stored_iff : table.find index = .ok (.fieldList list link)
    ↔ table.minimum < table.maximum ∧ table.minimum ≤ index.toNat
      ∧ index.toNat ≤ table.maximum
      ∧ table.records[index.toNat - table.minimum]?
        = some (.ok (.fieldList list link)) := by
  unfold TypeTable.find
  dsimp only
  constructor
  · intro h
    split at h
    case isTrue =>
      -- below the records there are base types only
      split at h
      · cases hp : PrimitiveType.ofIndex index <;> rw [hp] at h <;> cases h
      · cases h
    case isFalse hlow =>
      split at h
      case isTrue => cases h
      case isFalse hhigh =>
        split at h
        case isFalse => cases h
        case isTrue hblock =>
          cases hrecord : table.records[index.toNat - table.minimum]? with
          | none =>
              rw [hrecord] at h
              cases h
          | some record =>
              rw [hrecord, Option.getD_some] at h
              refine ⟨?_, by omega, by omega, congrArg some h⟩
              by_contra hnone
              unfold TypeTable.blocks at hblock
              rw [if_neg hnone] at hblock
              exact Nat.not_lt_zero _ hblock
  · intro ⟨hsome, hlow, hhigh, hrecord⟩
    obtain ⟨hin, -⟩ := Array.getElem?_eq_some_iff.1 hrecord
    rw [if_neg (by omega), if_neg (by omega),
      if_pos (TypeTable.lt_blocks hsome hin), hrecord, Option.getD_some]

/-- A look-up in a stream finds the lists that the stream has. -/
theorem find_eq_fieldList_iff (hstream : TypeTable.ofStream b = .ok table) :
    table.find index = .ok (.fieldList list link)
      ↔ ∃ entries, ListAt b index entries ∧ list = members entries
        ∧ link = continuation entries := by
  rw [find_eq_stored_iff]
  rcases TypeTable.exists_read_of_ofStream hstream with
    ⟨hempty, rfl⟩ | ⟨-, hminimum, hmaximum, start, last, hstart, hread⟩
  · constructor
    · intro ⟨hsome, _⟩
      cases hsome
    · intro ⟨entries, hlist, _⟩
      cases hlist with
      | stored hstart =>
          have hroom := Bytes.le_of_number? hstart
          omega
  · obtain ⟨records, hrecords, heq⟩ := exists_records_of_readRecords hread
    have hget : ∀ i : Nat, table.records[i]?
        = records[i]?.map TypeRecord.parse := by
      intro i
      rw [← Array.getElem?_toList, heq]
      simp
    constructor
    · intro ⟨hsome, hlow, hhigh, hrecord⟩
      rw [hget, Option.map_eq_some_iff] at hrecord
      obtain ⟨octets, hoctets, hparse⟩ := hrecord
      obtain ⟨entries, hholds, hlist, hlink⟩ := parse_eq_fieldList_iff.1 hparse
      exact ⟨entries, .stored hstart hminimum hmaximum hsome hlow hhigh hrecords
        hoctets hholds, hlist, hlink⟩
    · intro ⟨entries, hat, hlist, hlink⟩
      cases hat with
      | stored hstart' hfirst hlimit hsome hlow hhigh hrecords' hoctets hholds =>
          cases hstart.symm.trans hstart'
          cases hminimum.symm.trans hfirst
          cases hmaximum.symm.trans hlimit
          cases hrecords.unique hrecords'
          refine ⟨hsome, hlow, hhigh, ?_⟩
          rw [hget, hoctets, Option.map_some]
          exact congrArg some
            (parse_eq_fieldList_iff.2 ⟨entries, hholds, hlist, hlink⟩)

/-- A list has fewer than `2 ^ 15` members. -/
theorem ListAt.length_members_lt (h : ListAt b index entries) :
    (members entries).length < 2 ^ 15 := by
  cases h with
  | @stored _ _ _ records octets _ _ _ _ _ _ hrecords hoctets hholds =>
      have hsize := hrecords.size_lt (List.mem_of_getElem? hoctets)
      have hle : (members entries).length ≤ entries.length :=
        List.length_filterMap_le _ _
      rcases hholds.entries.length_le with rfl | hroom
      · exact Nat.pow_pos (by decide)
      · omega

end FieldList

end SymbolGraph.Pdb
