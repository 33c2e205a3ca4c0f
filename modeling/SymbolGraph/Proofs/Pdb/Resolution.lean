/-
What type indices lead to. Modifiers and fields of bits are looked through, for
a bounded number of steps, and a type that is only announced stands for its
definition, wherever in the stream that is. All definitions are known before the
first index is resolved, so what an index leads to is never announced while it
is defined, and it leads to itself (`Settles.again`, `Settles.final`). No more is
needed for the graph: below the ids of the aliases, a key is what some index
leads to, and a reference is a key (`built_resolved`).
-/
import SymbolGraph.Proofs.Build.Origins
import SymbolGraph.Proofs.Chains
import SymbolGraph.Proofs.Extract
import SymbolGraph.Proofs.Pdb.Scan

namespace SymbolGraph.Pdb

open Build
open Relation (ReflTransGen TransGen)

deriving instance DecidableEq for
  PrimitiveType, Declared, Member, TypeRecord, TypeTable

-- ============================================================ definitions

/-- The record announces or defines a class, a union or an enumeration. -/
inductive TypeRecord.Declares (head : Declared) : TypeRecord → Prop
  | aggregate {kind : TypeKind} {fields : Option TypeIndex} {size : Nat} :
      Declares head (.aggregate kind head fields size)
  | enum {underlying : TypeIndex} : Declares head (.enum head underlying)

theorem TypeRecord.Declares.unique {record : TypeRecord} {head head' : Declared}
    (h : record.Declares head) (h' : record.Declares head') : head = head' := by
  cases h <;> cases h' <;> rfl

namespace TypeTable

variable {table : TypeTable} {index : TypeIndex} {b : ByteArray}

/-- The stream has a complete definition under the key. -/
def Defines (table : TypeTable) (key : String) : Prop :=
  ∃ index record head, (index, .ok record) ∈ table.entries
    ∧ record.Declares head ∧ head.forward = false ∧ head.key = key

/-- The index is no modifier and no field of bits, and if it is only announced,
it has no definition. -/
structure Final (table : TypeTable) (index : TypeIndex) : Prop where
  unwrapped : ∀ target, table.find index ≠ .ok (.wrapper target)
  undefined : ∀ record head, table.find index = .ok record →
    record.Declares head → head.forward = true → ¬ table.Defines head.key

/-- A look-up finds the records that are in the stream. -/
def Faithful (table : TypeTable) : Prop :=
  ∀ e ∈ table.entries, table.find e.1 = e.2

/-- The block of every record is known. -/
theorem lt_blocks {i : Nat} (h : table.minimum < table.maximum)
    (hi : i < table.records.size) : i / blockSize < table.blocks := by
  unfold blocks
  rw [if_pos h]
  exact Nat.lt_succ_of_le (Nat.div_le_div_right (Nat.le_of_lt hi))

/-- They are found if the header covers all of them. -/
theorem faithful_of_covers
    (hcovers : table.minimum + table.records.size ≤ table.maximum)
    (hroom : table.maximum < 2 ^ 32) : table.Faithful := by
  intro e he
  unfold entries at he
  obtain ⟨⟨record, i⟩, hmem, rfl⟩ := List.mem_map.1 he
  have hget : table.records[i]? = some record := by
    rw [← Array.getElem?_toList]
    exact List.mk_mem_zipIdx_iff_getElem?.1 hmem
  obtain ⟨hi, -⟩ := Array.getElem?_eq_some_iff.1 hget
  have hindex : (UInt32.ofNat (table.minimum + i)).toNat = table.minimum + i :=
    UInt32.toNat_ofNat_of_lt' (show table.minimum + i < 2 ^ 32 by omega)
  unfold find
  dsimp only
  rw [hindex, if_neg (by omega), if_neg (by omega), Nat.add_sub_cancel_left,
    if_pos (lt_blocks (by omega) hi), hget, Option.getD_some]

/-- A stream is empty, or a header and the records behind it. -/
theorem exists_read_of_ofStream (h : ofStream b = .ok table) :
    b.size = 0 ∧ table = {}
      ∨ firstRecord.toNat ≤ table.minimum
        ∧ Bytes.number? .little b 8 4 = some table.minimum
        ∧ Bytes.number? .little b 12 4 = some table.maximum
        ∧ ∃ start last, Bytes.number? .little b 4 4 = some start
          ∧ (readRecords b (b.size + 1) #[]).run start
            = .ok (table.records, last) := by
  unfold ofStream at h
  split at h
  case isTrue hempty => exact .inl ⟨eq_of_beq hempty, (Except.ok.inj h).symm⟩
  case isFalse =>
    obtain ⟨next, hrun⟩ := Scan.run_of_result h
    unfold read at hrun
    simp only [run_bind_eq_ok_iff] at hrun
    obtain ⟨_, _, hversion, headerSize, _, hsize, minimum, _, hfirst, maximum,
      _, hlast, _, _, hhashes, hrun⟩ := hrun
    obtain ⟨-, rfl⟩ := Scan.skip_eq_ok_iff.1 hversion
    obtain ⟨hstart, rfl⟩ := Scan.number_eq_ok_iff.1 hsize
    obtain ⟨hminimum, rfl⟩ := Scan.number_eq_ok_iff.1 hfirst
    obtain ⟨hmaximum, rfl⟩ := Scan.number_eq_ok_iff.1 hlast
    obtain ⟨-, rfl⟩ := Scan.skip_eq_ok_iff.1 hhashes
    split at hrun
    case isTrue => cases hrun
    case isFalse hlong =>
      split at hrun
      case isTrue => cases hrun
      simp only [run_bind_eq_ok_iff] at hrun
      obtain ⟨_, _, hrest, hrun⟩ := hrun
      obtain ⟨-, rfl⟩ := Scan.skip_eq_ok_iff.1 hrest
      split at hrun
      case isTrue => cases hrun
      case isFalse hlow =>
        split at hrun
        case isTrue => cases hrun
        case isFalse =>
          simp only [run_bind_eq_ok_iff, run_pure_eq_ok_iff] at hrun
          obtain ⟨records, last, hrecords, rfl, -⟩ := hrun
          have hbegin : 0 + 4 + 4 + 4 + 4 + 40 + (headerSize - 56)
              = headerSize := by omega
          rw [hbegin] at hrecords
          exact .inr ⟨Nat.le_of_not_lt hlow, hminimum, hmaximum, headerSize,
            last, hstart, hrecords⟩

/-- Records are numbered above the base types, if there are any. -/
theorem of_ofStream (h : ofStream b = .ok table) :
    firstRecord.toNat ≤ table.minimum ∨ table = {} := by
  rcases exists_read_of_ofStream h with ⟨-, hempty⟩ | ⟨hlow, -⟩
  · exact .inr hempty
  · exact .inl hlow

/-- A base type has no record. -/
theorem find_of_isPrimitive
    (hlow : firstRecord.toNat ≤ table.minimum ∨ table = {})
    (hindex : index.isPrimitive = true) {record : TypeRecord}
    (h : table.find index = .ok record) : ∃ p, record = .primitive p := by
  have hlt : index.toNat < firstRecord.toNat :=
    UInt32.lt_iff_toNat_lt.1 (of_decide_eq_true hindex)
  unfold find at h
  dsimp only at h
  rcases hlow with hlow | rfl
  · rw [if_pos (Nat.lt_of_lt_of_le hlt hlow), if_pos hindex] at h
    cases hp : PrimitiveType.ofIndex index with
    | error fault =>
        rw [hp] at h
        cases h
    | ok p =>
        rw [hp] at h
        exact ⟨p, (Except.ok.inj h).symm⟩
  · have hblocks : blocks {} = 0 := rfl
    rw [if_neg (Nat.not_lt_zero _), hblocks, if_neg (Nat.not_lt_zero _)] at h
    split at h <;> cases h

end TypeTable

namespace Types

variable {t : Types} {table : TypeTable} {size n bound : Nat}
  {index last found target : TypeIndex}

theorem defined?_eq_some_iff {record? : Except Fault TypeRecord}
    {head : Declared} : defined? record? = some head
      ↔ ∃ record, record? = .ok record ∧ record.Declares head
        ∧ head.forward = false := by
  constructor
  · intro h
    unfold defined? at h
    split at h
    case h_1 | h_2 =>
      split at h
      case isTrue => cases h
      case isFalse hdefined =>
        cases h
        exact ⟨_, rfl, by constructor, Bool.eq_false_iff.2 hdefined⟩
    case h_3 => cases h
  · rintro ⟨_, rfl, hdeclares, hdefined⟩
    cases hdeclares
    all_goals
      unfold defined?
      dsimp only
      rw [if_neg (Bool.eq_false_iff.1 hdefined)]

theorem isSome_lookup_define {key : String}
    (entries : List (TypeIndex × Except Fault TypeRecord))
    (definitions : List (String × TypeIndex))
    (h : (definitions.lookup key).isSome = true
      ∨ ∃ e ∈ entries, ∃ head, defined? e.2 = some head ∧ head.key = key) :
    ((entries.foldl define definitions).lookup key).isSome = true := by
  induction entries generalizing definitions with
  | nil =>
      rcases h with h | ⟨_, hmem, -⟩
      · exact h
      · cases hmem
  | cons e entries ih =>
      apply ih
      -- a key that is taken stays so, and that of the first record is taken now
      rcases h with h | ⟨e', hmem, head, hhead, rfl⟩
      · left
        unfold define
        split
        · exact h
        · split
          · exact h
          · rw [List.lookup_append, Option.isSome_or, h, Bool.true_or]
      · rcases List.mem_cons.1 hmem with rfl | hmem
        · left
          unfold define
          rw [hhead]
          dsimp only
          split
          case isTrue htaken => exact htaken
          case isFalse =>
            rw [List.lookup_append, Option.isSome_or, List.lookup_cons_self,
              Option.isSome_some, Bool.or_true]
        · exact .inr ⟨e', hmem, head, hhead, rfl⟩

/-- A type that was announced stands for a definition, or for itself if there is
none. -/
theorem definition_cases (table : TypeTable) (size : Nat) (head : Declared)
    (index : TypeIndex) :
    (¬ table.Defines head.key
        ∧ (ofTable table size).definition head index = index)
      ∨ ∃ record head',
        ((ofTable table size).definition head index, .ok record)
          ∈ table.entries
        ∧ record.Declares head' ∧ head'.forward = false
        ∧ head'.key = head.key := by
  unfold definition
  cases hlookup : (ofTable table size).definitions.lookup head.key with
  | none =>
      refine .inl ⟨?_, rfl⟩
      rintro ⟨index', record, head', hmem, hdeclares, hdefined, hkey⟩
      have hsome := isSome_lookup_define table.entries [] (.inr ⟨_, hmem, head',
        defined?_eq_some_iff.2 ⟨record, rfl, hdeclares, hdefined⟩, hkey⟩)
      rw [show (table.entries.foldl define []).lookup head.key = none
        from hlookup] at hsome
      cases hsome
  | some d =>
      obtain ⟨before, behind, hsplit, -⟩ := List.lookup_eq_some_iff.1 hlookup
      have hmem : (head.key, d) ∈ table.entries.foldl define [] := by
        rw [show table.entries.foldl define [] = _ from hsplit]
        exact List.mem_append_right _ List.mem_cons_self
      rcases mem_of_mem_define hmem with hnil | ⟨e, he, heq, head', hhead', hkey⟩
      · cases hnil
      · obtain ⟨record, hrecord, hdeclares, hdefined⟩ :=
          defined?_eq_some_iff.1 hhead'
        obtain ⟨index', record?⟩ := e
        cases hrecord
        cases heq
        exact .inr ⟨record, head', he, hdeclares, hdefined, hkey⟩

-- ================================================================= chains

/-- The index is a modifier of the target, or a field of bits of its type. -/
def Unwraps (t : Types) (index target : TypeIndex) : Prop :=
  index.isPrimitive = false ∧ t.table.find index = .ok (.wrapper target)

/-- What an index comes to that is looked through no further. -/
inductive Settles (t : Types) (index : TypeIndex) : TypeIndex → Prop
  | primitive : index.isPrimitive = true → Settles t index index
  | announced {record : TypeRecord} {head : Declared} :
      index.isPrimitive = false → t.table.find index = .ok record →
      record.Declares head → head.forward = true →
      Settles t index (t.definition head index)
  | plain {record : TypeRecord} : index.isPrimitive = false →
      t.table.find index = .ok record →
      (∀ target, record ≠ .wrapper target) →
      (∀ head, record.Declares head → head.forward = false) →
      Settles t index index

theorem find_of_ok {record : TypeRecord}
    (h : t.table.find index = .ok record) : t.find index = .ok record := by
  unfold find
  rw [h]
  rfl

/-- Steps of a chain are steps of the bound. -/
theorem resolveWithin_of_chain (h : Chain t.Unwraps n index last)
    (bound : Nat) :
    t.resolveWithin (n + bound) index = t.resolveWithin bound last := by
  induction h with
  | here => rw [Nat.zero_add]
  | next hstep _ ih =>
      obtain ⟨hrecord, hfind⟩ := hstep
      rw [Nat.succ_add, resolveWithin, if_neg (Bool.eq_false_iff.1 hrecord),
        find_of_ok hfind]
      exact ih

theorem resolveWithin_of_settles (h : t.Settles index found) (bound : Nat) :
    t.resolveWithin (bound + 1) index = .ok found := by
  unfold resolveWithin
  cases h with
  | primitive hprimitive => rw [if_pos hprimitive]
  | announced hrecord hfind hdeclares hforward =>
      rw [if_neg (Bool.eq_false_iff.1 hrecord), find_of_ok hfind]
      cases hdeclares
      all_goals
        dsimp only
        rw [if_pos hforward]
  | @plain record hrecord hfind hplain hdefined =>
      rw [if_neg (Bool.eq_false_iff.1 hrecord), find_of_ok hfind]
      cases record with
      | wrapper target => exact absurd rfl (hplain target)
      | aggregate kind head fields size =>
          dsimp only
          rw [if_neg (Bool.eq_false_iff.1 (hdefined head .aggregate))]
      | enum head underlying =>
          dsimp only
          rw [if_neg (Bool.eq_false_iff.1 (hdefined head .enum))]
      | _ => rfl

theorem resolveWithin_of_unreadable {fault : Fault}
    (hrecord : index.isPrimitive = false)
    (h : t.table.find index = .error fault) (bound : Nat) :
    t.resolveWithin (bound + 1) index = .error (.unreadable fault) := by
  have hfind : t.find index = .error (.unreadable fault) := by
    unfold find
    rw [h]
    rfl
  unfold resolveWithin
  rw [if_neg (Bool.eq_false_iff.1 hrecord), hfind]

/-- A chain ends at a type, or at an index whose record cannot be read. -/
theorem settles_or_unreadable (hend : ∀ target, ¬ t.Unwraps index target) :
    (∃ found, t.Settles index found)
      ∨ ∃ fault, index.isPrimitive = false
        ∧ t.table.find index = .error fault := by
  cases hrecord : index.isPrimitive with
  | true => exact .inl ⟨index, .primitive hrecord⟩
  | false =>
      cases hfind : t.table.find index with
      | error fault => exact .inr ⟨fault, rfl, rfl⟩
      | ok record =>
          by_cases hforward : ∃ head, record.Declares head ∧ head.forward = true
          · obtain ⟨head, hdeclares, hforward⟩ := hforward
            exact .inl ⟨_, .announced hrecord hfind hdeclares hforward⟩
          · refine .inl ⟨_, .plain hrecord hfind ?_ ?_⟩
            · rintro target rfl
              exact hend target ⟨hrecord, hfind⟩
            · intro head hdeclares
              rw [Bool.eq_false_iff]
              exact fun h => hforward ⟨head, hdeclares, h⟩

/-- Every index is resolved, or it is told why not: the chain ends within the
bound, at a type or at what cannot be read, or it is given up where the bound is
reached. -/
theorem resolveWithin_cases (t : Types) (bound : Nat) (index : TypeIndex) :
    (∃ n < bound, ∃ last, Chain t.Unwraps n index last
        ∧ ((∃ found, t.Settles last found
            ∧ t.resolveWithin bound index = .ok found)
          ∨ ∃ fault, t.table.find last = .error fault
            ∧ t.resolveWithin bound index = .error (.unreadable fault)))
      ∨ ∃ last, Chain t.Unwraps bound index last
        ∧ t.resolveWithin bound index = .error (.chainTooDeep last) := by
  rcases Chain.ends_or_lasts t.Unwraps bound index with
    ⟨n, hn, last, hchain, hend⟩ | ⟨last, hchain⟩
  · obtain ⟨rest, rfl⟩ : ∃ rest, bound = n + (rest + 1) :=
      ⟨bound - n - 1, by omega⟩
    refine .inl ⟨n, hn, last, hchain, ?_⟩
    rw [resolveWithin_of_chain hchain]
    rcases settles_or_unreadable hend with
      ⟨found, hsettles⟩ | ⟨fault, hrecord, hfind⟩
    · exact .inl ⟨found, hsettles, resolveWithin_of_settles hsettles rest⟩
    · exact .inr ⟨fault, hfind, resolveWithin_of_unreadable hrecord hfind rest⟩
  · exact .inr ⟨last, hchain, resolveWithin_of_chain hchain 0⟩

theorem exists_settles_of_resolve (h : t.resolve index = .ok found) :
    ∃ last, t.Settles last found := by
  unfold resolve at h
  rcases t.resolveWithin_cases chainBound index with
    ⟨n, -, last, -, ⟨found', hsettles, heq⟩ | ⟨fault, -, heq⟩⟩ | ⟨last, -, heq⟩
  · cases h.symm.trans heq
    exact ⟨last, hsettles⟩
  · cases h.symm.trans heq
  · cases h.symm.trans heq

section Faithful

variable (hfaithful : table.Faithful)

include hfaithful

/-- What an index leads to leads to itself. -/
theorem Settles.again (h : (ofTable table size).Settles index found) :
    (ofTable table size).Settles found found := by
  cases h with
  | primitive hprimitive => exact .primitive hprimitive
  | plain hrecord hfind hplain hdefined =>
      exact .plain hrecord hfind hplain hdefined
  | @announced record head hrecord hfind hdeclares hforward =>
      rcases definition_cases table size head index with
        ⟨-, heq⟩ | ⟨record', head', hmem, hdeclares', hdefined, -⟩
      · have hself : (ofTable table size).Settles index
            ((ofTable table size).definition head index) :=
          .announced hrecord hfind hdeclares hforward
        rw [heq] at hself ⊢
        exact hself
      · cases hprimitive : ((ofTable table size).definition head
            index).isPrimitive with
        | true => exact .primitive hprimitive
        | false =>
            refine .plain hprimitive (hfaithful _ hmem) ?_ ?_
            · rintro target rfl
              cases hdeclares'
            · intro head'' hdeclares''
              rw [hdeclares''.unique hdeclares']
              exact hdefined

/-- What an index leads to is no modifier, no field of bits, and not announced
while it is defined. -/
theorem Settles.final (hlow : firstRecord.toNat ≤ table.minimum ∨ table = {})
    (h : (ofTable table size).Settles index found) : table.Final found := by
  cases h with
  | primitive hprimitive =>
      constructor
      · intro target hfind
        obtain ⟨p, hp⟩ := TypeTable.find_of_isPrimitive hlow hprimitive hfind
        cases hp
      · intro record head hfind hdeclares
        obtain ⟨p, rfl⟩ := TypeTable.find_of_isPrimitive hlow hprimitive hfind
        cases hdeclares
  | @plain record hrecord hfind hplain hdefined =>
      have hfind : table.find index = .ok record := hfind
      constructor
      · intro target hfind'
        cases hfind.symm.trans hfind'
        exact hplain target rfl
      · intro record' head hfind' hdeclares hforward
        cases hfind.symm.trans hfind'
        rw [hdefined head hdeclares] at hforward
        cases hforward
  | @announced record head hrecord hfind hdeclares hforward =>
      rcases definition_cases table size head index with
        ⟨hnone, heq⟩ | ⟨record', head', hmem, hdeclares', hdefined, -⟩
      · have hfind : table.find index = .ok record := hfind
        rw [heq]
        constructor
        · intro target hfind'
          cases hfind.symm.trans hfind'
          cases hdeclares
        · intro record' head' hfind' hdeclares' _
          cases hfind.symm.trans hfind'
          rw [hdeclares'.unique hdeclares]
          exact hnone
      · have hfind' := hfaithful _ hmem
        constructor
        · intro target hwrapper
          cases hfind'.symm.trans hwrapper
          cases hdeclares'
        · intro record'' head'' hrecord'' hdeclares'' hforward''
          cases hfind'.symm.trans hrecord''
          rw [hdeclares''.unique hdeclares', hdefined] at hforward''
          cases hforward''

end Faithful

end Types

-- ================================================================== graphs

section Graphs

variable {c : Container} {t : Types} {k : UInt32}

/-- Below the ids of the aliases, a key is what some index leads to. -/
theorem exists_index_of_key (hk : (built c t).types.contains k = true)
    (hlow : k.toNat < 0x80000000) : ∃ index, t.resolve index = .ok k := by
  have hclosed : t.source.Closed (Created c t) :=
    fun _ _ _ _ hnode => Created.of_links (Types.links_of_describe hnode)
  obtain ⟨hidle, hkeys⟩ := (within_build c t).exists_handle hclosed
    (fun _ hnode => hnode) (s := (.new (header c), 1)) rfl
  have hknows := (Builder.knows_of_idle hidle k).trans hk
  rcases hkeys k hknows with hnew | ⟨h, hcreated, hid⟩
  · cases hnew
  · cases hcreated with
    | type index => exact ⟨index, Types.resolve_of_typeId hid⟩
    | typedef hheader hstream hmem =>
        have hle := le_of_alias hstream hmem
        cases hid
        omega

/-- Whatever the records of a stream, if a look-up finds them. Every index is
resolved or it is told why not, and it is told of a circle that the chain is too
long. What an index leads to leads to itself, and is no modifier, no field of
bits, and not announced while the stream defines it, be it before or behind. In
a graph that is built of the stream, all keys below the ids of the aliases are
such indices, and all references below them are such keys. -/
theorem built_resolved {b : ByteArray} {table : TypeTable}
    (hstream : TypeTable.ofStream b = .ok table) (hfaithful : table.Faithful)
    (size : Nat) :
    let t := Types.ofTable table size
    (∀ index,
      (∃ n < chainBound, ∃ last, Chain t.Unwraps n index last
        ∧ ((∃ found, t.Settles last found ∧ t.resolve index = .ok found)
          ∨ ∃ fault, table.find last = .error fault
            ∧ t.resolve index = .error (.unreadable fault)))
      ∨ ∃ last, Chain t.Unwraps chainBound index last
        ∧ t.resolve index = .error (.chainTooDeep last))
    ∧ (∀ index middle, ReflTransGen t.Unwraps index middle →
      TransGen t.Unwraps middle middle →
      ∃ last, t.resolve index = .error (.chainTooDeep last))
    ∧ (∀ index found, t.resolve index = .ok found →
      t.resolve found = .ok found ∧ table.Final found)
    ∧ ∀ c,
      (∀ data g, load data = .ok (c, t) → (graphOf data).value = .ok g →
        g = built c t)
      ∧ (∀ k, (built c t).types.contains k = true → k.toNat < 0x80000000 →
        t.resolve k = .ok k ∧ table.Final k)
      ∧ ∀ r, (∃ type ∈ (built c t).types.values, r ∈ type.references)
            ∨ (∃ f ∈ (built c t).functions.values, r ∈ f.references) →
          r ≠ 0 → (built c t).types.contains r = true
            ∧ (r.toNat < 0x80000000 → t.resolve r = .ok r
              ∧ table.Final r) := by
  intro t
  have hlow := TypeTable.of_ofStream hstream
  have hfixed : ∀ index found, t.resolve index = .ok found →
      t.resolve found = .ok found ∧ table.Final found := by
    intro index found h
    obtain ⟨last, hsettles⟩ := Types.exists_settles_of_resolve h
    exact ⟨Types.resolveWithin_of_settles (hsettles.again hfaithful) 31,
      hsettles.final hfaithful hlow⟩
  have hkeys : ∀ c k, (built c t).types.contains k = true →
      k.toNat < 0x80000000 → t.resolve k = .ok k ∧ table.Final k := by
    intro c k hk hlow
    obtain ⟨index, hindex⟩ := exists_index_of_key hk hlow
    exact hfixed index k hindex
  refine ⟨t.resolveWithin_cases chainBound, fun index middle hlead hcircle => ?_,
    hfixed, fun c => ⟨fun data g => graphOf_eq_built, hkeys c,
      fun r hr hne => ?_⟩⟩
  · obtain ⟨last, hchain⟩ := Chain.exists_of_circle hlead hcircle chainBound
    exact ⟨last, Types.resolveWithin_of_chain hchain 0⟩
  · obtain ⟨builder, hreachable, hgraph⟩ := exists_builder c t
    obtain ⟨-, hwell, -⟩ := hreachable.graph_wellFormed
    rw [hgraph] at hwell
    have hcontains : (built c t).types.contains r = true := by
      rcases hr with ⟨type, htype, hr⟩ | ⟨f, hf, hr⟩
      · obtain ⟨k, hget⟩ := Table.mem_values.1 htype
        exact (hwell.types k type hget).resolved r hr hne
      · obtain ⟨k, hget⟩ := Table.mem_values.1 hf
        exact (hwell.functions k f hget).resolved r hr hne
    exact ⟨hcontains, hkeys c r hcontains⟩

/-- Two modifiers of each other; a modifier of a structure that is announced;
the announcement; the fields of the structure, by way of the modifiers; and its
definition. -/
def ringStream : ByteArray := ⟨#[
    11, 202, 49, 1, 56, 0, 0, 0, 0, 16, 0, 0, 6, 16, 0, 0, 106, 0, 0, 0, 0, 0,
    0, 0, 0, 0, 0, 0, 0, 0, 0, 0, 0, 0, 0, 0, 0, 0, 0, 0, 0, 0, 0, 0, 0, 0, 0,
    0, 0, 0, 0, 0, 0, 0, 0, 0, 8, 0, 1, 16, 1, 16, 0, 0, 0, 0, 8, 0, 1, 16, 0,
    16, 0, 0, 0, 0, 8, 0, 1, 16, 3, 16, 0, 0, 0, 0, 22, 0, 5, 21, 0, 0, 128,
    0, 0, 0, 0, 0, 0, 0, 0, 0, 0, 0, 0, 0, 0, 0, 110, 0, 26, 0, 3, 18, 13, 21,
    0, 0, 2, 16, 0, 0, 0, 0, 97, 0, 13, 21, 0, 0, 0, 16, 0, 0, 0, 0, 98, 0,
    22, 0, 5, 21, 0, 0, 0, 0, 4, 16, 0, 0, 0, 0, 0, 0, 0, 0, 0, 0, 8, 0, 110,
    0]⟩

def ringTable : TypeTable where
  minimum := 0x1000
  maximum := 0x1006
  records := #[
    .ok (.wrapper 0x1001), .ok (.wrapper 0x1000), .ok (.wrapper 0x1003),
    .ok (.aggregate .struct
      { forward := true, name := "n", uniqueName := none } none 0),
    .ok (.fieldList [⟨"a", 0, 0x1002⟩, ⟨"b", 0, 0x1000⟩] none),
    .ok (.aggregate .struct
      { forward := false, name := "n", uniqueName := none } (some 0x1004) 8)]

/-- A database with one alias, of the modifier of the structure. -/
def ringContainer : Container where
  data := ⟨#[
    0, 0, 0, 0, 0, 0, 0, 0, 0, 0, 0, 0, 0, 0, 0, 0, 0, 0, 0, 0, 0, 0, 0, 0, 0,
    0, 0, 0, 0, 0, 0, 0, 0, 0, 0, 0, 0, 0, 0, 0, 0, 0, 0, 0, 0, 0, 0, 0, 0, 0,
    0, 0, 0, 0, 0, 0, 0, 0, 0, 0, 0, 0, 0, 0, 2, 0, 0, 0, 0, 0, 0, 0, 0, 0, 0,
    0, 0, 0, 0, 0, 0, 0, 0, 0, 0, 0, 0, 0, 0, 0, 0, 0, 0, 0, 0, 0, 0, 0, 0, 0,
    0, 0, 0, 0, 0, 0, 0, 0, 0, 0, 0, 0, 0, 0, 0, 0, 0, 0, 0, 0, 0, 0, 0, 0, 0,
    0, 0, 0, 5, 0, 0, 0, 0, 0, 0, 0, 0, 0, 0, 0, 0, 0, 0, 0, 64, 0, 0, 0, 10,
    0, 0, 0, 3, 0, 0, 0, 4, 0, 0, 0, 0, 0, 0, 0, 0, 0, 0, 0, 0, 0, 0, 0, 0, 0,
    0, 0, 0, 0, 0, 0, 0, 0, 0, 0, 0, 0, 0, 0, 0, 0, 0, 0, 255, 255, 255, 255,
    0, 0, 0, 0, 0, 0, 0, 0, 0, 0, 0, 0, 0, 0, 0, 0, 4, 0, 0, 0, 0, 0, 0, 0, 0,
    0, 0, 0, 0, 0, 0, 0, 0, 0, 0, 0, 0, 0, 0, 0, 0, 0, 0, 0, 0, 0, 0, 0, 0, 0,
    0, 0, 0, 0, 100, 134, 0, 0, 0, 0, 8, 0, 8, 17, 2, 16, 0, 0, 116, 0]⟩
  pageSize := 64
  pageCount := 5
  directorySize := 32
  listPages := [1]

/-- The modifiers of each other are given up, and the others lead to the
definition behind them; so do the alias and the first field. -/
theorem built_resolved_ringTable :
    let t := Types.ofTable ringTable 8
    let g := built ringContainer t
    TypeTable.ofStream ringStream = .ok ringTable ∧ ringTable.Faithful
      ∧ (∃ last, t.resolve 0x1000 = .error (.chainTooDeep last))
      ∧ t.resolve 0x1002 = .ok 0x1005 ∧ t.resolve 0x1005 = .ok 0x1005
      ∧ ringTable.Final 0x1005
      ∧ g.types.entries.map
          (fun e => (e.1, e.2.aliasOf, e.2.fields.map Field.typeId))
        = [(0x1005, 0, [0x1005, 0]), (0x80000000, 0x1005, [])] := by
  intro t g
  have hstream : TypeTable.ofStream ringStream = .ok ringTable := by
    decide +kernel
  have hfaithful : ringTable.Faithful :=
    TypeTable.faithful_of_covers (by decide) (by decide)
  have hforth : t.Unwraps 0x1000 0x1001 := ⟨by decide, by decide +kernel⟩
  have hback : t.Unwraps 0x1001 0x1000 := ⟨by decide, by decide +kernel⟩
  have hnode : t.resolve 0x1002 = .ok 0x1005 :=
    toOption_eq_some_iff.1 (by decide +kernel)
  have hentries : g.types.entries.map
        (fun e => (e.1, e.2.aliasOf, e.2.fields.map Field.typeId))
      = [(0x1005, 0, [0x1005, 0]), (0x80000000, 0x1005, [])] := by
    decide +kernel
  have hkeys : g.types.keys = [0x1005, 0x80000000] := by
    have hfirst := congrArg (List.map Prod.fst) hentries
    rwa [List.map_map] at hfirst
  obtain ⟨-, hcircles, hfixed, hgraphs⟩ := built_resolved hstream hfaithful 8
  obtain ⟨-, hgraph, -⟩ := hgraphs ringContainer
  obtain ⟨hagain, hfinal⟩ := hgraph 0x1005
    (Table.mem_keys.1 (by rw [hkeys]; decide)) (by decide)
  exact ⟨hstream, hfaithful,
    hcircles 0x1000 0x1000 .refl (.tail (.single hforth) hback), hnode, hagain,
    hfinal, hentries⟩

end Graphs

end SymbolGraph.Pdb
