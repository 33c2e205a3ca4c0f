/-
The handles of a program database. Types are asked for by their indices, and
what a record says may lead to any index. Aliases have handles with ids of
their own, given in the order of the symbols (`aliases`). Nothing else is ever
asked for (`within_build`).

Two handles of types have one id only if the records behind them lead to one
index, and from there on a description is the same, however long the chains
were and wherever they meet. Two aliases never have one id, because there are
far fewer symbols in a stream than numbers above the first one. And no type has
the id of an alias, as long as the records stay below those numbers
(`Types.toNat_of_resolveWithin`).
-/
import SymbolGraph.Pdb.Extraction
import SymbolGraph.Proofs.Build.Handles
import SymbolGraph.Proofs.Build.Signature
import SymbolGraph.Proofs.Build.Steps
import SymbolGraph.Proofs.Bytes
import SymbolGraph.Proofs.Except

namespace SymbolGraph.Pdb

open Build

-- =============================================================== streams

theorem Scan.lt_of_number {b : ByteArray} {width n place next : Nat}
    (h : (number b width).run place = .ok (n, next)) : n < 256 ^ width := by
  unfold number at h
  rw [StateT.run] at h
  split at h
  · cases h
    exact Bytes.littleAt_lt b place width
  · cases h

theorem Scan.run_of_result {α : Type} {scan : Scan α} {a : α}
    (h : scan.result = .ok a) : ∃ next, scan.run 0 = .ok (a, next) := by
  unfold result at h
  cases hrun : scan.run 0 with
  | error fault =>
      rw [hrun] at h
      cases h
  | ok found =>
      rw [hrun] at h
      cases h
      exact ⟨found.2, rfl⟩

namespace Container

variable {c : Container}

theorem size_of_gather {pages : List Nat} {size : Nat} {out b : ByteArray}
    (h : c.gather pages size out = .ok b) : b.size ≤ out.size + size := by
  induction pages generalizing size out with
  | nil =>
      cases h
      exact Nat.le_add_right _ _
  | cons page pages ih =>
      unfold gather at h
      dsimp only at h
      split at h
      case isTrue =>
        cases h
        exact Nat.le_add_right _ _
      case isFalse =>
        split at h
        case isTrue =>
          have hrest := ih h
          rw [ByteArray.size_append, ByteArray.size_extract] at hrest
          omega
        case isFalse => cases h

theorem size_of_place {directory : ByteArray} {number size start next : Nat}
    {pages : List Nat}
    (h : (c.place directory number).run start = .ok ((pages, size), next)) :
    size < 2 ^ 32 := by
  unfold place at h
  rw [run_bind_eq_ok_iff] at h
  obtain ⟨count, _, -, h⟩ := h
  split at h
  case isTrue => cases h
  simp only [run_bind_eq_ok_iff] at h
  obtain ⟨skipped, _, -, size', _, hsize, h⟩ := h
  split at h
  case isTrue => cases h
  simp only [run_bind_eq_ok_iff, run_pure_eq_ok_iff] at h
  obtain ⟨_, _, -, _, _, -, pages', _, -, heq, -⟩ := h
  cases heq
  exact Scan.lt_of_number hsize

/-- The size of a stream has 32 bits. -/
theorem size_of_stream {number : Nat} {b : ByteArray}
    (h : c.stream number = .ok b) : b.size < 2 ^ 32 := by
  unfold stream at h
  simp only [bind_eq_ok_iff] at h
  obtain ⟨directory, -, ⟨pages, size⟩, hplace, h⟩ := h
  obtain ⟨next, hrun⟩ := Scan.run_of_result hplace
  have hsize : size < 2 ^ 32 := size_of_place hrun
  have hgathered : b.size ≤ ByteArray.empty.size + size := size_of_gather h
  rw [ByteArray.size_empty] at hgathered
  omega

theorem size_of_stream? {number : Nat} {b : ByteArray}
    (h : c.stream? number = .ok (some b)) : b.size < 2 ^ 32 := by
  unfold stream? at h
  split at h
  case isTrue => cases h
  case isFalse =>
    cases hstream : c.stream number with
    | error fault =>
        rw [hstream] at h
        cases h
    | ok b' =>
        rw [hstream] at h
        cases h
        exact size_of_stream hstream

end Container

/-- A symbol takes four octets at least. -/
theorem Symbol.length_listFrom (b : ByteArray) (stop fuel place : Nat) :
    4 * (listFrom b stop fuel place).1.length ≤ stop - place := by
  induction fuel generalizing place with
  | zero => exact Nat.zero_le _
  | succ fuel ih =>
      unfold listFrom
      dsimp only
      split
      · exact Nat.zero_le _
      split
      · exact Nat.zero_le _
      split
      · exact Nat.zero_le _
      split
      · exact Nat.zero_le _
      · have hrest := ih (place + 2 + Bytes.littleAt b place 2)
        rw [List.length_cons]
        omega

-- =============================================================== aliases

/-- The aliases that are built, with their ids. -/
def aliases (t : Types) : UInt32 → List Symbol → List (UInt32 × AliasSymbol)
  | _, [] => []
  | id, .typeAlias symbol :: rest =>
    if t.declaredName? symbol.target = some symbol.name then aliases t id rest
    else (id, symbol) :: aliases t (id + 1) rest
  | id, _ :: rest => aliases t id rest

theorem buildAliases_eq (t : Types) (id : UInt32) (symbols : List Symbol) :
    buildAliases t id symbols
      = (aliases t id symbols).forM fun p => buildAlias t p.1 p.2 := by
  fun_induction aliases t id symbols with
  | case1 id => rfl
  | case2 id symbol rest hname ih =>
      unfold buildAliases
      rw [if_pos hname, ih]
  | case3 id symbol rest hname ih =>
      unfold buildAliases
      rw [if_neg hname, ih]
      rfl
  | case4 id symbol rest hother ih =>
      cases symbol with
      | typeAlias symbol => exact (hother symbol rfl).elim
      | procedure symbol => exact ih
      | other => exact ih

section Aliases

variable {t : Types} {id : UInt32} {symbols : List Symbol}
  {p p' : UInt32 × AliasSymbol}

theorem toNat_add_one (id : UInt32) (h : id.toNat + 1 < 2 ^ 32) :
    (id + 1).toNat = id.toNat + 1 := by
  rw [UInt32.toNat_add]
  exact Nat.mod_eq_of_lt h

/-- Aliases are numbered from an id on. -/
theorem le_of_mem_aliases (hroom : id.toNat + symbols.length < 2 ^ 32)
    (h : p ∈ aliases t id symbols) : id.toNat ≤ p.1.toNat := by
  fun_induction aliases t id symbols with
  | case1 => cases h
  | case2 id symbol rest _ ih =>
      rw [List.length_cons] at hroom
      exact ih (by omega) h
  | case3 id symbol rest _ ih =>
      rw [List.length_cons] at hroom
      have hnext := toNat_add_one id (by omega)
      rcases List.mem_cons.1 h with rfl | h
      · exact Nat.le_refl _
      · have hrest := ih (by omega) h
        omega
  | case4 id _ rest _ ih =>
      rw [List.length_cons] at hroom
      exact ih (by omega) h

/-- No two aliases have one id. -/
theorem eq_of_mem_aliases (hroom : id.toNat + symbols.length < 2 ^ 32)
    (h : p ∈ aliases t id symbols) (h' : p' ∈ aliases t id symbols)
    (hid : p.1 = p'.1) : p = p' := by
  fun_induction aliases t id symbols with
  | case1 => cases h
  | case2 id symbol rest _ ih =>
      rw [List.length_cons] at hroom
      exact ih (by omega) h h'
  | case3 id symbol rest _ ih =>
      rw [List.length_cons] at hroom
      have hnext := toNat_add_one id (by omega)
      -- the ids of those behind are greater
      have hbehind : ∀ q ∈ aliases t (id + 1) rest, q.1 ≠ id := by
        rintro q hq rfl
        have hle := le_of_mem_aliases (by omega) hq
        omega
      rcases List.mem_cons.1 h with rfl | hmem
      · rcases List.mem_cons.1 h' with rfl | hmem'
        · rfl
        · exact absurd hid.symm (hbehind p' hmem')
      · rcases List.mem_cons.1 h' with rfl | hmem'
        · exact absurd hid (hbehind p hmem)
        · exact ih (by omega) hmem hmem'
  | case4 id _ rest _ ih =>
      rw [List.length_cons] at hroom
      exact ih (by omega) h h'

end Aliases

-- =============================================================== indices

section Indices

variable {table : TypeTable} {size bound : Nat} {index found : TypeIndex}

theorem TypeTable.toNat_of_find {record : TypeRecord}
    (h : table.find index = .ok record) :
    index.toNat < table.minimum + table.records.size := by
  unfold find at h
  dsimp only at h
  split at h
  case isTrue => omega
  split at h
  case isTrue => cases h
  split at h
  case isTrue =>
    cases hrecord : table.records[index.toNat - table.minimum]? with
    | none =>
        rw [hrecord] at h
        cases h
    | some record =>
        obtain ⟨hlt, -⟩ := Array.getElem?_eq_some_iff.1 hrecord
        omega
  case isFalse => cases h

variable (hindices : table.minimum + table.records.size ≤ 0x80000000)

include hindices

theorem TypeTable.toNat_of_mem_entries
    {e : TypeIndex × Except Fault TypeRecord} (h : e ∈ table.entries) :
    e.1.toNat < 0x80000000 := by
  unfold entries at h
  obtain ⟨⟨record, i⟩, hmem, rfl⟩ := List.mem_map.1 h
  have hi : i < table.records.size := by
    simpa using List.snd_lt_of_mem_zipIdx hmem
  have hlt : table.minimum + i < 0x80000000 := by omega
  show (UInt32.ofNat (table.minimum + i)).toNat < _
  rwa [UInt32.toNat_ofNat_of_lt' (Nat.lt_trans hlt (by decide))]

omit hindices in
/-- A definition that is taken in comes from a record that defines its key. -/
theorem Types.mem_of_mem_define
    {entries : List (TypeIndex × Except Fault TypeRecord)}
    {definitions : List (String × TypeIndex)} {d : String × TypeIndex}
    (h : d ∈ entries.foldl define definitions) :
    d ∈ definitions ∨ ∃ e ∈ entries, e.1 = d.2
      ∧ ∃ head, defined? e.2 = some head ∧ head.key = d.1 := by
  induction entries generalizing definitions with
  | nil => exact .inl h
  | cons e entries ih =>
      rcases ih h with hmem | ⟨e', he', hfound⟩
      · unfold define at hmem
        split at hmem
        · exact .inl hmem
        case h_2 head hhead =>
          split at hmem
          · exact .inl hmem
          · rcases List.mem_append.1 hmem with hmem | hmem
            · exact .inl hmem
            · rw [List.mem_singleton.1 hmem]
              exact .inr ⟨e, List.mem_cons_self, rfl, head, hhead, rfl⟩
      · exact .inr ⟨e', List.mem_cons_of_mem _ he', hfound⟩

theorem Types.toNat_definition (head : Declared)
    (h : index.toNat < 0x80000000) :
    ((ofTable table size).definition head index).toNat < 0x80000000 := by
  unfold definition
  cases hlookup : (ofTable table size).definitions.lookup head.key with
  | none => exact h
  | some d =>
      obtain ⟨before, behind, hsplit, -⟩ := List.lookup_eq_some_iff.1 hlookup
      have hmem : (head.key, d) ∈ (ofTable table size).definitions := by
        rw [hsplit]
        exact List.mem_append_right _ List.mem_cons_self
      rcases mem_of_mem_define hmem with hnil | ⟨e, he, heq, -⟩
      · cases hnil
      · have heq : e.1 = d := heq
        exact heq ▸ TypeTable.toNat_of_mem_entries hindices he

/-- Chains of types end below the ids of aliases. -/
theorem Types.toNat_of_resolveWithin
    (h : (ofTable table size).resolveWithin bound index = .ok found) :
    found.toNat < 0x80000000 := by
  induction bound generalizing index with
  | zero => cases h
  | succ bound ih =>
      unfold resolveWithin at h
      split at h
      case isTrue hprimitive =>
        cases h
        have hlt := UInt32.lt_iff_toNat_lt.1 (of_decide_eq_true hprimitive)
        exact Nat.lt_trans hlt (by decide)
      case isFalse =>
        have hread : ∀ {record}, (ofTable table size).find index = .ok record →
            index.toNat < 0x80000000 := fun hfind =>
          Nat.lt_of_lt_of_le (TypeTable.toNat_of_find (eq_ok_of_mapError hfind))
            hindices
        have hdeclared : ∀ head : Declared, index.toNat < 0x80000000 →
            (if head.forward then (ofTable table size).definition head index
              else index).toNat < 0x80000000 := by
          intro head hlt
          split
          · exact toNat_definition hindices head hlt
          · exact hlt
        split at h
        case h_1 => cases h
        case h_2 => exact ih h
        case h_3 head _ _ hfind =>
          cases h
          exact hdeclared head (hread hfind)
        case h_4 head _ hfind =>
          cases h
          exact hdeclared head (hread hfind)
        case h_5 hfind =>
          cases h
          exact hread hfind

end Indices

-- ========================================================== descriptions

namespace Types

variable {t : Types} {index : TypeIndex} {record : TypeRecord} {id id' : UInt32}
  {h : Handle} {node : Node Handle}

theorem number_withoutIds (id id' : UInt32) (members : List Member) :
    ((number id members).1.map some).map
        (Option.map fun f : FieldNode Handle => { f with id := 0 })
      = ((number id' members).1.map some).map
        (Option.map fun f => { f with id := 0 }) := by
  induction members generalizing id id' with
  | nil => rfl
  | cons m rest ih => exact congrArg (_ :: ·) (ih (nextId id) (nextId id'))

/-- The links of some members are their types. -/
theorem links_number (kind : TypeKind) (id : UInt32) (members : List Member) :
    (Shape.aggregate kind ((number id members).1.map some)).links
      = members.map fun m => Handle.type m.type := by
  induction members generalizing id with
  | nil => rfl
  | cons m rest ih => exact congrArg (_ :: ·) (ih (nextId id))

theorem fields_value (t : Types) (list : Option TypeIndex) (id : UInt32) :
    (t.fields list id).value.1
      = (number id (t.members list).1).1.map some := by
  unfold fields
  generalize t.members list = found
  obtain ⟨members, stop⟩ := found
  cases stop <;> rfl

theorem shape_of_node {kind : TypeKind} {head : Declared}
    {list : Option TypeIndex} {size : Nat}
    (h : (t.node index id (.aggregate kind head list size)).value.1
      = .ok node) :
    node.shape = .aggregate kind ((number id (t.members list).1).1.map some) := by
  rw [← fields_value]
  cases h
  rfl

theorem node_withoutIds (t : Types) (index : TypeIndex) (id id' : UInt32)
    (record : TypeRecord) :
    (t.node index id record).value.1.map Node.withoutIds
      = (t.node index id' record).value.1.map Node.withoutIds := by
  cases record with
  | aggregate kind head list size =>
      have hfields := number_withoutIds id id' (t.members list).1
      rw [← fields_value, ← fields_value] at hfields
      show Except.ok (Node.mk (some head.name) (UInt64.ofNat size)
          (.aggregate kind (List.map _ (t.fields list id).value.1))) = _
      rw [hfields]
      rfl
  | _ => rfl

theorem links_of_node (h : (t.node index id record).value.1 = .ok node) :
    ∀ link ∈ node.shape.links, ∃ index, link = .type index := by
  cases record with
  | aggregate kind head list size =>
      rw [shape_of_node h, links_number]
      intro link hmem
      obtain ⟨m, -, rfl⟩ := List.mem_map.1 hmem
      exact ⟨m.type, rfl⟩
  | primitive p =>
      cases h
      intro link hmem
      unfold PrimitiveType.shape at hmem
      dsimp only at hmem
      split at hmem <;> cases hmem
  | enum | pointer | array =>
      cases h
      nofun
  | _ => cases h

/-- The description of a type is that of the index it leads to. -/
theorem describe_type_value (t : Types) (index : TypeIndex) (id : UInt32) :
    (t.describe (.type index) id).value = match t.resolve index with
      | .error fault => (.error fault, id)
      | .ok found => match t.find found with
        | .error fault => (.error fault, id)
        | .ok record => (t.node found id record).value := by
  unfold describe
  dsimp only
  cases t.resolve index with
  | error fault => rfl
  | ok found =>
      dsimp only
      cases t.find found with
      | error fault => rfl
      | ok record =>
          dsimp only
          rw [Logged.value_bind]
          generalize (t.node found id record).value = described
          obtain ⟨node, next⟩ := described
          cases node <;> rfl

/-- The description of an index is that of the record it leads to. -/
theorem exists_node_of_describe
    (hnode : (t.describe (.type index) id).value.1 = .ok node) :
    ∃ found record, t.resolve index = .ok found ∧ t.find found = .ok record
      ∧ (t.node found id record).value.1 = .ok node := by
  rw [describe_type_value] at hnode
  cases hresolve : t.resolve index with
  | error fault =>
      rw [hresolve] at hnode
      cases hnode
  | ok found =>
      rw [hresolve] at hnode
      dsimp only at hnode
      cases hfind : t.find found with
      | error fault =>
          rw [hfind] at hnode
          cases hnode
      | ok record =>
          rw [hfind] at hnode
          exact ⟨found, record, rfl, hfind, hnode⟩

/-- The next id shows in the ids of the fields only. -/
theorem describe_withoutIds (t : Types) (h : Handle) (id id' : UInt32) :
    (t.describe h id).value.1.map Node.withoutIds
      = (t.describe h id').value.1.map Node.withoutIds := by
  cases h with
  | typedef => rfl
  | type index =>
      rw [describe_type_value, describe_type_value]
      cases t.resolve index with
      | error fault => rfl
      | ok found =>
          dsimp only
          cases t.find found with
          | error fault => rfl
          | ok record => exact t.node_withoutIds found id id' record

/-- A description leads to types by their indices only. -/
theorem links_of_describe (hnode : (t.describe h id).value.1 = .ok node) :
    ∀ link ∈ node.shape.links, ∃ index, link = .type index := by
  cases h with
  | typedef _ name target =>
      cases hnode
      intro link hmem
      have hmem : link ∈ (t.aliasTarget target).toList := hmem
      unfold aliasTarget at hmem
      split at hmem
      · cases hmem
      · exact ⟨target, List.mem_singleton.1 hmem⟩
  | type index =>
      obtain ⟨_, _, -, -, hnode⟩ := exists_node_of_describe hnode
      exact links_of_node hnode

theorem resolve_of_typeId (h : t.typeId (.type index) = some id) :
    t.resolve index = .ok id := by
  unfold typeId at h
  dsimp only at h
  split at h
  · cases h
  · exact toOption_eq_some_iff.1 h

end Types

-- =============================================================== handles

/-- The handles that are created for the types and the aliases of a
database. -/
inductive Created (c : Container) (t : Types) : Handle → Prop
  | type (index : TypeIndex) : Created c t (.type index)
  | typedef {header : DebugHeader} {b : ByteArray} {p : UInt32 × AliasSymbol} :
      DebugHeader.ofContainer c = .ok header →
      c.stream? header.globals = .ok (some b) →
      p ∈ aliases t firstAlias (Symbol.list b).1 →
      Created c t (.typedef p.1 p.2.name p.2.target)

section Handles

variable {c : Container} {t : Types}

theorem Created.of_links {links : List Handle}
    (h : ∀ link ∈ links, ∃ index, link = .type index) :
    ∀ link ∈ links, Created c t link := by
  intro link hmem
  obtain ⟨index, rfl⟩ := h link hmem
  exact .type index

/-- The numbers above the first alias suffice for all symbols of a stream. -/
theorem room_of_stream? {number : Nat} {b : ByteArray}
    (h : c.stream? number = .ok (some b)) :
    firstAlias.toNat + (Symbol.list b).1.length < 2 ^ 32 := by
  have hsize := Container.size_of_stream? h
  have hlength : 4 * (Symbol.list b).1.length ≤ b.size - 0 :=
    Symbol.length_listFrom b b.size (b.size + 1) 0
  have hfirst : firstAlias.toNat = 2 ^ 31 := rfl
  omega

/-- Aliases have ids above those of all types. -/
theorem le_of_alias {number : Nat} {b : ByteArray} {p : UInt32 × AliasSymbol}
    (hstream : c.stream? number = .ok (some b))
    (h : p ∈ aliases t firstAlias (Symbol.list b).1) :
    0x80000000 ≤ p.1.toNat :=
  le_of_mem_aliases (room_of_stream? hstream) h

section Table

variable {table : TypeTable} {size : Nat}
  (hindices : table.minimum + table.records.size ≤ 0x80000000)

include hindices

theorem not_typeId_of_alias {number : Nat} {b : ByteArray}
    {p : UInt32 × AliasSymbol} (index : TypeIndex)
    (hstream : c.stream? number = .ok (some b))
    (h : p ∈ aliases (Types.ofTable table size) firstAlias (Symbol.list b).1) :
    (Types.ofTable table size).typeId (.type index) ≠ some p.1 := by
  intro hid
  have htype : p.1.toNat < 0x80000000 :=
    Types.toNat_of_resolveWithin hindices (Types.resolve_of_typeId hid)
  have halias := le_of_alias hstream h
  omega

/-- The id of a handle tells how it is described. -/
theorem describe_of_typeId {h h' : Handle} {id : UInt32}
    (hcreated : Created c (Types.ofTable table size) h)
    (hcreated' : Created c (Types.ofTable table size) h')
    (hid : (Types.ofTable table size).typeId h = some id)
    (hid' : (Types.ofTable table size).typeId h' = some id) (next : UInt32) :
    ((Types.ofTable table size).describe h next).value
      = ((Types.ofTable table size).describe h' next).value := by
  cases hcreated with
  | type index =>
      cases hcreated' with
      | type index' =>
          rw [Types.describe_type_value, Types.describe_type_value,
            Types.resolve_of_typeId hid, Types.resolve_of_typeId hid']
      | typedef _ hstream hmem =>
          cases hid'
          exact absurd hid (not_typeId_of_alias hindices index hstream hmem)
  | typedef hheader hstream hmem =>
      cases hid
      cases hcreated' with
      | type index' =>
          exact absurd hid' (not_typeId_of_alias hindices index' hstream hmem)
      | typedef hheader' hstream' hmem' =>
          cases hheader.symm.trans hheader'
          cases hstream.symm.trans hstream'
          have hsame := eq_of_mem_aliases (room_of_stream? hstream) hmem hmem'
            (Option.some.inj hid').symm
          rw [hsame]

/-- Handles of one type stand for each other. -/
theorem interchangeable_source :
    (Types.ofTable table size).source.Interchangeable
      (Created c (Types.ofTable table size)) :=
  interchangeable_of_describe
    (fun _ _ _ _ hnode => Created.of_links (Types.links_of_describe hnode))
    (fun _ _ _ hcreated hcreated' hid hid' =>
      describe_of_typeId hindices hcreated hcreated' hid hid')
    (Types.ofTable table size).describe_withoutIds

end Table

-- ================================================================= steps

/-- What a database may ask for: its types and aliases, and functions with
such types in their signatures. -/
abbrev Types.Within (t : Types) (c : Container) {α : Type}
    (x : Building α) : Prop :=
  Build.Within t.source (Created c t)
    (fun node => ∀ h ∈ node.places.filterMap id, Created c t h) x

theorem within_buildRoot (c : Container) (t : Types) (index : TypeIndex) :
    t.Within c (buildRoot t index) := by
  refine (Build.Within.type _ (.type index)).bind fun answer => ?_
  cases answer with
  | ok id => exact .pure _
  | error fault => exact .lift _

theorem within_buildGlobals (c : Container) (t : Types) :
    t.Within c (buildGlobals c t) := by
  unfold buildGlobals
  dsimp only
  split
  case h_1 => exact .pure _
  case h_2 b hstream =>
    simp only [bind_eq_ok_iff] at hstream
    obtain ⟨header, hheader, stream, hstream, hb⟩ := hstream
    cases stream with
    | none => cases hb
    | some b' =>
        cases hb
        rw [buildAliases_eq]
        refine (Build.Within.forM fun p hp => ?_).bind fun _ => .pure _
        refine (Build.Within.type _
          (.typedef hheader hstream hp)).bind fun answer => ?_
        cases answer with
        | ok id => exact .pure _
        | error fault => exact .lift _

theorem type_of_argumentPlaces (leading : Bool) (indices : List TypeIndex) :
    ∀ place ∈ argumentPlaces leading (indices.map fun index =>
      if index = 0 then .untyped none else .typed (Handle.type index)),
      ∀ h, place = some h → ∃ index, h = .type index := by
  induction indices generalizing leading with
  | nil => nofun
  | cons index indices ih =>
      by_cases hindex : index = 0
      · rw [List.map_cons, if_pos hindex]
        cases leading with
        | true => exact ih false
        | false => exact List.forall_mem_cons.2 ⟨nofun, ih false⟩
      · rw [List.map_cons, if_neg hindex]
        refine List.forall_mem_cons.2 ⟨?_, ih false⟩
        rintro _ ⟨⟩
        exact ⟨index, rfl⟩

/-- The signature of a function has types by their indices only. -/
theorem type_of_mem_signature (t : Types) (map : AddressMap) (id : UInt32)
    (symbol : ProcedureSymbol) :
    ∀ h ∈ (functionNode t map id symbol).value.places.filterMap
      (fun place => place), ∃ index, h = .type index := by
  intro h hmem
  obtain ⟨place, hplace, rfl⟩ := List.mem_filterMap.1 hmem
  unfold functionNode at hplace
  dsimp only at hplace
  split at hplace
  case h_1 returnType receiver code list hfind =>
    have harguments : ∀ place ∈ argumentPlaces true (arguments t list).value,
        ∀ h, place = some h → ∃ index, h = Handle.type index := by
      unfold arguments
      split
      · exact type_of_argumentPlaces true _
      · nofun
    simp only [Logged.value_bind, Logged.value_pure, FunctionNode.places,
      List.mem_append, List.mem_singleton] at hplace
    rcases hplace with hreturn | hreceiver | hargument
    · cases returnType with
      | none => cases hreturn
      | some index => exact ⟨index, Option.some.inj hreturn⟩
    · cases receiver with
      | none => cases hreceiver
      | some index =>
          exact ⟨index, Option.some.inj (List.mem_singleton.1 hreceiver)⟩
    · exact harguments _ hargument h rfl
  case h_2 =>
    cases List.mem_singleton.1 hplace

theorem within_buildProcedures (c : Container) (t : Types) (map : AddressMap)
    (id : UInt32) (symbols : List Symbol) :
    t.Within c (buildProcedures t map id symbols) := by
  induction symbols generalizing id with
  | nil => exact .pure _
  | cons symbol rest ih =>
      cases symbol with
      | procedure symbol =>
          refine .after ((Build.Within.function _ ?_).bind fun _ => ih (id + 1))
          exact Created.of_links (type_of_mem_signature t map id symbol)
      | typeAlias | other => exact ih id

theorem within_buildModule (c : Container) (t : Types) (map : AddressMap)
    (id : UInt32) (m : ModuleEntry) :
    t.Within c (buildModule c t map id m) := by
  unfold buildModule
  split
  · exact .after (.pure _)
  · exact .pure _
  · split
    · exact .pure _
    · exact (within_buildProcedures c t map id _).bind fun _ => .pure _

theorem within_buildModules (c : Container) (t : Types) (map : AddressMap)
    (id : UInt32) (modules : List ModuleEntry) :
    t.Within c (buildModules c t map id modules) := by
  induction modules generalizing id with
  | nil => exact .pure _
  | cons m modules ih =>
      refine (within_buildModule c t map id m).bind fun answer => ?_
      cases answer with
      | error fault => exact .pure _
      | ok id => exact ih id

/-- Only handles that are created in this way are ever asked for. -/
theorem within_build (c : Container) (t : Types) :
    t.Within c (build c t) := by
  refine (Build.Within.forM fun index _ =>
    within_buildRoot c t index).bind fun _ => ?_
  refine (within_buildGlobals c t).bind fun answer => ?_
  cases answer with
  | error fault => exact .pure _
  | ok _ =>
      unfold buildFunctions
      dsimp only
      split
      · exact .pure _
      · refine (within_buildModules c t _ 1 _).bind fun answer => ?_
        cases answer <;> exact .pure _

end Handles

end SymbolGraph.Pdb
