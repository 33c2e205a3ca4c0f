/-
The ids of the fields of a database. Every description takes one id for each
member of the type, and the next description goes on behind them, so the ids are
those of a counter, which passes over 0 where it starts again
(`Types.numbers_recording`). What a description takes is told by its handle
alone (`Types.taken`). So as long as the descriptions that are asked for take
fewer ids than there are numbers, no id is given twice, and as no type is stored
from two descriptions, no two fields have one id, but for placeholders
(`built_fieldIds`).
-/
import SymbolGraph.Proofs.Build.FieldIds
import SymbolGraph.Proofs.Pdb.Resolution

namespace SymbolGraph.Pdb

open Build

namespace Types

variable {t : Types} {id k : UInt32} {index : TypeIndex} {h : Handle}
  {node : Node Handle}

-- ================================================================ counter

/-- The id that is given behind so many others. -/
def idAfter (n : Nat) : UInt32 := nextId^[n] 1

theorem iterate_nextId_idAfter (m n : Nat) :
    nextId^[m] (idAfter n) = idAfter (n + m) := by
  unfold idAfter
  rw [← Function.iterate_add_apply, Nat.add_comm]

theorem toNat_nextId (id : UInt32) : (nextId id).toNat
    = if id.toNat + 1 = 2 ^ 32 then 1 else id.toNat + 1 := by
  have hlt := id.toNat_lt
  have hsum : (id + 1).toNat = (id.toNat + 1) % 2 ^ 32 := UInt32.toNat_add id 1
  unfold nextId
  by_cases hlast : id.toNat + 1 = 2 ^ 32
  · rw [hlast, Nat.mod_self] at hsum
    rw [if_pos (UInt32.toNat_inj.1 hsum), if_pos hlast]
    rfl
  · rw [Nat.mod_eq_of_lt (by omega)] at hsum
    have hne : id + 1 ≠ 0 := by
      intro hzero
      rw [hzero] at hsum
      cases hsum
    rw [if_neg hne, if_neg hlast, hsum]

/-- The counter goes round through all numbers but 0. -/
theorem toNat_idAfter_mod (n : Nat) :
    (idAfter n).toNat = n % (2 ^ 32 - 1) + 1 := by
  induction n with
  | zero => rfl
  | succ n ih =>
      rw [← iterate_nextId_idAfter 1 n, Function.iterate_one, toNat_nextId, ih]
      split <;> omega

/-- Before it starts again, the counter does not pass over a number. -/
theorem toNat_idAfter {n : Nat} (hn : n + 1 < 2 ^ 32) :
    (idAfter n).toNat = n + 1 := by
  rw [toNat_idAfter_mod, Nat.mod_eq_of_lt (by omega)]

-- =========================================================== descriptions

/-- The members of the type of a record. -/
def membersBy (t : Types) : TypeRecord → List Member
  | .aggregate _ _ list _ => (t.members list).1
  | _ => []

/-- The members of the type at an index. -/
def membersOf (t : Types) (index : TypeIndex) : List Member :=
  match t.find index with
  | .error _ => []
  | .ok record => t.membersBy record

/-- How many ids the description of a type takes, one for each member. -/
def taken (t : Types) : Handle → Nat
  | .typedef .. => 0
  | .type index =>
    match t.resolve index with
    | .error _ => 0
    | .ok found => (t.membersOf found).length

theorem number_next (id : UInt32) (members : List Member) :
    (number id members).2 = nextId^[members.length] id := by
  induction members generalizing id with
  | nil => rfl
  | cons m rest ih => exact ih (nextId id)

theorem memberIds_number (kind : TypeKind) (id : UInt32)
    (members : List Member) :
    (Shape.aggregate kind ((number id members).1.map some)).memberIds
      = (List.range members.length).map fun i => nextId^[i] id := by
  induction members generalizing id with
  | nil => rfl
  | cons m rest ih =>
      rw [List.length_cons, List.range_succ_eq_map, List.map_cons, List.map_map]
      exact congrArg (id :: ·) (ih (nextId id))

theorem fields_next (t : Types) (list : Option TypeIndex) (id : UInt32) :
    (t.fields list id).value.2
      = nextId^[(t.members list).1.length] id := by
  rw [← number_next]
  unfold fields
  generalize t.members list = found
  obtain ⟨members, stop⟩ := found
  cases stop <;> rfl

theorem node_next (t : Types) (index : TypeIndex) (id : UInt32)
    (record : TypeRecord) :
    (t.node index id record).value.2
      = nextId^[(t.membersBy record).length] id := by
  cases record with
  | aggregate kind head list size => exact t.fields_next list id
  | _ => rfl

theorem memberIds_of_node {record : TypeRecord}
    (h : (t.node index id record).value.1 = .ok node) :
    node.shape.memberIds
      = (List.range (t.membersBy record).length).map fun i => nextId^[i] id := by
  cases record with
  | aggregate kind head list size =>
      rw [shape_of_node h]
      exact memberIds_number kind id _
  | primitive p =>
      cases h
      unfold PrimitiveType.shape
      dsimp only
      split <;> rfl
  | enum | pointer | array =>
      cases h
      rfl
  | _ => cases h

/-- A description takes as many ids as its handle says, whatever it comes to. -/
theorem describe_next (t : Types) (h : Handle) (id : UInt32) :
    (t.describe h id).value.2 = nextId^[t.taken h] id := by
  cases h with
  | typedef => rfl
  | type index =>
      rw [describe_type_value]
      unfold taken
      dsimp only
      cases t.resolve index with
      | error fault => rfl
      | ok found =>
          unfold membersOf
          dsimp only
          cases t.find found with
          | error fault => rfl
          | ok record => exact t.node_next found id record

/-- The members of a type have the ids from the next one on. -/
theorem memberIds_of_describe (hnode : (t.describe h id).value.1 = .ok node) :
    node.shape.memberIds
      = (List.range (t.taken h)).map fun i => nextId^[i] id := by
  cases h with
  | typedef =>
      cases hnode
      rfl
  | type index =>
      obtain ⟨found, record, hresolve, hfind, hnode⟩ :=
        exists_node_of_describe hnode
      have htaken : t.taken (.type index) = (t.membersBy record).length := by
        unfold taken membersOf
        dsimp only
        rw [hresolve]
        dsimp only
        rw [hfind]
      rw [htaken]
      exact memberIds_of_node hnode

/-- How many ids some descriptions take together. -/
def noted (t : Types) (events : List (Handle × Bool)) : Nat :=
  events.foldl (fun n e => n + t.taken e.1) 0

theorem noted_append (t : Types) (events : List (Handle × Bool)) (h : Handle)
    (succeeds : Bool) :
    t.noted (events ++ [(h, succeeds)]) = t.noted events + t.taken h := by
  unfold noted
  rw [List.foldl_append]
  rfl

/-- What the descriptions so far have taken counts the ids that were given. -/
theorem numbers_recording (t : Types) :
    t.source.recording.Numbers (fun st => t.noted st.2) idAfter
      fun st => st.1 = idAfter (t.noted st.2) where
  keeps h st hst := by
    show (t.describe h st.1).value.2 = idAfter (t.noted (st.2 ++ [(h, _)]))
    rw [describe_next, noted_append, hst, iterate_nextId_idAfter]
  mono h st := by
    show t.noted st.2 ≤ t.noted (st.2 ++ [(h, _)])
    rw [noted_append]
    exact Nat.le_add_right _ _
  members h st node hst hnode := by
    show node.shape.memberIds.Sublist ((List.range' (t.noted st.2)
      (t.noted (st.2 ++ [(h, _)]) - t.noted st.2)).map idAfter)
    have hids : node.shape.memberIds
        = (List.range' (t.noted st.2) (t.taken h)).map idAfter := by
      rw [memberIds_of_describe hnode, hst, List.range'_eq_map_range,
        List.map_map]
      exact List.map_congr_left fun i _ => iterate_nextId_idAfter i _
    rw [noted_append, Nat.add_sub_cancel_left, hids]

-- ================================================================ members

/-- The field of a member. If the type of the member cannot be built, it is a
placeholder. -/
def Carries (t : Types) (known : UInt32 → Prop) (m : Member) (f : Field) :
    Prop :=
  (f.typeId ≠ 0 ∧ t.typeId (.type m.type) = some f.typeId ∧ known f.typeId
      ∧ f.name = m.name ∧ f.offset = offset32 m.offset)
    ∨ ((∀ id, ¬ t.source.Resolves (.type m.type) id) ∧ f.id = 0
      ∧ f.typeId = 0)

section Members

variable {known : UInt32 → Prop}

/-- What is refused once is never a type. -/
theorem not_resolves_of_refuses {b : Builder} {st : UInt32}
    {failure : Failure TypeFault} (h' : t.source.Refuses b h st failure) :
    ¬ t.source.Resolves h id := by
  rintro ⟨hid, hne, st', node, hnode⟩
  cases h' with
  | unreadable hnone => cases hnone.symm.trans hid
  | reserved hzero =>
      cases hzero.symm.trans hid
      exact hne rfl
  | undescribed _ _ _ herror =>
      have hsame := t.describe_withoutIds h st st'
      rw [show (t.describe h st).value.1 = _ from herror,
        show (t.describe h st').value.1 = _ from hnode] at hsame
      cases hsame

theorem Carries.of_settles {m : Member} {node : FieldNode Handle}
    {answer : Option UInt32} (hname : node.name = m.name)
    (hoffset : node.offset = offset32 m.offset)
    (h : t.source.Settles known (.type m.type) answer) :
    t.Carries known m (fieldOf node answer) := by
  cases answer with
  | none =>
      obtain ⟨b, st, failure, hrefuses⟩ := h
      exact .inr ⟨fun id => not_resolves_of_refuses hrefuses, rfl, rfl⟩
  | some typeId =>
      obtain ⟨hid, hne, hknown⟩ := h
      exact .inl ⟨hne, hid, hknown, hname, hoffset⟩

theorem carries_fill (id : UInt32) (members : List Member)
    {answers : List (Option UInt32)}
    (h : List.Forall₂ (t.source.Settles known)
      (members.map fun m => .type m.type) answers) :
    List.Forall₂ (t.Carries known) members
      (fill .placeholder fieldOf ((number id members).1.map some) answers) := by
  induction members generalizing id answers with
  | nil => exact .nil
  | cons m rest ih =>
      cases h with
      | cons hfirst hrest => exact .cons (.of_settles rfl rfl hfirst) (ih _ hrest)

theorem carries_mark {members : List Member} {fields : List Field}
    (h : List.Forall₂ (t.Carries known) members fields) :
    List.Forall₂ (t.Carries known) members (AnonymousUnion.mark fields) :=
  (AnonymousUnion.forall₂_mark fun _ _ _ => .rfl).2 h

theorem carries_of_node {record : TypeRecord}
    {answers : List (Option UInt32)} {b : Builder}
    (h : (t.node index id record).value.1 = .ok node)
    (hanswers : List.Forall₂ (t.source.Settles known) node.shape.links
      answers) :
    List.Forall₂ (t.Carries known) (t.membersBy record)
      (symbolOf k node answers b).fields := by
  cases record with
  | aggregate kind head list size =>
      have hshape := shape_of_node h
      rw [hshape, links_number] at hanswers
      have hfill := carries_fill id (t.members list).1 hanswers
      unfold symbolOf
      rw [hshape]
      dsimp only
      split
      · exact hfill
      · exact carries_mark hfill
  | primitive p =>
      cases h
      unfold symbolOf PrimitiveType.shape
      by_cases hdirect : p.indirection = 0
      · rw [if_pos hdirect]
        exact .nil
      · rw [if_neg hdirect]
        exact .nil
  | enum | pointer | array =>
      cases h
      exact .nil
  | _ => cases h

/-- The fields of a type are those of its members. -/
theorem carries_of_whole {type : TypeSymbol}
    (h : t.source.Whole known k type) :
    List.Forall₂ (t.Carries known) (t.membersOf k) type.fields
      ∨ type.kind = .typedef ∧ type.fields = [] := by
  obtain ⟨h, st, node, answers, b, hid, hnode, hanswers, rfl⟩ := h
  have hnode : (t.describe h st).value.1 = .ok node := hnode
  cases h with
  | typedef aliasId name target =>
      right
      cases hnode
      unfold symbolOf
      dsimp only
      cases t.aliasTarget target with
      | none => exact ⟨rfl, rfl⟩
      | some target =>
          dsimp only
          split <;> exact ⟨rfl, rfl⟩
  | type index =>
      left
      obtain ⟨found, record, hresolve, hfind, hnode⟩ :=
        exists_node_of_describe hnode
      cases hresolve.symm.trans (resolve_of_typeId hid)
      unfold membersOf
      rw [hfind]
      exact carries_of_node hnode hanswers

end Members

end Types

-- ================================================================= graphs

/-- How many ids are given while a graph is built. -/
def allocated (c : Container) (t : Types) : Nat :=
  t.noted (Builder.calls t.source.recording (calls c t)
    (.new (header c), (1, []))).value.2.2.2

/-- The fields that a graph comes to have take their ids from those that are
given. -/
theorem built_grows (c : Container) (t : Types) :
    ((build c t).run (.new (header c), 1)).value.2.2
        = Types.idAfter (allocated c t)
      ∧ Grows Types.idAfter 0 (allocated c t) []
        ((built c t).typedFields.map Field.id) := by
  have hgrown := calls_grown t.numbers_recording (calls c t)
    (s := (.new (header c), (1, []))) rfl
    ⟨rfl, .of_perm (Nat.le_refl _) (.refl _)⟩
  have hrun : (Builder.calls t.source (calls c t)
      (.new (header c), 1)).value = _ :=
    calls_of_recording (s := (.new (header c), (1, []))) (calls c t) rfl
  have hbuild : ((build c t).run (.new (header c), 1)).value.2 = _ :=
    (build_value c t _).trans (congrArg Prod.snd hrun)
  have hgraph : built c t = _ :=
    congrArg (fun s : Builder × UInt32 => s.1.graph) hbuild
  refine ⟨(congrArg Prod.snd hbuild).trans hgrown.1, ?_⟩
  rw [hgraph]
  exact hgrown.2

/-- Let the descriptions that a database asks for take fewer than `2 ^ 32` ids,
one for each member; the next id tells how many these were. A field of the graph
has the name and the place of a member, and the type is one that is stored, or
that type can never be built and the field is a placeholder. The fields that are
none have ids other than 0, and no two of them have the same, neither in one
type nor in two. -/
theorem built_fieldIds (c : Container) (t : Types)
    (htotal : allocated c t < 2 ^ 32) :
    let g := built c t
    (∀ data g', load data = .ok (c, t) → (graphOf data).value = .ok g' →
        g' = g)
      ∧ ((build c t).run (.new (header c), 1)).value.2.2
        = Types.idAfter (allocated c t)
      ∧ (∀ k type, g.types.get? k = some type →
        List.Forall₂ (t.Carries fun id => g.types.contains id = true)
            (t.membersOf k) type.fields
          ∨ type.kind = .typedef ∧ type.fields = [])
      ∧ (g.typedFields.map Field.id).Nodup
      ∧ ∀ f ∈ g.typedFields, f.id ≠ 0 := by
  intro g
  obtain ⟨hnext, hgrows⟩ := built_grows c t
  have hids : ∀ j < allocated c t, (Types.idAfter j).toNat = j + 1 :=
    fun j hj => Types.toNat_idAfter (by omega)
  refine ⟨fun data g' => graphOf_eq_built, hnext, fun k type hget => ?_,
    hgrows.nodup fun i j hi hj heq => ?_, fun f hf hzero => ?_⟩
  · have hadds := (Builder.Reachable.new (header c)).calls_adds t.source 1
      (calls c t)
    rw [← build_value] at hadds
    rcases hadds.whole k type hget with hnone | hwhole
    · cases hnone
    · exact Types.carries_of_whole hwhole
  · have hi := hids i hi
    have hj := hids j hj
    rw [heq, hj] at hi
    omega
  · obtain ⟨j, hj, heq⟩ := hgrows.exists_of_mem (List.mem_map_of_mem hf)
    have hj := hids j hj
    rw [← heq, hzero] at hj
    cases hj

/-- A pair of nodes, of which only the first is announced; and a node with the
next node, a member of no type, and a pointer. -/
def pairTable : TypeTable where
  minimum := 0x1000
  maximum := 0x1006
  records := #[
    .ok (.fieldList [⟨"first", 0, 0x1002⟩, ⟨"second", 24, 0x1005⟩] none),
    .ok (.aggregate .struct
      { forward := false, name := "pair", uniqueName := none } (some 0x1000) 48),
    .ok (.aggregate .struct
      { forward := true, name := "node", uniqueName := none } none 0),
    .ok (.pointer 8),
    .ok (.fieldList [⟨"next", 0, 0x1002⟩, ⟨"lost", 8, 0x1004⟩,
      ⟨"value", 16, 0x1003⟩] none),
    .ok (.aggregate .struct
      { forward := false, name := "node", uniqueName := none } (some 0x1004)
      24)]

/-- The id of the placeholder is given and lost. The pair stands first, and so
do its ids, though the node is finished before. -/
theorem built_fieldIds_pairTable :
    let t := Types.ofTable pairTable 8
    let g := built ringContainer t
    allocated ringContainer t = 5
      ∧ g.types.entries.map (fun e =>
          (e.1, e.2.fields.map fun f => (f.name, f.typeId, f.id)))
        = [(0x1001, [("first", 0x1005, 1), ("second", 0x1005, 2)]),
          (0x1003, []),
          (0x1005, [("next", 0x1005, 3), ("", 0, 0), ("value", 0x1003, 5)]),
          (0x80000000, [])]
      ∧ (g.typedFields.map Field.id).Nodup := by
  intro t g
  have hcount : allocated ringContainer t = 5 := by decide +kernel
  have htotal : allocated ringContainer t < 2 ^ 32 := by rw [hcount]; decide
  obtain ⟨-, -, -, hnodup, -⟩ := built_fieldIds ringContainer t htotal
  exact ⟨hcount, by decide +kernel, hnodup⟩

end SymbolGraph.Pdb
