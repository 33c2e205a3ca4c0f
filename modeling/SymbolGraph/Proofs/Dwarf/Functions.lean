/-
Functions. A subprogram with code, an id and a name is to become a function. It
does unless something that belongs to it cannot be read: its address, its first
range, its children, or the type of a parameter or of its declaration
(`Unit.Defect`). But such a defect ends the walk for functions, so it costs all
functions behind it as well. Of a walk through all entries, just those functions
are stored that stand in front of the first one with a defect
(`graphOf_function`).
-/
import SymbolGraph.Proofs.Dwarf.Parameters
import SymbolGraph.Proofs.Dwarf.Parts

namespace SymbolGraph.Dwarf.Unit

variable {u : Unit} {e : Entry} {machine : Machine} {id : UInt32}
  {name : String}

-- ============================================================= functions

/-- The entry is to become a function with this id and this name. -/
structure IsFunction (u : Unit) (e : Entry) (id : UInt32) (name : String) :
    Prop where
  tag : e.tag = Tag.subprogram
  defined : e.isSet Attr.declaration = false
  code : (e.readable? Attr.lowPc).isSome ∨ (e.readable? Attr.ranges).isSome
  id : (u.idAt e.offset).value = some id
  name : (u.functionName? e).value = some name

instance : Decidable (u.IsFunction e id name) :=
  decidable_of_iff
    (e.tag = Tag.subprogram ∧ e.isSet Attr.declaration = false
      ∧ ((e.readable? Attr.lowPc).isSome ∨ (e.readable? Attr.ranges).isSome)
      ∧ (u.idAt e.offset).value = some id
      ∧ (u.functionName? e).value = some name)
    ⟨fun ⟨htag, hdefined, hcode, hid, hname⟩ =>
      ⟨htag, hdefined, hcode, hid, hname⟩,
      fun h => ⟨h.tag, h.defined, h.code, h.id, h.name⟩⟩

/-- Something that belongs to a function cannot be read. -/
inductive Defect (u : Unit) (e : Entry) (fault : Fault) : Prop
  /-- The address is to be found in a table, which does not have it. -/
  | address {v : Value} : e.readable? Attr.lowPc = some v →
      u.address? v = .error fault → Defect u e fault
  /-- Without an address, the list of ranges gives none. -/
  | ranges : e.readable? Attr.lowPc = none → Ranges.first u e = .error fault →
      Defect u e fault
  | children : (u.children e.offset).2 = some fault → Defect u e fault
  /-- The attributes of a parameter end before its type is found. -/
  | parameter {c : Entry} : c ∈ (u.children e.offset).1 →
      c.tag = Tag.formalParameter →
      (c.reference Attr.type).run.value = .error fault → Defect u e fault
  /-- So do those of the declaration that gives the return type. -/
  | declaration {d : Entry} : (e.reference? Attr.type).value = none →
      (u.declarationFrom e declarationAttributes).value = some d →
      (d.reference Attr.type).run.value = .error fault → Defect u e fault

theorem attribute?_of_next {next : Nat} (h : e.next = .ok next) (name : Nat) :
    e.attribute? name = .ok (e.readable? name) := by
  unfold Entry.attribute? Entry.readable?
  rw [h]
  cases e.attributes.lookup name <;> rfl

theorem codeStart_eq_error_iff {next : Nat} (hnext : e.next = .ok next)
    {fault : Fault} :
    u.codeStart e = .error fault
      ↔ (∃ v, e.readable? Attr.lowPc = some v ∧ u.address? v = .error fault)
        ∨ e.readable? Attr.lowPc = none ∧ Ranges.first u e = .error fault := by
  unfold codeStart
  rw [attribute?_of_next hnext]
  cases e.readable? Attr.lowPc with
  | none => simp [bind, Except.bind]
  | some v => simp [bind, Except.bind]

theorem returnType_eq_error_iff {next : Nat} (hnext : e.next = .ok next)
    {declaration : Option Entry} {fault : Fault} :
    (returnType e declaration).run.value = .error fault
      ↔ ∃ d, declaration = some d ∧ (e.reference? Attr.type).value = none
        ∧ (d.reference Attr.type).run.value = .error fault := by
  unfold returnType
  rw [value_bind_of_ok (Entry.reference_of_next hnext _)]
  cases (e.reference? Attr.type).value with
  | some type => simp
  | none => cases declaration <;> simp

theorem functionNode_eq_ok_iff {node : FunctionNode Nat} :
    (u.functionNode machine e id name).run.value = .ok node
      ↔ ∃ type found start,
        (returnType e (u.declarationFrom e declarationAttributes).value).run.value
          = .ok type
        ∧ (u.parameters e).run.value = .ok found
        ∧ u.codeStart e = .ok start
        ∧ node = {
          id, name, returnType := type
          receiver := found.receiver, arguments := found.arguments
          convention := convention machine.architecture
            ((conventionCode? e).or ((u.declarationFrom e
              declarationAttributes).value.bind conventionCode?))
          address := UInt64.ofNat (start.getD 0 - machine.base.toNat) } := by
  unfold functionNode
  simp only [value_bind_eq_ok_iff]
  constructor
  · rintro ⟨declaration, hdeclaration, type, htype, found, hfound, start, hstart,
      hnode⟩
    cases hdeclaration
    cases hnode
    exact ⟨type, found, start, htype, hfound, hstart, rfl⟩
  · rintro ⟨type, found, start, htype, hfound, hstart, rfl⟩
    refine ⟨_, rfl, type, htype, found, hfound, start, ?_, rfl⟩
    rw [hstart]
    rfl

/-- A function is read just if it has no defect. -/
theorem exists_functionNode_iff (machine : Machine) {next : Nat}
    (hnext : e.next = .ok next) :
    (∃ node, (u.functionNode machine e id name).run.value = .ok node)
      ↔ ∀ fault, ¬ u.Defect e fault := by
  constructor
  · rintro ⟨node, hnode⟩ fault hdefect
    obtain ⟨type, found, start, htype, hfound, hstart, -⟩ :=
      functionNode_eq_ok_iff.1 hnode
    obtain ⟨-, hchildren, hreadable, -⟩ := parameters_eq_ok_iff.1 hfound
    cases hdefect with
    | address hv hfault =>
        cases hstart.symm.trans
          ((codeStart_eq_error_iff hnext).2 (.inl ⟨_, hv, hfault⟩))
    | ranges hnone hfault =>
        cases hstart.symm.trans
          ((codeStart_eq_error_iff hnext).2 (.inr ⟨hnone, hfault⟩))
    | children hfault => cases hchildren.symm.trans hfault
    | parameter hc hformal hfault =>
        obtain ⟨_, hread⟩ := hreadable _ hc hformal
        cases hread.symm.trans hfault
    | declaration hnone hd hfault =>
        cases htype.symm.trans
          ((returnType_eq_error_iff hnext).2 ⟨_, hd, hnone, hfault⟩)
  · intro hdefect
    obtain ⟨type, htype⟩ := eq_ok_of_ne_error fun fault hfault => by
      obtain ⟨d, hd, hnone, hfault⟩ := (returnType_eq_error_iff hnext).1 hfault
      exact hdefect fault (.declaration hnone hd hfault)
    obtain ⟨start, hstart⟩ := eq_ok_of_ne_error fun fault hfault => by
      rcases (codeStart_eq_error_iff hnext).1 hfault with
        ⟨v, hv, hfault⟩ | ⟨hnone, hfault⟩
      · exact hdefect fault (.address hv hfault)
      · exact hdefect fault (.ranges hnone hfault)
    have hchildren : (u.children e.offset).2 = none :=
      Option.eq_none_iff_forall_ne_some.2 fun fault hfault =>
        hdefect fault (.children hfault)
    have hreadable : ∀ c ∈ (u.children e.offset).1, Readable c :=
      fun c hc hformal => eq_ok_of_ne_error fun fault hfault =>
        hdefect fault (.parameter hc hformal hfault)
    have hfound := parameters_eq_ok_iff.2
      ⟨⟨_, Entry.reference_of_next hnext _⟩, hchildren, hreadable, rfl⟩
    exact ⟨_, functionNode_eq_ok_iff.2
      ⟨type, _, start, htype, hfound, hstart, rfl⟩⟩

-- ============================================================= reading

theorem hasCode_of_next {next : Nat} (hnext : e.next = .ok next) :
    hasCode e = .ok ((e.readable? Attr.lowPc).isSome
      || (e.readable? Attr.ranges).isSome) := by
  unfold hasCode
  rw [attribute?_of_next hnext, attribute?_of_next hnext]
  cases e.readable? Attr.lowPc <;> rfl

theorem function?_of_isFunction (machine : Machine) {next : Nat}
    (hnext : e.next = .ok next) (h : u.IsFunction e id name) :
    (u.function? machine e).run.value
      = (u.functionNode machine e id name).run.value.map some := by
  have hcode : (liftM (hasCode e) : Attempt Bool).run.value = .ok true := by
    rw [hasCode_of_next hnext, Bool.or_eq_true_iff.2 h.code]
    rfl
  unfold function?
  dsimp only
  rw [if_neg (not_not.2 h.tag), if_neg (by rw [h.defined]; decide),
    value_bind_of_ok hcode, if_neg (by decide),
    value_bind_of_ok (value_lift_eq_ok h.id)]
  dsimp only
  rw [value_bind_of_ok (value_lift_eq_ok h.name)]
  dsimp only
  cases hnode : (u.functionNode machine e id name).run.value with
  | error fault => exact value_bind_of_error hnode _
  | ok node => exact value_bind_of_ok hnode _

theorem function?_of_not_isFunction (machine : Machine) {next : Nat}
    (hnext : e.next = .ok next) (h : ∀ id name, ¬ u.IsFunction e id name) :
    (u.function? machine e).run.value = .ok none := by
  have hcode : (liftM (hasCode e) : Attempt Bool).run.value
      = .ok ((e.readable? Attr.lowPc).isSome
        || (e.readable? Attr.ranges).isSome) := by
    rw [hasCode_of_next hnext]
    rfl
  unfold function?
  dsimp only
  split
  case isTrue => rfl
  case isFalse htag =>
    split
    case isTrue => rfl
    case isFalse hdefined =>
      rw [value_bind_of_ok hcode]
      split
      case isTrue => rfl
      case isFalse hcode =>
        rw [Bool.not_eq_true', Bool.not_eq_false, Bool.or_eq_true] at hcode
        cases hid : (u.idAt e.offset).value with
        | none => rw [value_bind_of_ok (value_lift_eq_ok hid)]; rfl
        | some id =>
            rw [value_bind_of_ok (value_lift_eq_ok hid)]
            dsimp only
            cases hname : (u.functionName? e).value with
            | none => rw [value_bind_of_ok (value_lift_eq_ok hname)]; rfl
            | some name =>
                exact absurd ⟨not_not.1 htag, Bool.eq_false_iff.2 hdefined,
                  hcode, hid, hname⟩ (h id name)

-- ============================================================== the walk

/-- A function is built just if it and all entries in front of it are read
without a fault. -/
theorem mem_functionNodes_iff {entries : List Entry} {node : FunctionNode Nat} :
    node ∈ u.functionNodes machine entries
      ↔ ∃ before e after, entries = before ++ e :: after
        ∧ (∀ c ∈ before, ∃ found, (u.function? machine c).run.value = .ok found)
        ∧ (u.function? machine e).run.value = .ok (some node) := by
  induction entries with
  | nil =>
      refine ⟨nofun, ?_⟩
      rintro ⟨before, e, after, hsplit, -⟩
      exact absurd hsplit.symm (by simp)
  | cons c rest ih =>
      unfold functionNodes
      constructor
      · intro hmem
        split at hmem
        case h_1 => cases hmem
        case h_2 hnone =>
          obtain ⟨before, e, after, rfl, hbefore, he⟩ := ih.1 hmem
          exact ⟨c :: before, e, after, rfl,
            List.forall_mem_cons.2 ⟨⟨_, hnone⟩, hbefore⟩, he⟩
        case h_3 first hfirst =>
          rcases List.mem_cons.1 hmem with rfl | hmem
          · exact ⟨[], c, rest, rfl, nofun, hfirst⟩
          · obtain ⟨before, e, after, rfl, hbefore, he⟩ := ih.1 hmem
            exact ⟨c :: before, e, after, rfl,
              List.forall_mem_cons.2 ⟨⟨_, hfirst⟩, hbefore⟩, he⟩
      · rintro ⟨before, e, after, hsplit, hbefore, he⟩
        rcases List.cons_eq_append_iff.1 hsplit with
          ⟨rfl, hcons⟩ | ⟨before, rfl, rfl⟩
        · cases hcons
          rw [he]
          exact List.mem_cons_self
        · obtain ⟨⟨found, hfound⟩, hbefore⟩ := List.forall_mem_cons.1 hbefore
          rw [hfound]
          have hmem := ih.2 ⟨before, e, after, rfl, hbefore, he⟩
          cases found with
          | none => exact hmem
          | some first => exact List.mem_cons_of_mem _ hmem

/-- An entry is read without a fault, unless it is to become a function and has
a defect. -/
theorem exists_function?_iff (machine : Machine) {next : Nat}
    (hnext : e.next = .ok next) :
    (∃ found, (u.function? machine e).run.value = .ok found)
      ↔ ∀ id name, u.IsFunction e id name → ∀ fault, ¬ u.Defect e fault := by
  by_cases hfunction : ∃ id name, u.IsFunction e id name
  · obtain ⟨id, name, hfunction⟩ := hfunction
    rw [function?_of_isFunction machine hnext hfunction]
    have hread : (∃ found, (u.functionNode machine e id name).run.value.map some
          = .ok found)
        ↔ ∃ node, (u.functionNode machine e id name).run.value = .ok node := by
      cases (u.functionNode machine e id name).run.value with
      | error fault => exact ⟨nofun, nofun⟩
      | ok node => exact ⟨fun _ => ⟨node, rfl⟩, fun _ => ⟨some node, rfl⟩⟩
    rw [hread, exists_functionNode_iff machine hnext]
    exact ⟨fun h _ _ _ => h, fun h => h id name hfunction⟩
  · have hnot : ∀ id name, ¬ u.IsFunction e id name :=
      fun id name h => hfunction ⟨id, name, h⟩
    rw [function?_of_not_isFunction machine hnext hnot]
    exact ⟨fun _ id name h => absurd h (hnot id name), fun _ => ⟨none, rfl⟩⟩

/-- What is stored for an entry comes from this entry, and no entry in front of
it has stopped the walk. -/
theorem PartOf.exists_node {data : ByteArray} {image : Object.Image} {g : Graph}
    (hu : u.PartOf data image g) (he : e ∈ u.entries.1)
    (hid : (u.idAt e.offset).value = some id) {f : FunctionSymbol}
    (hf : g.functions.get? id = some f) :
    ∃ before after node, u.entries.1 = before ++ e :: after
      ∧ (∀ c ∈ before, ∃ found,
        (u.function? (machineOf image) c).run.value = .ok found)
      ∧ (u.function? (machineOf image) e).run.value = .ok (some node)
      ∧ u.source.Signs node f := by
  have hk : u.header.Covers id := covers_of_mem_entries hu.start_lt_stop he hid
  obtain ⟨node, hmem, rfl, hsigns⟩ := hu.signed hk hf
  obtain ⟨before, e', after, hsplit, hbefore, hnode⟩ :=
    mem_functionNodes_iff.1 hmem
  have he' : e' ∈ u.entries.1 := by
    rw [hsplit]
    exact List.mem_append_right _ List.mem_cons_self
  have hplace := toNat_of_idAt hid
  have hplace' := toNat_of_idAt (idAt_of_function? hnode)
  cases eq_of_offset_eq (Nat.le_of_lt hu.start_lt_entries) he he' (by omega)
  exact ⟨before, after, node, hsplit, hbefore, hnode, hsigns⟩

/-- An entry stands at one place of the walk. -/
theorem eq_of_split (hentries : u.header.start ≤ u.header.entries)
    {before after before' after' : List Entry}
    (h : u.entries.1 = before ++ e :: after)
    (h' : u.entries.1 = before' ++ e :: after') : before = before' := by
  have hforward : u.entries.1.Pairwise fun a b => a.offset < b.offset :=
    pairwise_entriesFrom hentries
  have hnot : e ∉ before ∧ e ∉ after := by
    rw [h] at hforward
    obtain ⟨-, hafter, hbefore⟩ := List.pairwise_append.1 hforward
    constructor
    · intro hmem
      exact Nat.lt_irrefl _ (hbefore e hmem e List.mem_cons_self)
    · intro hmem
      exact Nat.lt_irrefl _ ((List.pairwise_cons.1 hafter).1 e hmem)
  exact ((List.append_cons_inj_of_notMem hnot.1 hnot.2).1 (h.symm.trans h')).1

/-- A function is stored just if it and all entries in front of it are read
without a fault. -/
theorem PartOf.contains_iff_read {data : ByteArray} {image : Object.Image}
    {g : Graph} (hu : u.PartOf data image g) {before after : List Entry}
    (hsplit : u.entries.1 = before ++ e :: after) {next : Nat}
    (hnext : e.next = .ok next) (he : u.IsFunction e id name) :
    g.functions.contains id = true ↔ ∀ c ∈ before ++ [e],
      ∃ found, (u.function? (machineOf image) c).run.value = .ok found := by
  have hmem : e ∈ u.entries.1 := by
    rw [hsplit]
    exact List.mem_append_right _ List.mem_cons_self
  rw [List.forall_mem_append, List.forall_mem_singleton]
  constructor
  · intro hcontains
    obtain ⟨f, hf⟩ := Table.contains_iff.1 hcontains
    obtain ⟨before', _, node, hsplit', hbefore, hnode, -⟩ :=
      hu.exists_node hmem he.id hf
    rw [eq_of_split (Nat.le_of_lt hu.start_lt_entries) hsplit hsplit']
    exact ⟨hbefore, _, hnode⟩
  · rintro ⟨hbefore, found, hfound⟩
    have hread := function?_of_isFunction (machineOf image) hnext he
    cases hnode : (u.functionNode (machineOf image) e id name).run.value with
    | error fault =>
        rw [hfound, hnode] at hread
        cases hread
    | ok node =>
        rw [hnode] at hread
        obtain ⟨_, _, _, -, -, -, rfl⟩ := functionNode_eq_ok_iff.1 hnode
        exact hu.contains_function
          (mem_functionNodes_iff.2 ⟨before, e, after, hsplit, hbefore, hread⟩)
          (covers_of_mem_entries hu.start_lt_stop hmem he.id)

/-- A function of a unit whose walk comes to its end. It is stored if and only
if neither it nor a function in front of it has a defect; what is stored has its
name, and the address where its code starts, counted from the base of the file,
which is 0 if no start is known. -/
theorem graphOf_function {data : ByteArray} {image : Object.Image} {g : Graph}
    (hu : u.PartOf data image g) {before after : List Entry}
    (hwalk : u.entries = (before ++ e :: after, none))
    (he : u.IsFunction e id name) :
    (g.functions.contains id = true ↔ ∀ c ∈ before ++ [e], ∀ id name,
        u.IsFunction c id name → ∀ fault, ¬ u.Defect c fault)
      ∧ ∀ f, g.functions.get? id = some f → f.id = id ∧ f.name = name
        ∧ ∃ start, u.codeStart e = .ok start
          ∧ f.address = UInt64.ofNat (start.getD 0 - image.base.toNat) := by
  have hsplit : u.entries.1 = before ++ e :: after := congrArg Prod.fst hwalk
  have hnext : ∀ c ∈ before ++ [e], ∃ next, c.next = .ok next := by
    intro c hc
    apply next_of_mem_entriesFrom (congrArg Prod.snd hwalk)
    show c ∈ u.entries.1
    rw [hsplit, ← List.singleton_append, ← List.append_assoc]
    exact List.mem_append_left _ hc
  obtain ⟨next, hnextE⟩ := hnext e (List.mem_append_right _ List.mem_cons_self)
  have hmem : e ∈ u.entries.1 := by
    rw [hsplit]
    exact List.mem_append_right _ List.mem_cons_self
  constructor
  · rw [hu.contains_iff_read hsplit hnextE he]
    refine forall₂_congr fun c hc => ?_
    obtain ⟨_, hnextC⟩ := hnext c hc
    exact exists_function?_iff _ hnextC
  · intro f hf
    obtain ⟨_, _, node, -, -, hnode, _, _, -, -, rfl⟩ :=
      hu.exists_node hmem he.id hf
    rw [function?_of_isFunction _ hnextE he] at hnode
    cases hread : (u.functionNode (machineOf image) e id name).run.value with
    | error fault =>
        rw [hread] at hnode
        cases hnode
    | ok node' =>
        rw [hread] at hnode
        cases hnode
        obtain ⟨_, _, start, -, -, hstart, rfl⟩ := functionNode_eq_ok_iff.1 hread
        exact ⟨rfl, rfl, start, hstart, rfl⟩

/-- Three functions. The second one has its address in the table of addresses,
which is missing. -/
def strippedFunctions : ByteArray := ⟨#[
  1, 0x11, 1, 0, 0, 2, 0x2e, 0, 3, 8, 0x11, 0x29, 0, 0,
  3, 0x2e, 0, 3, 8, 0x11, 1, 0, 0, 0,
  36, 0, 0, 0, 5, 0, 1, 8, 0, 0, 0, 0,
  1, 3, 0x61, 0, 0, 0x10, 0, 0, 0, 0, 0, 0, 2, 0x66, 0, 7,
  3, 0x67, 0, 0, 0x20, 0, 0, 0, 0, 0, 0, 0]⟩

def strippedImage : Object.Image where
  architecture := .x86_64
  order := .little
  sections := [
    { name := some (Bytes.ascii ".debug_abbrev"), body := .plain 0 24 },
    { name := some (Bytes.ascii ".debug_info"), body := .plain 24 40 }]

/-- The first function is stored, and the last one is lost with the second. -/
theorem graphOf_function_strippedFunctions :
    ∃ (g : Graph) (u : Unit) (root a b c : Entry),
      u.PartOf strippedFunctions strippedImage g
      ∧ u.entries = ([root, a, b, c], none)
      ∧ u.IsFunction a 13 "a" ∧ u.IsFunction b 24 "f" ∧ u.IsFunction c 28 "g"
      ∧ (∃ fault, u.Defect b fault)
      ∧ g.functions.keys = [13]
      ∧ (∃ f, g.functions.get? 13 = some f ∧ f.name = "a")
      ∧ g.functions.contains 28 = false := by
  have hread := PartOf.exists_of_mem strippedFunctions strippedImage
    (fun g u => u.entries.2 = none ∧ u.entries.1.length = 4
      ∧ g.functions.keys = [13]
      ∧ (∃ e ∈ u.entries.1[1]?, u.IsFunction e 13 "a")
      ∧ (∃ e ∈ u.entries.1[2]?, u.IsFunction e 24 "f"
        ∧ (u.codeStart e).toOption = none ∧ e.next.toOption.isSome)
      ∧ ∃ e ∈ u.entries.1[3]?, u.IsFunction e 28 "g") (by decide +kernel)
  obtain ⟨g, u, hu, hend, hlength, hkeys, ⟨a, ha, hfirst⟩,
    ⟨b, hb, hsecond, hstart, hnext⟩, c, hc, hlast⟩ := hread
  obtain ⟨root, a', b', c', hlist⟩ :
      ∃ root a' b' c', u.entries.1 = [root, a', b', c'] := by
    match u.entries.1, hlength with
    | [root, a', b', c'], _ => exact ⟨root, a', b', c', rfl⟩
  rw [hlist] at ha hb hc
  cases ha
  cases hb
  cases hc
  have hwalk : u.entries = ([root] ++ a :: [b, c], none) :=
    Prod.ext hlist hend
  have hwalk' : u.entries = ([root, a, b] ++ c :: [], none) := hwalk
  obtain ⟨next, hnext⟩ := Option.isSome_iff_exists.1 hnext
  have hdefect : ∃ fault, u.Defect b fault := by
    cases hfault : u.codeStart b with
    | ok start =>
        rw [hfault] at hstart
        cases hstart
    | error fault =>
        rcases (codeStart_eq_error_iff (toOption_eq_some_iff.1 hnext)).1 hfault
          with ⟨v, hv, hfault⟩ | ⟨hnone, hfault⟩
        · exact ⟨fault, .address hv hfault⟩
        · exact ⟨fault, .ranges hnone hfault⟩
  have hstored : g.functions.contains 13 = true := by
    rw [← Table.mem_keys, hkeys]
    decide
  obtain ⟨f, hf⟩ := Table.contains_iff.1 hstored
  obtain ⟨-, hsymbol⟩ := graphOf_function hu hwalk hfirst
  obtain ⟨-, hname, -⟩ := hsymbol f hf
  obtain ⟨hiff, -⟩ := graphOf_function hu hwalk' hlast
  refine ⟨g, u, root, a, b, c, hu, hwalk, hfirst, hsecond, hlast, hdefect, hkeys,
    ⟨f, hf, hname⟩, ?_⟩
  rw [Bool.eq_false_iff]
  intro hcontains
  obtain ⟨fault, hfault⟩ := hdefect
  exact hiff.1 hcontains b (by simp) _ _ hsecond fault hfault

end SymbolGraph.Dwarf.Unit
