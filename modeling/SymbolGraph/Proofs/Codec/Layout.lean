/-
What the octets of a binary file are, record by record. A layout keeps what
the graph of a file does not tell: the tags as they stand there, the records
in their order and with their repetitions, and the octets behind the tables.

Reading is exact. A reader takes the octets off the front that spell what it
answers, and no others (`Exact`), so what is accepted is the octets of one
layout and of no second (`exists_layout`, `Layout.eq_of_octets_eq`). Writing a
graph gives the octets of one particular layout of it, the canonical one. So
whether a file is written again as it was is the question whether its layout
is canonical, and no octet has to be looked at for that.
-/
import SymbolGraph.Proofs.Codec.Binary

namespace SymbolGraph

theorem LittleEndian.encode_decode (octets : List UInt8) :
    encode octets.length (decode octets) = octets := by
  induction octets with
  | nil => rfl
  | cons b octets ih =>
      have hb : b.toNat < 256 := b.toNat_lt
      have hoctet : UInt8.ofNat (b.toNat + 256 * decode octets) = b := by
        apply UInt8.toNat_inj.1
        rw [UInt8.toNat_ofNat']
        omega
      have hrest : (b.toNat + 256 * decode octets) / 256 = decode octets := by
        omega
      show UInt8.ofNat (b.toNat + 256 * decode octets)
        :: encode octets.length ((b.toNat + 256 * decode octets) / 256) = _
      rw [hoctet, hrest, ih]

namespace Binary

variable {α β : Type} {r : Reader α} {input rest : List UInt8} {a : α}

-- ============================================================= readers

/-- What a reader answers is spelled by the octets that it has taken. -/
def Exact (put : α → List UInt8) (r : Reader α) : Prop :=
  ∀ {input a rest}, r.run input = .ok (a, rest) → input = put a ++ rest

/-- Octets that two values are read from are one value's. -/
theorem Takes.unique {octets octets' rest' : List UInt8} {a' : α}
    (h : Takes r octets a) (h' : Takes r octets' a')
    (heq : octets ++ rest = octets' ++ rest') : a = a' ∧ rest = rest' := by
  have hrun := h rest
  rw [heq, h' rest', Except.ok.injEq, Prod.mk.injEq] at hrun
  exact ⟨hrun.1.symm, hrun.2.symm⟩

-- ============================================================== values

theorem eq_append_of_split? {n : Nat} {octets : List UInt8}
    (h : split? n input = some (octets, rest)) : input = octets ++ rest := by
  induction n generalizing input octets rest with
  | zero =>
      cases h
      rfl
  | succ n ih =>
      cases input with
      | nil => cases h
      | cons b input =>
          obtain ⟨p, hp, heq⟩ := Option.map_eq_some_iff.1 h
          cases heq
          rw [ih hp, List.cons_append]

theorem exact_octets (n : Nat) : Exact (fun octets => octets) (getOctets n) := by
  intro input octets rest hrun
  unfold getOctets at hrun
  rw [StateT.run] at hrun
  cases hsplit : split? n input with
  | none => rw [hsplit] at hrun; cases hrun
  | some p =>
      rw [hsplit] at hrun
      cases hrun
      exact eq_append_of_split? hsplit

theorem exact_nat (width : Nat) :
    Exact (LittleEndian.encode width) (getNat width) := by
  intro input n rest hrun
  unfold getNat at hrun
  simp only [run_bind_eq_ok_iff, run_pure_eq_ok_iff] at hrun
  obtain ⟨octets, _, hoctets, rfl, rfl⟩ := hrun
  have hlength : octets.length = width := yields_octets width _ _ _ hoctets
  rw [← hlength, LittleEndian.encode_decode]
  exact exact_octets width hoctets

/-- A number that was read fits the octets it was read from. -/
theorem lt_of_getNat {width n : Nat}
    (hrun : (getNat width).run input = .ok (n, rest)) : n < 256 ^ width := by
  unfold getNat at hrun
  simp only [run_bind_eq_ok_iff, run_pure_eq_ok_iff] at hrun
  obtain ⟨octets, _, hoctets, rfl, rfl⟩ := hrun
  rw [← yields_octets width _ _ _ hoctets]
  exact LittleEndian.decode_lt octets

theorem exact_u8 : Exact putU8 getU8 := by
  intro input x rest hrun
  unfold getU8 at hrun
  simp only [run_bind_eq_ok_iff, run_pure_eq_ok_iff] at hrun
  obtain ⟨n, _, hn, rfl, rfl⟩ := hrun
  exact exact_nat 1 hn

theorem exact_u32 : Exact putU32 getU32 := by
  intro input x rest hrun
  unfold getU32 at hrun
  simp only [run_bind_eq_ok_iff, run_pure_eq_ok_iff] at hrun
  obtain ⟨n, _, hn, rfl, rfl⟩ := hrun
  unfold putU32
  rw [UInt32.toNat_ofNat_of_lt' (lt_of_getNat hn)]
  exact exact_nat 4 hn

theorem exact_u64 : Exact putU64 getU64 := by
  intro input x rest hrun
  unfold getU64 at hrun
  simp only [run_bind_eq_ok_iff, run_pure_eq_ok_iff] at hrun
  obtain ⟨n, _, hn, rfl, rfl⟩ := hrun
  unfold putU64
  rw [UInt64.toNat_ofNat_of_lt' (lt_of_getNat hn)]
  exact exact_nat 8 hn

theorem exact_i32 : Exact putI32 getI32 := by
  intro input x rest hrun
  unfold getI32 at hrun
  simp only [run_bind_eq_ok_iff, run_pure_eq_ok_iff] at hrun
  obtain ⟨n, _, hn, rfl, rfl⟩ := hrun
  exact exact_u32 hn

theorem exact_bool : Exact putBool getBool := by
  intro input x rest hrun
  unfold getBool at hrun
  rw [run_bind_eq_ok_iff] at hrun
  obtain ⟨b, between, hb, hrun⟩ := hrun
  have hoctet := exact_u8 hb
  split at hrun
  case isTrue hzero =>
    obtain ⟨rfl, rfl⟩ := run_pure_eq_ok_iff.1 hrun
    rw [hoctet, hzero]
    rfl
  case isFalse =>
    split at hrun
    case isTrue hone =>
      obtain ⟨rfl, rfl⟩ := run_pure_eq_ok_iff.1 hrun
      rw [hoctet, hone]
      rfl
    case isFalse => cases hrun

theorem exact_text : Exact putText getText := by
  intro input s rest hrun
  unfold getText at hrun
  simp only [run_bind_eq_ok_iff] at hrun
  obtain ⟨n, _, hn, octets, between, hoctets, hrun⟩ := hrun
  cases hdecode : Utf8.decode octets with
  | error fault => rw [hdecode] at hrun; cases hrun
  | ok s' =>
      rw [hdecode] at hrun
      obtain ⟨rfl, rfl⟩ := run_pure_eq_ok_iff.1 hrun
      have hlength : octets.length = n := yields_octets n _ _ _ hoctets
      show input = (putCount (Utf8.encode s').length ++ Utf8.encode s')
        ++ between
      rw [← Utf8.decode_eq_ok_iff.1 hdecode, hlength, List.append_assoc,
        ← exact_octets n hoctets]
      exact exact_nat 8 hn

theorem exact_many {item : Reader α} {put : α → List UInt8}
    (h : Exact put item) (n : Nat) :
    Exact (fun l => l.flatMap put) (getMany item n) := by
  induction n with
  | zero =>
      intro input l rest hrun
      obtain ⟨rfl, rfl⟩ := run_pure_eq_ok_iff.1 hrun
      rfl
  | succ n ih =>
      intro input l rest hrun
      unfold getMany at hrun
      simp only [run_bind_eq_ok_iff, run_pure_eq_ok_iff] at hrun
      obtain ⟨a, _, ha, l', _, hl', rfl, rfl⟩ := hrun
      show _ = (a :: l').flatMap put ++ _
      rw [h ha, ih hl', List.flatMap_cons, List.append_assoc]

theorem exact_list {item : Reader α} {put : α → List UInt8}
    (h : Exact put item) : Exact (putList put) (getList item) := by
  intro input l rest hrun
  unfold getList at hrun
  rw [run_bind_eq_ok_iff] at hrun
  obtain ⟨n, between, hn, hl⟩ := hrun
  have hlength := (yields_many (yields_any item) n _ _ _ hl).1
  have hitems : between = l.flatMap put ++ rest := exact_many h n hl
  unfold putList
  rw [hlength, List.append_assoc, ← hitems]
  exact exact_nat 8 hn

theorem exact_field : Exact putField getField := by
  intro input f rest hrun
  unfold getField at hrun
  simp only [run_bind_eq_ok_iff, run_pure_eq_ok_iff] at hrun
  obtain ⟨id, _, hid, name, _, hname, typeId, _, htype, offset, _, hoffset,
    shared, _, hshared, unionId, _, hunion, rfl, rfl⟩ := hrun
  rw [exact_u32 hid, exact_text hname, exact_u32 htype, exact_i32 hoffset,
    exact_bool hshared, exact_u32 hunion]
  unfold putField
  simp only [List.append_assoc]

-- ============================================================= records

/-- A header as it is stored. A tag need not be that of a value. -/
structure StoredHeader where
  magic : UInt32
  origin : UInt8
  architecture : UInt8

/-- A type as it is stored, with the tag of its kind. -/
structure StoredType where
  id : UInt32
  name : String
  kind : UInt8
  length : UInt64
  fieldCount : UInt32
  fields : List Field
  aliasOf : UInt32

/-- A function as it is stored, with the tag of its convention. -/
structure StoredFunction where
  id : UInt32
  name : String
  returnType : UInt32
  argumentCount : UInt32
  argumentTypes : List UInt32
  convention : UInt8
  address : UInt64

-- what the records are read as

def StoredHeader.header (h : StoredHeader) : Header where
  magic := h.magic
  origin := .ofTag h.origin
  architecture := .ofTag h.architecture

def StoredType.symbol (t : StoredType) : TypeSymbol where
  id := t.id
  name := t.name
  kind := .ofTag t.kind
  length := t.length
  fieldCount := t.fieldCount
  fields := t.fields
  aliasOf := t.aliasOf

def StoredFunction.symbol (f : StoredFunction) : FunctionSymbol where
  id := f.id
  name := f.name
  returnType := f.returnType
  argumentCount := f.argumentCount
  argumentTypes := f.argumentTypes
  convention := .ofTag f.convention
  address := f.address

def StoredHeader.octets (h : StoredHeader) : List UInt8 :=
  putU32 h.magic ++ putU8 h.origin ++ putU8 h.architecture

def StoredType.octets (t : StoredType) : List UInt8 :=
  putU32 t.id ++ putText t.name ++ putU8 t.kind ++ putU64 t.length
    ++ putU32 t.fieldCount ++ putList putField t.fields ++ putU32 t.aliasOf

def StoredFunction.octets (f : StoredFunction) : List UInt8 :=
  putU32 f.id ++ putText f.name ++ putU32 f.returnType
    ++ putU32 f.argumentCount ++ putList putU32 f.argumentTypes
    ++ putU8 f.convention ++ putU64 f.address

def getStoredHeader : Reader StoredHeader := do
  let magic ← getU32
  let origin ← getU8
  let architecture ← getU8
  return { magic, origin, architecture }

def getStoredType : Reader StoredType := do
  let id ← getU32
  let name ← getText
  let kind ← getU8
  let length ← getU64
  let fieldCount ← getU32
  let fields ← getList getField
  let aliasOf ← getU32
  return { id, name, kind, length, fieldCount, fields, aliasOf }

def getStoredFunction : Reader StoredFunction := do
  let id ← getU32
  let name ← getText
  let returnType ← getU32
  let argumentCount ← getU32
  let argumentTypes ← getList getU32
  let convention ← getU8
  let address ← getU64
  return {
    id, name, returnType, argumentCount, argumentTypes, convention, address }

-- of a stored record, the plain readers answer all but the tags

theorem getHeader_eq : getHeader = do return (← getStoredHeader).header := by
  unfold getHeader getStoredHeader
  simp only [bind_assoc, pure_bind]
  rfl

theorem getType_eq : getType = do return (← getStoredType).symbol := by
  unfold getType getStoredType
  simp only [bind_assoc, pure_bind]
  rfl

theorem getFunction_eq :
    getFunction = do return (← getStoredFunction).symbol := by
  unfold getFunction getStoredFunction
  simp only [bind_assoc, pure_bind]
  rfl

theorem exact_storedHeader : Exact StoredHeader.octets getStoredHeader := by
  intro input h rest hrun
  unfold getStoredHeader at hrun
  simp only [run_bind_eq_ok_iff, run_pure_eq_ok_iff] at hrun
  obtain ⟨magic, _, hmagic, origin, _, horigin, architecture, _,
    harchitecture, rfl, rfl⟩ := hrun
  rw [exact_u32 hmagic, exact_u8 horigin, exact_u8 harchitecture]
  unfold StoredHeader.octets
  simp only [List.append_assoc]

theorem exact_storedType : Exact StoredType.octets getStoredType := by
  intro input t rest hrun
  unfold getStoredType at hrun
  simp only [run_bind_eq_ok_iff, run_pure_eq_ok_iff] at hrun
  obtain ⟨id, _, hid, name, _, hname, tag, _, htag, length, _, hlength,
    count, _, hcount, fields, _, hfields, aliasOf, _, halias, rfl, rfl⟩ := hrun
  rw [exact_u32 hid, exact_text hname, exact_u8 htag, exact_u64 hlength,
    exact_u32 hcount, exact_list exact_field hfields, exact_u32 halias]
  unfold StoredType.octets
  simp only [List.append_assoc]

theorem exact_storedFunction :
    Exact StoredFunction.octets getStoredFunction := by
  intro input f rest hrun
  unfold getStoredFunction at hrun
  simp only [run_bind_eq_ok_iff, run_pure_eq_ok_iff] at hrun
  obtain ⟨id, _, hid, name, _, hname, returnType, _, hreturn, count, _, hcount,
    arguments, _, harguments, tag, _, htag, address, _, haddress,
    rfl, rfl⟩ := hrun
  rw [exact_u32 hid, exact_text hname, exact_u32 hreturn, exact_u32 hcount,
    exact_list exact_u32 harguments, exact_u8 htag, exact_u64 haddress]
  unfold StoredFunction.octets
  simp only [List.append_assoc]

theorem takes_storedHeader (h : StoredHeader) :
    Takes getStoredHeader h.octets h := by
  unfold getStoredHeader StoredHeader.octets
  simp only [List.append_assoc]
  exact (takes_u32 h.magic).bind ((takes_u8 h.origin).bind
    ((takes_u8 h.architecture).map _))

theorem takes_storedType {t : StoredType} (h : t.symbol.Countable) :
    Takes getStoredType t.octets t := by
  have hfields : Takes (getList getField) (putList putField t.fields)
      t.fields :=
    takes_list h.fields fun f hf => takes_field (h.fieldNames f hf)
  unfold getStoredType StoredType.octets
  simp only [List.append_assoc]
  exact (takes_u32 t.id).bind ((takes_text h.name).bind
    ((takes_u8 t.kind).bind ((takes_u64 t.length).bind
      ((takes_u32 t.fieldCount).bind (hfields.bind
        ((takes_u32 t.aliasOf).map _))))))

theorem takes_storedFunction {f : StoredFunction} (h : f.symbol.Countable) :
    Takes getStoredFunction f.octets f := by
  have harguments : Takes (getList getU32) (putList putU32 f.argumentTypes)
      f.argumentTypes :=
    takes_list h.argumentTypes fun a _ => takes_u32 a
  unfold getStoredFunction StoredFunction.octets
  simp only [List.append_assoc]
  exact (takes_u32 f.id).bind ((takes_text h.name).bind
    ((takes_u32 f.returnType).bind ((takes_u32 f.argumentCount).bind
      (harguments.bind ((takes_u8 f.convention).bind
        ((takes_u64 f.address).map _))))))

-- ============================================================= layouts

/-- A binary file, record by record. -/
structure Layout where
  header : StoredHeader
  types : List StoredType
  functions : List StoredFunction
  /-- What stands behind the tables. -/
  trailing : List UInt8

namespace Layout

def octets (l : Layout) : List UInt8 :=
  l.header.octets ++ (putList StoredType.octets l.types
    ++ (putList StoredFunction.octets l.functions ++ l.trailing))

/-- The graph that the file is read as. -/
def graph (l : Layout) : Graph where
  header := l.header.header
  types := .ofSymbols TypeSymbol.id (l.types.map StoredType.symbol)
  functions := .ofSymbols FunctionSymbol.id
    (l.functions.map StoredFunction.symbol)

/-- Every length in the file can be counted in 64 bits. -/
structure Countable (l : Layout) : Prop where
  typeCount : l.types.length < 2 ^ 64
  functionCount : l.functions.length < 2 ^ 64
  types : ∀ t ∈ l.types, t.symbol.Countable
  functions : ∀ f ∈ l.functions, f.symbol.Countable

/-- Every tag in the file is that of a value. -/
structure Declared (l : Layout) : Prop where
  origin : ∃ x : DebugFormat, l.header.origin = x.tag
  architecture : ∃ x : Architecture, l.header.architecture = x.tag
  kinds : ∀ t ∈ l.types, ∃ x : TypeKind, t.kind = x.tag
  conventions : ∀ f ∈ l.functions, ∃ x : CallingConvention, f.convention = x.tag

/-- The records of each table come in strictly ascending order of their
ids. -/
structure Ascending (l : Layout) : Prop where
  types : (l.types.map StoredType.id).Pairwise (· < ·)
  functions : (l.functions.map StoredFunction.id).Pairwise (· < ·)

/-- Octets are those of one layout at most. -/
theorem eq_of_octets_eq {l l' : Layout} (h : l.Countable) (h' : l'.Countable)
    (heq : l.octets = l'.octets) : l = l' := by
  obtain ⟨header, types, functions, trailing⟩ := l
  obtain ⟨header', types', functions', trailing'⟩ := l'
  obtain ⟨rfl, htables⟩ :=
    (takes_storedHeader header).unique (takes_storedHeader header') heq
  have htypes := takes_list h.typeCount fun t ht =>
    takes_storedType (h.types t ht)
  have htypes' := takes_list h'.typeCount fun t ht =>
    takes_storedType (h'.types t ht)
  obtain ⟨rfl, hrest⟩ := htypes.unique htypes' htables
  have hfunctions := takes_list h.functionCount fun f hf =>
    takes_storedFunction (h.functions f hf)
  have hfunctions' := takes_list h'.functionCount fun f hf =>
    takes_storedFunction (h'.functions f hf)
  obtain ⟨rfl, rfl⟩ := hfunctions.unique hfunctions' hrest
  rfl

end Layout

-- ============================================================ decoding

theorem getMany_map (item : Reader α) (f : α → β) (n : Nat) :
    getMany (do return f (← item)) n
      = do return (← getMany item n).map f := by
  induction n with
  | zero => simp only [getMany, pure_bind, List.map_nil]
  | succ n ih => simp only [getMany, ih, bind_assoc, pure_bind, List.map_cons]

theorem getList_map (item : Reader α) (f : α → β) :
    getList (do return f (← item)) = do return (← getList item).map f := by
  unfold getList
  simp only [getMany_map, bind_assoc]

/-- What is accepted is the octets of a layout with the magic, and read as its
graph. -/
theorem exists_layout {octets : List UInt8} {g : Graph}
    (h : (Binary.decode octets).value = .ok g) :
    ∃ l : Layout, l.Countable ∧ l.octets = octets ∧ l.graph = g := by
  unfold Binary.decode at h
  rw [getHeader_eq, getType_eq, getFunction_eq, getList_map, getList_map] at h
  split at h
  case h_1 => cases h
  case h_2 header rest hheader =>
  split at h
  case isTrue => cases h
  case isFalse =>
  split at h
  case h_1 => cases h
  case h_2 types rest htypes =>
  split at h
  case h_1 => cases h
  case h_2 functions trailing hfunctions =>
  have hvalue : g = {
      header
      types := .ofSymbols TypeSymbol.id types
      functions := .ofSymbols FunctionSymbol.id functions } := by
    cases trailing <;> (cases h; rfl)
  simp only [run_bind_eq_ok_iff, run_pure_eq_ok_iff]
    at hheader htypes hfunctions
  obtain ⟨header, _, hheader, rfl, rfl⟩ := hheader
  obtain ⟨types, _, htypes, rfl, rfl⟩ := htypes
  obtain ⟨functions, trailing, hfunctions, rfl, rfl⟩ := hfunctions
  have hcountable : Yields (fun t : StoredType => t.symbol.Countable)
      getStoredType := by
    intro input t rest hrun
    apply yields_type input t.symbol rest
    rw [getType_eq, run_bind_eq_ok_iff]
    exact ⟨t, rest, hrun, rfl⟩
  have hcountable' : Yields (fun f : StoredFunction => f.symbol.Countable)
      getStoredFunction := by
    intro input f rest hrun
    apply yields_function input f.symbol rest
    rw [getFunction_eq, run_bind_eq_ok_iff]
    exact ⟨f, rest, hrun, rfl⟩
  obtain ⟨htypeCount, htypeLengths⟩ := yields_list hcountable _ _ _ htypes
  obtain ⟨hfunctionCount, hfunctionLengths⟩ :=
    yields_list hcountable' _ _ _ hfunctions
  refine ⟨⟨header, types, functions, trailing⟩,
    ⟨htypeCount, hfunctionCount, htypeLengths, hfunctionLengths⟩, ?_,
    hvalue.symm⟩
  rw [exact_storedHeader hheader, exact_list exact_storedType htypes,
    exact_list exact_storedFunction hfunctions]
  rfl

-- =========================================================== canonical

def StoredHeader.ofHeader (h : Header) : StoredHeader where
  magic := h.magic
  origin := h.origin.tag
  architecture := h.architecture.tag

def StoredType.ofSymbol (t : TypeSymbol) : StoredType where
  id := t.id
  name := t.name
  kind := t.kind.tag
  length := t.length
  fieldCount := t.fieldCount
  fields := t.fields
  aliasOf := t.aliasOf

def StoredFunction.ofSymbol (f : FunctionSymbol) : StoredFunction where
  id := f.id
  name := f.name
  returnType := f.returnType
  argumentCount := f.argumentCount
  argumentTypes := f.argumentTypes
  convention := f.convention.tag
  address := f.address

theorem StoredType.symbol_ofSymbol (t : TypeSymbol) :
    (StoredType.ofSymbol t).symbol = t := by
  unfold ofSymbol symbol
  rw [TypeKind.ofTag_tag]

theorem StoredFunction.symbol_ofSymbol (f : FunctionSymbol) :
    (StoredFunction.ofSymbol f).symbol = f := by
  unfold ofSymbol symbol
  rw [CallingConvention.ofTag_tag]

-- a record is that of its symbol if its tag is that of a value

theorem StoredHeader.ofHeader_header {h : StoredHeader}
    (horigin : ∃ x : DebugFormat, h.origin = x.tag)
    (harchitecture : ∃ x : Architecture, h.architecture = x.tag) :
    StoredHeader.ofHeader h.header = h := by
  obtain ⟨x, horigin⟩ := horigin
  obtain ⟨y, harchitecture⟩ := harchitecture
  obtain ⟨magic, _, _⟩ := h
  dsimp only at horigin harchitecture
  subst horigin harchitecture
  unfold header ofHeader
  rw [DebugFormat.ofTag_tag, Architecture.ofTag_tag]

theorem StoredType.ofSymbol_symbol {t : StoredType}
    (htag : ∃ x : TypeKind, t.kind = x.tag) :
    StoredType.ofSymbol t.symbol = t := by
  obtain ⟨x, htag⟩ := htag
  unfold symbol ofSymbol
  rw [htag, TypeKind.ofTag_tag, ← htag]

theorem StoredFunction.ofSymbol_symbol {f : StoredFunction}
    (htag : ∃ x : CallingConvention, f.convention = x.tag) :
    StoredFunction.ofSymbol f.symbol = f := by
  obtain ⟨x, htag⟩ := htag
  unfold symbol ofSymbol
  rw [htag, CallingConvention.ofTag_tag, ← htag]

/-- In strictly ascending order, symbols are the values of their table. -/
theorem values_ofSymbols {id : α → UInt32} {l : List α}
    (h : (l.map id).Pairwise (· < ·)) : (Table.ofSymbols id l).values = l := by
  let t : Table α := {
    entries := l.map fun a => (id a, a)
    ascending := by
      rw [List.pairwise_map] at h ⊢
      exact h }
  have htable : Table.ofSymbols id l = t :=
    Table.ofList_eq_of_perm (List.Perm.refl _)
  rw [htable]
  unfold Table.values
  rw [List.map_map]
  exact List.map_id l

namespace Layout

/-- The file that a graph is written to. -/
def ofGraph (g : Graph) : Layout where
  header := .ofHeader g.header
  types := g.types.values.map .ofSymbol
  functions := g.functions.values.map .ofSymbol
  trailing := []

theorem octets_ofGraph (g : Graph) : (ofGraph g).octets = encode g := by
  have hitems : ∀ {α β : Type} (put : β → List UInt8) (f : α → β) (l : List α),
      putList put (l.map f) = putList (fun a => put (f a)) l := by
    intro α β put f l
    unfold putList
    rw [List.length_map, List.flatMap_map]
  show (StoredHeader.ofHeader g.header).octets
      ++ (putList _ (g.types.values.map _)
        ++ (putList _ (g.functions.values.map _) ++ [])) = _
  rw [hitems, hitems, List.append_nil, ← List.append_assoc]
  rfl

theorem countable_ofGraph {g : Graph} (h : g.Countable) :
    (ofGraph g).Countable where
  typeCount := by
    show (g.types.values.map _).length < _
    rw [List.length_map]
    exact length_values_lt g.types
  functionCount := by
    show (g.functions.values.map _).length < _
    rw [List.length_map]
    exact length_values_lt g.functions
  types t ht := by
    obtain ⟨s, hs, rfl⟩ := List.mem_map.1 ht
    rw [StoredType.symbol_ofSymbol]
    exact h.types s hs
  functions f hf := by
    obtain ⟨s, hs, rfl⟩ := List.mem_map.1 hf
    rw [StoredFunction.symbol_ofSymbol]
    exact h.functions s hs

theorem declared_ofGraph (g : Graph) : (ofGraph g).Declared where
  origin := ⟨_, rfl⟩
  architecture := ⟨_, rfl⟩
  kinds t ht := by
    obtain ⟨s, -, rfl⟩ := List.mem_map.1 ht
    exact ⟨s.kind, rfl⟩
  conventions f hf := by
    obtain ⟨s, -, rfl⟩ := List.mem_map.1 hf
    exact ⟨s.convention, rfl⟩

/-- Keyed by their ids, symbols are written in the order of these. -/
theorem ascending_ofGraph {g : Graph} (h : g.Indexed) :
    (ofGraph g).Ascending where
  types := by
    have hids : (g.types.values.map .ofSymbol).map StoredType.id
        = g.types.keys := by
      unfold Table.values Table.keys
      rw [List.map_map, List.map_map]
      exact List.map_congr_left fun e he =>
        h.types e.1 e.2 (Table.get?_eq_some_iff.2 he)
    exact hids ▸ g.types.keys_ascending
  functions := by
    have hids : (g.functions.values.map .ofSymbol).map StoredFunction.id
        = g.functions.keys := by
      unfold Table.values Table.keys
      rw [List.map_map, List.map_map]
      exact List.map_congr_left fun e he =>
        h.functions e.1 e.2 (Table.get?_eq_some_iff.2 he)
    exact hids ▸ g.functions.keys_ascending

/-- A file with proper tags, ascending ids and nothing behind the tables is
the one that its graph is written to. -/
theorem ofGraph_graph {l : Layout} (htrailing : l.trailing = [])
    (hdeclared : l.Declared) (hascending : l.Ascending) :
    ofGraph l.graph = l := by
  obtain ⟨header, types, functions, trailing⟩ := l
  obtain ⟨horigin, harchitecture, hkinds, hconventions⟩ := hdeclared
  obtain ⟨htypes, hfunctions⟩ := hascending
  have htypes' : ((types.map StoredType.symbol).map TypeSymbol.id).Pairwise
      (· < ·) := by
    rw [List.map_map]
    exact htypes
  have hfunctions' : ((functions.map StoredFunction.symbol).map
      FunctionSymbol.id).Pairwise (· < ·) := by
    rw [List.map_map]
    exact hfunctions
  have htypesBack : (types.map StoredType.symbol).map .ofSymbol = types := by
    rw [List.map_map]
    exact (List.map_congr_left fun t ht =>
      StoredType.ofSymbol_symbol (hkinds t ht)).trans (List.map_id _)
  have hfunctionsBack :
      (functions.map StoredFunction.symbol).map .ofSymbol = functions := by
    rw [List.map_map]
    exact (List.map_congr_left fun f hf =>
      StoredFunction.ofSymbol_symbol (hconventions f hf)).trans (List.map_id _)
  dsimp only at htrailing
  unfold ofGraph graph
  dsimp only
  rw [values_ofSymbols htypes', values_ofSymbols hfunctions', htypesBack,
    hfunctionsBack, StoredHeader.ofHeader_header horigin harchitecture,
    htrailing]

end Layout

/-- Whatever octets are accepted: their graph has the magic, its symbols stand
under their ids, and it is the same graph when it is written and read again.
The octets are those of one layout, which is read as the graph, and the graph
is written as these octets again if and only if nothing stands behind the
tables, every tag is that of a value, and the records of each table come in
strictly ascending order of their ids. -/
theorem encode_decode_iff {octets : List UInt8} {g : Graph}
    (h : (Binary.decode octets).value = .ok g) :
    g.header.magic = magic ∧ g.Indexed
      ∧ (Binary.decode (encode g)).value = .ok g
      ∧ ∃ l : Layout, (l.Countable ∧ l.octets = octets)
        ∧ (∀ l' : Layout, l'.Countable ∧ l'.octets = octets → l' = l)
        ∧ l.graph = g
        ∧ (encode g = octets
          ↔ l.trailing = [] ∧ l.Declared ∧ l.Ascending) := by
  obtain ⟨hmagic, hindexed, hcountable⟩ := of_decode h
  obtain ⟨l, hl, rfl, rfl⟩ := exists_layout h
  refine ⟨hmagic, hindexed, ?_, l, ⟨hl, rfl⟩, ?_, rfl, ?_⟩
  · rw [decode_encode_of_indexed hmagic hindexed hcountable]
    rfl
  · rintro l' ⟨hl', heq⟩
    exact Layout.eq_of_octets_eq hl' hl heq
  · constructor
    · intro heq
      rw [← Layout.octets_ofGraph] at heq
      have hsame :=
        Layout.eq_of_octets_eq (Layout.countable_ofGraph hcountable) hl heq
      rw [← hsame]
      exact ⟨rfl, Layout.declared_ofGraph _, Layout.ascending_ofGraph hindexed⟩
    · rintro ⟨htrailing, hdeclared, hascending⟩
      rw [← Layout.octets_ofGraph,
        Layout.ofGraph_graph htrailing hdeclared hascending]

/-- A file with two functions in descending order of their ids, of which one
has a tag beyond the last convention. -/
def shuffledFile : Layout where
  header := { magic, origin := 1, architecture := 4 }
  types := []
  functions := [
    { id := 2, name := "late", returnType := 0, argumentCount := 0,
      argumentTypes := [], convention := 9, address := 16 },
    { id := 1, name := "é", returnType := 7, argumentCount := 1,
      argumentTypes := [3], convention := 0, address := 32 }]
  trailing := []

theorem encode_decode_iff_shuffledFile :
    (Binary.decode shuffledFile.octets).value = .ok shuffledFile.graph
      ∧ shuffledFile.graph.Indexed
      ∧ encode shuffledFile.graph ≠ shuffledFile.octets := by
  have hdecode :
      (Binary.decode shuffledFile.octets).value = .ok shuffledFile.graph := rfl
  obtain ⟨-, hindexed, -, l, -, hunique, -, hiff⟩ := encode_decode_iff hdecode
  have hcountable : shuffledFile.Countable := by
    refine ⟨by decide, by decide, fun t ht => (List.not_mem_nil ht).elim,
      fun f hf => ?_⟩
    obtain rfl | hf := List.mem_cons.1 hf
    · exact ⟨by decide +kernel, by decide⟩
    · rw [List.mem_singleton.1 hf]
      exact ⟨by decide +kernel, by decide⟩
  refine ⟨hdecode, hindexed, fun heq => ?_⟩
  have hascending : l.Ascending := (hiff.1 heq).2.2
  rw [← hunique shuffledFile ⟨hcountable, rfl⟩] at hascending
  have hids : (2 : UInt32) < 1 :=
    List.rel_of_pairwise_cons hascending.functions (List.mem_singleton.2 rfl)
  exact absurd hids (by decide)

end Binary

end SymbolGraph
