/-
The binary format read back. What is said of a reader is that it takes
the octets of a value off the front, whatever stands behind them, and
answers the value (`Takes`). Readers one after the other take octets one
after the other (`Takes.bind`), so the proof for a record is the list of
its members, and a member that is written elsewhere in the order than it is
read, or in another width, fits nowhere.

Lengths and counts are written in 64 bits. What is longer cannot be told by
them, and nothing is: a reader answers only what 64 bits can count
(`Yields`). So a graph is read back if and only if its texts and lists have
such lengths, its symbols stand under their ids, and its magic is the
magic.
-/
import SymbolGraph.Loader
import SymbolGraph.Proofs.Except
import SymbolGraph.Proofs.Table
import SymbolGraph.Proofs.Text.Utf8

namespace SymbolGraph

-- ============================================================= numbers

theorem LittleEndian.decode_encode (width n : Nat) :
    decode (encode width n) = n % 256 ^ width := by
  induction width generalizing n with
  | zero => exact (Nat.mod_one n).symm
  | succ width ih =>
      have hoctet : (UInt8.ofNat n).toNat = n % 256 := UInt8.toNat_ofNat'
      show (UInt8.ofNat n).toNat + 256 * decode (encode width (n / 256)) = _
      rw [ih, hoctet, Nat.pow_succ', Nat.mod_mul]

-- ============================================================= lengths

/-- Every length in the type can be counted in 64 bits. -/
structure TypeSymbol.Countable (t : TypeSymbol) : Prop where
  name : (Utf8.encode t.name).length < 2 ^ 64
  fields : t.fields.length < 2 ^ 64
  fieldNames : ∀ f ∈ t.fields, (Utf8.encode f.name).length < 2 ^ 64

/-- Every length in the function can be counted in 64 bits. -/
structure FunctionSymbol.Countable (f : FunctionSymbol) : Prop where
  name : (Utf8.encode f.name).length < 2 ^ 64
  argumentTypes : f.argumentTypes.length < 2 ^ 64

/-- Every length in the graph can be counted in 64 bits, as it can for
every graph in the memory of a machine with 64-bit addresses. The sizes of
the tables need no condition: there are only so many keys. -/
structure Graph.Countable (g : Graph) : Prop where
  types : ∀ t ∈ g.types.values, t.Countable
  functions : ∀ f ∈ g.functions.values, f.Countable

/-- Every symbol stands under its own id. -/
structure Graph.Indexed (g : Graph) : Prop where
  types : ∀ k t, g.types.get? k = some t → t.id = k
  functions : ∀ k f, g.functions.get? k = some f → f.id = k

theorem LittleEndian.decode_lt (octets : List UInt8) :
    decode octets < 256 ^ octets.length := by
  induction octets with
  | nil => exact Nat.one_pos
  | cons b octets ih =>
      have hb : b.toNat < 256 := b.toNat_lt
      rw [decode, List.length_cons, Nat.pow_succ']
      omega

namespace Binary

variable {α β : Type} {r : Reader α} {octets octets' : List UInt8} {a : α}
  {b : β}

-- ============================================================= readers

/-- The reader takes these octets off the front, whatever stands behind
them, and answers `a`. -/
def Takes (r : Reader α) (octets : List UInt8) (a : α) : Prop :=
  ∀ rest, r.run (octets ++ rest) = .ok (a, rest)

theorem Takes.pure (a : α) : Takes (pure a) [] a := fun _ => rfl

theorem Takes.bind {f : α → Reader β} (h : Takes r octets a)
    (h' : Takes (f a) octets' b) : Takes (r >>= f) (octets ++ octets') b := by
  intro rest
  rw [StateT.run_bind, List.append_assoc, h]
  exact h' rest

theorem Takes.map (h : Takes r octets a) (f : α → β) :
    Takes (do return f (← r)) octets (f a) := by
  intro rest
  rw [StateT.run_bind, h]
  rfl

-- ============================================================== values

theorem split?_append (octets rest : List UInt8) :
    split? octets.length (octets ++ rest) = some (octets, rest) := by
  induction octets with
  | nil => rfl
  | cons b octets ih =>
      show (split? octets.length (octets ++ rest)).map _ = _
      rw [ih]
      rfl

theorem takes_octets (octets : List UInt8) :
    Takes (getOctets octets.length) octets octets := by
  intro rest
  show getOctets octets.length (octets ++ rest) = _
  unfold getOctets
  rw [split?_append]

theorem takes_nat {width n : Nat} (h : n < 256 ^ width) :
    Takes (getNat width) (LittleEndian.encode width n) n := by
  have hoctets := (takes_octets (LittleEndian.encode width n)).map
    LittleEndian.decode
  rwa [LittleEndian.length_encode, LittleEndian.decode_encode,
    Nat.mod_eq_of_lt h] at hoctets

theorem takes_count {n : Nat} (h : n < 2 ^ 64) :
    Takes (getNat 8) (putCount n) n :=
  takes_nat h

theorem takes_u8 (x : UInt8) : Takes getU8 (putU8 x) x := by
  have hoctet : LittleEndian.encode 1 x.toNat = putU8 x := by
    show [UInt8.ofNat x.toNat] = [x]
    rw [UInt8.ofNat_toNat]
  have hnat := (takes_nat x.toNat_lt : Takes (getNat 1) _ _).map UInt8.ofNat
  rwa [UInt8.ofNat_toNat, hoctet] at hnat

theorem takes_u32 (x : UInt32) : Takes getU32 (putU32 x) x := by
  have hnat := (takes_nat x.toNat_lt : Takes (getNat 4) _ _).map
    UInt32.ofNat
  rwa [UInt32.ofNat_toNat] at hnat

theorem takes_u64 (x : UInt64) : Takes getU64 (putU64 x) x := by
  have hnat := (takes_nat x.toNat_lt : Takes (getNat 8) _ _).map
    UInt64.ofNat
  rwa [UInt64.ofNat_toNat] at hnat

theorem takes_i32 (x : Int32) : Takes getI32 (putI32 x) x :=
  (takes_u32 x.toUInt32).map UInt32.toInt32

theorem takes_bool (x : Bool) : Takes getBool (putBool x) x := by
  intro rest
  cases x <;> rfl

theorem takes_text {s : String} (h : (Utf8.encode s).length < 2 ^ 64) :
    Takes getText (putText s) s := by
  refine (takes_count h).bind ?_
  intro rest
  rw [StateT.run_bind, takes_octets]
  dsimp only [bind, Except.bind]
  rw [Utf8.decode_encode]
  rfl

theorem takes_many {item : Reader α} {put : α → List UInt8} {l : List α}
    (h : ∀ a ∈ l, Takes item (put a) a) :
    Takes (getMany item l.length) (l.flatMap put) l := by
  induction l with
  | nil => exact .pure []
  | cons a l ih =>
      have hrest := ih fun b hb => h b (List.mem_cons_of_mem a hb)
      exact (h a List.mem_cons_self).bind (hrest.map (a :: ·))

theorem takes_list {item : Reader α} {put : α → List UInt8} {l : List α}
    (hlength : l.length < 2 ^ 64) (h : ∀ a ∈ l, Takes item (put a) a) :
    Takes (getList item) (putList put l) l :=
  (takes_count hlength).bind (takes_many h)

-- ============================================================= records

theorem takes_field {f : Field} (h : (Utf8.encode f.name).length < 2 ^ 64) :
    Takes getField (putField f) f := by
  unfold getField putField
  simp only [List.append_assoc]
  exact (takes_u32 f.id).bind ((takes_text h).bind ((takes_u32 f.typeId).bind
    ((takes_i32 f.offset).bind ((takes_bool f.inAnonymousUnion).bind
      ((takes_u32 f.unionId).map _)))))

theorem takes_type {t : TypeSymbol} (h : t.Countable) :
    Takes getType (putType t) t := by
  have hfields : Takes (getList getField) (putList putField t.fields)
      t.fields :=
    takes_list h.fields fun f hf => takes_field (h.fieldNames f hf)
  -- of the kind the tag is read back
  have htag : Takes getType (putType t)
      { t with kind := .ofTag t.kind.tag } := by
    unfold getType putType
    simp only [List.append_assoc]
    exact (takes_u32 t.id).bind ((takes_text h.name).bind
      ((takes_u8 t.kind.tag).bind ((takes_u64 t.length).bind
        ((takes_u32 t.fieldCount).bind (hfields.bind
          ((takes_u32 t.aliasOf).map _))))))
  rwa [TypeKind.ofTag_tag] at htag

theorem takes_function {f : FunctionSymbol} (h : f.Countable) :
    Takes getFunction (putFunction f) f := by
  have harguments : Takes (getList getU32) (putList putU32 f.argumentTypes)
      f.argumentTypes :=
    takes_list h.argumentTypes fun a _ => takes_u32 a
  have htag : Takes getFunction (putFunction f)
      { f with convention := .ofTag f.convention.tag } := by
    unfold getFunction putFunction
    simp only [List.append_assoc]
    exact (takes_u32 f.id).bind ((takes_text h.name).bind
      ((takes_u32 f.returnType).bind ((takes_u32 f.argumentCount).bind
        (harguments.bind ((takes_u8 f.convention.tag).bind
          ((takes_u64 f.address).map _))))))
  rwa [CallingConvention.ofTag_tag] at htag

theorem takes_header (h : Header) : Takes getHeader (putHeader h) h := by
  have htag : Takes getHeader (putHeader h)
      { h with origin := .ofTag h.origin.tag
               architecture := .ofTag h.architecture.tag } := by
    unfold getHeader putHeader
    simp only [List.append_assoc]
    exact (takes_u32 h.magic).bind ((takes_u8 h.origin.tag).bind
      ((takes_u8 h.architecture.tag).map _))
  rwa [DebugFormat.ofTag_tag, Architecture.ofTag_tag] at htag

-- ============================================================== tables

theorem length_values_lt (t : Table α) : t.values.length < 2 ^ 64 := by
  have hsize : t.values.length = t.size := List.length_map _
  have := t.size_le
  omega

theorem takes_types {t : Table TypeSymbol} (h : ∀ s ∈ t.values, s.Countable) :
    Takes (getList getType) (putTypes t) t.values :=
  takes_list (length_values_lt t) fun s hs => takes_type (h s hs)

theorem takes_functions {t : Table FunctionSymbol}
    (h : ∀ s ∈ t.values, s.Countable) :
    Takes (getList getFunction) (putFunctions t) t.values :=
  takes_list (length_values_lt t) fun s hs => takes_function (h s hs)

theorem of_get?_ofSymbols {id : α → UInt32} {l : List α} {k : UInt32}
    (h : (Table.ofSymbols id l).get? k = some a) : id a = k ∧ a ∈ l := by
  unfold Table.ofSymbols at h
  obtain ⟨a', ha', heq⟩ := List.mem_map.1 (Table.mem_of_get?_ofList h)
  cases heq
  exact ⟨rfl, ha'⟩

/-- Keyed by their ids, the symbols of a table make the table, if and only
if that is how they stood in it. -/
theorem ofSymbols_values_eq_iff {id : α → UInt32} {t : Table α} :
    Table.ofSymbols id t.values = t
      ↔ ∀ k a, t.get? k = some a → id a = k := by
  constructor
  · intro h k a hget
    rw [← h] at hget
    exact (of_get?_ofSymbols hget).1
  · intro h
    have hentries : (t.values.map fun a => (id a, a)) = t.entries := by
      unfold Table.values
      rw [List.map_map]
      refine (List.map_congr_left ?_).trans (List.map_id _)
      rintro ⟨k, a⟩ hmem
      exact Prod.ext (h k a (Table.get?_eq_some_iff.2 hmem)) rfl
    unfold Table.ofSymbols
    rw [hentries]
    exact Table.ofList_eq_of_perm (List.Perm.refl _)

/-- What the octets of a graph are read as, whatever its keys. What follows
them is reported, and takes no part. -/
theorem decode_encode_append {g : Graph} (hmagic : g.header.magic = magic)
    (hcountable : g.Countable) (more : List UInt8) :
    Binary.decode (encode g ++ more) = do
      unless more.isEmpty do
        Logged.warn s!"{more.length} trailing bytes after function symbols"
      return .ok {
        header := g.header
        types := .ofSymbols TypeSymbol.id g.types.values
        functions := .ofSymbols FunctionSymbol.id g.functions.values } := by
  unfold Binary.decode encode
  rw [List.append_assoc, List.append_assoc, takes_header]
  dsimp only
  rw [if_neg (not_not_intro hmagic), takes_types hcountable.types]
  dsimp only
  rw [takes_functions hcountable.functions]

theorem decode_encode_of_countable {g : Graph}
    (hmagic : g.header.magic = magic) (hcountable : g.Countable) :
    Binary.decode (encode g) = pure (.ok {
      header := g.header
      types := .ofSymbols TypeSymbol.id g.types.values
      functions := .ofSymbols FunctionSymbol.id g.functions.values }) := by
  have h := decode_encode_append hmagic hcountable []
  rwa [List.append_nil] at h

/-- What a graph's octets are read as. -/
theorem decode_encode_of_indexed {g : Graph} (hmagic : g.header.magic = magic)
    (hindexed : g.Indexed) (hcountable : g.Countable) :
    Binary.decode (encode g) = pure (.ok { g with format := none }) := by
  rw [decode_encode_of_countable hmagic hcountable,
    ofSymbols_values_eq_iff.2 hindexed.types,
    ofSymbols_values_eq_iff.2 hindexed.functions]

-- ======================================================== what is read

/-- The reader answers nothing but what satisfies `P`. -/
def Yields (P : α → Prop) (r : Reader α) : Prop :=
  ∀ input a rest, r.run input = .ok (a, rest) → P a

variable {P : α → Prop} {Q : β → Prop} {f : α → Reader β}

theorem yields_any (r : Reader α) : Yields (fun _ => True) r :=
  fun _ _ _ _ => trivial

theorem Yields.pure (h : P a) : Yields P (pure a) := by
  intro input a' rest hrun
  cases hrun
  exact h

theorem Yields.bind (h : Yields P r) (h' : ∀ a, P a → Yields Q (f a)) :
    Yields Q (r >>= f) := by
  intro input b rest hrun
  rw [StateT.run_bind, bind_eq_ok_iff] at hrun
  obtain ⟨p, hfirst, hrun⟩ := hrun
  exact h' p.1 (h _ _ _ hfirst) _ _ _ hrun

/-- Where nothing is to be known of what was read first. -/
theorem Yields.after (h : ∀ a, Yields Q (f a)) : Yields Q (r >>= f) :=
  (yields_any r).bind fun a _ => h a

theorem length_of_split? {n : Nat} {input octets rest : List UInt8}
    (h : split? n input = some (octets, rest)) : octets.length = n := by
  induction n generalizing input octets rest with
  | zero =>
      cases h
      rfl
  | succ n ih =>
      cases input with
      | nil => cases h
      | cons b input =>
          obtain ⟨p, hp, heq⟩ := Option.map_eq_some_iff.1 h
          cases heq
          rw [List.length_cons, ih hp]

theorem yields_octets (n : Nat) :
    Yields (fun octets => octets.length = n) (getOctets n) := by
  intro input octets rest hrun
  unfold getOctets at hrun
  cases hsplit : split? n input with
  | none => rw [StateT.run, hsplit] at hrun; cases hrun
  | some p =>
      rw [StateT.run, hsplit] at hrun
      cases hrun
      exact length_of_split? hsplit

theorem yields_count : Yields (fun n => n < 2 ^ 64) (getNat 8) := by
  refine (yields_octets 8).bind fun octets hlength => .pure ?_
  have hlt := LittleEndian.decode_lt octets
  rwa [hlength] at hlt

theorem yields_text :
    Yields (fun s => (Utf8.encode s).length < 2 ^ 64) getText := by
  refine yields_count.bind fun n hn => (yields_octets n).bind ?_
  intro octets hlength
  cases hdecode : Utf8.decode octets with
  | error fault => exact fun _ _ _ hrun => nomatch hrun
  | ok s =>
      refine .pure ?_
      rw [← Utf8.decode_eq_ok_iff.1 hdecode, hlength]
      exact hn

theorem yields_many {item : Reader α} (h : Yields P item) (n : Nat) :
    Yields (fun l => l.length = n ∧ ∀ a ∈ l, P a) (getMany item n) := by
  induction n with
  | zero => exact .pure ⟨rfl, nofun⟩
  | succ n ih =>
      refine h.bind fun a ha => ih.bind fun l hl => .pure ⟨?_, ?_⟩
      · rw [List.length_cons, hl.1]
      · exact List.forall_mem_cons.2 ⟨ha, hl.2⟩

theorem yields_list {item : Reader α} (h : Yields P item) :
    Yields (fun l => l.length < 2 ^ 64 ∧ ∀ a ∈ l, P a) (getList item) := by
  refine yields_count.bind fun n hn => ?_
  intro input l rest hrun
  obtain ⟨hlength, hitems⟩ := yields_many h n input l rest hrun
  exact ⟨hlength ▸ hn, hitems⟩

theorem yields_field :
    Yields (fun f => (Utf8.encode f.name).length < 2 ^ 64) getField :=
  .after fun _ => yields_text.bind fun _ hname => .after fun _ =>
    .after fun _ => .after fun _ => .after fun _ => .pure hname

theorem yields_type : Yields TypeSymbol.Countable getType :=
  .after fun _ => yields_text.bind fun _ hname => .after fun _ =>
    .after fun _ => .after fun _ => (yields_list yields_field).bind
      fun _ hfields => .after fun _ => .pure ⟨hname, hfields.1, hfields.2⟩

theorem yields_function : Yields FunctionSymbol.Countable getFunction :=
  .after fun _ => yields_text.bind fun _ hname => .after fun _ =>
    .after fun _ => (yields_list (yields_any getU32)).bind
      fun _ harguments => .after fun _ => .after fun _ =>
        .pure ⟨hname, harguments.1⟩

theorem countable_of_ofSymbols {id : α → UInt32} {l : List α}
    (h : ∀ a ∈ l, P a) : ∀ a ∈ (Table.ofSymbols id l).values, P a := by
  intro a ha
  obtain ⟨k, hget⟩ := Table.mem_values.1 ha
  exact h a (of_get?_ofSymbols hget).2

/-- What any octets are read as has the magic, and stands under its ids,
and can be counted. -/
theorem of_decode {octets : List UInt8} {g : Graph}
    (h : (Binary.decode octets).value = .ok g) :
    g.header.magic = magic ∧ g.Indexed ∧ g.Countable := by
  unfold Binary.decode at h
  split at h
  case h_1 => cases h
  case h_2 header rest hheader =>
  split at h
  case isTrue => cases h
  case isFalse hmagic =>
  split at h
  case h_1 => cases h
  case h_2 types rest htypes =>
  split at h
  case h_1 => cases h
  case h_2 functions rest hfunctions =>
  have hvalue : g = {
      header
      types := .ofSymbols TypeSymbol.id types
      functions := .ofSymbols FunctionSymbol.id functions } := by
    cases rest <;> (cases h; rfl)
  subst hvalue
  refine ⟨not_not.1 hmagic, ⟨?_, ?_⟩, ⟨?_, ?_⟩⟩
  · exact fun k t hget => (of_get?_ofSymbols hget).1
  · exact fun k f hget => (of_get?_ofSymbols hget).1
  · exact countable_of_ofSymbols (yields_list yields_type _ _ _ htypes).2
  · exact countable_of_ofSymbols
      (yields_list yields_function _ _ _ hfunctions).2

-- ========================================================== round trip

/-- The octets of a graph are read back as the graph, with no format
selected and nothing to report, if and only if the magic is right, every
symbol stands under its id, and every length can be counted. -/
theorem decode_encode_iff (g : Graph) :
    Binary.decode (encode g) = pure (.ok { g with format := none })
      ↔ g.header.magic = magic ∧ g.Indexed ∧ g.Countable := by
  constructor
  · intro h
    obtain ⟨hmagic, hindexed, hcountable⟩ :=
      of_decode (g := { g with format := none }) (congrArg Logged.value h)
    exact ⟨hmagic, ⟨hindexed.types, hindexed.functions⟩,
      ⟨hcountable.types, hcountable.functions⟩⟩
  · rintro ⟨hmagic, hindexed, hcountable⟩
    exact decode_encode_of_indexed hmagic hindexed hcountable

end Binary

end SymbolGraph
