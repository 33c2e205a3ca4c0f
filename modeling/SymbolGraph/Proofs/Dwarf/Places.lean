/-
Where units, entries and types lie. Reading goes forward: the header of a unit
ends behind the place where it begins, and the next one begins there, so the
units of a file lie one behind the other (`headersFrom_consecutive`). Whatever
an entry refers to, an offset in a unit is looked up in that unit only, and an
entry is found only between the unit's header and its end. So the id of an
entry, or of the type behind a handle, is a place in the unit's own part of the
section, also in a broken file.
-/
import SymbolGraph.Dwarf.Extraction
import SymbolGraph.Proofs.Dwarf.Scan

namespace SymbolGraph.Dwarf

-- =============================================================== headers

namespace Scan

variable {r : Region} {place next : Nat}

theorem next_of_split {length : Nat} {r' : Region}
    (h : (split r length).run place = .ok (r', next)) :
    next = place + length := by
  unfold split at h
  rw [StateT.run] at h
  split at h
  · cases h
    rfl
  · cases h

theorem lt_of_initialLength {found : Nat × Bool}
    (h : (initialLength r).run place = .ok (found, next)) : place < next := by
  unfold initialLength at h
  rw [run_bind_eq_ok_iff] at h
  obtain ⟨n, between, hn, h⟩ := h
  have hbetween : between = place + 4 := next_of_number hn
  split at h
  case isTrue =>
    cases h
    omega
  case isFalse =>
    split at h
    case isTrue =>
      rw [run_bind_eq_ok_iff] at h
      obtain ⟨wide, _, hwide, h⟩ := h
      cases h
      have hnext : next = between + 8 := next_of_number hwide
      omega
    case isFalse => cases h

end Scan

/-- A unit reaches from where its header begins to where reading goes on, its
entries stand behind its header, and its addresses have eight octets at most. -/
theorem of_readHeader {info : Region} {place next : Nat} {header : UnitHeader}
    (h : (readHeader info).run place = .ok (header, next)) :
    header.start = place ∧ header.stop = next ∧ place < next
      ∧ place < header.entries ∧ header.encoding.addressSize ≤ 8 := by
  unfold readHeader at h
  simp only [run_bind_eq_ok_iff, StateT.run_get, StateT.run_set] at h
  obtain ⟨start, _, ⟨⟩, ⟨length, wide⟩, body, hlength, _, _, ⟨⟩, r, stop, hsplit,
    _, _, ⟨⟩, _, _, ⟨⟩, version, behind, hversion, h⟩ := h
  have hbody : place < body := Scan.lt_of_initialLength hlength
  have hstop : stop = body + length := Scan.next_of_split hsplit
  have hbehind : body ≤ behind := (Scan.gives_number r 2 _ _ _ hversion).1
  have hheader : header.start = place ∧ header.stop = stop ∧ next = stop
      ∧ behind ≤ header.entries ∧ header.encoding.addressSize ≤ 8 := by
    split at h
    case isTrue =>
      simp only [run_bind_eq_ok_iff, StateT.run_get, StateT.run_set] at h
      obtain ⟨_, p, hoffset, _, q, hsize, _, _, ⟨⟩, _, _, ⟨⟩, ⟨⟩⟩ := h
      have hp : behind ≤ p := (Scan.gives_offset r _ _ _ _ hoffset).1
      obtain ⟨hq, hwidth⟩ := Scan.gives_addressSize r _ _ _ hsize
      exact ⟨rfl, rfl, rfl, Nat.le_trans hp hq, hwidth⟩
    case isFalse =>
      split at h
      case isTrue =>
        simp only [run_bind_eq_ok_iff, StateT.run_get, StateT.run_set] at h
        obtain ⟨_, p, htype, _, q, hsize, _, p', hoffset, _, q', hextra, _, t,
          hskip, _, _, ⟨⟩, _, _, ⟨⟩, ⟨⟩⟩ := h
        have hp : behind ≤ p := (Scan.gives_u8 r _ _ _ htype).1
        obtain ⟨hq, hwidth⟩ := Scan.gives_addressSize r _ _ _ hsize
        have hp' : q ≤ p' := (Scan.gives_offset r _ _ _ _ hoffset).1
        have hq' : p' ≤ q' := (Scan.gives_lift _ _ _ _ hextra).1
        have ht : q' ≤ t := (Scan.gives_skip r _ _ _ _ hskip).1
        refine ⟨rfl, rfl, rfl, ?_, hwidth⟩
        show behind ≤ t
        omega
      case isFalse => cases h
  obtain ⟨rfl, rfl, rfl, hentries, hwidth⟩ := hheader
  exact ⟨rfl, rfl, by omega, by omega, hwidth⟩

/-- The units lie one behind the other, and none of them is empty. -/
structure Consecutive (headers : List UnitHeader) : Prop where
  apart : headers.Pairwise fun a b => a.stop ≤ b.start
  nonempty : ∀ h ∈ headers, h.start < h.stop

theorem headersFrom_consecutive (info : Region) (fuel place : Nat) :
    Consecutive (headersFrom info fuel place).1
      ∧ ∀ h ∈ (headersFrom info fuel place).1, place ≤ h.start := by
  induction fuel generalizing place with
  | zero => exact ⟨⟨.nil, nofun⟩, nofun⟩
  | succ fuel ih =>
      unfold headersFrom
      split
      case isTrue => exact ⟨⟨.nil, nofun⟩, nofun⟩
      case isFalse =>
        split
        case h_1 => exact ⟨⟨.nil, nofun⟩, nofun⟩
        case h_2 header next hread =>
          obtain ⟨rfl, rfl, hlt, -⟩ := of_readHeader hread
          obtain ⟨⟨hapart, hnonempty⟩, hbehind⟩ := ih header.stop
          refine ⟨⟨List.pairwise_cons.2 ⟨hbehind, hapart⟩,
            List.forall_mem_cons.2 ⟨hlt, hnonempty⟩⟩,
            List.forall_mem_cons.2 ⟨Nat.le_refl _, fun h hmem => ?_⟩⟩
          have hstart := hbehind h hmem
          omega

theorem unitHeaders_consecutive (s : Sections) :
    Consecutive (unitHeaders s).1 :=
  (headersFrom_consecutive _ _ _).1

/-- The units of a file have what every header has that can be read. -/
theorem of_mem_unitHeaders {s : Sections} {P : UnitHeader → Prop}
    (hread : ∀ place header next,
      (readHeader (s.region s.info)).run place = .ok (header, next) → P header) :
    ∀ header ∈ (unitHeaders s).1, P header := by
  have hall : ∀ fuel place,
      ∀ header ∈ (headersFrom (s.region s.info) fuel place).1, P header := by
    intro fuel
    induction fuel with
    | zero => exact fun _ => nofun
    | succ fuel ih =>
        intro place header hmem
        unfold headersFrom at hmem
        split at hmem
        case isTrue => cases hmem
        case isFalse =>
          split at hmem
          case h_1 => cases hmem
          case h_2 hfirst =>
            rcases List.mem_cons.1 hmem with rfl | hmem
            · exact hread _ _ _ hfirst
            · exact ih _ header hmem
  exact hall _ _

theorem start_lt_entries {s : Sections} {header : UnitHeader}
    (h : header ∈ (unitHeaders s).1) : header.start < header.entries := by
  refine of_mem_unitHeaders (P := fun header => header.start < header.entries)
    (fun place header next hread => ?_) header h
  obtain ⟨hstart, -, -, hentries, -⟩ := of_readHeader hread
  rwa [hstart]

theorem addressSize_le {s : Sections} {header : UnitHeader}
    (h : header ∈ (unitHeaders s).1) : header.encoding.addressSize ≤ 8 :=
  of_mem_unitHeaders (fun _ _ _ hread => (of_readHeader hread).2.2.2.2) header h

theorem Consecutive.sublist {headers chosen : List UnitHeader}
    (h : Consecutive headers) (hchosen : chosen.Sublist headers) :
    Consecutive chosen where
  apart := h.apart.sublist hchosen
  nonempty header hmem := h.nonempty header (hchosen.subset hmem)

-- =============================================================== entries

namespace Unit

variable {u : Unit} {fuel place offset : Nat} {e : Entry} {id : UInt32}

theorem offset_of_itemAt (h : u.itemAt place = .ok (.entry e)) :
    e.offset = place - u.header.start := by
  unfold itemAt at h
  rw [bind_eq_ok_iff] at h
  obtain ⟨⟨code, next⟩, -, h⟩ := h
  dsimp only at h
  split at h
  · cases h
  · split at h
    · cases h
    · cases h
      rfl

/-- Reading attributes does not go back. -/
theorem le_of_readAttributes {specs : List AttributeSpec} {next : Nat}
    (h : (u.readAttributes specs place).2 = .ok next) : place ≤ next := by
  induction specs generalizing place with
  | nil =>
      cases h
      exact Nat.le_refl _
  | cons spec specs ih =>
      unfold readAttributes at h
      split at h
      case h_1 => cases h
      case h_2 v between hvalue =>
        have hle : place ≤ between :=
          (gives_value u.region u.encoding spec.name (P := fun _ => True)
            (fun _ _ => trivial) (fun _ _ => trivial) spec.form _ _ _ hvalue).1
        exact Nat.le_trans hle (ih h)

/-- Where the constants of the abbreviations fit in 64 bits, all constants do. -/
theorem fits_of_mem_readAttributes {specs : List AttributeSpec} {name : Nat}
    {v : Value} (hspecs : ∀ spec ∈ specs, spec.Fits)
    (h : (name, v) ∈ (u.readAttributes specs place).1) : v.Fits := by
  induction specs generalizing place with
  | nil => cases h
  | cons spec specs ih =>
      obtain ⟨hspec, hspecs⟩ := List.forall_mem_cons.1 hspecs
      unfold readAttributes at h
      split at h
      case h_1 => cases h
      case h_2 value between hvalue =>
        rcases List.mem_cons.1 h with heq | h
        · cases heq
          exact (gives_value u.region u.encoding spec.name (fun _ => id)
            (fun n hn => Value.fits_signed (hspec n hn)) spec.form _ _ _
            hvalue).2
        · exact ih hspecs h

theorem fits_of_itemAt (habbreviations : ∀ a ∈ u.abbreviations, a.Fits)
    (h : u.itemAt place = .ok (.entry e)) {name : Nat} {v : Value}
    (hv : e.readable? name = some v) : v.Fits := by
  unfold itemAt at h
  rw [bind_eq_ok_iff] at h
  obtain ⟨⟨code, between⟩, -, h⟩ := h
  dsimp only at h
  split at h
  · cases h
  · split at h
    · cases h
    case h_2 a ha =>
      cases h
      obtain ⟨l₁, l₂, hsplit, -⟩ := List.lookup_eq_some_iff.1 hv
      have hmem : (name, v) ∈ (u.readAttributes a.attributes between).1 := by
        dsimp only at hsplit
        rw [hsplit]
        exact List.mem_append_right _ List.mem_cons_self
      exact fits_of_mem_readAttributes
        (habbreviations a (List.mem_of_find?_eq_some ha)) hmem

/-- Behind what stands at a place, reading goes on further behind. -/
theorem lt_of_itemAt_null {next : Nat} (h : u.itemAt place = .ok (.null next)) :
    place < next := by
  unfold itemAt at h
  rw [bind_eq_ok_iff] at h
  obtain ⟨⟨code, between⟩, hcode, h⟩ := h
  dsimp only at h
  split at h
  · cases h
    exact Scan.lt_of_unsigned _ hcode
  · split at h <;> cases h

theorem lt_of_itemAt_entry {next : Nat} (h : u.itemAt place = .ok (.entry e))
    (hnext : e.next = .ok next) : place < next := by
  unfold itemAt at h
  rw [bind_eq_ok_iff] at h
  obtain ⟨⟨code, between⟩, hcode, h⟩ := h
  dsimp only at h
  split at h
  · cases h
  · split at h
    · cases h
    · cases h
      exact Nat.lt_of_lt_of_le (Scan.lt_of_unsigned _ hcode)
        (le_of_readAttributes hnext)

theorem itemAt_of_firstFrom (h : u.firstFrom fuel place = .ok (some e)) :
    ∃ place', place ≤ place' ∧ place' < u.header.stop
      ∧ u.itemAt place' = .ok (.entry e) := by
  induction fuel generalizing place with
  | zero => cases h
  | succ fuel ih =>
      unfold firstFrom at h
      split at h
      case isTrue => cases h
      case isFalse hplace =>
        split at h
        case h_1 => cases h
        case h_2 next hitem =>
          obtain ⟨place', hle, hlt, hentry⟩ := ih h
          have hnext := lt_of_itemAt_null hitem
          exact ⟨place', by omega, hlt, hentry⟩
        case h_3 hitem =>
          cases h
          exact ⟨place, Nat.le_refl _, Nat.not_le.1 hplace, hitem⟩

/-- An entry of the walk is read at a place that the walk came to. -/
theorem itemAt_of_mem_entriesFrom (h : e ∈ (u.entriesFrom fuel place).1) :
    ∃ place', place ≤ place' ∧ place' < u.header.stop
      ∧ u.itemAt place' = .ok (.entry e) := by
  induction fuel generalizing place with
  | zero => cases h
  | succ fuel ih =>
      unfold entriesFrom at h
      split at h
      case h_1 => cases h
      case h_2 => cases h
      case h_3 first hfirst =>
        have hplace := itemAt_of_firstFrom hfirst
        split at h
        case h_1 =>
          rw [List.mem_singleton.1 h]
          exact hplace
        case h_2 next hnext =>
          rcases List.mem_cons.1 h with rfl | h
          · exact hplace
          · obtain ⟨place', hle, -, hitem⟩ := hplace
            obtain ⟨place'', hle', hlt, hitem'⟩ := ih h
            have hbetween := lt_of_itemAt_entry hitem hnext
            exact ⟨place'', by omega, hlt, hitem'⟩

/-- In a walk that comes to its end, all attributes of each entry can be
read. -/
theorem next_of_mem_entriesFrom (hwalk : (u.entriesFrom fuel place).2 = none)
    (h : e ∈ (u.entriesFrom fuel place).1) : ∃ next, e.next = .ok next := by
  induction fuel generalizing place with
  | zero => cases h
  | succ fuel ih =>
      unfold entriesFrom at h hwalk
      split at h
      case h_1 => cases h
      case h_2 => cases h
      case h_3 first hfirst =>
        split at h
        case h_1 fault hfault =>
          rw [hfirst] at hwalk
          simp only [hfault] at hwalk
          cases hwalk
        case h_2 next hnext =>
          rw [hfirst] at hwalk
          simp only [hnext] at hwalk
          rcases List.mem_cons.1 h with rfl | h
          · exact ⟨next, hnext⟩
          · exact ih hwalk h

theorem holds_of_typeEntry (h : u.typeEntry offset = .ok e) :
    u.holds offset = true := by
  by_cases hholds : u.holds offset = true
  · exact hholds
  · unfold typeEntry entryAt? at h
    rw [if_neg hholds] at h
    cases h

/-- What is found at an offset was read somewhere. -/
theorem exists_itemAt_of_typeEntry (h : u.typeEntry offset = .ok e) :
    ∃ place, u.itemAt place = .ok (.entry e) := by
  unfold typeEntry entryAt? at h
  rw [if_pos (holds_of_typeEntry h)] at h
  split at h
  case h_1 => cases h
  case h_2 => cases h
  case h_3 hfirst =>
    cases h
    obtain ⟨place, -, -, hitem⟩ := itemAt_of_firstFrom hfirst
    exact ⟨place, hitem⟩

/-- The walk goes forward. -/
theorem pairwise_entriesFrom (hplace : u.header.start ≤ place) :
    (u.entriesFrom fuel place).1.Pairwise fun a b => a.offset < b.offset := by
  induction fuel generalizing place with
  | zero => exact .nil
  | succ fuel ih =>
      unfold entriesFrom
      split
      case h_1 => exact .nil
      case h_2 => exact .nil
      case h_3 first hfirst =>
        obtain ⟨place', hle, -, hitem⟩ := itemAt_of_firstFrom hfirst
        split
        case h_1 => exact List.pairwise_singleton _ _
        case h_2 next hnext =>
          have hbetween : place' < next := lt_of_itemAt_entry hitem hnext
          refine List.pairwise_cons.2 ⟨fun e he => ?_, ih (by omega)⟩
          obtain ⟨place'', hle', -, hitem'⟩ := itemAt_of_mem_entriesFrom he
          rw [offset_of_itemAt hitem, offset_of_itemAt hitem']
          omega

/-- The entries of the walk are found by their offsets. -/
theorem typeEntry_of_mem_entries (hentries : u.header.start ≤ u.header.entries)
    (he : e ∈ u.entries.1) : u.typeEntry e.offset = .ok e := by
  obtain ⟨place, hle, hlt, hitem⟩ := itemAt_of_mem_entriesFrom he
  have hplace : u.header.start + e.offset = place := by
    rw [offset_of_itemAt hitem]
    omega
  have hholds : u.holds e.offset = true := by
    unfold holds
    rw [hplace, Bool.and_eq_true, decide_eq_true_eq, decide_eq_true_eq]
    exact ⟨hle, hlt⟩
  unfold typeEntry entryAt?
  rw [if_pos hholds, hplace]
  unfold bound firstFrom
  rw [if_neg (Nat.not_le.2 hlt), hitem]

/-- No two entries of the walk have one offset. -/
theorem eq_of_offset_eq {e' : Entry}
    (hentries : u.header.start ≤ u.header.entries) (he : e ∈ u.entries.1)
    (he' : e' ∈ u.entries.1) (h : e.offset = e'.offset) : e = e' := by
  have hfound := typeEntry_of_mem_entries hentries he
  rw [h, typeEntry_of_mem_entries hentries he'] at hfound
  exact (Except.ok.inj hfound).symm

-- ================================================================= types

/-- Behind the qualifiers there is an entry. -/
theorem typeEntry_of_unqualifiedWithin {bound handle : Nat}
    (h : (u.unqualifiedWithin bound handle).run.value = .ok offset) :
    ∃ e, u.typeEntry offset = .ok e := by
  induction bound generalizing handle with
  | zero => cases h
  | succ bound ih =>
      unfold unqualifiedWithin at h
      rw [value_bind_eq_ok_iff] at h
      obtain ⟨e, he, h⟩ := h
      split at h
      case isTrue =>
        rw [value_bind_eq_ok_iff] at h
        obtain ⟨target, -, h⟩ := h
        cases target with
        | none => cases h
        | some target => exact ih h
      case isFalse =>
        cases h
        exact ⟨e, he⟩

theorem toNat_of_idAt (h : (u.idAt offset).value = some id) :
    id.toNat = u.header.start + offset := by
  unfold idAt at h
  dsimp only at h
  split at h
  case isTrue hlt =>
    cases h
    exact UInt32.toNat_ofNat_of_lt' hlt
  case isFalse => cases h

/-- The id of a handle is that of the offset behind its qualifiers. -/
theorem typeId_eq_some_iff {handle : Nat} :
    (u.typeId handle).value = some id
      ↔ ∃ offset, (u.unqualified handle).run.value = .ok offset
        ∧ (u.idAt offset).value = some id := by
  unfold typeId
  rw [Logged.value_bind]
  cases (u.unqualified handle).run.value with
  | error e => exact ⟨nofun, nofun⟩
  | ok offset =>
      constructor
      · exact fun h => ⟨offset, rfl, h⟩
      · rintro ⟨_, ⟨⟩, h⟩
        exact h

end Unit

-- ================================================================== ids

/-- The ids of a unit: the places in its part of the section. -/
def UnitHeader.Covers (header : UnitHeader) (id : UInt32) : Prop :=
  header.start ≤ id.toNat ∧ id.toNat < header.stop

/-- Of two units, the one behind has none of the ids of the other. -/
theorem UnitHeader.not_covers {a b : UnitHeader} (h : a.stop ≤ b.start)
    {id : UInt32} (ha : a.Covers id) : ¬ b.Covers id := by
  unfold Covers at *
  omega

namespace Unit

variable {u : Unit} {id : UInt32}

/-- The types of a unit have ids of the unit. -/
theorem covers_of_typeId {handle : Nat}
    (h : (u.typeId handle).value = some id) : u.header.Covers id := by
  obtain ⟨offset, hoffset, hid⟩ := typeId_eq_some_iff.1 h
  obtain ⟨e, he⟩ := typeEntry_of_unqualifiedWithin hoffset
  have hholds := holds_of_typeEntry he
  unfold holds at hholds
  rw [Bool.and_eq_true, decide_eq_true_eq, decide_eq_true_eq] at hholds
  unfold UnitHeader.Covers
  rw [toNat_of_idAt hid]
  omega

/-- An entry of a unit has an id of the unit, if it has one. -/
theorem covers_of_mem_entries {e : Entry}
    (hnonempty : u.header.start < u.header.stop) (he : e ∈ u.entries.1)
    (h : (u.idAt e.offset).value = some id) : u.header.Covers id := by
  obtain ⟨place, -, hplace, hitem⟩ := itemAt_of_mem_entriesFrom he
  unfold UnitHeader.Covers
  rw [toNat_of_idAt h, offset_of_itemAt hitem]
  omega

end Unit

end SymbolGraph.Dwarf
