/-
Units: stretches of the debug information with a header, abbreviations and
a tree of entries, stored in preorder with a null entry behind the last
child of each entry.

An entry is read with all its attributes. Those that can be read are kept,
with the place behind them or the fault that stopped the reading, so that
looking up an attribute in front of a fault succeeds and anything behind it
meets the fault.
-/
import SymbolGraph.Dwarf.Abbreviation
import SymbolGraph.Dwarf.Value

namespace SymbolGraph.Dwarf

/-- The sections of debug information. -/
structure Sections where
  order : ByteOrder
  abbreviations : ByteArray
  addr : ByteArray
  info : ByteArray
  line : ByteArray
  lineStr : ByteArray
  str : ByteArray
  strOffsets : ByteArray
  ranges : ByteArray
  rnglists : ByteArray

def Sections.region (s : Sections) (data : ByteArray) : Region :=
  .whole data s.order

-- ============================================================= headers

/-- The header of a unit; places are counted from the start of the section
of debug information. -/
structure UnitHeader where
  start : Nat
  encoding : Encoding
  abbrevOffset : Nat
  /-- The place of the first entry. -/
  entries : Nat
  /-- The place behind the last entry. -/
  stop : Nat

/-- What a unit of a type has in its header besides, in octets. -/
def extraOctets (type : Nat) (wide : Bool) : Except Fault Nat :=
  if type = 1 ∨ type = 3 then .ok 0
  else if type = 2 ∨ type = 6 then .ok (8 + if wide then 8 else 4)
  else if type = 4 ∨ type = 5 then .ok 8
  else .error .unitType

/-- The header of the unit at hand, which is passed over with its entries. -/
def readHeader (info : Region) : Scan UnitHeader := do
  let start ← get
  let (length, wide) ← Scan.initialLength info
  let body ← get
  let r ← Scan.split info length
  let stop ← get
  set body
  let version ← Scan.u16 r
  if 2 ≤ version ∧ version ≤ 4 then
    let abbrevOffset ← Scan.offset r wide
    let addressSize ← Scan.addressSize r
    let entries ← get
    set stop
    return {
      start, stop, entries, abbrevOffset
      encoding := { version, addressSize, wide } }
  else if version = 5 then
    let type ← Scan.u8 r
    let addressSize ← Scan.addressSize r
    let abbrevOffset ← Scan.offset r wide
    let extra ← (extraOctets type wide : Except Fault Nat)
    Scan.skip r extra
    let entries ← get
    set stop
    return {
      start, stop, entries, abbrevOffset
      encoding := { version, addressSize, wide } }
  else throw .version

/-- The headers of all units from a place on, up to a fault. -/
def headersFrom (info : Region) : Nat → Nat → List UnitHeader × Option Fault
  | 0, _ => ([], none)
  | fuel + 1, place =>
    if info.stop ≤ place then ([], none)
    else
      match (readHeader info).run place with
      | .error fault => ([], some fault)
      | .ok (header, next) =>
        let (rest, fault) := headersFrom info fuel next
        (header :: rest, fault)

def unitHeaders (s : Sections) : List UnitHeader × Option Fault :=
  headersFrom (s.region s.info) (s.info.size + 1) 0

-- ============================================================= entries

/-- An entry of a unit. -/
structure Entry where
  /-- Its place in the unit. -/
  offset : Nat
  tag : Nat
  hasChildren : Bool
  /-- The attributes up to the first that cannot be read. -/
  attributes : List (Nat × Value)
  /-- The place behind the attributes, or why there is none. -/
  next : Except Fault Nat

/-- The value of an attribute. -/
def Entry.attribute? (e : Entry) (name : Nat) : Except Fault (Option Value) :=
  match e.attributes.lookup name with
  | some v => .ok (some v)
  | none => e.next.map fun _ => none

/-- The value of an attribute that can be read. -/
def Entry.readable? (e : Entry) (name : Nat) : Option Value :=
  e.attributes.lookup name

/-- A unit whose abbreviations have been read. -/
structure Unit where
  sections : Sections
  header : UnitHeader
  abbreviations : List Abbreviation
  strOffsetsBase : Nat := 0
  addrBase : Nat := 0
  rnglistsBase : Nat := 0
  /-- The base of range lists. -/
  lowPc : Nat := 0

namespace Unit

def encoding (u : Unit) : Encoding := u.header.encoding

def region (u : Unit) : Region :=
  { data := u.sections.info, order := u.sections.order, stop := u.header.stop }

/-- The attributes of an entry, from a place on. -/
def readAttributes (u : Unit) :
    List AttributeSpec → Nat → List (Nat × Value) × Except Fault Nat
  | [], place => ([], .ok place)
  | a :: rest, place =>
    match (value u.region u.encoding a.name a.constant a.form).run place with
    | .error fault => ([], .error fault)
    | .ok (v, place) =>
      let (vs, next) := u.readAttributes rest place
      ((a.name, v) :: vs, next)

/-- What stands at a place of the unit. -/
inductive Item where
  /-- The mark behind the last child, and the place behind it. -/
  | null (next : Nat)
  | entry (entry : Entry)

/-- Reads what stands at a place. -/
def itemAt (u : Unit) (place : Nat) : Except Fault Item := do
  let (code, next) ← (Scan.unsigned u.region).run place
  if code = 0 then return .null next
  match u.abbreviations.find? fun a => a.code = code with
  | none => throw .unknownAbbreviation
  | some a =>
    let (attributes, next) := u.readAttributes a.attributes next
    return .entry {
      offset := place - u.header.start, tag := a.tag
      hasChildren := a.hasChildren, attributes, next }

-- ================================================================ walk

/-- The first entry at or behind a place; null entries are passed over. -/
def firstFrom (u : Unit) : Nat → Nat → Except Fault (Option Entry)
  | 0, _ => .ok none
  | fuel + 1, place =>
    if u.header.stop ≤ place then .ok none
    else
      match u.itemAt place with
      | .error fault => .error fault
      | .ok (.null next) => u.firstFrom fuel next
      | .ok (.entry e) => .ok (some e)

/-- A bound for the number of items of the unit. -/
def bound (u : Unit) : Nat := u.header.stop - u.header.start + 1

/-- The entries from a place on, up to a fault. -/
def entriesFrom (u : Unit) : Nat → Nat → List Entry × Option Fault
  | 0, _ => ([], none)
  | fuel + 1, place =>
    match u.firstFrom u.bound place with
    | .error fault => ([], some fault)
    | .ok none => ([], none)
    | .ok (some e) =>
      match e.next with
      | .error fault => ([e], some fault)
      | .ok next =>
        let (rest, fault) := u.entriesFrom fuel next
        (e :: rest, fault)

/-- All entries in the order of the file, up to a fault. -/
def entries (u : Unit) : List Entry × Option Fault :=
  u.entriesFrom u.bound u.header.entries

-- ============================================================= look-up

/-- Does an offset lie among the entries of the unit? -/
def holds (u : Unit) (offset : Nat) : Bool :=
  u.header.entries ≤ u.header.start + offset
    && u.header.start + offset < u.header.stop

/-- The entry at an offset, or the first one behind it if a null entry
stands there. -/
def entryAt? (u : Unit) (offset : Nat) : Except Fault (Option Entry) :=
  if u.holds offset then u.firstFrom u.bound (u.header.start + offset)
  else .error .offsetOutOfBounds

-- ============================================================ children

/-- The place of an entry's next sibling as the entry itself gives it. -/
def siblingPlace? (u : Unit) (e : Entry) : Option Nat :=
  match e.readable? Attr.sibling with
  | some (.unitReference offset) =>
    if e.offset < offset && u.holds offset then some (u.header.start + offset)
    else none
  | _ => none

/-- Where to go on behind an item, and how many levels below the level
wanted. A subtree is passed over at once if the entry names its sibling. -/
def behind (u : Unit) (item : Item) (depth : Nat) : Except Fault (Nat × Nat) :=
  match item with
  | .null next => .ok (next, depth - 1)
  | .entry e =>
    if e.hasChildren then
      match u.siblingPlace? e with
      | some place => .ok (place, depth)
      | none => e.next.map fun next => (next, depth + 1)
    else e.next.map fun next => (next, depth)

/-- The entry behind an item's subtree at the level wanted. -/
def siblingFrom (u : Unit) : Nat → Item → Nat → Except Fault (Option Entry)
  | 0, _, _ => .ok none
  | fuel + 1, item, depth => do
    let (place, depth) ← u.behind item depth
    if u.header.stop ≤ place then return none
    let item ← u.itemAt place
    if depth = 0 then
      match item with
      | .null _ => return none
      | .entry e => return some e
    else u.siblingFrom fuel item depth

/-- An entry and its siblings behind it, up to a fault. -/
def siblings (u : Unit) : Nat → Entry → List Entry × Option Fault
  | 0, e => ([e], none)
  | fuel + 1, e =>
    match u.siblingFrom u.bound (.entry e) 0 with
    | .error fault => ([e], some fault)
    | .ok none => ([e], none)
    | .ok (some s) =>
      let (rest, fault) := u.siblings fuel s
      (e :: rest, fault)

/-- The first child of an entry. -/
def firstChild (u : Unit) (e : Entry) : Except Fault (Option Entry) := do
  if !e.hasChildren then return none
  let place ← e.next
  if u.header.stop ≤ place then return none
  match ← u.itemAt place with
  | .null _ => return none
  | .entry child => return some child

/-- The children of the entry at an offset, up to a fault. There must be an
entry at that very offset. -/
def children (u : Unit) (offset : Nat) : List Entry × Option Fault :=
  if !u.holds offset then ([], some .offsetOutOfBounds)
  else
    match u.itemAt (u.header.start + offset) with
    | .error fault => ([], some fault)
    | .ok (.null _) => ([], some .unexpectedNull)
    | .ok (.entry e) =>
      match u.firstChild e with
      | .error fault => ([], some fault)
      | .ok none => ([], none)
      | .ok (some child) => u.siblings u.bound child

-- =============================================================== texts

/-- The text at an offset of a section. -/
def textAt? (u : Unit) (data : ByteArray) (offset : Nat) :
    Option (List UInt8) :=
  ((Scan.text (u.sections.region data)).run offset).toOption.map Prod.fst

/-- An offset out of a table of them. -/
def offsetAt (u : Unit) (table : ByteArray) (base index : Nat) :
    Except Fault Nat :=
  let place := base + index * u.encoding.offsetSize
  ((Scan.offset (u.sections.region table) u.encoding.wide).run place).map
    Prod.fst

/-- The octets of a text value. -/
def text? (u : Unit) : Value → Option (List UInt8)
  | .text octets => some octets
  | .textOffset offset => u.textAt? u.sections.str offset
  | .lineTextOffset offset => u.textAt? u.sections.lineStr offset
  | .textIndex index => do
    let offset ←
      (u.offsetAt u.sections.strOffsets u.strOffsetsBase index).toOption
    u.textAt? u.sections.str offset
  | _ => none

-- =========================================================== addresses

/-- An address out of the table of addresses. -/
def addressAt (u : Unit) (index : Nat) : Except Fault Nat :=
  let size := u.encoding.addressSize
  ((Scan.number (u.sections.region u.sections.addr) size).run
    (u.addrBase + index * size)).map Prod.fst

/-- The address that a value stands for; none if it stands for none. -/
def address? (u : Unit) : Value → Except Fault (Option Nat)
  | .address a => .ok (some a)
  | .addressIndex index => (u.addressAt index).map some
  | _ => .ok none

end Unit

end SymbolGraph.Dwarf
