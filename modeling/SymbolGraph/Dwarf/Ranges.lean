/-
Range lists: where the code of an entry that is not in one piece lies. Only
the beginning of the first range counts. Ranges that are empty, and ranges
whose beginning is the address that a linker puts in place of removed code,
are passed over.
-/
import SymbolGraph.Dwarf.Unit

namespace SymbolGraph.Dwarf.Ranges

/-- The greatest address. -/
def highest (u : Unit) : Nat := Nat.pow 256 u.encoding.addressSize - 1

/-- The address of removed code. -/
def removed (u : Unit) : Nat :=
  if u.encoding.version ≤ 4 then highest u - 1 else highest u

/-- A sum of addresses, which wraps. -/
def plus (u : Unit) (a b : Nat) : Nat := (a + b) % (highest u + 1)

/-- An entry of a range list. -/
inductive Item where
  | stop
  | base (address : Nat)
  /-- Both ends are counted from the base. -/
  | relative (first last : Nat)
  | absolute (first last : Nat)

/-- An entry in the older form: a pair of addresses. -/
def oldItem (u : Unit) (r : Region) : Scan Item := do
  let size := u.encoding.addressSize
  let first ← Scan.number r size
  let last ← Scan.number r size
  if first = 0 ∧ last = 0 then return .stop
  else if first = highest u then return .base last
  else return .relative first last

/-- An entry in the newer form: a mark and what it calls for. An address
that stands in the table of addresses must be there. -/
def newItem (u : Unit) (r : Region) : Scan Item := do
  let address : Scan Nat := Scan.number r u.encoding.addressSize
  let kind ← Scan.u8 r
  match kind with
  | 0 => return .stop
  | 1 =>
    let index ← Scan.unsigned r
    return .base (← (u.addressAt index : Except Fault Nat))
  | 2 =>
    let first ← Scan.unsigned r
    let last ← Scan.unsigned r
    return .absolute (← (u.addressAt first : Except Fault Nat))
      (← (u.addressAt last : Except Fault Nat))
  | 3 =>
    let index ← Scan.unsigned r
    let length ← Scan.unsigned r
    let first ← (u.addressAt index : Except Fault Nat)
    return .absolute first (plus u first length)
  | 4 => return .relative (← Scan.unsigned r) (← Scan.unsigned r)
  | 5 => return .base (← address)
  | 6 => return .absolute (← address) (← address)
  | 7 =>
    let first ← address
    return .absolute first (plus u first (← Scan.unsigned r))
  | _ => throw .rangeEntry

/-- The ends of a range, unless it is passed over. -/
def range? (u : Unit) (base : Nat) : Item → Option (Nat × Nat)
  | .relative first last =>
    if base = removed u then none
    else some (plus u base first, plus u base last)
  | .absolute first last => some (first, last)
  | _ => none

/-- Does a range hold code? -/
def counts (u : Unit) (range : Nat × Nat) : Bool :=
  range.1 ≠ removed u && range.1 < range.2

/-- The beginning of the first range of a list. -/
def firstFrom (u : Unit) (r : Region) : Nat → Nat → Scan (Option Nat)
  | 0, _ => return none
  | fuel + 1, base => do
    if r.stop ≤ (← get) then return none
    let item ← if u.encoding.version ≤ 4 then oldItem u r else newItem u r
    match item with
    | .stop => return none
    | .base address => firstFrom u r fuel address
    | item =>
      match (range? u base item).filter (counts u) with
      | some range => return some range.1
      | none => firstFrom u r fuel base

/-- The beginning of the first range of the list at an offset. -/
def firstAt (u : Unit) (offset : Nat) : Except Fault (Option Nat) :=
  let data :=
    if u.encoding.version ≤ 4 then u.sections.ranges else u.sections.rnglists
  let r := u.sections.region data
  if r.stop < offset then .error .endOfInput
  else ((firstFrom u r (r.stop + 1) u.lowPc).run offset).map Prod.fst

/-- The range list that a value stands for. -/
def listOffset? (u : Unit) : Value → Except Fault (Option Nat)
  | .sectionOffset offset => .ok (some offset)
  | .rangeIndex index => do
    let offset ← u.offsetAt u.sections.rnglists u.rnglistsBase index
    return some (u.rnglistsBase + offset)
  | _ => .ok none

/-- Goes through the attributes up to one that stands for a range list. The
end of the code is looked at on the way: it must be a constant or an
address. -/
def search (u : Unit) (next : Except Fault Nat) :
    List (Nat × Value) → Except Fault (Option Nat)
  | [] => next.map fun _ => none
  | (name, value) :: rest => do
    if name = Attr.highPc ∧ value.constant?.isNone then
      if (← u.address? value).isNone then throw .unsupportedForm
    if name = Attr.ranges then
      match ← listOffset? u value with
      | some offset => firstAt u offset
      | none => search u next rest
    else search u next rest

/-- The beginning of the code of an entry that has no address of its own. -/
def first (u : Unit) (e : Entry) : Except Fault (Option Nat) :=
  search u e.next e.attributes

end SymbolGraph.Dwarf.Ranges
