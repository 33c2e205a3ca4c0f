/-
The graph of a file with DWARF debug information. Units are taken one
after another: first the types of a unit, then its functions. A unit that
cannot be made ready is left out; within a unit, each of the two walks ends
at its first fault, and what was built before stays. The ids of a unit are
places in its own part of the section, so units do not meet in the graph.
-/
import SymbolGraph.Build.Builder
import SymbolGraph.Dwarf.Functions
import SymbolGraph.Dwarf.Setup
import SymbolGraph.Object.Read

namespace SymbolGraph.Dwarf

open Build

-- ============================================================ sections

/-- The sections of debug information, in the order in which they are
read. -/
def sectionNames : List String := [
  ".debug_abbrev", ".debug_addr", ".debug_aranges", ".debug_info",
  ".debug_line", ".debug_line_str", ".debug_str", ".debug_str_offsets",
  ".debug_types", ".debug_loc", ".debug_loclists", ".debug_ranges",
  ".debug_rnglists"]

/-- The octets of a section; a section that is missing or broken is
empty. -/
def loadSection (data : ByteArray) (image : Object.Image) (name : String) :
    Logged ByteArray := do
  match image.section? name with
  | none => return ByteArray.empty
  | some s =>
    match s.body.read? data with
    | some octets => return octets
    | none =>
      Logged.warn s!"decompress section fail, section: {name}"
      return ByteArray.empty

/-- The sections of debug information of an object file. -/
def loadSections (data : ByteArray) (image : Object.Image) :
    Logged Sections := do
  let loaded ← sectionNames.mapM fun name => do
    return (name, ← loadSection data image name)
  let get (name : String) : ByteArray :=
    (loaded.lookup name).getD ByteArray.empty
  return {
    order := image.order
    abbreviations := get ".debug_abbrev"
    addr := get ".debug_addr"
    info := get ".debug_info"
    line := get ".debug_line"
    lineStr := get ".debug_line_str"
    str := get ".debug_str"
    strOffsets := get ".debug_str_offsets"
    ranges := get ".debug_ranges"
    rnglists := get ".debug_rnglists" }

-- =============================================================== units

namespace Unit

/-- Builds the type of an entry, if it is one and not only declared. A
declared type is built when something needs it. -/
def buildType (u : Unit) (e : Entry) : Step PUnit PUnit := do
  if Tag.isType e.tag && !e.isSet Attr.declaration then
    match ← Builder.type u.source e.offset with
    | .ok _ => return ()
    | .error fault =>
      let word := Text.column "skip type"
      let place := Text.hex8 e.offset
      let text := fault.message TypeFault.message
      Logged.debug s!"{word} {place}: {text}"

/-- Builds the types of a unit; answers the fault that ended the walk. -/
def buildTypes (u : Unit) : Step PUnit (Option Fault) := do
  let (entries, fault) := u.entries
  entries.forM u.buildType
  return fault

/-- Builds the functions of some entries and counts them. -/
def buildFunctionsOf (u : Unit) (machine : Machine) :
    Nat → List Entry → Step PUnit (Except Fault Nat)
  | count, [] => return .ok count
  | count, e :: rest => do
    match ← (u.function? machine e).run with
    | .error fault => return .error fault
    | .ok none => u.buildFunctionsOf machine count rest
    | .ok (some node) =>
      let _ ← Builder.function u.source node
      u.buildFunctionsOf machine (count + 1) rest

/-- Builds the functions of a unit; answers the fault that ended the
walk. -/
def buildFunctions (u : Unit) (machine : Machine) :
    Step PUnit (Option Fault) := do
  let (entries, fault) := u.entries
  match ← u.buildFunctionsOf machine 0 entries with
  | .error fault => return some fault
  | .ok count =>
    if fault.isNone then
      let word := Text.column "DONE"
      Logged.debug s!"{word} {count} functions"
    return fault

/-- Builds the types and the functions of the unit with a number. -/
def build (u : Unit) (machine : Machine) (number : Nat) :
    Step PUnit PUnit := do
  if let some fault ← u.buildTypes then
    let text := fault.message
    Logged.error s!"types of unit {number} are incomplete: {text}"
  if let some fault ← u.buildFunctions machine then
    let text := fault.message
    Logged.error s!"functions of unit {number} are incomplete: {text}"

end Unit

/-- Builds the unit of a header. -/
def buildUnit (s : Sections) (machine : Machine) (number : Nat)
    (header : UnitHeader) : Step PUnit PUnit := do
  Logged.debug s!"processing compilation unit {number}"
  match Unit.ofHeader s header with
  | .error fault =>
    let text := fault.message
    Logged.error s!"skip compilation unit {number}: {text}"
  | .ok u => u.build machine number

/-- Builds units, which are numbered from a number on. -/
def buildUnits (s : Sections) (machine : Machine) :
    Nat → List UnitHeader → Step PUnit PUnit
  | _, [] => return ()
  | number, header :: rest => do
    buildUnit s machine number header
    buildUnits s machine (number + 1) rest

-- =============================================================== graph

/-- The graph of the debug information in an object file. A unit header
that cannot be read leaves no graph. -/
def graphOf (data : ByteArray) (image : Object.Image) :
    Logged (Except Fault Graph) := do
  let sections ← loadSections data image
  Logged.debug "DWARF data load success"
  let (headers, fault) := unitHeaders sections
  let machine : Machine := {
    architecture := image.architecture, base := image.base }
  let start := Builder.new {
    origin := .dwarf, architecture := image.architecture }
  let (_, (builder, _)) ← (buildUnits sections machine 1 headers).run (start, ⟨⟩)
  match fault with
  | some fault => return .error fault
  | none =>
    let graph := builder.graph
    let units := headers.length
    let types := graph.types.size
    let functions := graph.functions.size
    Logged.info
      s!"processed {units} compilation units, extracted {types} types, {functions} functions"
    return .ok graph

end SymbolGraph.Dwarf
