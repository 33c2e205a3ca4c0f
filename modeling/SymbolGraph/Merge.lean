/-
Elimination of duplicate types.

Readers of debug information hand out one id per native record, so one
type can show up several times: once per compilation unit, or once as a
declaration and once as a definition. One pass keeps, of every group of
types with equal content, the one with the least key, drops the others and
redirects every reference to them. Merging two types can make the types
that refer to them equal, which only the next pass sees, so passes repeat
until one drops nothing.

A pass sorts the types into buckets by a digest of their content and
compares within a bucket only. The digest is a parameter: whatever it is,
types with equal content land in one bucket, and the comparison decides.
-/
import SymbolGraph.Graph
import SymbolGraph.Logged
import SymbolGraph.Text.Numeral

namespace SymbolGraph.Merge

-- ============================================================= buckets

/-- Kept types with their keys, by the digest of their content. -/
abbrev Buckets := List (UInt64 × List (UInt32 × TypeSymbol))

def Buckets.at (b : Buckets) (digest : UInt64) : List (UInt32 × TypeSymbol) :=
  (b.lookup digest).getD []

/-- Puts an entry at the end of the bucket of its digest. -/
def Buckets.add (digest : UInt64) (e : UInt32 × TypeSymbol) :
    Buckets → Buckets
  | [] => [(digest, [e])]
  | (d, es) :: rest =>
    if digest == d then (d, es ++ [e]) :: rest
    else (d, es) :: Buckets.add digest e rest

-- ============================================================ one scan

/-- The state of a scan through the types in key order. -/
structure Scan where
  kept : Buckets := []
  /-- The key of each dropped type with the key that stands in for it. -/
  dropped : List (UInt32 × UInt32) := []

/-- Looks at one type: it is dropped if an equal one has been kept. -/
def Scan.step (digest : Content → UInt64) (s : Scan)
    (e : UInt32 × TypeSymbol) : Logged Scan :=
  let d := digest e.2.content
  match (s.kept.at d).find? fun k => k.2.sameContent e.2 with
  | some k => do
    let word := Text.column "duplicate"
    let source := Text.hex8 e.1.toNat
    let target := Text.hex8 k.1.toNat
    Logged.trace s!"{word} {source} -> {target}: {e.2.name}"
    return { s with dropped := (e.1, k.1) :: s.dropped }
  | none => return { s with kept := s.kept.add d e }

/-- Looks at the entries one after another. -/
def Scan.run (digest : Content → UInt64) :
    List (UInt32 × TypeSymbol) → Scan → Logged Scan
  | [], s => return s
  | e :: rest, s => do Scan.run digest rest (← s.step digest e)

/-- The key that stands in for a reference: the survivor of a dropped
key, and every other number itself. -/
def redirect (dropped : List (UInt32 × UInt32)) (r : UInt32) : UInt32 :=
  (dropped.lookup r).getD r

-- ============================================================ one pass

/-- The graph without the dropped types, all references redirected. -/
def apply (dropped : List (UInt32 × UInt32)) (g : Graph) : Graph :=
  { g with
    types := (g.types.map (·.mapReferences (redirect dropped))).filterKeys
      fun k => (dropped.lookup k).isNone
    functions := g.functions.map (·.mapReferences (redirect dropped)) }

/-- Drops every type whose content equals that of a type with a lesser
key, and says how many were dropped. -/
def pass (digest : Content → UInt64) (g : Graph) : Logged (Graph × Nat) := do
  let scan ← Scan.run digest g.types.entries {}
  if scan.dropped.isEmpty then return (g, 0)
  let merged := apply scan.dropped g
  let count := scan.dropped.length
  Logged.debug
    s!"dedup pass removed {count} types, {merged.types.size} remain"
  return (merged, count)

-- =========================================================== all passes

/-- Passes until one drops nothing. A pass that does drop something
leaves a smaller table, which bounds their number. -/
def run (digest : Content → UInt64) (g : Graph) : Logged (Graph × Nat) :=
  let p := pass digest g
  if p.value.1.types.size < g.types.size then do
    let first ← p
    let rest ← run digest p.value.1
    return (rest.1, first.2 + rest.2)
  else return (g, 0)
termination_by g.types.size

end SymbolGraph.Merge

namespace SymbolGraph

/-- A digest of everything that decides whether two types are equal. -/
def Content.digest (c : Content) : UInt64 :=
  let field (h : UInt64) (f : FieldContent) : UInt64 :=
    let place := mixHash f.typeId.toUInt64 f.offset.toUInt32.toUInt64
    let union := mixHash (hash f.inAnonymousUnion) f.unionId.toUInt64
    mixHash (mixHash h (hash f.name)) (mixHash place union)
  let counts := mixHash c.fieldCount.toUInt64 c.aliasOf.toUInt64
  c.fields.foldl field (mixHash (mixHash c.length (hash c.name)) counts)

/-- One pass of the elimination of duplicates. -/
def Graph.mergePass (g : Graph) : Logged (Graph × Nat) :=
  Merge.pass Content.digest g

/-- Merges equal types until no two types of the graph are equal, and
says how many were dropped. -/
def Graph.merge (g : Graph) : Logged (Graph × Nat) :=
  Merge.run Content.digest g

end SymbolGraph
