/-
Members that share storage. Adjacent fields at one offset overlap, so the
source text had an anonymous union there. Each maximal block of two or
more such fields gets a union id of its own, counted from 0 within the
type. A placeholder belongs to no block and ends the one before it.
-/
import SymbolGraph.Symbol

namespace SymbolGraph.AnonymousUnion

/-- Do two adjacent fields stand at one offset? -/
def overlap (a b : Field) : Bool :=
  !a.isPlaceholder && !b.isPlaceholder && a.offset == b.offset

/-- The maximal blocks of adjacent overlapping fields, singletons and
placeholders included. -/
def blocks (fields : List Field) : List (List Field) := fields.splitBy overlap

/-- Gives the blocks of two or more fields their numbers, from `next` on. -/
def number (next : UInt32) : List (List Field) → List Field
  | [] => []
  | block :: rest =>
    if block.length < 2 then block ++ number next rest
    else
      block.map (fun f => { f with inAnonymousUnion := true, unionId := next })
        ++ number (next + 1) rest

/-- Marks the members that share an offset with a neighbour. -/
def mark (fields : List Field) : List Field := number 0 (blocks fields)

end SymbolGraph.AnonymousUnion
