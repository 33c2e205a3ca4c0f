/-
Canonical codes. A code is given by the length of each symbol's codeword;
codewords of one length are consecutive numbers in the order of their
symbols, and longer ones follow on the shorter.
-/
import SymbolGraph.Compression.Bits

namespace SymbolGraph.Compression

/-- The longest codeword. -/
def maxCodeLength : Nat := 15

/-- A canonical code: for each length from 1 on, the symbols with a codeword
of that length, in order. -/
structure HuffmanCode where
  symbols : List (List Nat)

namespace HuffmanCode

/-- The symbols whose codewords have a length. -/
def symbolsOf (lengths : List Nat) (length : Nat) : List Nat :=
  (lengths.zipIdx.filter fun p => p.1 = length).map Prod.snd

/-- The codewords still free at a length, given those free at the length
before; none when there are too many codewords. -/
def free? : Int → List (List Nat) → Option Int
  | left, [] => some left
  | left, s :: rest =>
    let left := 2 * left - s.length
    if left < 0 then none else free? left rest

/-- The code of these lengths. Codewords must not be too many, and must be
all there are unless there is just one. -/
def ofLengths? (lengths : List Nat) : Option HuffmanCode :=
  let symbols := (List.range maxCodeLength).map fun n =>
    symbolsOf lengths (n + 1)
  match free? 1 symbols with
  | none => none
  | some left =>
    if left ≠ 0 ∧ 1 < (lengths.filter (· ≠ 0)).length then none
    else some { symbols }

/-- Reads bits until they are a codeword. `code` is the number read so far
and `first` the first codeword of the length at hand. -/
def decodeFrom (b : Bits) : Nat → Nat → List (List Nat) → Option (Nat × Bits)
  | _, _, [] => none
  | code, first, s :: rest => do
    let (bit, b) ← b.next?
    let code := 2 * code + bit
    let first := 2 * first
    match s[code - first]? with
    | some symbol => return (symbol, b)
    | none => decodeFrom b code (first + s.length) rest

/-- One symbol. -/
def decode? (h : HuffmanCode) (b : Bits) : Option (Nat × Bits) :=
  decodeFrom b 0 0 h.symbols

end HuffmanCode

end SymbolGraph.Compression
