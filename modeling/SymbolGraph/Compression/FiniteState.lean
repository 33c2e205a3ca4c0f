/-
Finite state codes. A code is a table of states; each yields a symbol and
leads on to a state that some bits select. The table follows from weights:
a symbol has as many states as its weight says, and one with the least
weight, written -1, has a single state at the end of the table.
-/
import SymbolGraph.Compression.BackBits
import SymbolGraph.Compression.Bits

namespace SymbolGraph.Compression

/-- A state: its symbol, and the states that it leads on to. -/
structure StateCell where
  symbol : Nat
  /-- How many bits select the next state. -/
  bits : Nat
  /-- The first of the states that they select among. -/
  base : Nat

instance : Inhabited StateCell := ⟨⟨0, 0, 0⟩⟩

structure StateTable where
  /-- The table has two to this power states. -/
  accuracy : Nat
  cells : Array StateCell

namespace StateTable

-- ============================================================ building

/-- The symbols with a weight, each as often as `count` says. -/
def symbolsBy (count : Int → Nat) (weights : List Int) : List Nat :=
  weights.zipIdx.flatMap fun (weight, symbol) =>
    List.replicate (count weight) symbol

/-- The symbols of least weight. -/
def rare (weights : List Int) : List Nat :=
  symbolsBy (fun w => if w = -1 then 1 else 0) weights

/-- The places of the table in the order in which they are given away. -/
def walk (size : Nat) : List Nat :=
  let step := size / 2 + size / 8 + 3
  (List.range size).map fun k => k * step % size

/-- Each place of the table with its symbol. -/
def placed (size : Nat) (weights : List Int) : List (Nat × Nat) :=
  let rare := rare weights
  let common := symbolsBy Int.toNat weights
  let ends := (List.range rare.length).map fun k => size - 1 - k
  let free := (walk size).filter fun place => place < size - rare.length
  ends.zip rare ++ free.zip common

/-- The symbols of the table by place. -/
def symbols (size : Nat) (weights : List Int) : Array Nat :=
  (placed size weights).foldl (fun a p => a.setIfInBounds p.1 p.2)
    (Array.replicate size 0)

/-- The number that the first state of each symbol has. -/
def firstNumbers (weights : List Int) : Array Nat :=
  (weights.map fun w => if w = -1 then 1 else w.toNat).toArray

/-- The cells from the numbers of the next state of each symbol. -/
def cellsFrom (accuracy : Nat) :
    Array Nat → List Nat → List StateCell
  | _, [] => []
  | numbers, symbol :: rest =>
    let number := numbers.getD symbol 1
    let bits := accuracy - number.log2
    let cell : StateCell :=
      { symbol, bits, base := number * Nat.pow 2 bits - Nat.pow 2 accuracy }
    cell :: cellsFrom accuracy (numbers.setIfInBounds symbol (number + 1)) rest

/-- The table for some weights, which fill it. -/
def ofWeights (accuracy : Nat) (weights : List Int) : StateTable :=
  let symbols := symbols (Nat.pow 2 accuracy) weights
  { accuracy
    cells := (cellsFrom accuracy (firstNumbers weights) symbols.toList).toArray }

/-- The table with one state, which yields one symbol. -/
def single (symbol : Nat) : StateTable :=
  { accuracy := 0, cells := #[⟨symbol, 0, 0⟩] }

-- ========================================================= description

/-- One weight; `free` is how many states are still to be given away. Small
values take a bit less. -/
def weight? (free : Nat) (b : Bits) : Option (Int × Bits) := do
  let width := (free + 1).log2
  let spare := Nat.pow 2 (width + 1) - 1 - (free + 1)
  let (low, b) ← b.take? width
  if low < spare then return ((low : Int) - 1, b)
  else
    let (high, b) ← b.take? 1
    if high = 1 then
      return (((low + Nat.pow 2 width - spare : Nat) : Int) - 1, b)
    else return ((low : Int) - 1, b)

/-- How many weights of 0 follow on one of 0. -/
def zeros? : Nat → Bits → Option (Nat × Bits)
  | 0, _ => none
  | fuel + 1, b => do
    let (n, b) ← b.take? 2
    if n = 3 then
      let (more, b) ← zeros? fuel b
      return (3 + more, b)
    else return (n, b)

/-- The weights of a table; the list is kept backwards. -/
def weights? : Nat → Nat → Bits → List Int → Option (List Int × Bits)
  | 0, _, _, _ => none
  | fuel + 1, free, b, found => do
    if free = 0 then return (found.reverse, b)
    let (weight, b) ← weight? free b
    if free < weight.natAbs then none
    else if weight = 0 then
      let (n, b) ← zeros? (b.bound + 1) b
      weights? fuel free b (List.replicate (n + 1) 0 ++ found)
    else weights? fuel (free - weight.natAbs) b (weight :: found)

/-- Reads the description of a table that begins at an octet; answers the
table and the place of the octet behind. -/
def read? (data : ByteArray) (place maxAccuracy maxSymbols : Nat) :
    Option (StateTable × Nat) := do
  let start : Bits := { data, place := 8 * place }
  let (n, b) ← start.take? 4
  let accuracy := n + 5
  if maxAccuracy < accuracy then none
  else
    let (weights, b) ← weights? (b.bound + 1) (Nat.pow 2 accuracy) b []
    if maxSymbols < weights.length then none
    else return (ofWeights accuracy weights, b.octetPlace)

-- ============================================================ decoding

def cell (t : StateTable) (state : Nat) : StateCell := t.cells.getD state default

/-- The first state. -/
def start (t : StateTable) (b : BackBits) : Nat × BackBits := b.take t.accuracy

/-- The state behind a state. -/
def next (t : StateTable) (state : Nat) (b : BackBits) : Nat × BackBits :=
  let cell := t.cell state
  let (n, b) := b.take cell.bits
  (cell.base + n, b)

end StateTable

end SymbolGraph.Compression
