/-
The literals of a block: octets that are stored as they are, or one octet
over and over, or codewords of a code that the block brings along or that
an earlier block brought.
-/
import SymbolGraph.Compression.FiniteState

namespace SymbolGraph.Compression.Zstd

-- ================================================================ code

/-- A code for literals: for each number of the longest codeword's width,
the symbol whose codeword it begins with and the length of that. -/
structure LiteralCode where
  width : Nat
  cells : Array (Nat × Nat)

/-- The longest codeword. -/
def maxWidth : Nat := 11

/-- The symbols that begin with weight `w`, each with its cells. -/
def cellsOfWeight (width : Nat) (weights : List Nat) (w : Nat) :
    List (Nat × Nat) :=
  weights.zipIdx.flatMap fun (weight, symbol) =>
    if weight = w then
      List.replicate (Nat.pow 2 (w - 1)) (symbol, width + 1 - w)
    else []

/-- How many cells a weight stands for. -/
def cellsOf (weight : Nat) : Nat := if weight = 0 then 0 else Nat.pow 2 (weight - 1)

/-- The code of some weights. The last symbol's weight is not stored: it
fills the table. -/
def LiteralCode.ofWeights? (weights : List Nat) : Option LiteralCode :=
  let sum := weights.foldl (fun n weight => n + cellsOf weight) 0
  let width := sum.log2 + 1
  let rest := Nat.pow 2 width - sum
  if sum = 0 ∨ maxWidth < width ∨ Nat.pow 2 rest.log2 ≠ rest then none
  else
    let weights := weights ++ [rest.log2 + 1]
    let cells := (List.range width).flatMap fun n =>
      cellsOfWeight width weights (n + 1)
    some { width, cells := cells.toArray }

/-- Weights under a finite state code with two states that take turns. It
ends when there are not enough bits for a next state; the other state then
yields the last weight. The list is kept backwards. -/
def codedWeights? (t : StateTable) :
    Nat → Nat → Nat → BackBits → List Nat → Option (List Nat)
  | 0, _, _, _, _ => none
  | fuel + 1, state, other, b, found =>
    let found := (t.cell state).symbol :: found
    let (next, b) := t.next state b
    if b.left < 0 then some ((t.cell other).symbol :: found).reverse
    else codedWeights? t fuel other next b found

/-- The greatest number of stored weights. -/
def maxWeights : Nat := 255

/-- Two weights of four bits each out of an octet. -/
def halves (octet : UInt8) : List Nat := [octet.toNat / 16, octet.toNat % 16]

/-- Reads a code; answers the place behind it. -/
def LiteralCode.read? (data : ByteArray) (place : Nat) :
    Option (LiteralCode × Nat) := do
  let head := (← Bytes.octet? data place).toNat
  if head < 128 then
    let octets ← Bytes.range? data (place + 1) head
    let (table, behind) ← StateTable.read? octets 0 6 256
    let b ← BackBits.ofOctets? (octets.extract behind octets.size)
    let (first, b) := table.start b
    let (second, b) := table.start b
    if b.left < 0 then none
    else
      let weights ← codedWeights? table (maxWeights + 1) first second b []
      if maxWeights < weights.length then none
      else return (← ofWeights? weights, place + 1 + head)
  else
    let count := head - 127
    let octets ← Bytes.range? data (place + 1) ((count + 1) / 2)
    let weights := (octets.data.toList.flatMap halves).take count
    return (← ofWeights? weights, place + 1 + (count + 1) / 2)

-- ============================================================= streams

/-- The octets of one stream of codewords, which must end where the stream
does. -/
def stream? (code : LiteralCode) :
    Nat → BackBits → ByteArray → Option ByteArray
  | 0, b, out => if b.left = 0 then some out else none
  | n + 1, b, out => do
    let (symbol, length) ← code.cells[b.peek code.width]?
    let b := b.skip length
    if b.left < 0 then none
    else stream? code n b (out.push symbol.toUInt8)

/-- Some octets out of a stream that lies in some others. -/
def streamIn? (code : LiteralCode) (octets : ByteArray) (count : Nat)
    (out : ByteArray) : Option ByteArray := do
  stream? code count (← BackBits.ofOctets? octets) out

/-- Four streams behind the lengths of the first three. -/
def fourStreams? (code : LiteralCode) (octets : ByteArray) (count : Nat) :
    Option ByteArray := do
  let a ← Bytes.number? .little octets 0 2
  let b ← Bytes.number? .little octets 2 2
  let c ← Bytes.number? .little octets 4 2
  let part := (count + 3) / 4
  if count < 3 * part then none
  else
    let out ← streamIn? code (← Bytes.range? octets 6 a) part ByteArray.empty
    let out ← streamIn? code (← Bytes.range? octets (6 + a) b) part out
    let out ← streamIn? code (← Bytes.range? octets (6 + a + b) c) part out
    let start := 6 + a + b + c
    if octets.size < start then none
    else
      streamIn? code (octets.extract start octets.size) (count - 3 * part) out

-- ============================================================ literals

/-- The literals of a block, with what the block leaves to later ones. -/
structure Literals where
  octets : ByteArray
  code : Option LiteralCode
  /-- The place behind the literals. -/
  behind : Nat

/-- The width of the header, and the number that its bits behind the first
four are. -/
def header? (data : ByteArray) (width : Nat) : Option Nat :=
  (Bytes.number? .little data 0 width).map (· / 16)

/-- Literals that are not coded. -/
def plain? (data : ByteArray) (repeated : Bool) (size width : Nat)
    (code : Option LiteralCode) : Option Literals := do
  if repeated then
    let octet ← Bytes.octet? data width
    return {
      octets := ⟨Array.replicate size octet⟩, code, behind := width + 1 }
  else
    return {
      octets := ← Bytes.range? data width size, code, behind := width + size }

/-- Coded literals; `known` is the code of an earlier block. -/
def coded? (data : ByteArray) (own single : Bool)
    (size packed width : Nat) (known : Option LiteralCode) :
    Option Literals := do
  let all ← Bytes.range? data width packed
  let (code, start) ← if own then LiteralCode.read? all 0 else known.map (·, 0)
  let octets := all.extract start all.size
  let out ←
    if single then streamIn? code octets size ByteArray.empty
    else fourStreams? code octets size
  return { octets := out, code := some code, behind := width + packed }

/-- The literals at the beginning of a block. -/
def literals? (data : ByteArray) (known : Option LiteralCode) :
    Option Literals := do
  let head := (← Bytes.octet? data 0).toNat
  let type := head % 4
  let form := head / 4 % 4
  if type < 2 then
    let repeated := type = 1
    if form = 1 then plain? data repeated (← header? data 2) 2 known
    else if form = 3 then plain? data repeated (← header? data 3) 3 known
    else plain? data repeated (head / 8) 1 known
  else
    let width := if form < 2 then 3 else form + 2
    let bits := if form < 2 then 10 else if form = 2 then 14 else 18
    let n ← header? data width
    let size := n % Nat.pow 2 bits
    let packed := n / Nat.pow 2 bits
    coded? data (type = 2) (form = 0) size packed width known

end SymbolGraph.Compression.Zstd
