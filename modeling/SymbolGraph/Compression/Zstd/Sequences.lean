/-
The sequences of a block: how many literals to take, and what to copy after
them from what went before. The three parts of a sequence have codes of
their own, whose states share one run of bits.
-/
import SymbolGraph.Compression.FiniteState

namespace SymbolGraph.Compression.Zstd

-- ============================================================== tables

/-- What a symbol stands for: a least value and a number of extra bits. -/
def literalLengths : List (Nat × Nat) :=
  (List.range 16).map (·, 0) ++ [
    (16, 1), (18, 1), (20, 1), (22, 1), (24, 2), (28, 2), (32, 3), (40, 3),
    (48, 4), (64, 6), (128, 7), (256, 8), (512, 9), (1024, 10), (2048, 11),
    (4096, 12), (8192, 13), (16384, 14), (32768, 15), (65536, 16)]

def copyLengths : List (Nat × Nat) :=
  (List.range 32).map (fun n => (n + 3, 0)) ++ [
    (35, 1), (37, 1), (39, 1), (41, 1), (43, 2), (47, 2), (51, 3), (59, 3),
    (67, 4), (83, 4), (99, 5), (131, 7), (259, 8), (515, 9), (1027, 10),
    (2051, 11), (4099, 12), (8195, 13), (16387, 14), (32771, 15),
    (65539, 16)]

/-- The weights of the codes for blocks that name none. -/
def literalWeights : List Int := [
  4, 3, 2, 2, 2, 2, 2, 2, 2, 2, 2, 2, 2, 1, 1, 1, 2, 2, 2, 2, 2, 2, 2, 2, 2,
  3, 2, 1, 1, 1, 1, 1, -1, -1, -1, -1]

def copyWeights : List Int :=
  [1, 4, 3, 2, 2, 2, 2, 2, 2] ++ List.replicate 37 1 ++ List.replicate 7 (-1)

def offsetWeights : List Int :=
  List.replicate 6 1 ++ [2, 2, 2] ++ List.replicate 15 1
    ++ List.replicate 5 (-1)

/-- A part of a sequence: its code where none is named, the greatest
accuracy of a table, and how many symbols there are. -/
structure Part where
  standard : StateTable
  maxAccuracy : Nat
  symbols : Nat

def literalPart : Part :=
  { standard := .ofWeights 6 literalWeights, maxAccuracy := 9, symbols := 36 }

def offsetPart : Part :=
  { standard := .ofWeights 5 offsetWeights, maxAccuracy := 8, symbols := 32 }

def copyPart : Part :=
  { standard := .ofWeights 6 copyWeights, maxAccuracy := 9, symbols := 53 }

-- =============================================================== codes

/-- The codes of the three parts, as far as they are known. -/
structure Codes where
  literal : Option StateTable := none
  offset : Option StateTable := none
  copy : Option StateTable := none

/-- The code of a part in one of four modes: the standard one, a single
symbol, one that is described here, or that of the block before. -/
def code? (part : Part) (mode : Nat) (known : Option StateTable)
    (data : ByteArray) (place : Nat) : Option (StateTable × Nat) := do
  if mode = 0 then return (part.standard, place)
  else if mode = 1 then
    let symbol := (← Bytes.octet? data place).toNat
    if part.symbols ≤ symbol then none
    else return (.single symbol, place + 1)
  else if mode = 2 then
    StateTable.read? data place part.maxAccuracy part.symbols
  else return (← known, place)

-- =========================================================== sequences

structure Sequence where
  literals : Nat
  /-- An offset, or the number of one of the latest offsets. -/
  offset : Nat
  length : Nat

/-- A value and its extra bits. -/
def extended? (table : List (Nat × Nat)) (symbol : Nat) (b : BackBits) :
    Option (Nat × BackBits) := do
  let (least, extra) ← table[symbol]?
  let (more, b) := b.take extra
  return (least + more, b)

/-- The states of the three codes. -/
structure States where
  literal : Nat
  offset : Nat
  copy : Nat

/-- The sequences out of a run of bits, which they must use up. -/
def sequencesFrom? (literal offset copy : StateTable) :
    Nat → States → BackBits → Option (List Sequence)
  | 0, _, b => if b.left = 0 then some [] else none
  | n + 1, s, b => do
    let width := (offset.cell s.offset).symbol
    let (more, b) := b.take width
    let (length, b) ← extended? copyLengths (copy.cell s.copy).symbol b
    let (literals, b) ←
      extended? literalLengths (literal.cell s.literal).symbol b
    let found : Sequence :=
      { literals, offset := Nat.pow 2 width + more, length }
    if b.left < 0 then none
    else if n = 0 then
      return found :: (← sequencesFrom? literal offset copy n s b)
    else
      let (nextLiteral, b) := literal.next s.literal b
      let (nextCopy, b) := copy.next s.copy b
      let (nextOffset, b) := offset.next s.offset b
      if b.left < 0 then none
      else
        let s : States :=
          { literal := nextLiteral, offset := nextOffset, copy := nextCopy }
        return found :: (← sequencesFrom? literal offset copy n s b)

/-- The number of sequences, and the place behind it. -/
def count? (data : ByteArray) (place : Nat) : Option (Nat × Nat) := do
  let head := (← Bytes.octet? data place).toNat
  if head < 128 then return (head, place + 1)
  else if head < 255 then
    let low := (← Bytes.octet? data (place + 1)).toNat
    return ((head - 128) * 256 + low, place + 2)
  else return ((← Bytes.number? .little data (place + 1) 2) + 0x7f00, place + 3)

/-- The sequences from a place to the end of a block, and the codes that the
block leaves to later ones. -/
def sequences? (data : ByteArray) (place : Nat) (known : Codes) :
    Option (List Sequence × Codes) := do
  let (count, place) ← count? data place
  if count = 0 then
    if place = data.size then return ([], known) else none
  else
    let modes := (← Bytes.octet? data place).toNat
    if modes % 4 ≠ 0 then none
    else
      let (literal, place) ←
        code? literalPart (modes / 64) known.literal data (place + 1)
      let (offset, place) ←
        code? offsetPart (modes / 16 % 4) known.offset data place
      let (copy, place) ← code? copyPart (modes / 4 % 4) known.copy data place
      let b ← BackBits.ofOctets? (data.extract place data.size)
      let (literalState, b) := literal.start b
      let (offsetState, b) := offset.start b
      let (copyState, b) := copy.start b
      let s : States :=
        { literal := literalState, offset := offsetState, copy := copyState }
      let list ← sequencesFrom? literal offset copy count s b
      return (list, {
        literal := some literal, offset := some offset, copy := some copy })

end SymbolGraph.Compression.Zstd
