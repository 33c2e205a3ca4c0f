/-
The inverse of the deflate method: blocks of literal octets and of copies
of what went before, stored as they are or under canonical codes. The
result may not exceed a limit, so that a few octets cannot ask for more
memory than the caller expects.

Every symbol takes at least one bit, so the number of bits bounds every
loop.
-/
import SymbolGraph.Compression.Huffman

namespace SymbolGraph.Compression.Inflate

-- ============================================================== tables

/-- Least length and number of extra bits of a copy, by symbol from 257. -/
def lengthTable : List (Nat × Nat) := [
  (3, 0), (4, 0), (5, 0), (6, 0), (7, 0), (8, 0), (9, 0), (10, 0), (11, 1),
  (13, 1), (15, 1), (17, 1), (19, 2), (23, 2), (27, 2), (31, 2), (35, 3),
  (43, 3), (51, 3), (59, 3), (67, 4), (83, 4), (99, 4), (115, 4), (131, 5),
  (163, 5), (195, 5), (227, 5), (258, 0)]

/-- Least distance and number of extra bits of a copy, by symbol. -/
def distanceTable : List (Nat × Nat) := [
  (1, 0), (2, 0), (3, 0), (4, 0), (5, 1), (7, 1), (9, 2), (13, 2), (17, 3),
  (25, 3), (33, 4), (49, 4), (65, 5), (97, 5), (129, 6), (193, 6), (257, 7),
  (385, 7), (513, 8), (769, 8), (1025, 9), (1537, 9), (2049, 10),
  (3073, 10), (4097, 11), (6145, 11), (8193, 12), (12289, 12), (16385, 13),
  (24577, 13)]

/-- The order in which the lengths of the code for code lengths come. -/
def lengthOrder : List Nat :=
  [16, 17, 18, 0, 8, 7, 9, 6, 10, 5, 11, 4, 12, 3, 13, 2, 14, 1, 15]

/-- The codes of blocks that name none. -/
def fixedLengths : List Nat :=
  List.replicate 144 8 ++ List.replicate 112 9 ++ List.replicate 24 7
    ++ List.replicate 8 8

def fixedDistances : List Nat := List.replicate 30 5

-- ============================================================== copies

/-- Adds `n` octets, each a copy of the one `distance` places before. -/
def copy (out : ByteArray) (distance : Nat) : Nat → ByteArray
  | 0 => out
  | n + 1 =>
    copy (out.push ((Bytes.octet? out (out.size - distance)).getD 0))
      distance n

/-- The number that a symbol and its extra bits stand for. -/
def extended? (table : List (Nat × Nat)) (symbol : Nat) (b : Bits) :
    Option (Nat × Bits) := do
  let (least, extra) ← table[symbol]?
  let (more, b) ← b.take? extra
  return (least + more, b)

/-- The symbols of a block, up to the one that ends it. -/
def symbols? (limit : Nat) (literals distances : HuffmanCode) :
    Nat → Bits → ByteArray → Option (ByteArray × Bits)
  | 0, _, _ => none
  | fuel + 1, b, out => do
    let (symbol, b) ← literals.decode? b
    if limit < out.size then none
    else if symbol < 256 then
      symbols? limit literals distances fuel b (out.push symbol.toUInt8)
    else if symbol = 256 then return (out, b)
    else
      let (length, b) ← extended? lengthTable (symbol - 257) b
      let (symbol, b) ← distances.decode? b
      let (distance, b) ← extended? distanceTable symbol b
      if out.size < distance then none
      else
        symbols? limit literals distances fuel b (copy out distance length)

-- =============================================================== codes

/-- The lengths of the code for code lengths, as they are stored. -/
def storedLengths? : Nat → Bits → Option (List Nat × Bits)
  | 0, b => some ([], b)
  | n + 1, b => do
    let (length, b) ← b.take? 3
    let (rest, b) ← storedLengths? n b
    return (length :: rest, b)

/-- Code lengths under a code of their own, with runs; the list is kept
backwards. -/
def codeLengths? (code : HuffmanCode) (count : Nat) :
    Nat → Bits → List Nat → Option (List Nat × Bits)
  | 0, _, _ => none
  | fuel + 1, b, l => do
    if count < l.length then none
    else if l.length = count then return (l.reverse, b)
    else
      let (symbol, b) ← code.decode? b
      if symbol < 16 then codeLengths? code count fuel b (symbol :: l)
      else if symbol = 16 then
        let last ← l.head?
        let (more, b) ← b.take? 2
        codeLengths? code count fuel b (List.replicate (3 + more) last ++ l)
      else
        let (more, b) ← b.take? (if symbol = 17 then 3 else 7)
        let least := if symbol = 17 then 3 else 11
        codeLengths? code count fuel b (List.replicate (least + more) 0 ++ l)

/-- The two codes of a block that names its own. -/
def codes? (b : Bits) : Option (HuffmanCode × HuffmanCode × Bits) := do
  let (literals, b) ← b.take? 5
  let (distances, b) ← b.take? 5
  let (count, b) ← b.take? 4
  let (stored, b) ← storedLengths? (count + 4) b
  let pairs := lengthOrder.zip stored
  let lengths := (List.range 19).map fun n => (pairs.lookup n).getD 0
  let code ← HuffmanCode.ofLengths? lengths
  let (all, b) ←
    codeLengths? code (literals + 257 + distances + 1) (b.bound + 2) b []
  let literalCode ← HuffmanCode.ofLengths? (all.take (literals + 257))
  let distanceCode ← HuffmanCode.ofLengths? (all.drop (literals + 257))
  return (literalCode, distanceCode, b)

-- ============================================================== blocks

/-- A block that is stored as it is. -/
def stored? (b : Bits) (out : ByteArray) : Option (ByteArray × Bits) := do
  let place := b.octetPlace
  let length ← Bytes.number? .little b.data place 2
  let inverse ← Bytes.number? .little b.data (place + 2) 2
  if length + inverse ≠ 0xffff then none
  else
    let octets ← Bytes.range? b.data (place + 4) length
    return (out ++ octets, b.atOctet (place + 4 + length))

/-- One block after its mark. -/
def block? (limit type : Nat) (b : Bits) (out : ByteArray) :
    Option (ByteArray × Bits) := do
  if type = 0 then stored? b out
  else if type = 1 then
    let literals ← HuffmanCode.ofLengths? fixedLengths
    let distances : HuffmanCode :=
      { symbols := (List.range maxCodeLength).map fun n =>
          HuffmanCode.symbolsOf fixedDistances (n + 1) }
    symbols? limit literals distances (b.bound + 1) b out
  else if type = 2 then
    let (literals, distances, b) ← codes? b
    symbols? limit literals distances (b.bound + 1) b out
  else none

/-- All blocks up to the last. -/
def blocks? (limit : Nat) : Nat → Bits → ByteArray → Option (ByteArray × Bits)
  | 0, _, _ => none
  | fuel + 1, b, out => do
    let (last, b) ← b.take? 1
    let (type, b) ← b.take? 2
    let (out, b) ← block? limit type b out
    if limit < out.size then none
    else if last = 1 then return (out, b)
    else blocks? limit fuel b out

end SymbolGraph.Compression.Inflate

namespace SymbolGraph.Compression

-- =========================================================== zlib frame

/-- The two sums of the checksum over some octets. -/
def adlerFrom (data : ByteArray) : Nat → Nat → Nat × Nat → Nat × Nat
  | 0, _, sums => sums
  | n + 1, i, (a, b) =>
    let a := (a + ((Bytes.octet? data i).getD 0).toNat) % 65521
    adlerFrom data n (i + 1) (a, (b + a) % 65521)

def adler (data : ByteArray) : Nat :=
  let (a, b) := adlerFrom data data.size 0 (1, 0)
  b * 65536 + a

/-- The octets of a zlib stream that unpacks to exactly `size` octets. What
stands behind the stream does not matter. -/
def unzlib? (data : ByteArray) (size : Nat) : Option ByteArray := do
  let head ← Bytes.number? .big data 0 2
  let method := head / 256
  if head % 31 ≠ 0 ∨ method % 16 ≠ 8 ∨ 0x7f < method ∨ head / 32 % 2 = 1 then
    none
  else
    let start : Bits := { data, place := 16 }
    let (out, b) ← Inflate.blocks? size (start.bound + 1) start ByteArray.empty
    let sum ← Bytes.number? .big data b.octetPlace 4
    if out.size = size ∧ sum = adler out then return out else none

end SymbolGraph.Compression
