/-
The stream of type records. Records are numbered from the minimal index on,
in the order of the stream. They are looked up by blocks of eight: a block
is known if the stream reaches as far as its first record, and an index
beyond the greatest one that the header gives is not looked up at all.
-/
import SymbolGraph.Pdb.TypeRecord

namespace SymbolGraph.Pdb

structure TypeTable where
  /-- The index of the first record. -/
  minimum : Nat := 0
  /-- The index behind the last record, as the header has it. -/
  maximum : Nat := 0
  /-- What each record holds, or why it cannot be read. -/
  records : Array (Except Fault TypeRecord) := #[]

namespace TypeTable

-- ============================================================= reading

/-- The records from a place on. -/
def readRecords (b : ByteArray) :
    Nat → Array (Except Fault TypeRecord) →
    Scan (Array (Except Fault TypeRecord))
  | 0, _ => throw .endOfInput
  | fuel + 1, found => do
    if ← Scan.atEnd b then return found
    let length ← Scan.u16 b
    if length < 2 then throw .typeTooShort
    let record ← Scan.take b length
    readRecords b fuel (found.push (TypeRecord.parse record))

def read (b : ByteArray) : Scan TypeTable := do
  Scan.skip b 4
  let headerSize ← Scan.u32 b
  let minimum ← Scan.u32 b
  let maximum ← Scan.u32 b
  Scan.skip b 40
  if headerSize < 56 then throw .typeHeaderSmall
  if 1024 < headerSize then throw .typeHeaderLarge
  Scan.skip b (headerSize - 56)
  if minimum < firstRecord.toNat then throw .minimumIndex
  if maximum < minimum then throw .maximumIndex
  let records ← readRecords b (b.size + 1) #[]
  return { minimum, maximum, records }

/-- The table in a stream; an empty stream holds an empty table. -/
def ofStream (b : ByteArray) : Except Fault TypeTable :=
  if b.isEmpty then .ok {} else (read b).result

-- ============================================================= look-up

/-- How many records a block has. -/
def blockSize : Nat := 8

/-- How many blocks are known. -/
def blocks (t : TypeTable) : Nat :=
  if t.minimum < t.maximum then t.records.size / blockSize + 1 else 0

/-- The greatest index in a block that is known. -/
def covered (t : TypeTable) : Nat :=
  if t.blocks = 0 then 0 else t.minimum + t.blocks * blockSize - 1

/-- The type of an index. -/
def find (t : TypeTable) (index : TypeIndex) : Except Fault TypeRecord :=
  let n := index.toNat
  if n < t.minimum then
    if index.isPrimitive then (PrimitiveType.ofIndex index).map .primitive
    else .error (.typeKind 0xffff)
  else if t.maximum < n then .error (.typeNotFound n)
  else if (n - t.minimum) / blockSize < t.blocks then
    (t.records[n - t.minimum]?).getD (.error .endOfInput)
  else .error (.typeNotIndexed n t.covered)

/-- The indices of the records, with what they hold. -/
def entries (t : TypeTable) : List (TypeIndex × Except Fault TypeRecord) :=
  t.records.toList.zipIdx.map fun (record, i) =>
    (UInt32.ofNat (t.minimum + i), record)

end TypeTable

end SymbolGraph.Pdb
