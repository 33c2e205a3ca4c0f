/-
The container of a program database: a file cut into pages of one size,
whose streams are scattered over them. The directory tells the size and the
pages of each stream; the pages of the directory itself stand in pages that
the header lists. A page number is right if it is not 0 and not beyond the
number of pages. The directory is read when a stream is asked for.
-/
import SymbolGraph.Pdb.Scan

namespace SymbolGraph.Pdb

structure Container where
  data : ByteArray
  pageSize : Nat
  pageCount : Nat
  directorySize : Nat
  /-- The pages that list the pages of the directory. -/
  listPages : List Nat

namespace Container

-- ============================================================== header

def signature : List UInt8 :=
  Bytes.ascii "Microsoft C/C++ MSF 7.00\r\n\x1aDS" ++ [0, 0, 0]

/-- The signature of the older container with smaller pages. -/
def smallSignature : List UInt8 :=
  Bytes.ascii "Microsoft C/C++ program database 2.00\r\n\x1aJG"

/-- The header takes so much of the file, whatever the size of a page. -/
def headerSize : Nat := 4096

/-- How many pages hold some octets. -/
def pagesFor (pageSize octets : Nat) : Nat := (octets + pageSize - 1) / pageSize

/-- Is the size of a page one that containers may have? -/
def validPageSize (size : Nat) : Bool :=
  0x100 ≤ size && size ≤ 0x800000 && Nat.pow 2 size.log2 = size

/-- Some page numbers. -/
def pageNumbers (b : ByteArray) (pageCount : Nat) : Nat → Scan (List Nat)
  | 0 => return []
  | n + 1 => do
    let number ← Scan.u32 b
    if number = 0 ∨ pageCount < number then throw (.page number)
    return number :: (← pageNumbers b pageCount n)

def readHeader (data header : ByteArray) : Scan Container := do
  Scan.skip header 32
  let pageSize ← Scan.u32 header
  let _ ← Scan.u32 header
  let pageCount ← Scan.u32 header
  let directorySize ← Scan.u32 header
  let _ ← Scan.u32 header
  unless validPageSize pageSize do throw (.pageSize pageSize)
  let listSize := pagesFor pageSize directorySize * 4
  let listPages ←
    pageNumbers header pageCount (pagesFor pageSize listSize)
  return { data, pageSize, pageCount, directorySize, listPages }

/-- Opens a container; only its header is looked at. -/
def ofData (data : ByteArray) : Except Fault Container :=
  if data.size < headerSize then .error .unrecognized
  else if Bytes.standsAt data 0 signature then
    (readHeader data (data.extract 0 headerSize)).result
  else if Bytes.standsAt data 0 smallSignature then .error .smallContainer
  else .error .unrecognized

-- =============================================================== pages

/-- The octets of some pages, in order, up to a size. -/
def gather (c : Container) :
    List Nat → Nat → ByteArray → Except Fault ByteArray
  | [], _, out => .ok out
  | page :: rest, size, out =>
    let start := page * c.pageSize
    let length := min size c.pageSize
    if length = 0 then .ok out
    else if start + length ≤ c.data.size then
      gather c rest (size - length) (out ++ c.data.extract start (start + length))
    else .error .missingPage

/-- The octets of some pages, up to a size. -/
def octets (c : Container) (pages : List Nat) (size : Nat) :
    Except Fault ByteArray :=
  c.gather pages size ByteArray.empty

-- =========================================================== directory

def directory (c : Container) : Except Fault ByteArray := do
  let list ← c.octets c.listPages (c.listPages.length * c.pageSize)
  let pages ←
    (pageNumbers list c.pageCount
      (pagesFor c.pageSize c.directorySize)).result
  c.octets pages c.directorySize

/-- The size that the directory gives for a stream that is absent. -/
def absent : Nat := 0xffffffff

/-- How many pages some streams take that stand first in the directory. -/
def pagesBefore (b : ByteArray) (pageSize : Nat) : Nat → Scan Nat
  | 0 => return 0
  | n + 1 => do
    let size ← Scan.u32 b
    let pages := if size = absent then 0 else pagesFor pageSize size
    return pages + (← pagesBefore b pageSize n)

/-- The pages and the size of a stream. -/
def place (c : Container) (directory : ByteArray) (number : Nat) :
    Scan (List Nat × Nat) := do
  let count ← Scan.u32 directory
  if count ≤ number then throw (.stream number)
  let skipped ← pagesBefore directory c.pageSize number
  let size ← Scan.u32 directory
  if size = absent then throw (.stream number)
  Scan.skip directory ((count - number - 1) * 4)
  Scan.skip directory (skipped * 4)
  let pages ←
    pageNumbers directory c.pageCount (pagesFor c.pageSize size)
  return (pages, size)

/-- The octets of a stream. -/
def stream (c : Container) (number : Nat) : Except Fault ByteArray := do
  let directory ← c.directory
  let (pages, size) ← (c.place directory number).result
  c.octets pages size

/-- The number that stands for no stream. -/
def noStream : Nat := 0xffff

/-- The octets of a stream that may be missing. -/
def stream? (c : Container) (number : Nat) :
    Except Fault (Option ByteArray) :=
  if number = noStream then .ok none else (c.stream number).map some

end Container

end SymbolGraph.Pdb
