/-
COFF objects with small and large headers, and PE images. All of it is
little-endian. The name of a section has eight octets; a longer one stands
in the text table, and the name gives its place after a slash in decimal,
or after two slashes in base 64.
-/
import SymbolGraph.Object.Elf

namespace SymbolGraph.Object.Coff

def number (data : ByteArray) (offset width : Nat) : Nat :=
  (Bytes.number? .little data offset width).getD 0

def architecture (machine : Nat) : Architecture :=
  if machine = 0x14c then .x86
  else if machine = 0x8664 then .x86_64
  else if machine = 0x1c4 then .arm32
  else if machine = 0xaa64 ∨ machine = 0xa641 then .arm64
  else .unknown

-- =============================================================== names

/-- The range of the text table behind the symbols, if there are any. -/
def textRange (data : ByteArray) (symbols count each : Nat) :
    Except Fault (Option (Nat × Nat)) := do
  if symbols = 0 then return none
  let texts := symbols + count * each
  if data.size < texts then throw .coffSymbols
  match Bytes.number? .little data texts 4 with
  | none => throw .coffNoText
  | some size => return some (texts, size)

/-- The value of a base 64 digit. -/
def base64? (b : UInt8) : Option Nat :=
  if 0x41 ≤ b ∧ b ≤ 0x5a then some (b.toNat - 0x41)
  else if 0x61 ≤ b ∧ b ≤ 0x7a then some (b.toNat - 0x61 + 26)
  else if 0x30 ≤ b ∧ b ≤ 0x39 then some (b.toNat - 0x30 + 52)
  else if b = 0x2b then some 62
  else if b = 0x2f then some 63
  else none

def base64Number? : Nat → List UInt8 → Option Nat
  | n, [] => if n < 0x100000000 then some n else none
  | n, b :: rest => do base64Number? (n * 64 + (← base64? b)) rest

def decimalNumber? : Nat → List UInt8 → Option Nat
  | n, [] => some n
  | n, b :: rest =>
    if 0x30 ≤ b ∧ b ≤ 0x39 then
      decimalNumber? (n * 10 + (b.toNat - 0x30)) rest
    else if b = 0 then some n
    else none

/-- The name of the section whose header stands at an offset. -/
def nameAt (data : ByteArray) (texts : Option (Nat × Nat)) (place : Nat) :
    Option (List UInt8) :=
  match (data.extract place (place + 8)).data.toList with
  | 0x2f :: 0x2f :: rest => base64Number? 0 rest >>= Elf.textIn data texts
  | 0x2f :: rest => decimalNumber? 0 rest >>= Elf.textIn data texts
  | raw => some (raw.takeWhile (· ≠ 0))

-- ============================================================ sections

/-- The section headers at an offset. In an image a section has no more
octets than it occupies in memory; in an object, sections without
initialised data have none. -/
def sections (data : ByteArray) (texts : Option (Nat × Nat)) (image : Bool)
    (offset count : Nat) : List Section :=
  (List.range count).map fun i =>
    let place := offset + i * 40
    let virtualSize := number data (place + 8) 4
    let rawSize := number data (place + 16) 4
    let rawOffset := number data (place + 20) 4
    let flags := number data (place + 36) 4
    let body :=
      if image then .plain rawOffset (min virtualSize rawSize)
      else if flags / 0x80 % 2 = 1 then .empty
      else .plain rawOffset rawSize
    { name := nameAt data texts place, body }

-- ============================================================= objects

/-- Checks that the section headers lie in the file. -/
def checkSections (data : ByteArray) (offset count : Nat) :
    Except Fault Unit :=
  if offset + count * 40 ≤ data.size then .ok () else .error .coffSections

/-- Reads the headers of a COFF object. -/
def parse (data : ByteArray) : Except Fault Image := do
  if data.size < 20 then throw .coffHeaderSize
  let count := number data 2 2
  let offset := 20 + number data 16 2
  checkSections data offset count
  let texts ← textRange data (number data 8 4) (number data 12 4) 18
  return {
    architecture := architecture (number data 0 2), order := .little
    sections := sections data texts false offset count }

/-- What tells a COFF object with large headers from other anonymous
objects. -/
def bigClass : List UInt8 := [
  0xc7, 0xa1, 0xba, 0xd1, 0xee, 0xba, 0xa9, 0x4b,
  0xaf, 0x20, 0xfa, 0xf6, 0x6a, 0xa4, 0xdc, 0xb8]

/-- Reads the headers of a COFF object with large headers. -/
def parseBig (data : ByteArray) : Except Fault Image := do
  if data.size < 56 then throw .bigObjectHeaderSize
  let count := number data 44 4
  checkSections data 56 count
  let texts ← textRange data (number data 48 4) (number data 52 4) 20
  return {
    architecture := architecture (number data 6 2), order := .little
    sections := sections data texts false 56 count }

-- ============================================================== images

/-- Where the header of an image stands. -/
def imageHeader (data : ByteArray) : Nat := number data 0x3c 4

/-- The mark of the optional header of an image: 32 or 64 bits. -/
def optionalMagic? (data : ByteArray) : Option Nat :=
  if data.size < 64 then none
  else
    let header := imageHeader data
    if header + 120 ≤ data.size
        && Bytes.standsAt data header [0x50, 0x45, 0, 0] then
      some (number data (header + 24) 2)
    else none

/-- Reads the headers of an image. Its text table is not needed, so a
faulty one only makes long names unreadable. -/
def parseImage (data : ByteArray) (wide : Bool) : Except Fault Image := do
  let header := imageHeader data
  let fixed := if wide then 112 else 96
  if data.size < header + 24 + fixed then throw .peHeaderSize
  let optional := number data (header + 20) 2
  if optional < fixed then throw .peOptionalTooSmall
  let offset := header + 24 + optional
  if data.size < offset then throw .peOptionalSize
  let directories := number data (header + 24 + fixed - 4) 4
  if optional - fixed < directories * 8 then throw .peDirectories
  let count := number data (header + 6) 2
  checkSections data offset count
  let texts := (textRange data (number data (header + 12) 4)
    (number data (header + 16) 4) 18).toOption.join
  let base :=
    if wide then number data (header + 48) 8 else number data (header + 52) 4
  return {
    architecture := architecture (number data (header + 4) 2)
    order := .little, base := UInt64.ofNat base
    sections := sections data texts true offset count }

end SymbolGraph.Object.Coff
