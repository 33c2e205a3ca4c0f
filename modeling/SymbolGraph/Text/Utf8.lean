/-
UTF-8: characters as octets and back. Decoding walks the octets once,
carrying the character that has been begun. It refuses at the first octet
that no character can have in its place, and tells where the bad sequence
begins and how many octets of it could still have been a character; text
that ends inside a character is told apart from that. Lossy decoding puts
a replacement character where decoding would refuse.
-/
namespace SymbolGraph.Utf8

/-- Why octets are not UTF-8. -/
structure Fault where
  /-- Where the bad sequence begins. -/
  index : Nat
  /-- Its octets, up to the one that does not fit; none when the text ends
  inside a character. -/
  length : Option Nat
deriving DecidableEq

def Fault.message (f : Fault) : String :=
  match f.length with
  | some n => s!"invalid utf-8 sequence of {n} bytes from index {f.index}"
  | none => s!"incomplete utf-8 byte sequence from index {f.index}"

/-- A character that has been begun. -/
structure Pending where
  /-- The bits read so far. -/
  bits : Nat
  /-- How many octets are still to come. -/
  more : Nat
  /-- The range of the next octet. -/
  low : UInt8 := 0x80
  high : UInt8 := 0xbf
  /-- How many octets have been read. -/
  taken : Nat := 1

/-- The character that an octet beyond ASCII begins. The range of the
second octet leaves out overlong forms, surrogates and numbers beyond the
last character. -/
def Pending.start? (b : UInt8) : Option Pending :=
  if 0xc2 ≤ b ∧ b ≤ 0xdf then some { bits := b.toNat - 0xc0, more := 1 }
  else if b = 0xe0 then some { bits := 0, more := 2, low := 0xa0 }
  else if b = 0xed then some { bits := 13, more := 2, high := 0x9f }
  else if 0xe1 ≤ b ∧ b ≤ 0xef then some { bits := b.toNat - 0xe0, more := 2 }
  else if b = 0xf0 then some { bits := 0, more := 3, low := 0x90 }
  else if b = 0xf4 then some { bits := 4, more := 3, high := 0x8f }
  else if 0xf1 ≤ b ∧ b ≤ 0xf3 then some { bits := b.toNat - 0xf0, more := 3 }
  else none

def Pending.accepts (p : Pending) (b : UInt8) : Bool := p.low ≤ b && b ≤ p.high

/-- The bits with those of one more octet. -/
def Pending.push (p : Pending) (b : UInt8) : Nat :=
  p.bits * 64 + (b.toNat - 0x80)

/-- The character after one more octet that is not the last. -/
def Pending.next (p : Pending) (b : UInt8) : Pending :=
  { bits := p.push b, more := p.more - 1, taken := p.taken + 1 }

-- ============================================================ decoding

/-- Decodes octets; `index` is the place of the character at hand. -/
def decodeFrom (index : Nat) :
    Option Pending → List UInt8 → Except Fault (List Char)
  | none, [] => .ok []
  | some _, [] => .error ⟨index, none⟩
  | none, b :: rest =>
    if b < 0x80 then
      (decodeFrom (index + 1) none rest).map (Char.ofNat b.toNat :: ·)
    else
      match Pending.start? b with
      | none => .error ⟨index, some 1⟩
      | some p => decodeFrom index (some p) rest
  | some p, b :: rest =>
    if p.accepts b then
      if p.more = 1 then
        (decodeFrom (index + p.taken + 1) none rest).map
          (Char.ofNat (p.push b) :: ·)
      else decodeFrom index (some (p.next b)) rest
    else .error ⟨index, some p.taken⟩

def decode (octets : List UInt8) : Except Fault String :=
  (decodeFrom 0 none octets).map String.ofList

-- ====================================================== lossy decoding

/-- What stands for octets that are no character. -/
def replacement : Char := Char.ofNat 0xfffd

/-- What an octet in first place adds, and the character that it begins. -/
def lossyStart (b : UInt8) : List Char × Option Pending :=
  if b < 0x80 then ([Char.ofNat b.toNat], none)
  else
    match Pending.start? b with
    | none => ([replacement], none)
    | some p => ([], some p)

def decodeLossyFrom : Option Pending → List UInt8 → List Char
  | none, [] => []
  | some _, [] => [replacement]
  | none, b :: rest =>
    let (out, next) := lossyStart b
    out ++ decodeLossyFrom next rest
  | some p, b :: rest =>
    if p.accepts b then
      if p.more = 1 then Char.ofNat (p.push b) :: decodeLossyFrom none rest
      else decodeLossyFrom (some (p.next b)) rest
    else
      let (out, next) := lossyStart b
      replacement :: (out ++ decodeLossyFrom next rest)

/-- Decodes octets; each maximal sequence that is no character becomes one
replacement character. -/
def decodeLossy (octets : List UInt8) : String :=
  String.ofList (decodeLossyFrom none octets)

-- ============================================================ encoding

def encodeChars (chars : List Char) : List UInt8 :=
  chars.flatMap String.utf8EncodeChar

def encode (s : String) : List UInt8 := encodeChars s.toList

end SymbolGraph.Utf8
