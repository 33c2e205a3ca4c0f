/-
JSON text as graph files have it: four spaces of indentation per level,
each member of a container on a line of its own, empty containers without
a line break. A printer takes its level and gives octets, so containers are
combinators over printers. Escapes concern ASCII alone, so texts are
escaped octet by octet in their UTF-8 form.
-/
import SymbolGraph.Text.Utf8

namespace SymbolGraph.Json

/-- Prints a value at a level of indentation. -/
abbrev Printer := Nat → List UInt8

-- ============================================================= numbers

/-- The octet of a decimal digit. -/
def digit (d : Nat) : UInt8 := UInt8.ofNat (48 + d)

/-- The decimal digits of a number. -/
def decimal (n : Nat) : List UInt8 :=
  if n < 10 then [digit n] else decimal (n / 10) ++ [digit (n % 10)]
termination_by n

def integer (i : Int) : List UInt8 :=
  if i < 0 then 0x2d :: decimal i.natAbs else decimal i.natAbs

-- =============================================================== texts

/-- A lower-case hexadecimal digit. -/
def hexDigit (d : Nat) : UInt8 :=
  if d < 10 then UInt8.ofNat (48 + d) else UInt8.ofNat (87 + d)

/-- An octet of a text as it stands between quotes. -/
def escape (b : UInt8) : List UInt8 :=
  if b = 0x22 then [0x5c, 0x22]
  else if b = 0x5c then [0x5c, 0x5c]
  else if b = 0x08 then [0x5c, 0x62]
  else if b = 0x0c then [0x5c, 0x66]
  else if b = 0x0a then [0x5c, 0x6e]
  else if b = 0x0d then [0x5c, 0x72]
  else if b = 0x09 then [0x5c, 0x74]
  else if b < 0x20 then
    [0x5c, 0x75, 0x30, 0x30, hexDigit (b.toNat / 16), hexDigit (b.toNat % 16)]
  else [b]

def quotedOctets (octets : List UInt8) : List UInt8 :=
  0x22 :: (octets.flatMap escape ++ [0x22])

def quoted (s : String) : List UInt8 := quotedOctets (Utf8.encode s)

-- ============================================================= scalars

def number (n : Nat) : Printer := fun _ => decimal n

def signed (i : Int) : Printer := fun _ => integer i

def text (s : String) : Printer := fun _ => quoted s

def truth (b : Bool) : Printer := fun _ =>
  if b then [0x74, 0x72, 0x75, 0x65] else [0x66, 0x61, 0x6c, 0x73, 0x65]

-- ========================================================== containers

/-- A line break and the indentation of a level. -/
def newline (level : Nat) : List UInt8 :=
  0x0a :: List.replicate (4 * level) 0x20

/-- The items of a container, separated by commas, a line each. -/
def lines (level : Nat) : List (List UInt8) → List UInt8
  | [] => []
  | [item] => newline level ++ item
  | item :: rest => newline level ++ item ++ 0x2c :: lines level rest

/-- Items between an opening and a closing octet. -/
def enclosed (opening closing : UInt8) (level : Nat)
    (items : List (List UInt8)) : List UInt8 :=
  if items.isEmpty then [opening, closing]
  else opening :: (lines (level + 1) items ++ newline level ++ [closing])

def array (items : List Printer) : Printer := fun level =>
  enclosed 0x5b 0x5d level (items.map fun item => item (level + 1))

/-- A member of an object: its key, a colon, a blank and its value. -/
def member (level : Nat) (key : List UInt8) (value : Printer) : List UInt8 :=
  quotedOctets key ++ 0x3a :: 0x20 :: value level

/-- An object with its members in the given order. -/
def object (members : List (List UInt8 × Printer)) : Printer := fun level =>
  enclosed 0x7b 0x7d level
    (members.map fun m => member (level + 1) m.1 m.2)

end SymbolGraph.Json
