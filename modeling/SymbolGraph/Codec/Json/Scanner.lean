/-
The pieces of JSON text: blanks, words, numbers and quoted texts, each
read from the front of the octets.

A number without fraction and exponent is an integer when it fits 64 bits
(signed if a minus sign stands before it, and then not 0); everything else
is a floating point number, which must be finite. A text must be UTF-8
after its escapes are resolved, and surrogate escapes must come in pairs.
Text that is skipped is checked less: only its escapes must have their
form.
-/
import SymbolGraph.Codec.Json.Fault
import SymbolGraph.Text.Utf8

namespace SymbolGraph.Json

/-- Reads a value from the front of the octets and leaves the rest. -/
abbrev Reader := StateT (List UInt8) (Except Fault)

-- ======================================================= single octets

def isBlank (b : UInt8) : Bool :=
  b == 0x20 || b == 0x0a || b == 0x09 || b == 0x0d

def isDigit (b : UInt8) : Bool := 0x30 ≤ b && b ≤ 0x39

/-- The next octet, which stays in place. -/
def peek : Reader (Option UInt8) := do return (← get).head?

/-- Passes over one octet. -/
def advance : Reader Unit := modify List.tail

/-- Passes over blanks and gives the octet behind them. -/
def peekSolid : Reader (Option UInt8) := do
  modify fun input => input.dropWhile isBlank
  peek

/-- The rest of a word whose first letter has been passed. -/
def word : List UInt8 → Reader Unit
  | [] => return ()
  | letter :: rest => do
    match ← peek with
    | none => throw .truncated
    | some b =>
      if b = letter then advance; word rest else throw .malformed

def wordNull : Reader Unit := word [0x75, 0x6c, 0x6c]

def wordTrue : Reader Unit := word [0x72, 0x75, 0x65]

def wordFalse : Reader Unit := word [0x61, 0x6c, 0x73, 0x65]

-- ============================================================= numbers

/-- The value of a decimal number as it stands in the text. -/
inductive Number where
  | natural (n : Nat)
  | negative (n : Nat)
  | float (x : Float)

/-- Digits from the front of the octets. -/
def digits : Reader (List UInt8) := fun input =>
  .ok (input.takeWhile isDigit, input.dropWhile isDigit)

/-- At least one digit. -/
def someDigits : Reader (List UInt8) := do
  let ds ← digits
  if ds.isEmpty then
    match ← peek with
    | none => throw .truncated
    | some _ => throw .malformed
  return ds

def valueOf (ds : List UInt8) : Nat :=
  ds.foldl (fun n b => n * 10 + (b.toNat - 48)) 0

/-- The digits of the whole part: a 0 stands alone. -/
def wholePart : Reader (List UInt8) := do
  let ds ← someDigits
  match ds with
  | 0x30 :: _ :: _ => throw .malformed
  | _ => return ds

/-- The digits of the fraction, if there is one. -/
def fractionPart : Reader (Option (List UInt8)) := do
  match ← peek with
  | some 0x2e => advance; return some (← someDigits)
  | _ => return none

/-- The exponent, if there is one. -/
def exponentPart : Reader (Option Int) := do
  match ← peek with
  | some b =>
    if b = 0x65 ∨ b = 0x45 then
      advance
      let negative ← match ← peek with
        | some 0x2d => advance; pure true
        | some 0x2b => advance; pure false
        | _ => pure false
      let n : Int := valueOf (← someDigits)
      return some (if negative then -n else n)
    else return none
  | none => return none

/-- The significand of a floating point number and the exponent that its
digits leave: digits that do not fit 64 bits any more are dropped. -/
def significand : Nat → Int → List UInt8 → Nat × Int
  | n, e, [] => (n, e)
  | n, e, b :: rest =>
    let next := n * 10 + (b.toNat - 48)
    if next < 0x10000000000000000 then significand next e rest
    else (n, e + (rest.length + 1))

/-- The significand with the digits of the fraction, as far as they fit. -/
def withFraction : Nat → Int → List UInt8 → Nat × Int
  | n, e, [] => (n, e)
  | n, e, b :: rest =>
    let next := n * 10 + (b.toNat - 48)
    if next < 0x10000000000000000 then withFraction next (e - 1) rest else (n, e)

def powerOfTen (n : Nat) : Float := Float.ofScientific 1 false n

/-- Scales by a power of ten; none when the result is not finite. -/
def scaleFloat : Nat → Float → Int → Option Float
  | 0, x, _ => some x
  | fuel + 1, x, e =>
    if e.natAbs ≤ 308 then
      if 0 ≤ e then
        let y := x * powerOfTen e.natAbs
        if y.isInf then none else some y
      else some (x / powerOfTen e.natAbs)
    else if x == 0.0 then some x
    else if 0 ≤ e then none
    else scaleFloat fuel (x / powerOfTen 308) (e + 308)

/-- The floating point number of the parts of a numeral. -/
def floatOf (negative : Bool) (whole : List UInt8)
    (fraction : Option (List UInt8)) (exponent : Option Int) : Option Float :=
  let (n, e) := significand 0 0 whole
  let (n, e) := withFraction n e (fraction.getD [])
  let exponent := exponent.getD 0
  let size :=
    if exponent.natAbs < 0x80000000 then
      let e := max (-0x80000000) (min 0x7fffffff (e + exponent))
      -- A quotient below the least number is 0 long before this many steps.
      scaleFloat 10 (UInt64.ofNat n).toFloat e
    else if n ≠ 0 ∧ 0 < exponent then none
    else some 0.0
  size.map fun x => if negative then -x else x

/-- The number behind an optional minus sign, which has been passed. -/
def numberAfterSign (isNegative : Bool) : Reader Number := do
  let whole ← wholePart
  let fraction ← fractionPart
  let exponent ← exponentPart
  let n := valueOf whole
  let asFloat : Reader Number :=
    match floatOf isNegative whole fraction exponent with
    | some x => return .float x
    | none => throw .malformed
  if fraction.isSome ∨ exponent.isSome then asFloat
  else if isNegative then
    if n = 0 ∨ 0x8000000000000000 < n then asFloat else return .negative n
  else if n < 0x10000000000000000 then return .natural n
  else asFloat

/-- A step in a number that is skipped. There a text that ends before a
digit is no number, rather than the beginning of one. -/
def skipping (part : Reader Unit) : Reader Unit := fun input =>
  match part input with
  | .error .truncated => .error .malformed
  | result => result

/-- A number that is skipped: only its form counts. -/
def skipNumberAfterSign : Reader Unit := skipping do
  let _ ← wholePart
  let _ ← fractionPart
  let _ ← exponentPart

-- =============================================================== texts

/-- The value of a hexadecimal digit. -/
def hexValue? (b : UInt8) : Option Nat :=
  if 0x30 ≤ b ∧ b ≤ 0x39 then some (b.toNat - 48)
  else if 0x41 ≤ b ∧ b ≤ 0x46 then some (b.toNat - 55)
  else if 0x61 ≤ b ∧ b ≤ 0x66 then some (b.toNat - 87)
  else none

/-- The number of four hexadecimal digits. -/
def hexFour (a b c d : UInt8) : Except Fault Nat :=
  match hexValue? a, hexValue? b, hexValue? c, hexValue? d with
  | some a, some b, some c, some d =>
    .ok (((a * 16 + b) * 16 + c) * 16 + d)
  | _, _, _, _ => .error .malformed

/-- What a backslash and a letter stand for. -/
def shortEscape? (b : UInt8) : Option UInt8 :=
  if b = 0x22 then some 0x22
  else if b = 0x5c then some 0x5c
  else if b = 0x2f then some 0x2f
  else if b = 0x62 then some 0x08
  else if b = 0x66 then some 0x0c
  else if b = 0x6e then some 0x0a
  else if b = 0x72 then some 0x0d
  else if b = 0x74 then some 0x09
  else none

/-- Is a code unit the first of a surrogate pair? -/
def isLeadingSurrogate (n : Nat) : Bool := 0xd800 ≤ n && n ≤ 0xdbff

/-- Is a code unit the second of a surrogate pair? -/
def isTrailingSurrogate (n : Nat) : Bool := 0xdc00 ≤ n && n ≤ 0xdfff

/-- The octets of the character with a number. -/
def octetsOf (n : Nat) : List UInt8 := String.utf8EncodeChar (Char.ofNat n)

/-- The octets of a quoted text whose opening quote has been passed, and
what follows its closing quote. -/
def textOctets : List UInt8 → Except Fault (List UInt8 × List UInt8)
  | [] => .error .truncated
  | b :: rest =>
    if b = 0x22 then .ok ([], rest)
    else if b < 0x20 then .error .malformed
    else if b = 0x5c then
      match rest with
      | [] => .error .truncated
      | 0x75 :: a :: b :: c :: d :: rest => do
        let n ← hexFour a b c d
        if isTrailingSurrogate n then .error .malformed
        else if isLeadingSurrogate n then
          match rest with
          | 0x5c :: 0x75 :: a :: b :: c :: d :: rest => do
            let m ← hexFour a b c d
            if isTrailingSurrogate m then do
              let p ← textOctets rest
              let high := (n - 0xd800) * 0x400
              return (octetsOf (0x10000 + high + (m - 0xdc00)) ++ p.1, p.2)
            else .error .malformed
          | [] => .error .truncated
          | [0x5c] => .error .truncated
          | 0x5c :: 0x75 :: _ => .error .truncated
          | _ => .error .malformed
        else do
          let p ← textOctets rest
          return (octetsOf n ++ p.1, p.2)
      | 0x75 :: _ => .error .truncated
      | letter :: rest =>
        match shortEscape? letter with
        | none => .error .malformed
        | some c => do
          let p ← textOctets rest
          return (c :: p.1, p.2)
    else do
      let p ← textOctets rest
      return (b :: p.1, p.2)

/-- A quoted text whose opening quote has been passed. -/
def textBody : Reader String := fun input => do
  let (octets, rest) ← textOctets input
  match Utf8.decode octets with
  | .ok s => .ok (s, rest)
  | .error _ => .error .malformed

/-- What follows a quoted text that is skipped. -/
def skipText : List UInt8 → Except Fault (List UInt8)
  | [] => .error .truncated
  | b :: rest =>
    if b = 0x22 then .ok rest
    else if b < 0x20 then .error .malformed
    else if b = 0x5c then
      match rest with
      | [] => .error .truncated
      | 0x75 :: a :: b :: c :: d :: rest => do
        let _ ← hexFour a b c d
        skipText rest
      | 0x75 :: _ => .error .truncated
      | letter :: rest =>
        if (shortEscape? letter).isSome then skipText rest
        else .error .malformed
    else skipText rest

def skipTextBody : Reader Unit := fun input => do
  return ((), ← skipText input)

end SymbolGraph.Json
