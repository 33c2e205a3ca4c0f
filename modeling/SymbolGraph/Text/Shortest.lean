/-
The text of a floating point number: the fewest digits that read back as
the number, positional when the decimal point falls within sixteen digits
or a few zeros, with an exponent otherwise.

The digits come from the exact value m · 2^q and the interval of reals that
round to it. For each count of digits the two neighbours of the value on
that decimal grid are tried; the first grid with a neighbour inside the
interval wins, and of two such neighbours the nearer.
-/
namespace SymbolGraph.Text.Shortest

/-- A positive decimal number: `digits` · 10^`exponent`. -/
structure Decimal where
  digits : Nat
  exponent : Int

/-- A positive rational. -/
structure Ratio where
  num : Nat
  den : Nat

/-- n · b^e for an integer exponent. -/
def scaled (n b : Nat) (e : Int) : Ratio :=
  if e < 0 then ⟨n, Nat.pow b (-e).toNat⟩ else ⟨n * Nat.pow b e.toNat, 1⟩

def Ratio.lt (a b : Ratio) : Bool := a.num * b.den < b.num * a.den

def Ratio.le (a b : Ratio) : Bool := a.num * b.den ≤ b.num * a.den

/-- The distance of two rationals. -/
def Ratio.distance (a b : Ratio) : Ratio :=
  let x := a.num * b.den
  let y := b.num * a.den
  ⟨(x - y) + (y - x), a.den * b.den⟩

/-- The decimal exponent of the leading digit: the greatest `e` with
10^e at most the value, searched downwards from `e`. -/
def leading (v : Ratio) : Nat → Int → Int
  | 0, e => e
  | fuel + 1, e =>
    if (scaled 1 10 e).le v then e else leading v fuel (e - 1)

/-- A value and the interval of reals that round to it. -/
structure Target where
  value : Ratio
  low : Ratio
  high : Ratio
  /-- Do the ends of the interval belong to it? -/
  closed : Bool

def Target.holds (t : Target) (r : Ratio) : Bool :=
  if t.closed then t.low.le r && r.le t.high else t.low.lt r && r.lt t.high

/-- The interval of m · 2^q; below a power of two it is half as wide. -/
def Target.of (m : Nat) (q : Int) : Target :=
  let edge := m = 0x10000000000000 && q > -1074
  { value := scaled m 2 q
    low := if edge then scaled (4 * m - 1) 2 (q - 2)
      else scaled (2 * m - 1) 2 (q - 1)
    high := scaled (2 * m + 1) 2 (q - 1)
    closed := m % 2 = 0 }

/-- The neighbours of the value on the grid of multiples of 10^e that lie
in the interval, the nearer first. -/
def Target.onGrid (t : Target) (e : Int) : Option Decimal :=
  let unit := scaled 1 10 e
  let below := (t.value.num * unit.den) / (t.value.den * unit.num)
  let inside (d : Nat) : Bool := d ≠ 0 && t.holds (scaled d 10 e)
  let gap (d : Nat) : Ratio := t.value.distance (scaled d 10 e)
  match inside below, inside (below + 1) with
  | true, true =>
    if (gap (below + 1)).lt (gap below) then some ⟨below + 1, e⟩
    else some ⟨below, e⟩
  | true, false => some ⟨below, e⟩
  | false, true => some ⟨below + 1, e⟩
  | false, false => none

/-- Tries grids of more and more digits. -/
def Target.search (t : Target) (top : Int) : Nat → Int → Decimal
  | 0, e => (t.onGrid e).getD ⟨0, 0⟩
  | fuel + 1, e => (t.onGrid e).getD (Target.search t top fuel (e - 1))

def trimZeros : Nat → Decimal → Decimal
  | 0, d => d
  | fuel + 1, d =>
    if d.digits ≠ 0 ∧ d.digits % 10 = 0 then
      trimZeros fuel ⟨d.digits / 10, d.exponent + 1⟩
    else d

/-- The shortest decimal that reads back as m · 2^q. -/
def digits (m : Nat) (q : Int) : Decimal :=
  let t := Target.of m q
  let top := leading t.value 700 309
  trimZeros 20 (t.search top 17 top)

/-- The text of a positive decimal. -/
def layout (d : Decimal) : String :=
  let text := toString d.digits
  let count : Int := text.length
  let point := count + d.exponent
  let zeros (n : Int) : String := String.ofList (List.replicate n.toNat '0')
  if 0 ≤ d.exponent ∧ point ≤ 16 then text ++ zeros d.exponent ++ ".0"
  else if 0 < point ∧ point ≤ 16 then
    (text.take point.toNat).toString ++ "." ++ (text.drop point.toNat).toString
  else if -5 < point ∧ point ≤ 0 then "0." ++ zeros (-point) ++ text
  else
    let fraction := if count = 1 then "" else "." ++ (text.drop 1).toString
    (text.take 1).toString ++ fraction ++ "e" ++ toString (point - 1)

end Shortest

/-- The text of a finite number. -/
def floatText (x : Float) : String :=
  let bits : Nat := x.toBits.toNat
  let sign := if bits / 0x8000000000000000 = 1 then "-" else ""
  let biased : Nat := bits / 0x10000000000000 % 0x800
  let fraction : Nat := bits % 0x10000000000000
  if biased = 0 ∧ fraction = 0 then sign ++ "0.0"
  else
    let m := if biased = 0 then fraction else 0x10000000000000 + fraction
    let q : Int := if biased = 0 then -1074 else (biased : Int) - 1075
    sign ++ Shortest.layout (Shortest.digits m q)

end SymbolGraph.Text
