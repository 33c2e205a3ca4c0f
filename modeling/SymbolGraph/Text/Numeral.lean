/-
Numbers as text: hexadecimal with and without a fixed width, and padding
to a column.
-/
namespace SymbolGraph.Text

/-- Fills a text up to `width` characters from the left. -/
def padLeft (width : Nat) (fill : Char) (s : String) : String :=
  String.ofList (List.replicate (width - s.length) fill) ++ s

/-- The column in which log lines put their first word. -/
def column (s : String) : String := padLeft 12 ' ' s

def hexDigits (n : Nat) : String := String.ofList (Nat.toDigits 16 n)

/-- A number in hexadecimal, with `0x` in front. -/
def hex (n : Nat) : String := "0x" ++ hexDigits n

/-- A number in hexadecimal with at least eight digits. -/
def hex8 (n : Nat) : String := "0x" ++ padLeft 8 '0' (hexDigits n)

end SymbolGraph.Text
