/-
Text in double quotes, as messages show it: the quote and the backslash
get a backslash, the common control characters a letter, and characters
that would not show are given by their number.
-/
import SymbolGraph.Text.Numeral
import SymbolGraph.Text.Shapeless

namespace SymbolGraph.Text

/-- A character as it stands between quotes. -/
def quotedChar (c : Char) : String :=
  if c = '"' then "\\\""
  else if c = '\\' then "\\\\"
  else if c = '\n' then "\\n"
  else if c = '\r' then "\\r"
  else if c = '\t' then "\\t"
  else if c.toNat = 0 then "\\0"
  else if isShapeless c then
    "\\u\x7b" ++ hexDigits c.toNat ++ "\x7d"
  else c.toString

def quoted (s : String) : String :=
  "\"" ++ String.join (s.toList.map quotedChar) ++ "\""

end SymbolGraph.Text
