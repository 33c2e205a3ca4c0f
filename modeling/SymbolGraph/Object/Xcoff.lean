/-
XCOFF files. Their sections of debug information have names of their own,
so only the headers are checked and no section is ever found.
-/
import SymbolGraph.Object.Image

namespace SymbolGraph.Object.Xcoff

/-- Checks the headers of an XCOFF file. -/
def parse (data : ByteArray) (wide : Bool) : Except Fault Image := do
  let number (offset width : Nat) :=
    (Bytes.number? .big data offset width).getD 0
  let header := if wide then 24 else 20
  if data.size < header then throw .xcoffHeaderSize
  let auxiliary := number 16 2
  let flags := number 18 2
  let whole := if wide then 120 else 72
  if flags / 2 % 2 = 1 ∧ auxiliary = whole ∧ data.size < header + whole then
    throw .xcoffAuxiliarySize
  let count := number 2 2
  let each := if wide then 72 else 40
  if count ≠ 0 ∧ data.size < header + auxiliary + count * each then
    throw .xcoffSections
  let symbols := if wide then number 8 8 else number 8 4
  let symbolCount := if wide then number 20 4 else number 12 4
  if symbols ≠ 0 then
    let texts := symbols + symbolCount * 18
    if data.size < texts then throw .xcoffSymbols
    if data.size < texts + 4 then throw .xcoffNoText
  return { architecture := .unknown, order := .big }

end SymbolGraph.Object.Xcoff
