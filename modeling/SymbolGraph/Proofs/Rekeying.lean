/-
A JSON file converted to the binary format. JSON text may hold a symbol
under a key that is not its id, and both numbers are kept when it is
loaded. The binary format writes the symbols alone, and loading keys each
by its id. So a conversion keeps the header, and keys all symbols anew: the
tables are those of the JSON file if and only if every symbol stood under
its id there.

Nothing else can go wrong. What a JSON file holds is never too long for the
binary format (`Json.countable_of_decode`), so the file is written, and
what was written can be loaded.
-/
import SymbolGraph.Proofs.Codec.Json.Countable
import SymbolGraph.Proofs.Files.Tree
import SymbolGraph.Proofs.Saving

namespace SymbolGraph

variable {files : Files.Tree} {path base : String} {data : ByteArray}
  {g : Graph}

theorem Format.decode_json_value (octets : List UInt8) :
    (Format.json.decode octets).value = Json.decodeGraph octets := rfl

/-- What is loaded as JSON has the magic, and lengths that can be
counted. -/
theorem countable_of_loadGraph (hread : files.read path = .ok data)
    (hformat : Format.of path data.data.toList = .json)
    (hsize : data.size < 2 ^ 64)
    (hload : (loadGraph files path).value = .ok g) :
    g.header.magic = magic ∧ g.Countable := by
  rw [loadGraph_eq_ok_iff hread, hformat] at hload
  refine ⟨Format.magic_of_decode hload, ?_⟩
  rw [Format.decode_json_value] at hload
  unfold Json.decodeGraph at hload
  split at hload
  case h_1 => cases hload
  case h_2 g' hg' =>
    split at hload
    case isTrue => cases hload
    case isFalse =>
      cases hload
      exact Json.countable_of_decode hg' hsize

/-- What is loaded from a binary file that was written to its target. -/
theorem loadGraph_binary_target (hmagic : g.header.magic = magic)
    (hcountable : g.Countable)
    (hread : files.read (base ++ "." ++ Format.extension .binary)
      = .ok (octetsToBytes (Format.encode .binary g))) :
    (loadGraph files (base ++ "." ++ Format.extension .binary)).value = .ok {
      header := g.header
      types := .ofSymbols TypeSymbol.id g.types.values
      functions := .ofSymbols FunctionSymbol.id g.functions.values } := by
  have hoctets : (octetsToBytes (Format.encode .binary g)).data.toList
      = Format.encode .binary g := List.toList_toArray
  rw [loadGraph_eq_ok_iff hread, hoctets, Format.of_target .binary base hmagic]
  show (Binary.decode (Binary.encode g)).value = _
  rw [Binary.decode_encode_of_countable hmagic hcountable]
  rfl

/-- A JSON file that is loaded, written in the binary format to a target
that can be opened, and loaded again from there. The header is kept, the
symbols are keyed by their ids, and the tables are those of the JSON file
if and only if every symbol stood under its id there. -/
theorem loadGraph_of_converted (hread : files.read path = .ok data)
    (hformat : Format.of path data.data.toList = .json)
    (hsize : data.size < 2 ^ 64)
    (hload : (loadGraph files path).value = .ok g)
    (hbase : base ≠ "") {place : Files.Place}
    (hopens : files.opens (base ++ "." ++ Format.extension .binary)
      = .ok place) :
    ∃ written loaded,
      ((Writer.setup { format := .binary } base (some g)).run files).value
        = .ok written
      ∧ (loadGraph written (base ++ "." ++ Format.extension .binary)).value
        = .ok loaded
      ∧ loaded.header = g.header
      ∧ loaded.types = .ofSymbols TypeSymbol.id g.types.values
      ∧ loaded.functions = .ofSymbols FunctionSymbol.id g.functions.values
      ∧ (loaded.types = g.types ∧ loaded.functions = g.functions
        ↔ g.Indexed) := by
  obtain ⟨hmagic, hcountable⟩ :=
    countable_of_loadGraph hread hformat hsize hload
  have htarget : (Writer.setup { format := .binary } base (some g)).target
      = some (base ++ "." ++ Format.extension .binary) := if_neg hbase
  refine ⟨files.putAt place (octetsToBytes (Format.encode .binary g)), _, ?_,
    loadGraph_binary_target hmagic hcountable (Files.Tree.read_putAt hopens),
    rfl, rfl, rfl, ?_⟩
  · rw [Writer.run_value htarget rfl, hopens]
    rfl
  · dsimp only
    rw [Binary.ofSymbols_values_eq_iff, Binary.ofSymbols_values_eq_iff]
    exact ⟨fun h => ⟨h.1, h.2⟩, fun h => ⟨h.types, h.functions⟩⟩

/-- A JSON document with two types of one id, of which one stands under
another key. Its records are written as lists. -/
def strayText : String :=
  "\x7b\"magic\":1297699669,\"originalFormat\":2,\"architecture\":4,"
    ++ "\"typeSymbols\":\x7b\"5\":[6,\"lost\",0,4,0,[],0],"
    ++ "\"6\":[6,\"kept\",0,8,0,[],0]\x7d\x7d"

def strayFiles : Files.Tree :=
  { files := [(["a.json"], octetsToBytes (Utf8.encode strayText))] }

def strayGraph : Graph where
  types := .ofList [(5, { id := 6, name := "lost", kind := .base, length := 4 }),
    (6, { id := 6, name := "kept", kind := .base, length := 8 })]
  functions := .empty

theorem read_strayFiles :
    strayFiles.read "a.json" = .ok (octetsToBytes (Utf8.encode strayText))
      ∧ strayFiles.opens "b.usym" = .ok ["b.usym"] := ⟨rfl, rfl⟩

theorem loadGraph_of_converted_strayFiles :
    (loadGraph strayFiles "a.json").value = .ok strayGraph
      ∧ strayGraph.types.keys = [5, 6]
      ∧ ∃ written loaded,
        ((Writer.setup { format := .binary } "b" (some strayGraph)).run
          strayFiles).value = .ok written
        ∧ (loadGraph written "b.usym").value = .ok loaded
        ∧ loaded.header = strayGraph.header
        ∧ loaded.types.keys = [6] := by
  obtain ⟨hread, hopens⟩ := read_strayFiles
  have hoctets : (octetsToBytes (Utf8.encode strayText)).data.toList
      = Utf8.encode strayText := List.toList_toArray
  have hformat : Format.of "a.json" (Utf8.encode strayText) = .json := by
    have hextension : Path.extension? "a.json" = some "json" := by
      decide +kernel
    unfold Format.of
    rw [hextension]
    rfl
  have hdecode : (Json.decodeGraph (Utf8.encode strayText)).toOption
      = some strayGraph := by
    decide +kernel
  have hload : (loadGraph strayFiles "a.json").value = .ok strayGraph := by
    rw [loadGraph_eq_ok_iff hread, hoctets, hformat, Format.decode_json_value]
    cases hresult : Json.decodeGraph (Utf8.encode strayText) with
    | error e =>
        rw [hresult] at hdecode
        cases hdecode
    | ok g =>
        rw [hresult] at hdecode
        exact congrArg Except.ok (Option.some.inj hdecode)
  have hsize : (octetsToBytes (Utf8.encode strayText)).size < 2 ^ 64 := by
    decide +kernel
  have hbase : "b" ≠ "" := by decide
  obtain ⟨written, loaded, hrun, hloaded, hheader, htypes, -⟩ :=
    loadGraph_of_converted hread (hoctets.symm ▸ hformat) hsize hload hbase
      hopens
  refine ⟨hload, by rfl, written, loaded, hrun, hloaded, hheader, ?_⟩
  rw [htypes]
  rfl

end SymbolGraph
