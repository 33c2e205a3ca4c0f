import SymbolGraph.Main
import SymbolGraph.Workspace
import SymbolGraph.Proofs.Merge.Unfolding
import SymbolGraph.Proofs.Build.Order
import SymbolGraph.Proofs.Build.Descriptions
import SymbolGraph.Proofs.Build.Frame
import SymbolGraph.Proofs.Build.AnonymousUnion
import SymbolGraph.Proofs.Build.Functions
import SymbolGraph.Proofs.Build.PointerNames
import SymbolGraph.Proofs.Dwarf.Units
import SymbolGraph.Proofs.Handles
import SymbolGraph.Proofs.Text.Utf8
import SymbolGraph.Proofs.Codec.Binary
import SymbolGraph.Proofs.Codec.Layout
import SymbolGraph.Proofs.Codec.Cut
import SymbolGraph.Proofs.Codec.Json.Numeral
import SymbolGraph.Proofs.Codec.Json.Text
import SymbolGraph.Proofs.Codec.Json.Value
import SymbolGraph.Proofs.Codec.Json.GraphText
import SymbolGraph.Proofs.Codec.Json.Bounds
import SymbolGraph.Proofs.Codec.Json.Countable
import SymbolGraph.Proofs.Files.Path
import SymbolGraph.Proofs.Files.Tree
import SymbolGraph.Proofs.Merge.Kept
import SymbolGraph.Proofs.Merge.Plain
import SymbolGraph.Proofs.Merge.Lookups
import SymbolGraph.Proofs.Loader
import SymbolGraph.Proofs.FileNames
import SymbolGraph.Proofs.Writer
import SymbolGraph.Proofs.Saving
import SymbolGraph.Proofs.Rekeying
import SymbolGraph.Proofs.Copies
import SymbolGraph.Proofs.Aliases
import SymbolGraph.Proofs.Extract
import SymbolGraph.Proofs.CommandLine.Strict
import SymbolGraph.Proofs.Dwarf.Scan
import SymbolGraph.Proofs.Dwarf.Entries
import SymbolGraph.Proofs.Dwarf.Functions
import SymbolGraph.Proofs.Dwarf.Signatures
import SymbolGraph.Proofs.Dwarf.ArraySizes
import SymbolGraph.Proofs.Pdb.FieldIds
import SymbolGraph.Proofs.Pdb.Scan
import SymbolGraph.Proofs.Pdb.FieldLists
import SymbolGraph.Proofs.Pdb.Fields
