/-
The octets of a section, unpacked if need be.
-/
import SymbolGraph.Compression.Inflate
import SymbolGraph.Compression.Zstd.Frame
import SymbolGraph.Object.Image

namespace SymbolGraph.Object

/-- The octets of a section; none if they do not lie in the file or cannot
be unpacked. -/
def Body.read? (data : ByteArray) : Body → Option ByteArray
  | .empty => some ByteArray.empty
  | .plain offset size => Bytes.range? data offset size
  | .packed .zlib offset size unpacked => do
    Compression.unzlib? (← Bytes.range? data offset size) unpacked
  | .packed .zstd offset size unpacked => do
    Compression.unzstd? (← Bytes.range? data offset size) unpacked
  | .broken => none

end SymbolGraph.Object
