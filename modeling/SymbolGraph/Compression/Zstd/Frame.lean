/-
Frames of blocks under the zstd method. Blocks of a frame share codes and
the latest offsets; frames are independent of each other. The checksum of a
frame is passed over, and so are frames that are marked to be skipped.
-/
import SymbolGraph.Compression.Inflate
import SymbolGraph.Compression.Zstd.Literals
import SymbolGraph.Compression.Zstd.Sequences

namespace SymbolGraph.Compression.Zstd

-- ============================================================= offsets

/-- The latest three offsets, the very latest first. -/
structure Offsets where
  first : Nat := 1
  second : Nat := 4
  third : Nat := 8

/-- The offset that a sequence means, and the latest offsets after it. The
three lowest numbers stand for latest offsets; where no literals were taken
they stand for one place further on, and the last for the very latest
offset less 1. -/
def Offsets.use (o : Offsets) (value literals : Nat) : Nat × Offsets :=
  let place := if literals = 0 then value + 1 else value
  if 3 < value then
    let offset := value - 3
    (offset, { first := offset, second := o.first, third := o.second })
  else if place = 1 then (o.first, o)
  else if place = 2 then
    (o.second, { first := o.second, second := o.first, third := o.third })
  else
    let offset := if place = 3 then o.third else o.first - 1
    (offset, { first := offset, second := o.first, third := o.second })

-- ============================================================== blocks

/-- What the blocks of a frame hand on. -/
structure FrameState where
  out : ByteArray
  offsets : Offsets := {}
  literalCode : Option LiteralCode := none
  codes : Codes := {}

/-- Carries out sequences: literals, then a copy. The frame begins at
`start` in the result. -/
def execute? (start limit : Nat) (literals : ByteArray) :
    List Sequence → Nat → FrameState → Option FrameState
  | [], place, f =>
    some { f with out := f.out ++ literals.extract place literals.size }
  | s :: rest, place, f => do
    let taken ← Bytes.range? literals place s.literals
    let out := f.out ++ taken
    let (offset, offsets) := f.offsets.use s.offset s.literals
    if offset = 0 ∨ out.size < start + offset ∨ limit < out.size + s.length then
      none
    else
      execute? start limit literals rest (place + s.literals)
        { f with out := Inflate.copy out offset s.length, offsets }

/-- A block of literals and sequences. -/
def compressed? (start limit : Nat) (data : ByteArray) (f : FrameState) :
    Option FrameState := do
  let literals ← literals? data f.literalCode
  let (list, codes) ← sequences? data literals.behind f.codes
  execute? start limit literals.octets list 0
    { f with literalCode := literals.code, codes }

/-- The greatest size of a block. -/
def maxBlock : Nat := 0x20000

/-- The blocks of a frame up to the last; answers the place behind it. -/
def blocks? (data : ByteArray) (start limit : Nat) :
    Nat → Nat → FrameState → Option (ByteArray × Nat)
  | 0, _, _ => none
  | fuel + 1, place, f => do
    let head ← Bytes.number? .little data place 3
    let type := head / 2 % 4
    let size := head / 8
    let place := place + 3
    let stored := if type = 1 then 1 else size
    let octets ← Bytes.range? data place stored
    let f ←
      if maxBlock < size then none
      else if type = 0 then some { f with out := f.out ++ octets }
      else if type = 1 then
        let octet := (Bytes.octet? octets 0).getD 0
        some { f with out := f.out ++ ⟨Array.replicate size octet⟩ }
      else if type = 2 then compressed? start limit octets f
      else none
    if limit < f.out.size then none
    else if head % 2 = 1 then return (f.out, place + stored)
    else blocks? data start limit fuel (place + stored) f

-- ============================================================== frames

/-- The mark of a frame. -/
def frameMagic : Nat := 0xfd2fb528

/-- The sixteen marks of frames that are passed over, less the last four
bits. -/
def skippedMagic : Nat := 0x184d2a5

/-- The greatest window, beyond which a frame is refused. -/
def maxWindow : Nat := 100 * 1024 * 1024

/-- The window of a frame from its descriptor. -/
def windowOf (descriptor : Nat) : Nat :=
  let base := Nat.pow 2 (10 + descriptor / 8)
  base + base / 8 * (descriptor % 8)

/-- Where the blocks of a frame begin, and whether a checksum follows them.
`place` is that of the frame header behind the mark. -/
def frameHeader? (data : ByteArray) (place : Nat) : Option (Nat × Bool) := do
  let flags := (← Bytes.octet? data place).toNat
  let single := flags / 32 % 2 = 1
  let place := place + 1
  let windowed := if single then 0 else 1
  let descriptor ← Bytes.number? .little data place windowed
  let place := place + windowed
  let dictionaryWidth := [0, 1, 2, 4].getD (flags % 4) 0
  let dictionary ← Bytes.number? .little data place dictionaryWidth
  let place := place + dictionaryWidth
  let sizeWidth := [if single then 1 else 0, 2, 4, 8].getD (flags / 64) 0
  let _ ← Bytes.number? .little data place sizeWidth
  if dictionary ≠ 0 then none
  else if !single && maxWindow < windowOf descriptor then none
  else return (place + sizeWidth, flags / 4 % 2 = 1)

/-- One frame at a place; answers the place behind it. -/
def frame? (data : ByteArray) (limit place : Nat) (out : ByteArray) :
    Option (ByteArray × Nat) := do
  let magic ← Bytes.number? .little data place 4
  if magic / 16 = skippedMagic then
    let size ← Bytes.number? .little data (place + 4) 4
    if data.size < place + 8 + size then none
    else return (out, place + 8 + size)
  else if magic ≠ frameMagic then none
  else
    let (place, checked) ← frameHeader? data (place + 4)
    let (out, place) ←
      blocks? data out.size limit (data.size + 1) place { out }
    if !checked then return (out, place)
    else if data.size < place + 4 then none
    else return (out, place + 4)

/-- All frames from a place on. -/
def frames? (data : ByteArray) (limit : Nat) :
    Nat → Nat → ByteArray → Option ByteArray
  | 0, _, _ => none
  | fuel + 1, place, out => do
    if data.size ≤ place then return out
    let (out, place) ← frame? data limit place out
    frames? data limit fuel place out

end SymbolGraph.Compression.Zstd

namespace SymbolGraph.Compression

/-- The octets of zstd frames that unpack to exactly `size` octets. -/
def unzstd? (data : ByteArray) (size : Nat) : Option ByteArray := do
  let out ← Zstd.frames? data size (data.size + 1) 0 ByteArray.empty
  if out.size = size then return out else none

end SymbolGraph.Compression
