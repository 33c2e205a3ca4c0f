/-
What loading makes of octets that a graph was encoded as. The extension of
the target that a writer chooses is that of its format, and if the target
has none, the first octets tell: a binary file with the right magic begins
with its letters, and JSON text with a brace (`Format.of_target`). So
content decides right where the path says nothing.

A graph comes back exactly if its format can hold it (`Format.Holds`): in
either format the magic must be right, and in the binary one the symbols
must stand under their ids, with lengths that 64 bits can count.
-/
import SymbolGraph.Proofs.Codec.Binary
import SymbolGraph.Proofs.Codec.Json.GraphText
import SymbolGraph.Proofs.Files.Path
import SymbolGraph.Writer

namespace SymbolGraph

variable {g : Graph} {octets : List UInt8}

-- ============================================================= contents

theorem beginsWithMagic_binary (h : g.header.magic = magic) :
    beginsWithMagic (Binary.encode g) = true := by
  have hletters : Binary.putU32 magic = [0x55, 0x53, 0x59, 0x4d] := by decide
  unfold beginsWithMagic Binary.encode Binary.putHeader
  rw [h, hletters, List.append_assoc, List.append_assoc, List.append_assoc,
    List.take_left' (by rfl), beq_self_eq_true]

theorem beginsWithMagic_json (g : Graph) :
    beginsWithMagic (Json.encode g) = false := by
  unfold beginsWithMagic Json.encode Json.graphPrinter
  rw [Json.object_append, List.take_succ_cons, List.cons_beq_cons,
    Bool.and_eq_false_iff]
  exact .inl (by decide)

/-- What is loaded has the magic, in either format. -/
theorem Format.magic_of_decode {f : Format}
    (h : (f.decode octets).value = .ok g) : g.header.magic = magic := by
  cases f with
  | binary => exact (Binary.of_decode h).1
  | json =>
      have h : Json.decodeGraph octets = .ok g := h
      unfold Json.decodeGraph at h
      split at h
      case h_1 => cases h
      case h_2 g' hdecode =>
        split at h
        case isTrue => cases h
        case isFalse hmagic =>
          cases h
          exact not_not.1 hmagic

-- ============================================================== targets

theorem Format.isExtension (f : Format) :
    Path.IsExtension f.extension.toList := by
  have hplain :
      (f.extension.toList.all fun c => c ≠ '.' && c ≠ '/') = true := by
    cases f <;> decide
  refine ⟨by cases f <;> decide, fun c hc => ?_⟩
  have hc := List.all_eq_true.1 hplain c hc
  rw [Bool.and_eq_true, decide_eq_true_iff, decide_eq_true_iff] at hc
  exact hc

/-- Where a path has no extension of another format, the format of a file is
found by its path or by its content. -/
theorem Format.of_encode (f : Format) {path : String}
    (h : g.header.magic = magic)
    (hpath : ∀ found,
      (Path.extension? path).bind ofExtension? = some found → found = f) :
    Format.of path (f.encode g) = f := by
  unfold Format.of
  split
  case h_1 found hfound => exact hpath found hfound
  case h_2 =>
    cases f with
    | binary =>
        show (if beginsWithMagic (Binary.encode g) then _ else _)
          = Format.binary
        rw [beginsWithMagic_binary h, if_pos rfl]
    | json =>
        show (if beginsWithMagic (Json.encode g) then _ else _) = Format.json
        rw [beginsWithMagic_json, if_neg Bool.false_ne_true]

/-- The format of a target is found. -/
theorem Format.of_target (f : Format) (base : String)
    (h : g.header.magic = magic) :
    Format.of (base ++ "." ++ f.extension) (f.encode g) = f := by
  refine f.of_encode h fun found hfound => ?_
  rw [Path.extension?_append base f.isExtension] at hfound
  split at hfound
  case isTrue => cases hfound
  case isFalse =>
    have hext : Format.ofExtension? f.extension = some found := hfound
    rw [Format.ofExtension?_extension] at hext
    exact (Option.some.inj hext).symm

-- ========================================================= coming back

/-- A format can hold the graph, so that all of it comes back. -/
structure Format.Holds (f : Format) (g : Graph) : Prop where
  magic : g.header.magic = SymbolGraph.magic
  indexed : f = .binary → g.Indexed
  countable : f = .binary → g.Countable

theorem Format.decode_encode_iff_holds (f : Format) (g : Graph) :
    (f.decode (f.encode g)).value = .ok { g with format := none }
      ↔ f.Holds g := by
  constructor
  · intro h
    refine ⟨magic_of_decode (g := { g with format := none }) h, ?_, ?_⟩
    · rintro rfl
      obtain ⟨-, hindexed, -⟩ := Binary.of_decode h
      exact ⟨hindexed.types, hindexed.functions⟩
    · rintro rfl
      obtain ⟨-, -, hcountable⟩ := Binary.of_decode h
      exact ⟨hcountable.types, hcountable.functions⟩
  · intro h
    cases f with
    | binary =>
        show (Binary.decode (Binary.encode g)).value = _
        rw [Binary.decode_encode_of_indexed h.magic (h.indexed rfl)
          (h.countable rfl)]
        rfl
    | json =>
        unfold Format.decode Format.encode Json.decodeGraph
        dsimp only
        rw [Logged.value_pure, Json.decode_encode]
        dsimp only
        rw [if_neg (not_not_intro h.magic)]

-- ============================================================= loading

/-- What is loaded is what the content is decoded as. -/
theorem loadGraph_value {files : Files.Tree} {path : String}
    {data : ByteArray} (h : files.read path = .ok data) :
    (loadGraph files path).value
      = ((Format.of path data.data.toList).decode
          data.data.toList).value.mapError (LoadError.undecodable path) := by
  unfold loadGraph
  rw [h]
  dsimp only
  rw [Logged.value_bind]
  split
  case h_1 cause hcause => rw [hcause]; rfl
  case h_2 g' hg => rw [hg]; rfl

theorem loadGraph_eq_ok_iff {files : Files.Tree} {path : String}
    {data : ByteArray} (h : files.read path = .ok data) :
    (loadGraph files path).value = .ok g
      ↔ ((Format.of path data.data.toList).decode data.data.toList).value
          = .ok g := by
  rw [loadGraph_value h]
  exact ⟨eq_ok_of_mapError, fun hdecode => by rw [hdecode]; rfl⟩

/-- From a file that a graph was encoded to, under the target of its
format, the graph is loaded exactly if the format can hold it. -/
theorem loadGraph_target_iff {files : Files.Tree} {f : Format} {base : String}
    (h : files.read (base ++ "." ++ f.extension)
      = .ok (octetsToBytes (f.encode g))) :
    (loadGraph files (base ++ "." ++ f.extension)).value
        = .ok { g with format := none }
      ↔ f.Holds g := by
  have hoctets : (octetsToBytes (f.encode g)).data.toList = f.encode g :=
    List.toList_toArray
  rw [loadGraph_eq_ok_iff h, hoctets]
  constructor
  · intro hload
    have hmagic : g.header.magic = magic :=
      Format.magic_of_decode (g := { g with format := none }) hload
    rw [f.of_target base hmagic] at hload
    exact (f.decode_encode_iff_holds g).1 hload
  · intro hholds
    rw [f.of_target base hholds.magic]
    exact (f.decode_encode_iff_holds g).2 hholds

end SymbolGraph
