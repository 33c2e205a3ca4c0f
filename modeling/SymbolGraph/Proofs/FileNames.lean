/-
A graph file under any name. No octets are a file of both formats
(`Format.decode_unique`): what the binary format accepts begins with the
magic, and JSON does not begin with the first letter of it. So if a name
leaves the choice to the content, the content chooses right, and if it makes
the wrong choice, the file is refused. Under no name is it loaded as another
graph.
-/
import SymbolGraph.Proofs.Codec.Layout
import SymbolGraph.Proofs.Files.Tree
import SymbolGraph.Proofs.Loader

namespace SymbolGraph

variable {g g' : Graph} {f f' : Format} {octets : List UInt8}

-- ============================================================= contents

theorem Binary.beginsWithMagic_of_decode
    (h : (Binary.decode octets).value = .ok g) :
    beginsWithMagic octets = true := by
  obtain ⟨l, -, rfl, rfl⟩ := Binary.exists_layout h
  have hmagic : l.header.magic = magic := (Binary.of_decode h).1
  have hletters : Binary.putU32 magic = [0x55, 0x53, 0x59, 0x4d] := by decide
  unfold beginsWithMagic Binary.Layout.octets Binary.StoredHeader.octets
  rw [hmagic, hletters]
  rfl

theorem Json.not_beginsWithMagic_of_decode
    (h : Json.decodeGraph octets = .ok g) :
    beginsWithMagic octets = false := by
  by_contra hbegins
  rw [Bool.not_eq_false] at hbegins
  cases octets with
  | nil => cases hbegins
  | cons b rest =>
      have hb : b = 0x55 :=
        (List.cons.inj (beq_iff_eq.1 hbegins)).1
      subst hb
      have hrefused : Json.decode (0x55 :: rest) = .error .malformed := rfl
      unfold Json.decodeGraph at h
      rw [hrefused] at h
      cases h

/-- No octets are a file of two formats. -/
theorem Format.decode_unique (h : (f.decode octets).value = .ok g)
    (h' : (f'.decode octets).value = .ok g') : f = f' := by
  have hbegins : ∀ {f : Format} {g : Graph},
      (f.decode octets).value = .ok g →
        (beginsWithMagic octets = true ↔ f = .binary) := by
    intro f g h
    cases f with
    | binary =>
        exact iff_of_true (Binary.beginsWithMagic_of_decode h) rfl
    | json =>
        have hnot := Json.not_beginsWithMagic_of_decode h
        exact iff_of_false (by rw [hnot]; nofun) nofun
  have hsame := (hbegins h).symm.trans (hbegins h')
  cases f with
  | binary => exact (hsame.1 rfl).symm
  | json =>
      cases f' with
      | binary => exact hsame.2 rfl
      | json => rfl

-- =============================================================== names

theorem Format.ofExtension?_eq_some_iff {extension : String} :
    ofExtension? extension = some f ↔ extension = f.extension := by
  constructor
  · intro h
    unfold ofExtension? at h
    split at h
    case isTrue husym =>
      cases h
      exact husym
    case isFalse =>
      split at h
      case isTrue hjson =>
        cases h
        exact hjson
      case isFalse => cases h
  · rintro rfl
    exact ofExtension?_extension f

theorem Format.extension_inj (h : f.extension = f'.extension) : f = f' := by
  have hext := Format.ofExtension?_extension f
  rw [h, Format.ofExtension?_extension] at hext
  exact (Option.some.inj hext).symm

/-- A path with the extension of a format is taken to be in the format. -/
theorem Format.of_extension {path : String}
    (h : Path.extension? path = some f.extension) :
    Format.of path octets = f := by
  unfold Format.of
  rw [h, Option.bind_some, ofExtension?_extension]

variable {files : Files.Tree} {path : String}

/-- The file of a graph that its format can hold, found under any name. It is
loaded as the graph, header and tables, if the name has the extension of the
format, or none of the two; and if it has the extension of the other format,
it is refused. -/
theorem loadGraph_of_encoded (hholds : f.Holds g)
    (hread : files.read path = .ok (octetsToBytes (f.encode g))) :
    (Path.extension? path = some f.extension
        ∨ Path.extension? path ≠ some "usym"
          ∧ Path.extension? path ≠ some "json" →
      (loadGraph files path).value = .ok { g with format := none })
      ∧ ∀ other, other ≠ f → Path.extension? path = some other.extension →
        ∃ cause,
          (loadGraph files path).value = .error (.undecodable path cause) := by
  have hoctets : (octetsToBytes (f.encode g)).data.toList = f.encode g :=
    List.toList_toArray
  have hdecode := (f.decode_encode_iff_holds g).2 hholds
  constructor
  · intro hname
    rw [loadGraph_eq_ok_iff hread, hoctets, f.of_encode hholds.magic ?_]
    · exact hdecode
    · intro found hfound
      obtain ⟨extension, hextension, hfound⟩ :=
        Option.bind_eq_some_iff.1 hfound
      rw [Format.ofExtension?_eq_some_iff] at hfound
      subst hfound
      rw [hextension] at hname
      rcases hname with hown | ⟨husym, hjson⟩
      · exact Format.extension_inj (Option.some.inj hown)
      · cases found with
        | binary => exact absurd rfl husym
        | json => exact absurd rfl hjson
  · intro other hother hname
    rw [loadGraph_value hread, hoctets, Format.of_extension hname]
    cases hresult : (other.decode (f.encode g)).value with
    | error cause => exact ⟨cause, rfl⟩
    | ok g' => exact absurd (Format.decode_unique hresult hdecode) hother

/-- A graph with a type whose name is how JSON begins. -/
def braceGraph : Graph where
  types := .ofSymbols TypeSymbol.id
    [{ id := 7, name := "\x7b", kind := .base, length := 4 }]
  functions := .empty

/-- A tree with nothing but the binary file of the graph. -/
def braceFiles (name : String) : Files.Tree :=
  Files.Tree.putAt {} [name]
    (octetsToBytes (Format.encode .binary braceGraph))

/-- The extension is that of the format but for its letter case, and then
that of the other format. -/
theorem loadGraph_of_encoded_braceFiles :
    Format.binary.Holds braceGraph
      ∧ (loadGraph (braceFiles "g.USYM") "g.USYM").value = .ok braceGraph
      ∧ ∃ cause, (loadGraph (braceFiles "g.json") "g.json").value
        = .error (.undecodable "g.json" cause) := by
  have hholds : Format.binary.Holds braceGraph := by
    refine ⟨rfl, fun _ => ⟨fun k t hget => (Binary.of_get?_ofSymbols hget).1,
      nofun⟩, fun _ => ⟨fun t ht => ?_, nofun⟩⟩
    obtain rfl := List.mem_singleton.1 ht
    exact ⟨by decide +kernel, by decide, nofun⟩
  have hupper : Files.Tree.opens {} "g.USYM" = .ok ["g.USYM"] := rfl
  have hother : Files.Tree.opens {} "g.json" = .ok ["g.json"] := rfl
  refine ⟨hholds,
    (loadGraph_of_encoded hholds (Files.Tree.read_putAt hupper)).1 ?_,
    (loadGraph_of_encoded hholds (Files.Tree.read_putAt hother)).2 .json nofun
      ?_⟩
  · have hextension : Path.extension? "g.USYM" = some "USYM" := by
      decide +kernel
    rw [hextension]
    exact .inr ⟨by decide, by decide⟩
  · decide +kernel

end SymbolGraph
