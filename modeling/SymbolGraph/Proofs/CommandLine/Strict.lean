/-
What the strict check changes: nothing. A graph that was extracted is
sound, merging keeps it sound, and merging what is merged drops nothing. So
the check lets every graph pass, the graph that is saved behind it is the
graph that is saved without it, and two runs that differ in the check alone
come to one end (`convert_strictly`).
-/
import SymbolGraph.CommandLine.Conversion
import SymbolGraph.Proofs.CommandLine.Options
import SymbolGraph.Proofs.Extract
import SymbolGraph.Proofs.Saving

namespace SymbolGraph.CommandLine

variable {o : Options} {g : Graph} {files : Files.Tree}

-- ========================================================== conversion

/-- A graph that is merged already is staged as it would be before. -/
theorem stage_merge (o : Options) (g : Graph) :
    (stage o g.merge.value.1).value = (stage o g).value := by
  have hmerged := calc
    ({ g.merge.value.1 with format := some o.format } : Graph).merge.value.1
      = { g.merge.value.1.merge.value.1 with format := some o.format } :=
        Graph.merge_withFormat _ _
    _ = { g.merge.value.1 with format := some o.format } := by
        rw [Graph.merge_merge]
    _ = ({ g with format := some o.format } : Graph).merge.value.1 :=
        (Graph.merge_withFormat g _).symm
  have hprepared : ({ g.merge.value.1 with format := some o.format }.prepare
        o.base).value
      = ({ g with format := some o.format }.prepare o.base).value := by
    rw [Graph.prepare_value rfl, Graph.prepare_value rfl, hmerged]
  unfold stage
  rw [Logged.value_bind, Logged.value_bind, hprepared]

/-- The check merges a sound graph, and lets it pass. -/
theorem check_value_of_strict (hstrict : o.strict = true)
    (hsound : g.isSound = true) :
    (check o g).value = .ok g.merge.value.1 := by
  have hverify : g.merge.value.1.verify.value = true :=
    Graph.isSound_merge hsound
  unfold check
  rw [if_pos hstrict, Logged.value_bind]
  dsimp only
  rw [Logged.value_bind, hverify, if_pos rfl]
  rfl

theorem check_value_of_plain (hplain : o.strict = false) (g : Graph) :
    (check o g).value = .ok g := by
  unfold check
  rw [hplain]
  rfl

theorem extractInput_value (o : Options)
    (content : Except Files.Fault ByteArray) :
    (extractInput o content).value
      = ((extractFrom .auto o.input content).value.mapError (unread o)
          >>= fun g => (check o g).value) := by
  unfold extractInput
  rw [Logged.value_bind, Logged.value_bind, Logged.value_bind,
    Logged.value_bind]
  cases (extractFrom .auto o.input content).value with
  | error e => rfl
  | ok g =>
      dsimp only
      split <;> rfl

theorem begin_value (o : Options) (content : Except Files.Fault ByteArray) :
    (begin o content).value
      = ((extractInput o content).value >>= fun g => (stage o g).value) := by
  unfold begin
  rw [Logged.value_bind]
  cases (extractInput o content).value <;> rfl

theorem convert_value (o : Options) (files : Files.Tree) :
    (convert o files).value
      = ((begin o (readWhole files o.input)).value >>= fun c =>
          (conclude o c (files.write c.job.target c.job.content)).value) := by
  unfold convert
  rw [Logged.value_bind]
  cases (begin o (readWhole files o.input)).value <;> rfl

/-- Every type of the graph that a file is extracted as has fewer fields
than 32 bits can count. -/
def Short (files : Files.Tree) (input : String) : Prop :=
  ∀ g, (extract .auto files input).value = .ok g →
    ∀ t ∈ g.types.values, t.fields.length < 2 ^ 32

/-- With the check the graph of the input is merged, and nothing else. -/
theorem extractInput_strictly (hplain : o.strict = false)
    (hshort : Short files o.input) :
    (extractInput o.strictly (readWhole files o.input)).value
      = (extractInput o (readWhole files o.input)).value.map
          fun g => g.merge.value.1 := by
  rw [extractInput_value, extractInput_value]
  show ((extractFrom .auto o.input _).value.mapError (unread o) >>= _) = _
  cases hextract :
      (extractFrom .auto o.input (readWhole files o.input)).value with
  | error e => rfl
  | ok g =>
      have hsound := isSound_of_extractFrom hextract (hshort g hextract)
      show (check o.strictly g).value = (check o g).value.map _
      rw [check_value_of_strict rfl hsound, check_value_of_plain hplain]
      rfl

/-- The check changes nothing about what a conversion comes to. -/
theorem convert_strictly (hplain : o.strict = false)
    (hshort : Short files o.input) :
    (convert o.strictly files).value = (convert o files).value := by
  have hbegin : (begin o.strictly (readWhole files o.input)).value
      = (begin o (readWhole files o.input)).value := by
    rw [begin_value, begin_value, extractInput_strictly hplain hshort]
    cases (extractInput o (readWhole files o.input)).value with
    | error report => rfl
    | ok g => exact stage_merge o g
  rw [convert_value, convert_value]
  show ((begin o.strictly (readWhole files o.input)).value >>= _) = _
  rw [hbegin]
  rfl

-- ================================================================ runs

/-- A run ends as its conversion does. -/
theorem run_of_parse {words : List String} (h : Options.parse words = .ok o)
    (files : Files.Tree) :
    ((run words files).status, (run words files).files) =
      match (convert o files).value with
      | .ok after => (0, after)
      | .error _ => (1, files) := by
  unfold run
  rw [h]
  dsimp only
  cases (convert o files).value <;> rfl

/-- Two command lines that ask for the same, but the second for the strict
check too, end with the same status and leave the same files, whatever the
files were. The check lets every extracted graph pass, merged, and when the
merged graph is saved, merging it again drops nothing and changes
nothing. -/
theorem run_strict {words strictWords : List String}
    (hwords : Options.parse words = .ok o) (hplain : o.strict = false)
    (hstrict : Options.parse strictWords = .ok o.strictly)
    (hshort : Short files o.input) :
    (run strictWords files).status = (run words files).status
      ∧ (run strictWords files).files = (run words files).files
      ∧ ∀ g, (extract .auto files o.input).value = .ok g →
        (check o.strictly g).value = .ok g.merge.value.1
          ∧ ({ g.merge.value.1 with format := some o.format }
              : Graph).merge.value
            = ({ g.merge.value.1 with format := some o.format }, 0) := by
  have hends : ((run strictWords files).status, (run strictWords files).files)
      = ((run words files).status, (run words files).files) := by
    rw [run_of_parse hwords, run_of_parse hstrict,
      convert_strictly hplain hshort]
  refine ⟨congrArg Prod.fst hends, congrArg Prod.snd hends, ?_⟩
  intro g hextract
  have hsound := isSound_of_extractFrom hextract (hshort g hextract)
  refine ⟨check_value_of_strict rfl hsound, ?_⟩
  have hsaved := Graph.merge_withFormat g (some o.format)
  have hagain := Graph.merge_merge { g with format := some o.format }
  rwa [hsaved] at hagain

-- ===================================================== a file with twins

/-- The debug information of two types with one content, and of a structure
with a field of either. -/
def twinInfo : List UInt8 :=
  let u16 := LittleEndian.encode 2
  let u32 := LittleEndian.encode 4
  -- the unit, from place 11 on behind its header
  u32 38 ++ u16 4 ++ u32 0 ++ [8] ++ [1]
    -- the types at 12 and 16
    ++ [2] ++ Bytes.ascii "n" ++ [0, 4] ++ [2] ++ Bytes.ascii "n" ++ [0, 4]
    -- the structure at 20
    ++ [3] ++ Bytes.ascii "S" ++ [0, 8]
    ++ [4] ++ Bytes.ascii "x" ++ [0] ++ u32 12 ++ [0]
    ++ [4] ++ Bytes.ascii "y" ++ [0] ++ u32 16 ++ [4] ++ [0, 0]

/-- What the entries of the information look like: the unit, a base type, a
structure and a member. -/
def twinAbbreviations : List UInt8 :=
  [1, 0x11, 1, 0, 0]
    ++ [2, 0x24, 0, 0x03, 0x08, 0x0b, 0x0b, 0, 0]
    ++ [3, 0x13, 1, 0x03, 0x08, 0x0b, 0x0b, 0, 0]
    ++ [4, 0x0d, 0, 0x03, 0x08, 0x49, 0x13, 0x38, 0x0b, 0, 0, 0]

/-- An object file with two sections, whose long names stand at its end. -/
def twinObject : List UInt8 :=
  let u16 := LittleEndian.encode 2
  let u32 := LittleEndian.encode 4
  let zeros (n : Nat) : List UInt8 := List.replicate n 0
  let info := twinInfo.length
  let abbreviations := twinAbbreviations.length
  u16 0x14c ++ u16 2 ++ zeros 4 ++ u32 (100 + info + abbreviations) ++ zeros 8
    ++ Bytes.ascii "/4" ++ zeros 14 ++ u32 info ++ u32 100 ++ zeros 16
    ++ Bytes.ascii "/16" ++ zeros 13 ++ u32 abbreviations ++ u32 (100 + info)
    ++ zeros 16
    ++ twinInfo ++ twinAbbreviations
    ++ u32 30 ++ Bytes.ascii ".debug_info" ++ [0]
    ++ Bytes.ascii ".debug_abbrev" ++ [0]

def twinFiles : Files.Tree :=
  { files := [(["a"], octetsToBytes twinObject)] }

theorem read_twinFiles :
    twinFiles.read "a" = .ok (octetsToBytes twinObject) := rfl

/-- The file is accepted, and of its three types one is left out when they
are merged. -/
theorem extract_twinFiles :
    ∃ g, (extract .auto twinFiles "a").value = .ok g
      ∧ g.types.keys = [12, 16, 20] ∧ Merge.followers g.types = [16]
      ∧ ∀ t ∈ g.types.values, t.fields.length < 2 ^ 32 := by
  have hextract : (extract .auto twinFiles "a").value
      = (extractFrom .auto "a" (.ok (octetsToBytes twinObject))).value := by
    unfold extract readWhole
    rw [read_twinFiles]
  have hcheck : ((extractFrom .auto "a"
        (.ok (octetsToBytes twinObject))).value.toOption.any
      fun g => g.types.keys = [12, 16, 20]
        ∧ Merge.followers g.types = [16]
        ∧ ∀ t ∈ g.types.values, t.fields.length < 2 ^ 32) = true := by
    decide +kernel
  rw [hextract]
  cases hvalue : (extractFrom .auto "a"
      (.ok (octetsToBytes twinObject))).value with
  | error e =>
      rw [hvalue] at hcheck
      cases hcheck
  | ok g =>
      rw [hvalue] at hcheck
      exact ⟨g, rfl, of_decide_eq_true hcheck⟩

theorem run_strict_twinFiles :
    (run ["--strict", "a"] twinFiles).status = (run ["a"] twinFiles).status
      ∧ (run ["--strict", "a"] twinFiles).files = (run ["a"] twinFiles).files
      ∧ ∃ g, (extract .auto twinFiles "a").value = .ok g
        ∧ g.merge.value.2 ≠ 0
        ∧ (check { input := "a", strict := true } g).value
          = .ok g.merge.value.1 := by
  obtain ⟨g, hextract, -, hfollowers, hshort⟩ := extract_twinFiles
  have hwords : Options.parse ["a"] = .ok { input := "a" } := by rfl
  have hall : Short twinFiles "a" := by
    intro g' hg'
    rw [hextract] at hg'
    cases hg'
    exact hshort
  obtain ⟨hstatus, hfiles, hchecked⟩ :=
    run_strict hwords rfl (parse_strict_cons hwords rfl) hall
  have hpass : (Merge.pass Content.digest g).value.2 = 1 := by
    rw [Merge.pass_value, hfollowers]
    rfl
  have hmerge : g.merge.value.2 ≠ 0 := by
    unfold Graph.merge
    rw [Merge.run_value_of_pass, if_neg (by omega)]
    dsimp only
    omega
  exact ⟨hstatus, hfiles, g, hextract, hmerge, (hchecked g hextract).1⟩

end SymbolGraph.CommandLine
