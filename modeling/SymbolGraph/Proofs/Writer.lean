/-
What a run of a writer comes to, whatever the writer has been through. A
writer keeps the draft of its last run, and no stage of a run clears what it
finds; what makes up for it is that a run begins a blank draft. So a run
goes by what its writer is bound to, the draft apart (`perform_forget`), and
of a history of calls nothing is left in that but the last setup
(`forget_after`).

What is written is the file of the graph, for the draft begun blank is
(`Draft.octets_add_blank`): the octets one behind the other in the binary
format, the members put in their places in the JSON format.
-/
import Mathlib.Data.List.Induction
import SymbolGraph.Proofs.Files.Tree
import SymbolGraph.Writer

namespace SymbolGraph

variable {g : Graph}

/-- Begun blank, the draft of a graph is the file of the graph. -/
theorem Draft.octets_add_blank (f : Format) (g : Graph) :
    ((blank f).add g).octets = f.encode g := by
  cases f <;> rfl

/-- In a draft that is not begun blank, a graph of 22 octets stands twice. -/
example : (((Draft.blank .binary).add {}).add {}).octets.length = 44 := by
  rfl

namespace Writer

variable {w : Writer} {target : String}

-- ============================================================== one run

theorem finish_value {α : Type} (job : Job) (written : Except Files.Fault α) :
    (finish job written).value
      = written.mapError (SaveError.unwritable job.target) := by
  cases written <;> rfl

theorem stage_value (htarget : w.target = some target)
    (hgraph : w.graph = some g) :
    w.stage.value =
      (.ok { target, content := octetsToBytes (w.format.encode g) },
        { w with draft := (Draft.blank w.format).add g }) := by
  unfold stage
  rw [htarget, hgraph]
  dsimp only
  rw [Draft.octets_add_blank]
  rfl

/-- The target is asked for before the graph. -/
theorem perform_of_no_target (htarget : w.target = none)
    (files : Files.Tree) :
    w.perform files = pure (.error .noTarget, w, files) := by
  unfold perform stage
  rw [htarget]
  rfl

theorem perform_of_no_graph (htarget : w.target = some target)
    (hgraph : w.graph = none) (files : Files.Tree) :
    w.perform files = pure (.error .noGraph, w, files) := by
  unfold perform stage
  rw [htarget, hgraph]
  rfl

/-- A writer that is set up writes its graph, if the target can be opened.
The draft is kept in any case. -/
theorem perform_value (htarget : w.target = some target)
    (hgraph : w.graph = some g) (files : Files.Tree) :
    (w.perform files).value =
      let after := { w with draft := (Draft.blank w.format).add g }
      match files.opens target with
      | .error fault => (.error (.unwritable target fault), after, files)
      | .ok place => (.ok (), after,
        files.putAt place (octetsToBytes (w.format.encode g))) := by
  unfold perform
  rw [Logged.value_bind, stage_value htarget hgraph]
  dsimp only
  rw [Logged.value_bind, finish_value, Files.Tree.write]
  cases files.opens target <;> rfl

theorem run_value (htarget : w.target = some target)
    (hgraph : w.graph = some g) (files : Files.Tree) :
    (w.run files).value =
      match files.opens target with
      | .error fault => .error (.unwritable target fault)
      | .ok place =>
        .ok (files.putAt place (octetsToBytes (w.format.encode g))) := by
  unfold run
  rw [Logged.value_bind, perform_value htarget hgraph]
  cases files.opens target <;> rfl

-- ============================================================= histories

/-- The writer as if it had never run. -/
def forget (w : Writer) : Writer := { w with draft := .blank w.format }

/-- The draft of earlier runs takes no part in a run. -/
theorem perform_forget (w : Writer) (files : Files.Tree) :
    (w.forget.perform files).records = (w.perform files).records
      ∧ (w.forget.perform files).value.1 = (w.perform files).value.1
      ∧ (w.forget.perform files).value.2.2 = (w.perform files).value.2.2 := by
  obtain ⟨format, target, graph, draft⟩ := w
  cases target with
  | none => exact ⟨rfl, rfl, rfl⟩
  | some target =>
      cases graph with
      | none => exact ⟨rfl, rfl, rfl⟩
      | some g => exact ⟨rfl, rfl, rfl⟩

/-- A run changes nothing about a writer but its draft. -/
theorem forget_perform (w : Writer) (files : Files.Tree) :
    (w.perform files).value.2.1.forget = w.forget := by
  cases htarget : w.target with
  | none => rw [perform_of_no_target htarget, Logged.value_pure]
  | some target =>
      cases hgraph : w.graph with
      | none => rw [perform_of_no_graph htarget hgraph, Logged.value_pure]
      | some g =>
          rw [perform_value htarget hgraph]
          cases files.opens target <;> rfl

/-- What is called on a writer, and what happens to the files meanwhile. -/
inductive Call where
  | setup (base : String) (graph : Option Graph)
  | run
  /-- Someone else leaves the files like this. -/
  | elsewhere (files : Files.Tree)

/-- The writer and the files after a call. -/
def Call.apply (s : Writer × Files.Tree) : Call → Writer × Files.Tree
  | .setup base graph => (s.1.setup base graph, s.2)
  | .run => (s.1.perform s.2).value.2
  | .elsewhere files => (s.1, files)

/-- The writer and the files after calls, from a new writer on. -/
def after (format : Format) (files : Files.Tree) (calls : List Call) :
    Writer × Files.Tree :=
  calls.foldl Call.apply ({ format }, files)

/-- A new writer on which nothing but the last setup has been called, if
there is one among the calls. -/
def lastSetUp (format : Format) (calls : List Call) : Writer :=
  calls.foldl
    (fun fresh call => match call with
      | .setup base graph => setup { format } base graph
      | _ => fresh)
    { format }

/-- What a call leaves of a writer, its draft apart. -/
theorem forget_apply (s : Writer × Files.Tree) (call : Call) :
    (call.apply s).1.forget = match call with
      | .setup base graph => setup { format := s.1.format } base graph
      | _ => s.1.forget := by
  cases call with
  | setup base graph => rfl
  | run => exact forget_perform s.1 s.2
  | elsewhere files => rfl

theorem format_lastSetUp (format : Format) (calls : List Call) :
    (lastSetUp format calls).format = format := by
  unfold lastSetUp
  refine List.foldlRecOn (motive := fun fresh : Writer => fresh.format = format)
    calls _ rfl fun fresh hfresh call _ => ?_
  cases call with
  | setup base graph => rfl
  | run => exact hfresh
  | elsewhere files => exact hfresh

/-- What calls leave of a new writer, its draft apart: what the last setup
alone makes of one. -/
theorem forget_after (format : Format) (files : Files.Tree)
    (calls : List Call) :
    (after format files calls).1.forget = lastSetUp format calls := by
  induction calls using List.reverseRecOn with
  | nil => rfl
  | append_singleton calls call ih =>
      have hformat : (after format files calls).1.format = format :=
        (congrArg Writer.format ih).trans (format_lastSetUp format calls)
      unfold after at ih hformat ⊢
      unfold lastSetUp at ih ⊢
      rw [List.foldl_concat, List.foldl_concat, forget_apply, ih, hformat]

/-- A run after any calls, with runs that failed among them, and whatever
has become of the files meanwhile. It has the result and leaves the files
and the log records of a run by a new writer of the format that was told the
last setup and nothing else. Without a target it fails for that, then
without a graph, and neither touches the files; otherwise it writes the file
of the graph to its place, and no other, or nothing if the target cannot be
opened. -/
theorem perform_after_calls (format : Format) (start : Files.Tree)
    (calls : List Call) :
    let fresh := lastSetUp format calls
    let files := (after format start calls).2
    let ran := (after format start calls).1.perform files
    let result := ran.value.1
    let left := ran.value.2.2
    ran.records = (fresh.perform files).records
      ∧ result = (fresh.perform files).value.1
      ∧ left = (fresh.perform files).value.2.2
      ∧ match fresh.target, fresh.graph with
        | none, _ => result = .error .noTarget ∧ left = files
        | some _, none => result = .error .noGraph ∧ left = files
        | some target, some graph =>
          match files.opens target with
          | .error fault =>
            result = .error (.unwritable target fault) ∧ left = files
          | .ok place =>
            result = .ok () ∧ files.Puts left place
              (octetsToBytes (format.encode graph)) := by
  intro fresh files ran result left
  have hfresh : (after format start calls).1.forget = fresh :=
    forget_after format start calls
  obtain ⟨hrecords, hresult, hleft⟩ :=
    perform_forget (after format start calls).1 files
  rw [hfresh] at hrecords hresult hleft
  refine ⟨hrecords.symm, hresult.symm, hleft.symm, ?_⟩
  have hresult : result = (fresh.perform files).value.1 := hresult.symm
  have hleft : left = (fresh.perform files).value.2.2 := hleft.symm
  have hformat : fresh.format = format := format_lastSetUp format calls
  rw [hresult, hleft]
  cases htarget : fresh.target with
  | none =>
      rw [perform_of_no_target htarget]
      exact ⟨rfl, rfl⟩
  | some target =>
      cases hgraph : fresh.graph with
      | none =>
          rw [perform_of_no_graph htarget hgraph]
          exact ⟨rfl, rfl⟩
      | some g =>
          rw [perform_value htarget hgraph]
          dsimp only
          cases files.opens target with
          | error fault => exact ⟨rfl, rfl⟩
          | ok place =>
              rw [hformat]
              exact ⟨rfl, files.puts_putAt _ _⟩

end Writer

end SymbolGraph
