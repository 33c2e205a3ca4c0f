/-
Saving a graph, all of it: which of its four ends a save comes to, what is
left of graph and files, and whether the file can be loaded again. Without
a format nothing happens. With one, the graph is merged first, and stays
merged whatever comes after; then the base must name a target, and the
target must be a file that can be opened. Only then something is written.
-/
import SymbolGraph.Proofs.Loader
import SymbolGraph.Proofs.Merge.Kept
import SymbolGraph.Proofs.Writer
import SymbolGraph.Workspace

namespace SymbolGraph

variable {g : Graph} {format : Format}

-- ============================================================== saving

namespace Graph

/-- Where no format is selected. -/
theorem save_value_of_none (h : g.format = none) (base : String)
    (files : Files.Tree) :
    (g.save base files).value = (g, .error .noFormat) := by
  unfold save prepare
  rw [h]
  rfl

/-- What is prepared for a base: the merged graph, and a writer that is set
up with it. -/
theorem prepare_value (h : g.format = some format) (base : String) :
    (g.prepare base).value = (g.merge.value.1,
      .ok { format, target := Writer.targetOf format base
            graph := some g.merge.value.1 }) := by
  unfold prepare
  rw [h, Logged.value_bind]
  obtain ⟨merged, removed⟩ := g.merge.value
  dsimp only
  rw [Logged.value_bind, Logged.value_bind]
  -- whatever the check says, the graph is written
  cases merged.verify.value <;> rfl

theorem save_value (h : g.format = some format) (base : String)
    (files : Files.Tree) :
    (g.save base files).value = (g.merge.value.1,
      if base = "" then .error .noTarget
      else
        match files.opens (base ++ "." ++ format.extension) with
        | .error fault =>
          .error (.unwritable (base ++ "." ++ format.extension) fault)
        | .ok place => .ok (files.putAt place
            (octetsToBytes (format.encode g.merge.value.1)))) := by
  unfold save
  rw [Logged.value_bind, prepare_value h]
  dsimp only
  rw [Logged.value_bind, Logged.value_pure]
  by_cases hbase : base = ""
  · have htarget : Writer.targetOf format base = none := if_pos hbase
    rw [if_pos hbase, htarget]
    rfl
  · have htarget : Writer.targetOf format base
        = some (base ++ "." ++ format.extension) := if_neg hbase
    cases hopens : files.opens (base ++ "." ++ format.extension) <;>
      rw [if_neg hbase, htarget, Writer.run_value rfl rfl, hopens]

end Graph

/-- A format that can hold a graph can hold it merged. -/
theorem Format.Holds.merge (h : format.Holds g) :
    format.Holds g.merge.value.1 where
  magic := g.merge_header ▸ h.magic
  indexed hbinary := (h.indexed hbinary).merge
  countable hbinary := (h.countable hbinary).merge

-- =========================================================== workspaces

namespace Workspace

theorem run_save_value (w : Workspace) (base : String) :
    (w.run (.graph (.save base))).value =
      match (w.graph.save base w.files).value with
      | (graph, .ok files) => (.done, { w with graph, files })
      | (graph, .error e) => (.saveFailed e, { w with graph }) := by
  show (w.edit (.save base)).value = _
  unfold edit
  rw [Logged.value_bind]
  obtain ⟨graph, written⟩ := (w.graph.save base w.files).value
  cases written <;> rfl

/-- Saving, from any workspace and for any base. Without a format it
changes nothing. With one the graph is merged in any case, and nothing but
graph and files changes. An empty base, and a target that cannot be opened,
leave the files alone. Otherwise one file is written, the target, with the
merged graph, and loading the target gives the header and the tables of the
graph at hand back if and only if the format can hold it, which it can if
it could hold the graph before. -/
theorem run_save (w : Workspace) (base : String) :
    let reply := (w.run (.graph (.save base))).value.1
    let after := (w.run (.graph (.save base))).value.2
    match w.graph.format with
    | none => reply = .saveFailed .noFormat ∧ after = w
    | some format =>
      let target := base ++ "." ++ format.extension
      after = { w with graph := w.graph.merge.value.1, files := after.files }
      ∧ if base = "" then
          reply = .saveFailed .noTarget ∧ after.files = w.files
        else
          match w.files.opens target with
          | .error fault =>
            reply = .saveFailed (.unwritable target fault)
              ∧ after.files = w.files
          | .ok place =>
            reply = .done
              ∧ w.files.Puts after.files place
                  (octetsToBytes (format.encode after.graph))
              ∧ ((loadGraph after.files target).value
                  = .ok { after.graph with format := none }
                ↔ format.Holds after.graph)
              ∧ (format.Holds w.graph → format.Holds after.graph) := by
  dsimp only
  rw [run_save_value]
  cases hformat : w.graph.format with
  | none =>
      rw [Graph.save_value_of_none hformat]
      exact ⟨rfl, rfl⟩
  | some format =>
      rw [Graph.save_value hformat]
      dsimp only
      by_cases hbase : base = ""
      · rw [if_pos hbase, if_pos hbase]
        exact ⟨rfl, rfl, rfl⟩
      · rw [if_neg hbase, if_neg hbase]
        cases hopens : w.files.opens (base ++ "." ++ format.extension) with
        | error fault => exact ⟨rfl, rfl, rfl⟩
        | ok place =>
            refine ⟨rfl, rfl, Files.Tree.puts_putAt _ _ _, ?_,
              Format.Holds.merge⟩
            exact loadGraph_target_iff (Files.Tree.read_putAt hopens)

end Workspace

end SymbolGraph
