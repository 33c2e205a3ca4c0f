/-
What a write does to a tree of files: it puts one file in its place and
changes nothing else (`Puts`), and the path that was written is read back
(`read_putAt`), wherever the path starts and whatever is out of reach. A file
can stand in the way of a path, so the second needs an argument: every place
on the way to the file is a folder, and a file is never put in place of a
folder.
-/
import SymbolGraph.Files.Tree
import SymbolGraph.Proofs.Table

namespace SymbolGraph.Files.Tree

variable {t : Tree} {place q : Place} {path : String} {data : ByteArray}

/-- One file has been written, and nothing else has changed. -/
structure Puts (t after : Tree) (q : Place) (data : ByteArray) : Prop where
  rest : after = { t with files := after.files }
  written : after.files.lookup q = some data
  others : ∀ p, p ≠ q → after.files.lookup p = t.files.lookup p

theorem lookup_putAt (t : Tree) (q p : Place) (data : ByteArray) :
    (t.putAt q data).files.lookup p
      = if p = q then some data else t.files.lookup p := by
  have hfilter : p ≠ q → (t.files.filter fun f => f.1 ≠ q).lookup p
      = t.files.lookup p := by
    intro hp
    induction t.files with
    | nil => rfl
    | cons f files ih =>
        by_cases hf : f.1 = q
        · rw [List.filter_cons_of_neg (by simp [hf]), ih,
            Table.lookup_cons_ite, if_neg (hf ▸ hp)]
        · rw [List.filter_cons_of_pos (by simp [hf]), Table.lookup_cons_ite,
            Table.lookup_cons_ite, ih]
  show ((q, data) :: t.files.filter fun f => f.1 ≠ q).lookup p = _
  rw [Table.lookup_cons_ite]
  by_cases hp : p = q
  · rw [if_pos hp, if_pos hp]
  · rw [if_neg hp, if_neg hp, hfilter hp]

theorem puts_putAt (t : Tree) (q : Place) (data : ByteArray) :
    t.Puts (t.putAt q data) q data where
  rest := rfl
  written := by rw [lookup_putAt, if_pos rfl]
  others p hp := by rw [lookup_putAt, if_neg hp]

-- ====================================================== reading it back

/-- A step is taken from a folder that no file stands in place of, to a place
that is not out of reach. -/
theorem walk_cons_eq_ok_iff {part : String} {parts : List String}
    {result : Place} :
    t.walk place (part :: parts) = .ok result
      ↔ t.hasFile place = false ∧ t.hasFolder place = true
        ∧ t.barred (place.step part) = none
        ∧ t.walk (place.step part) parts = .ok result := by
  rw [walk]
  cases t.hasFile place with
  | true => simp
  | false =>
      cases t.hasFolder place with
      | false => simp
      | true => cases t.barred (place.step part) <;> simp

theorem hasFile_putAt_of_folder (hq : t.hasFolder q = false)
    (hplace : t.hasFolder place = true) :
    (t.putAt q data).hasFile place = t.hasFile place := by
  have hne : place ≠ q := by
    rintro rfl
    exact Bool.false_ne_true (hq.symm.trans hplace)
  unfold hasFile
  rw [lookup_putAt, if_neg hne]

/-- The way to a place leads over folders, and a file elsewhere does not
stand in it. -/
theorem walk_putAt {parts : List String} {result : Place}
    (hq : t.hasFolder q = false) (h : t.walk place parts = .ok result) :
    (t.putAt q data).walk place parts = .ok result := by
  induction parts generalizing place with
  | nil => exact h
  | cons part parts ih =>
      rw [walk_cons_eq_ok_iff] at h ⊢
      obtain ⟨hfile, hfolder, hbarred, hrest⟩ := h
      exact ⟨(hasFile_putAt_of_folder hq hfolder).trans hfile, hfolder, hbarred,
        ih hrest⟩

/-- What can be opened: the place is that of the path, no folder is there,
and the path does not ask for one. -/
theorem of_opens (h : t.opens path = .ok q) :
    t.locate path = .ok q ∧ t.hasFolder q = false
      ∧ Path.namesFolder path = false := by
  unfold opens at h
  cases hlocate : t.locate path with
  | error fault =>
      rw [hlocate] at h
      cases h
  | ok place =>
      rw [hlocate] at h
      have h : (if (t.hasFolder place || Path.namesFolder path) = true
        then Except.error Fault.isFolder else .ok place) = .ok q := h
      split at h
      case isTrue => cases h
      case isFalse hnot =>
        cases h
        rw [Bool.not_eq_true, Bool.or_eq_false_iff] at hnot
        exact ⟨rfl, hnot⟩

theorem locate_putAt (h : t.opens path = .ok q) :
    (t.putAt q data).locate path = .ok q := by
  obtain ⟨hlocate, hfolder, -⟩ := of_opens h
  unfold locate at hlocate ⊢
  split_ifs at hlocate ⊢
  exact walk_putAt hfolder hlocate

/-- A file that has been written is read back under its path. -/
theorem read_putAt (h : t.opens path = .ok q) :
    (t.putAt q data).read path = .ok data := by
  obtain ⟨-, -, hname⟩ := of_opens h
  unfold read
  rw [locate_putAt h]
  dsimp only [bind, Except.bind]
  rw [(t.puts_putAt q data).written]
  dsimp only
  rw [hname, if_neg Bool.false_ne_true]

/-- A file in a folder from the top down, and one above the current folder. -/
example : ({ folders := [["tmp"]] } : Tree).opens "/tmp/a.json"
    = .ok ["tmp", "a.json"] := by rfl

example : ({ folders := [["home"]], current := ["home"] } : Tree).opens
    "../a.json" = .ok ["a.json"] := by rfl

end SymbolGraph.Files.Tree
