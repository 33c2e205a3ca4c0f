/-
The handles of both readers. The builder believes that all handles of a type
are alike, and keeps what the first of them led to. It may: in a unit, as in a
database, an id is found at the end of a chain, a description begins there, and
neither takes anything along from the way. How the chains run, whether they
meet, jump ahead to a definition or are given up, makes no difference.

In a unit every offset is a handle. Of a database only those handles count that
are created, since an alias could be given an id of any kind.
-/
import SymbolGraph.Proofs.Dwarf.Places
import SymbolGraph.Proofs.Pdb.Handles

namespace SymbolGraph

-- ================================================================= units

namespace Dwarf.Unit

variable {u : Unit} {handle handle' : Nat} {id : UInt32}

/-- Handles with one id lead to one offset. -/
theorem unqualified_of_typeId (h : (u.typeId handle).value = some id)
    (h' : (u.typeId handle').value = some id) :
    (u.unqualified handle).run.value = (u.unqualified handle').run.value := by
  obtain ⟨offset, hoffset, hid⟩ := typeId_eq_some_iff.1 h
  obtain ⟨offset', hoffset', hid'⟩ := typeId_eq_some_iff.1 h'
  have hplace : id.toNat = u.header.start + offset := toNat_of_idAt hid
  have hplace' : id.toNat = u.header.start + offset' := toNat_of_idAt hid'
  have hsame : offset = offset' := by omega
  rw [hoffset, hoffset', hsame]

/-- Nothing but the offset behind the qualifiers is described. -/
theorem describe_of_unqualified
    (h : (u.unqualified handle).run.value
      = (u.unqualified handle').run.value) :
    (u.describe handle).run.value = (u.describe handle').run.value := by
  unfold describe
  exact value_bind_congr h _

/-- In a unit, all handles of a type stand for each other. -/
theorem interchangeable_source (u : Unit) :
    u.source.Interchangeable fun _ => True := by
  apply Build.interchangeable_of_describe
  · exact fun _ _ _ _ _ _ _ => trivial
  · intro handle handle' id _ _ hid hid' st
    have hvalue : (u.describe handle).run.value
        = (u.describe handle').run.value :=
      describe_of_unqualified (unqualified_of_typeId hid hid')
    show ((u.describe handle).run.value, st) = (_, st)
    rw [hvalue]
  · exact fun _ _ _ => rfl

end Dwarf.Unit

-- =============================================================== readers

/-- Both readers may be asked for a type by any of its handles. In a unit these
are all offsets, and in a database those that its construction asks for. -/
theorem handles_interchangeable (u : Dwarf.Unit) (c : Pdb.Container)
    (table : Pdb.TypeTable) (pointerSize : Nat)
    (hindices : table.minimum + table.records.size ≤ 0x80000000) :
    let t := Pdb.Types.ofTable table pointerSize
    u.source.Interchangeable (fun _ => True)
      ∧ t.source.Interchangeable (Pdb.Created c t)
      ∧ t.Within c (Pdb.build c t) :=
  ⟨u.interchangeable_source,
    Pdb.interchangeable_source hindices,
    Pdb.within_build c _⟩

/-- Two entries, the second of which is the first one qualified. -/
def qualifiedUnit : Dwarf.Unit where
  sections := {
    order := .little, info := ⟨#[0, 1, 2, 1]⟩, abbreviations := .empty
    addr := .empty, line := .empty, lineStr := .empty, str := .empty
    strOffsets := .empty, ranges := .empty, rnglists := .empty }
  header := {
    start := 0, abbrevOffset := 0, entries := 1, stop := 4
    encoding := { version := 4, addressSize := 8, wide := false } }
  abbreviations := [
    { code := 1, tag := Dwarf.Tag.baseType, hasChildren := false
      attributes := [] },
    { code := 2, tag := Dwarf.Tag.constType, hasChildren := false
      attributes := [{ name := Dwarf.Attr.type, form := 0x11 }] }]

/-- A qualified structure, its announcement, and its definition. -/
def announcedTable : Pdb.TypeTable where
  minimum := 0x1000
  maximum := 0x1003
  records := #[
    .ok (.wrapper 0x1001),
    .ok (.aggregate .struct
      { forward := true, name := "node", uniqueName := none } none 0),
    .ok (.aggregate .struct
      { forward := false, name := "node", uniqueName := none } none 4)]

/-- The entry may be asked for with its qualifier, and the definition by way
of what is behind the qualifier there. -/
theorem handles_interchangeable_announcedTable :
    let u := qualifiedUnit
    let t := Pdb.Types.ofTable announcedTable 8
    announcedTable.minimum + announcedTable.records.size ≤ 0x80000000
      ∧ (u.source.typeId 1).value = some 1
      ∧ (u.source.typeId 2).value = some 1
      ∧ (∀ depth s, (Build.type u.source depth 1 s).value
        = (Build.type u.source depth 2 s).value)
      ∧ (t.source.typeId (.type 0x1000)).value = some 0x1002
      ∧ (t.source.typeId (.type 0x1002)).value = some 0x1002
      ∧ ∀ depth s, (Build.type t.source depth (.type 0x1000) s).value
        = (Build.type t.source depth (.type 0x1002) s).value := by
  intro u t
  have hindices :
      announcedTable.minimum + announcedTable.records.size ≤ 0x80000000 := by
    decide
  have hplain : (u.source.typeId 1).value = some 1 := by rfl
  have hqualified : (u.source.typeId 2).value = some 1 := by rfl
  have hwrapper : (t.source.typeId (.type 0x1000)).value = some 0x1002 := by
    decide
  have hdefinition : (t.source.typeId (.type 0x1002)).value = some 0x1002 := by
    decide
  obtain ⟨hunit, htable, -⟩ := handles_interchangeable u
    ⟨.empty, 0, 0, 0, []⟩ announcedTable 8 hindices
  exact ⟨hindices, hplain, hqualified,
    hunit.built 1 2 1 trivial trivial hplain hqualified, hwrapper, hdefinition,
    htable.built _ _ 0x1002 (.type _) (.type _) hwrapper hdefinition⟩

end SymbolGraph
