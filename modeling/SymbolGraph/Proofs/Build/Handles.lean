/-
Handles of one type. The builder keeps a type under its id, and so takes the
first handle of a type for all others. Whether that is sound is a matter of the
reader: all handles that it creates for a type must be described alike
(`Source.Interchangeable`). The ids of fields may be fresh with every
description, so nodes are compared without them, and exactly only where the
reader is in the same state. That is enough: at any moment of a construction,
and at any depth, one handle of a type may then be put in the place of another,
and all that is built is the same (`type_value_congr`).
-/
import SymbolGraph.Proofs.Build.Derivation

namespace SymbolGraph

variable {σ H ε : Type}

-- =============================================================== readers

def Shape.withoutIds : Shape H → Shape H
  | .aggregate kind members =>
    .aggregate kind (members.map (Option.map fun f => { f with id := 0 }))
  | shape => shape

/-- A node apart from the ids of its fields. -/
def Node.withoutIds (node : Node H) : Node H :=
  { node with shape := node.shape.withoutIds }

/-- The handles that a reader creates, where those of one type may stand for
each other. -/
structure Source.Interchangeable (source : Source σ H ε) (created : H → Prop) :
    Prop where
  /-- The links of a type are such handles. -/
  links : ∀ h st node, created h → (source.describe h st).value.1 = .ok node →
    ∀ link ∈ node.shape.links, created link
  /-- In one state the reader describes them by one node, or none of them. -/
  described : ∀ h h' id, created h → created h' →
    (source.typeId h).value = some id → (source.typeId h').value = some id →
    ∀ st, (source.describe h st).value = (source.describe h' st).value
  /-- Whatever the reader went through before, the nodes differ in the ids of
  their fields only. -/
  alike : ∀ h h' id st st', created h → created h' →
    (source.typeId h).value = some id → (source.typeId h').value = some id →
    (source.describe h st).value.1.map Node.withoutIds
      = (source.describe h' st').value.1.map Node.withoutIds
  /-- What is built does not depend on which of them is asked for. -/
  built : ∀ h h' id, created h → created h' →
    (source.typeId h).value = some id → (source.typeId h').value = some id →
    ∀ depth s, (Build.type source depth h s).value
      = (Build.type source depth h' s).value

namespace Build

variable {source : Source σ H ε} {created : H → Prop} {h h' : H}

/-- Handles with one id and one description build the same. -/
theorem type_value_congr
    (hid : (source.typeId h).value = (source.typeId h').value)
    (hdescribe : ∀ st,
      (source.describe h st).value = (source.describe h' st).value)
    (depth : Nat) (s : Builder × σ) :
    (type source depth h s).value = (type source depth h' s).value := by
  cases depth with
  | zero => rfl
  | succ depth =>
      simp only [type, step_bind, step_lift, hid]
      cases (source.typeId h').value with
      | none => rfl
      | some id =>
          by_cases hzero : id = 0
          · simp only [if_pos hzero, step_pure]
          · simp only [if_neg hzero, step_bind]
            split
            · rfl
            · simp only [step_bind, step_lift, step_get, step_set, hdescribe]

/-- It is enough that handles of one type have one description in each state,
and that the state shows in the ids of fields only. -/
theorem interchangeable_of_describe
    (hlinks : ∀ h st node, created h →
      (source.describe h st).value.1 = .ok node →
      ∀ link ∈ node.shape.links, created link)
    (hdescribe : ∀ h h' id, created h → created h' →
      (source.typeId h).value = some id → (source.typeId h').value = some id →
      ∀ st, (source.describe h st).value = (source.describe h' st).value)
    (hstate : ∀ h st st', (source.describe h st).value.1.map Node.withoutIds
      = (source.describe h st').value.1.map Node.withoutIds) :
    source.Interchangeable created where
  links := hlinks
  described := hdescribe
  alike h h' id st st' hh hh' hid hid' := by
    rw [hstate h st st', hdescribe h h' id hh hh' hid hid']
  built h h' id hh hh' hid hid' :=
    type_value_congr (hid.trans hid'.symm) (hdescribe h h' id hh hh' hid hid')

end Build

end SymbolGraph
