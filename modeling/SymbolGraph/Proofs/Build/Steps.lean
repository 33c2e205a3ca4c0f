/-
The steps of a reader. A reader touches the builder by asking for types and for
functions, and everything it does is put together from such calls
(`Build.Within`). What types and what functions a reader may ask for is left
open here: for some readers it matters which ids they have, for others which
handles there are.
-/
import SymbolGraph.Build.Builder

namespace SymbolGraph.Build

variable {σ H ε α : Type}

/-- A step that is put together from calls for these types and these functions
of a reader. -/
inductive Within (source : Source σ H ε) (types : H → Prop)
    (functions : FunctionNode H → Prop) : {α : Type} → Step σ α → Prop
  | pure {α : Type} (a : α) :
      Within source types functions (pure a : Step σ α)
  | lift {α : Type} (l : Logged α) :
      Within source types functions (liftM l : Step σ α)
  /-- Of what was read without the builder, the outcome is known. -/
  | after {α β : Type} {l : Logged α} {f : α → Step σ β} :
      Within source types functions (f l.value) →
      Within source types functions ((liftM l : Step σ α) >>= f)
  | bind {α β : Type} {x : Step σ α} {f : α → Step σ β} :
      Within source types functions x →
      (∀ a, Within source types functions (f a)) →
      Within source types functions (x >>= f)
  | type (h : H) : types h →
      Within source types functions (Builder.type source h)
  | function (node : FunctionNode H) : functions node →
      Within source types functions (Builder.function source node)

variable {source : Source σ H ε} {types : H → Prop}
  {functions : FunctionNode H → Prop}

theorem Within.forM {f : α → Step σ PUnit} {l : List α}
    (h : ∀ a ∈ l, Within source types functions (f a)) :
    Within source types functions (l.forM f) := by
  induction l with
  | nil => exact .pure _
  | cons a l ih =>
      obtain ⟨hfirst, hrest⟩ := List.forall_mem_cons.1 h
      exact hfirst.bind fun _ => ih hrest

end SymbolGraph.Build
