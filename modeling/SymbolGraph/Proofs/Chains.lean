/-
Chains of steps, counted. What follows references does so under a bound, and
either comes to where there is no further step before the bound is reached, or
meets the bound. From where a circle is reached there is always a further step.
-/
import Mathlib.Logic.Relation

namespace SymbolGraph

open Relation (ReflTransGen TransGen)

variable {α : Type} {step : α → α → Prop} {a last : α} {n : Nat}

/-- So many steps lead from one place to another. -/
inductive Chain (step : α → α → Prop) : Nat → α → α → Prop
  | here {a : α} : Chain step 0 a a
  | next {n : Nat} {a b last : α} : step a b → Chain step n b last →
      Chain step (n + 1) a last

/-- A chain comes to its end within the bound, or it lasts as long. -/
theorem Chain.ends_or_lasts (step : α → α → Prop) (bound : Nat) (a : α) :
    (∃ n < bound, ∃ last, Chain step n a last ∧ ∀ b, ¬ step last b)
      ∨ ∃ last, Chain step bound a last := by
  induction bound generalizing a with
  | zero => exact .inr ⟨a, .here⟩
  | succ bound ih =>
      by_cases hstep : ∃ b, step a b
      · obtain ⟨b, hstep⟩ := hstep
        rcases ih b with ⟨n, hn, last, hchain, hend⟩ | ⟨last, hchain⟩
        · exact .inl ⟨n + 1, Nat.succ_lt_succ hn, last, .next hstep hchain, hend⟩
        · exact .inr ⟨last, .next hstep hchain⟩
      · exact .inl ⟨0, Nat.succ_pos _, a, .here, not_exists.1 hstep⟩

/-- A place that leads into a circle has chains of every length. -/
theorem Chain.exists_of_circle {middle : α}
    (hlead : ReflTransGen step a middle) (hcircle : TransGen step middle middle)
    (n : Nat) : ∃ last, Chain step n a last := by
  induction n generalizing a middle with
  | zero => exact ⟨a, .here⟩
  | succ n ih =>
      rcases hlead.cases_head with rfl | ⟨b, hstep, hlead⟩
      · obtain ⟨b, hstep, hback⟩ := TransGen.head'_iff.1 hcircle
        obtain ⟨last, hchain⟩ := ih hback hcircle
        exact ⟨last, .next hstep hchain⟩
      · obtain ⟨last, hchain⟩ := ih hlead hcircle
        exact ⟨last, .next hstep hchain⟩

end SymbolGraph
