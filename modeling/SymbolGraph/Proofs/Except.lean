/-
Steps that may fail. What comes to a result came to one at every step, whether
the steps carry a place along or leave log records.
-/
import Mathlib.Data.List.Forall2
import SymbolGraph.Logged

namespace SymbolGraph

variable {σ α β ε : Type} {x : Except ε α}

/-- Steps one after the other come to a result just if each does. -/
theorem bind_eq_ok_iff {f : α → Except ε β} {b : β} :
    (x >>= f) = .ok b ↔ ∃ a, x = .ok a ∧ f a = .ok b := by
  cases x with
  | error e => exact ⟨nofun, nofun⟩
  | ok a =>
      constructor
      · exact fun h => ⟨a, rfl, h⟩
      · rintro ⟨_, ⟨⟩, h⟩
        exact h

/-- A step for each of a list comes to the list of what each one comes to. -/
theorem mapM_eq_ok_iff {f : α → Except ε β} {as : List α} {bs : List β} :
    as.mapM f = .ok bs ↔ List.Forall₂ (fun a b => f a = .ok b) as bs := by
  induction as generalizing bs with
  | nil =>
      rw [List.mapM_nil, List.forall₂_nil_left_iff]
      exact ⟨fun h => (Except.ok.inj h).symm, fun h => congrArg Except.ok h.symm⟩
  | cons a as ih =>
      rw [List.mapM_cons, bind_eq_ok_iff, List.forall₂_cons_left_iff]
      constructor
      · rintro ⟨b, hb, h⟩
        obtain ⟨list, hlist, h⟩ := bind_eq_ok_iff.1 h
        exact ⟨b, list, hb, ih.1 hlist, (Except.ok.inj h).symm⟩
      · rintro ⟨b, list, hb, hlist, rfl⟩
        exact ⟨b, hb, bind_eq_ok_iff.2 ⟨list, ih.2 hlist, rfl⟩⟩

theorem run_bind_eq_ok_iff {x : StateT σ (Except ε) α}
    {f : α → StateT σ (Except ε) β} {s s' : σ} {b : β} :
    (x >>= f).run s = .ok (b, s')
      ↔ ∃ a between, x.run s = .ok (a, between)
        ∧ (f a).run between = .ok (b, s') := by
  rw [StateT.run_bind, bind_eq_ok_iff, Prod.exists]

/-- Steps go on with what the one before them left. -/
theorem run_bind_ok {x : StateT σ (Except ε) α}
    {f : α → StateT σ (Except ε) β} {s between : σ} {a : α}
    (h : x.run s = .ok (a, between)) :
    (x >>= f).run s = (f a).run between := by
  rw [StateT.run_bind, h]
  rfl

theorem run_pure_eq_ok_iff {s s' : σ} {a b : α} :
    (pure a : StateT σ (Except ε) α).run s = .ok (b, s') ↔ a = b ∧ s = s' := by
  rw [StateT.run_pure]
  show Except.ok (a, s) = Except.ok (b, s') ↔ _
  rw [Except.ok.injEq, Prod.mk.injEq]

theorem value_bind_eq_ok_iff {x : ExceptT ε Logged α}
    {f : α → ExceptT ε Logged β} {b : β} :
    (x >>= f).run.value = .ok b
      ↔ ∃ a, x.run.value = .ok a ∧ (f a).run.value = .ok b := by
  rw [ExceptT.run_bind, Logged.value_bind]
  cases x.run.value with
  | error e => exact ⟨nofun, nofun⟩
  | ok a =>
      constructor
      · exact fun h => ⟨a, rfl, h⟩
      · rintro ⟨_, ⟨⟩, h⟩
        exact h

/-- What only leaves log records does not fail. -/
theorem value_lift_eq_ok {x : Logged α} {a : α} (h : x.value = a) :
    (liftM x : ExceptT ε Logged α).run.value = .ok a := by
  rw [← h]
  rfl

theorem value_bind_of_ok {x : ExceptT ε Logged α} {a : α}
    (h : x.run.value = .ok a) (f : α → ExceptT ε Logged β) :
    (x >>= f).run.value = (f a).run.value := by
  rw [ExceptT.run_bind, Logged.value_bind, h]

theorem value_bind_of_error {x : ExceptT ε Logged α} {e : ε}
    (h : x.run.value = .error e) (f : α → ExceptT ε Logged β) :
    (x >>= f).run.value = .error e := by
  rw [ExceptT.run_bind, Logged.value_bind, h]
  rfl

/-- A composed value depends on the value of its first step only. -/
theorem value_bind_congr {x y : ExceptT ε Logged α}
    (h : x.run.value = y.run.value) (f : α → ExceptT ε Logged β) :
    (x >>= f).run.value = (y >>= f).run.value := by
  rw [ExceptT.run_bind, ExceptT.run_bind, Logged.value_bind,
    Logged.value_bind, h]

theorem toOption_eq_some_iff {a : α} : x.toOption = some a ↔ x = .ok a := by
  cases x with
  | error e => exact ⟨nofun, nofun⟩
  | ok b => exact ⟨fun h => congrArg _ (Option.some.inj h),
      fun h => congrArg _ (Except.ok.inj h)⟩

/-- What is no error is a result. -/
theorem eq_ok_of_ne_error (h : ∀ e, x ≠ .error e) : ∃ a, x = .ok a := by
  cases x with
  | error e => exact absurd rfl (h e)
  | ok a => exact ⟨a, rfl⟩

/-- A success is no error under another name. -/
theorem eq_ok_of_mapError {ε' : Type} {f : ε → ε'} {a : α}
    (h : x.mapError f = .ok a) : x = .ok a := by
  cases x with
  | error e => cases h
  | ok b => exact congrArg Except.ok (Except.ok.inj h)

end SymbolGraph
