/-
What building a function does. The types of its signature are built one
after another (`FunctionNode.places`), and the symbol is put together from
the answers (`functionOf`), 0 wherever there is none. A function that is
stored already is left alone, and none of its types is looked at.
-/
import SymbolGraph.Proofs.Build.Derivation

namespace SymbolGraph

variable {σ H ε α β : Type}

-- =============================================================== places

/-- The places of a list of declared arguments; a leading one without a
usable type has none. -/
def Build.argumentPlaces : Bool → List (Argument H) → List (Option H)
  | _, [] => []
  | _, .typed handle :: rest => some handle :: argumentPlaces false rest
  | leading, .untyped handle :: rest =>
    if leading then argumentPlaces false rest
    else handle :: argumentPlaces false rest

/-- The places of a signature: the return type, the receiver if there is
one, and the arguments. -/
def FunctionNode.places (node : FunctionNode H) : List (Option H) :=
  [node.returnType]
    ++ (node.receiver.toList.map some
      ++ Build.argumentPlaces true node.arguments)

namespace Build

/-- The ids of a signature's places, 0 where there is none. -/
def signatureIds (places : List (Option H)) (answers : List (Option UInt32)) :
    List UInt32 :=
  fill 0 (fun _ answer => answer.getD 0) places answers

/-- The symbol of a function whose signature was answered. -/
def functionOf (node : FunctionNode H) (answers : List (Option UInt32)) :
    FunctionSymbol :=
  let ids := signatureIds node.places answers
  { id := node.id, name := node.name, returnType := ids.headD 0,
    argumentCount := count32 ids.tail.length, argumentTypes := ids.tail,
    convention := node.convention, address := node.address }

/-- The references of a function are the ids of its signature. -/
theorem functionOf_references (node : FunctionNode H)
    (answers : List (Option UInt32)) :
    (functionOf node answers).references
      = signatureIds node.places answers := by
  unfold functionOf FunctionNode.places
  cases node.returnType with
  | none => rfl
  | some h => cases answers <;> rfl

theorem fill_append (missing : β) (result : α → Option UInt32 → β)
    (places places' : List (Option α)) (answers answers' : List (Option UInt32))
    (h : answers.length = (places.filterMap id).length) :
    fill missing result (places ++ places') (answers ++ answers')
      = fill missing result places answers
        ++ fill missing result places' answers' := by
  induction places generalizing answers with
  | nil =>
      have hnil : answers = [] := by simpa using h
      rw [hnil]
      rfl
  | cons place places ih =>
      cases place with
      | none => simp [fill, ih answers (by simpa using h)]
      | some a =>
          cases answers with
          | nil => simp at h
          | cons answer answers =>
              simp [fill, ih answers (by simpa using h)]

-- =========================================================== resolution

section Resolution

variable {source : Source σ H ε} {s : Builder × σ}

/-- The places are resolved by a derivation of the handles in them. -/
def Resolves (source : Source σ H ε) (places : List (Option H))
    (s : Builder × σ) (r : List UInt32 × (Builder × σ)) : Prop :=
  ∃ answers, Builds source (places.filterMap id) s answers r.2
    ∧ r.1 = signatureIds places (answers.map Except.toOption)

theorem Resolves.inProgress_eq {places : List (Option H)}
    {r : List UInt32 × (Builder × σ)} (h : Resolves source places s r) :
    r.2.1.inProgress = s.1.inProgress := by
  obtain ⟨answers, hbuilds, -⟩ := h
  exact hbuilds.inProgress_eq

theorem Resolves.append {places places' : List (Option H)}
    {r r' : List UInt32 × (Builder × σ)} (h : Resolves source places s r)
    (h' : Resolves source places' r.2 r') :
    Resolves source (places ++ places') s (r.1 ++ r'.1, r'.2) := by
  obtain ⟨answers, hbuilds, hids⟩ := h
  obtain ⟨answers', hbuilds', hids'⟩ := h'
  refine ⟨answers ++ answers', ?_, ?_⟩
  · rw [List.filterMap_append]
    exact hbuilds.append hbuilds'
  · rw [hids, hids', List.map_append]
    unfold signatureIds
    rw [fill_append]
    rw [List.length_map, hbuilds.length_eq]

variable (source)

theorem signatureType_value (function : String) (h : H) (s : Builder × σ) :
    (signatureType source function h s).value
      = (((Builder.type source h s).value.1.toOption).getD 0,
          (Builder.type source h s).value.2) := by
  simp only [signatureType, step_bind]
  cases (Builder.type source h s).value.1 <;> rfl

theorem signatureType_resolves (function : String) (h : H)
    (hidle : s.1.inProgress = []) :
    Resolves source [some h] s
      ([(signatureType source function h s).value.1],
        (signatureType source function h s).value.2) := by
  rw [signatureType_value]
  exact ⟨[(Builder.type source h s).value.1],
    builderType_builds source h s hidle, rfl⟩

theorem optionalType_resolves (function : String) (place : Option H)
    (hidle : s.1.inProgress = []) :
    Resolves source [place] s
      ([(optionalType source function place s).value.1],
        (optionalType source function place s).value.2) := by
  cases place with
  | none => exact ⟨[], .nil, rfl⟩
  | some h => exact signatureType_resolves source function h hidle

theorem receiverTypes_resolves (function : String) (receiver : Option H)
    (hidle : s.1.inProgress = []) :
    Resolves source (receiver.toList.map some) s
      (receiverTypes source function receiver s).value := by
  cases receiver with
  | none => exact ⟨[], .nil, rfl⟩
  | some h => exact signatureType_resolves source function h hidle

theorem argumentTypes_resolves (function : String) (leading : Bool)
    (arguments : List (Argument H)) (s : Builder × σ)
    (hidle : s.1.inProgress = []) :
    Resolves source (argumentPlaces leading arguments) s
      (argumentTypes source function leading arguments s).value := by
  induction arguments generalizing leading s with
  | nil => exact ⟨[], .nil, rfl⟩
  | cons argument rest ih =>
      cases argument with
      | typed h =>
          have hfirst := signatureType_resolves source function h hidle
          have hrest := ih false _ (hfirst.inProgress_eq.trans hidle)
          simp only [argumentTypes, step_bind, step_pure]
          exact hfirst.append hrest
      | untyped place =>
          cases leading with
          | true => exact ih false s hidle
          | false =>
              have hfirst := optionalType_resolves source function place hidle
              have hrest := ih false _ (hfirst.inProgress_eq.trans hidle)
              simp only [argumentTypes, Bool.false_eq_true, if_false,
                step_bind, step_pure]
              exact hfirst.append hrest

end Resolution

-- ============================================================ functions

section Functions

variable (source : Source σ H ε) {s : Builder × σ}

/-- A function that is stored is left alone. -/
theorem function_value_of_contains {node : FunctionNode H}
    (h : s.1.graph.functions.contains node.id = true) :
    (Builder.function source node s).value = (node.id, s) := by
  simp only [Builder.function, step_bind]
  split
  case isTrue => rfl
  case isFalse hnew => exact absurd h hnew

/-- A function that is not stored is put together from a derivation of
its signature, and stored. -/
theorem function_builds {node : FunctionNode H} (hidle : s.1.inProgress = [])
    (h : s.1.graph.functions.contains node.id = false) :
    ∃ answers inner,
      Builds source (node.places.filterMap id) s answers inner
      ∧ (Builder.function source node s).value
        = (node.id, (inner.1.storeFunction node.id
            (functionOf node (answers.map Except.toOption)), inner.2)) := by
  simp only [Builder.function, step_bind]
  split
  case isTrue hold => exact absurd (h.symm.trans hold) Bool.false_ne_true
  case isFalse =>
    simp only [step_bind, step_get, step_lift, step_update, step_pure]
    have hreturn :=
      optionalType_resolves source node.name node.returnType hidle
    have hreceiver := receiverTypes_resolves source node.name node.receiver
      (hreturn.inProgress_eq.trans hidle)
    have harguments := argumentTypes_resolves source node.name true
      node.arguments _
      (hreceiver.inProgress_eq.trans (hreturn.inProgress_eq.trans hidle))
    obtain ⟨answers, hbuilds, hids⟩ :=
      hreturn.append (hreceiver.append harguments)
    refine ⟨answers, _, hbuilds, ?_⟩
    unfold functionOf FunctionNode.places
    rw [← hids]
    rfl

end Functions

end Build

end SymbolGraph
