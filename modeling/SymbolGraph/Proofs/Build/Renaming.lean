/-
Types under other ids. A node is renamed by changing its handles and the
ids of its fields, a symbol by changing its ids; and the symbol of a
renamed node is the renamed symbol (`symbolOf_rename`), up to what depends
on the builder: the name of a pointer and the length of an alias.

Zero is not like other ids. As a type id it means that there is no type,
as a field id that there is no field, and which fields share storage is
asked of real fields only. So a renaming has to keep 0, and of the ids of
fields it must not make a 0 either.
-/
import SymbolGraph.Proofs.Build.Order

namespace SymbolGraph

variable {H K α α' β β' : Type}

-- ============================================================ renaming

def FieldNode.rename (η : H → K) (φ : UInt32 → UInt32) (f : FieldNode H) :
    FieldNode K :=
  { id := φ f.id, name := f.name, offset := f.offset, type := η f.type }

def Shape.rename (η : H → K) (φ : UInt32 → UInt32) : Shape H → Shape K
  | .base primitive => .base primitive
  | .aggregate kind members =>
    .aggregate kind (members.map (Option.map (FieldNode.rename η φ)))
  | .enum => .enum
  | .pointer => .pointer
  | .typedef target => .typedef (target.map η)
  | .array => .array

/-- The same description in terms of other handles and field ids. -/
def Node.rename (η : H → K) (φ : UInt32 → UInt32) (node : Node H) : Node K :=
  { name := node.name, length := node.length, shape := node.shape.rename η φ }

def Field.rename (e φ : UInt32 → UInt32) (f : Field) : Field :=
  { f with id := φ f.id, typeId := e f.typeId }

/-- The same symbol under other type ids `e` and field ids `φ`. -/
def TypeSymbol.rename (e φ : UInt32 → UInt32) (t : TypeSymbol) : TypeSymbol :=
  { t with
    id := e t.id
    fields := t.fields.map (Field.rename e φ)
    aliasOf := e t.aliasOf }

theorem TypeSymbol.references_rename (e φ : UInt32 → UInt32)
    (t : TypeSymbol) : (t.rename e φ).references = t.references.map e := by
  simp [references, rename, Field.rename]

theorem Shape.links_rename (η : H → K) (φ : UInt32 → UInt32)
    (shape : Shape H) : (shape.rename η φ).links = shape.links.map η := by
  cases shape with
  | aggregate kind members =>
      simp [rename, links, List.filterMap_map, List.map_filterMap,
        Function.comp_def, FieldNode.rename]
  | typedef target => cases target <;> rfl
  | _ => rfl

theorem Shape.rename_eq_pointer_iff (η : H → K) (φ : UInt32 → UInt32)
    {shape : Shape H} : shape.rename η φ = .pointer ↔ shape = .pointer := by
  cases shape <;> simp [rename]

-- ============================================================= symbols

namespace AnonymousUnion

variable {e φ : UInt32 → UInt32}

/-- Whether fields overlap is not a matter of their ids, apart from 0. -/
theorem overlap_rename (hφ : ∀ x, φ x = 0 ↔ x = 0) (a b : Field) :
    overlap (a.rename e φ) (b.rename e φ) = overlap a b := by
  have hplaceholder : ∀ f : Field,
      (f.rename e φ).isPlaceholder = f.isPlaceholder := by
    intro f
    rw [Bool.eq_iff_iff]
    simpa [Field.isPlaceholder, Field.rename] using hφ f.id
  unfold overlap
  rw [hplaceholder, hplaceholder]
  rfl

theorem blocks_rename (hφ : ∀ x, φ x = 0 ↔ x = 0) (fields : List Field) :
    blocks (fields.map (Field.rename e φ))
      = (blocks fields).map (List.map (Field.rename e φ)) := by
  obtain ⟨hflatten, -, hchain, hends⟩ :=
    List.splitBy_eq_iff.1 (rfl : fields.splitBy overlap = _)
  unfold blocks
  refine List.splitBy_eq_iff.2 ⟨?_, ?_, ?_, ?_⟩
  · rw [← List.map_flatten, ← hflatten]
  · simp
  · intro block hblock
    obtain ⟨block', hblock', rfl⟩ := List.mem_map.1 hblock
    rw [List.isChain_map]
    simpa only [overlap_rename hφ] using hchain block' hblock'
  · rw [List.isChain_map]
    refine hends.imp ?_
    rintro x y ⟨hx, hy, hxy⟩
    refine ⟨by simpa using hx, by simpa using hy, ?_⟩
    rw [List.getLast_map, List.head_map, overlap_rename hφ]
    exact hxy

theorem number_rename (next : UInt32) (bs : List (List Field)) :
    number next (bs.map (List.map (Field.rename e φ)))
      = (number next bs).map (Field.rename e φ) := by
  induction bs generalizing next with
  | nil => rfl
  | cons block rest ih =>
      rw [List.map_cons, number, number, List.length_map]
      split
      · rw [ih, List.map_append]
      · rw [ih, List.map_append, List.map_map, List.map_map]
        rfl

theorem mark_rename (hφ : ∀ x, φ x = 0 ↔ x = 0) (fields : List Field) :
    mark (fields.map (Field.rename e φ))
      = (mark fields).map (Field.rename e φ) := by
  unfold mark
  rw [blocks_rename hφ, number_rename]

end AnonymousUnion

namespace Build

theorem rename_id (t : TypeSymbol) : t.rename id id = t := by
  have hfields : t.fields.map (Field.rename id id) = t.fields :=
    List.map_id _
  unfold TypeSymbol.rename
  rw [hfields]
  rfl

/-- Places whose results are made alike are filled alike. -/
theorem fill_map {missing : β} {missing' : β'}
    {result : α → Option UInt32 → β} {result' : α' → Option UInt32 → β'}
    {f : α → α'} {e : UInt32 → UInt32} {g : β → β'}
    (hmissing : g missing = missing')
    (hresult : ∀ a answer, g (result a answer) = result' (f a) (answer.map e))
    (places : List (Option α)) (answers : List (Option UInt32)) :
    (fill missing result places answers).map g
      = fill missing' result' (places.map (Option.map f))
          (answers.map (Option.map e)) := by
  fun_induction fill missing result places answers with
  | case1 => rfl
  | case2 places answers ih =>
      rw [List.map_cons, hmissing, ih]
      rfl
  | case3 a places ih =>
      rw [List.map_cons, hresult, ih]
      rfl
  | case4 a places answer answers ih =>
      rw [List.map_cons, hresult, ih]
      rfl

theorem rename_placeholder {e φ : UInt32 → UInt32} (h0 : e 0 = 0)
    (hφ : φ 0 = 0) : Field.placeholder.rename e φ = .placeholder := by
  simp [Field.rename, Field.placeholder, h0, hφ]

theorem rename_fieldOf {η : H → K} {e φ : UInt32 → UInt32} (h0 : e 0 = 0)
    (hφ : φ 0 = 0) (node : FieldNode H) (answer : Option UInt32) :
    (fieldOf node answer).rename e φ
      = fieldOf (node.rename η φ) (answer.map e) := by
  cases answer with
  | none => exact rename_placeholder h0 hφ
  | some id => rfl

/-- The symbol of a renamed node, whose links were answered by renamed ids,
is the renamed symbol of the node, whatever the builders. -/
theorem symbolOf_rename (η : H → K) {e φ : UInt32 → UInt32} (h0 : e 0 = 0)
    (hφ : ∀ x, φ x = 0 ↔ x = 0) (id : UInt32) (node : Node H)
    (answers : List (Option UInt32)) (b b' : Builder) :
    (node.shape.rename η φ).Alike ((symbolOf id node answers b).rename e φ)
      (symbolOf (e id) (node.rename η φ) (answers.map (Option.map e)) b') := by
  obtain ⟨name, length, shape⟩ := node
  cases shape with
  | aggregate kind members =>
      have hfields : (fill .placeholder fieldOf members answers).map
            (Field.rename e φ)
          = fill .placeholder fieldOf
            (members.map (Option.map (FieldNode.rename η φ)))
            (answers.map (Option.map e)) :=
        fill_map (rename_placeholder h0 ((hφ 0).2 rfl))
          (rename_fieldOf h0 ((hφ 0).2 rfl)) members answers
      show TypeSymbol.rename e φ _ = _
      unfold symbolOf TypeSymbol.rename Node.rename Shape.rename
      dsimp only
      rw [← hfields]
      split
      · simp [h0]
      · simp [AnonymousUnion.mark_rename hφ, h0]
  | typedef target =>
      cases target with
      | none => simp [Shape.rename, Shape.Alike, symbolOf, TypeSymbol.rename,
          Node.rename, h0]
      | some target =>
          rcases answers with _ | ⟨_ | aliasOf, answers⟩ <;>
            simp [Shape.rename, Shape.Alike, symbolOf, TypeSymbol.rename,
              Node.rename, h0]
  | _ =>
      simp [Shape.rename, Shape.Alike, symbolOf, TypeSymbol.rename,
        Node.rename, h0]

/-- Renaming is no matter of length, unless it is that of an aliased
type. -/
theorem symbolOf_rename_length_eq_or (η : H → K) (e φ : UInt32 → UInt32)
    (id : UInt32) (node : Node H) (answers : List (Option UInt32))
    (b b' : Builder) :
    (symbolOf id node answers b).length
        = (symbolOf (e id) (node.rename η φ) (answers.map (Option.map e))
            b').length
      ∨ ∃ target a, node.shape = .typedef (some target)
        ∧ some a ∈ answers := by
  obtain ⟨name, length, shape⟩ := node
  cases shape with
  | typedef target =>
      cases target with
      | none => exact .inl rfl
      | some target =>
          rcases answers with _ | ⟨_ | a, answers⟩
          · exact .inl rfl
          · exact .inl rfl
          · exact .inr ⟨target, a, rfl, List.mem_cons_self⟩
  | _ => exact .inl rfl

end Build

end SymbolGraph
