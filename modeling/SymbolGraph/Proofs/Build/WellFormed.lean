/-
Well-formed symbols: a symbol stands under its own id, its references name
what may be named, and its count is that of its list. A graph of such
symbols passes the check of its references (`Graph.WellFormed.isSound`),
and the symbols that a builder puts together are such symbols, as long as
the answers to their links are (`Build.symbolOf_wellFormed`).

Which ids may be named is left open: in a finished graph those are the
keys, but while a type is built its parts may refer to it already.
-/
import Mathlib.Data.List.SplitBy
import SymbolGraph.Integrity
import SymbolGraph.Proofs.Build.Signature

namespace SymbolGraph

variable {H α β : Type}

-- ====================================================== well-formedness

/-- A type as it may stand under a key, if references may name the `known`
ids. -/
structure TypeSymbol.WellFormed (known : UInt32 → Prop) (key : UInt32)
    (t : TypeSymbol) : Prop where
  key_ne : key ≠ 0
  id_eq : t.id = key
  resolved : ∀ r ∈ t.references, r ≠ 0 → known r
  counted : t.fieldCount.toNat = min t.fields.length (2 ^ 32 - 1)

/-- A function as it may stand under a key. -/
structure FunctionSymbol.WellFormed (known : UInt32 → Prop) (key : UInt32)
    (f : FunctionSymbol) : Prop where
  id_eq : f.id = key
  resolved : ∀ r ∈ f.references, r ≠ 0 → known r
  counted : f.argumentCount.toNat = min f.argumentTypes.length (2 ^ 32 - 1)

/-- Every symbol may stand where it stands. -/
structure Graph.WellFormed (known : UInt32 → Prop) (g : Graph) : Prop where
  types : ∀ k t, g.types.get? k = some t → t.WellFormed known k
  functions : ∀ k f, g.functions.get? k = some f → f.WellFormed known k

theorem Graph.WellFormed.mono {known known' : UInt32 → Prop} {g : Graph}
    (h : g.WellFormed known) (hknown : ∀ id, known id → known' id) :
    g.WellFormed known' where
  types := by
    intro k t hget
    obtain ⟨hkey, hid, hrefs, hcount⟩ := h.types k t hget
    exact ⟨hkey, hid, fun r hr hne => hknown r (hrefs r hr hne), hcount⟩
  functions := by
    intro k f hget
    obtain ⟨hid, hrefs, hcount⟩ := h.functions k f hget
    exact ⟨hid, fun r hr hne => hknown r (hrefs r hr hne), hcount⟩

/-- A well-formed graph passes the check of its references, unless a list
of fields is too long to be counted. -/
theorem Graph.WellFormed.isSound {g : Graph}
    (h : g.WellFormed fun id => g.types.contains id = true)
    (hshort : ∀ t ∈ g.types.values, t.fields.length < 2 ^ 32) :
    g.isSound = true := by
  have hdangling : ∀ r : UInt32, (r ≠ 0 → g.types.contains r = true) →
      ¬ g.isDangling r = true := by
    intro r hr hdangles
    unfold isDangling at hdangles
    rw [Bool.and_eq_true, bne_iff_ne, Bool.not_eq_true'] at hdangles
    rw [hr hdangles.1] at hdangles
    cases hdangles.2
  have hfunctions : ∀ f ∈ g.functions.values, g.functionDefects f = [] := by
    intro f hf
    obtain ⟨k, hget⟩ := Table.mem_values.1 hf
    have hwell := h.functions k f hget
    unfold functionDefects
    rw [List.map_eq_nil_iff, List.filter_eq_nil_iff]
    exact fun r hr => hdangling r (hwell.resolved r hr)
  have htypes : ∀ t ∈ g.types.values, g.typeDefects t = [] := by
    intro t ht
    obtain ⟨k, hget⟩ := Table.mem_values.1 ht
    have hwell := h.types k t hget
    have hcount : t.fieldCount.toNat = t.fields.length := by
      have hlength := hshort t ht
      have hcounted := hwell.counted
      omega
    unfold typeDefects
    rw [if_pos hcount, List.append_nil, List.map_eq_nil_iff,
      List.filter_eq_nil_iff]
    exact fun r hr => hdangling r (hwell.resolved r hr)
  unfold Graph.isSound Graph.defects
  rw [List.isEmpty_iff, List.append_eq_nil_iff, List.flatMap_eq_nil_iff,
    List.flatMap_eq_nil_iff]
  exact ⟨hfunctions, htypes⟩

-- ============================================================== symbols

/-- What does not depend on unions is not changed by marking them. -/
theorem AnonymousUnion.map_mark {p : Field → α}
    (hp : ∀ f n, p { f with inAnonymousUnion := true, unionId := n } = p f)
    (fields : List Field) : (mark fields).map p = fields.map p := by
  have hnumber : ∀ (bs : List (List Field)) (next : UInt32),
      (number next bs).map p = bs.flatten.map p := by
    intro bs
    induction bs with
    | nil => intro next; rfl
    | cons block rest ih =>
        intro next
        unfold number
        split
        · rw [List.map_append, ih, List.flatten_cons, List.map_append]
        · rw [List.map_append, ih, List.map_map, List.flatten_cons,
            List.map_append]
          congr 1
          exact List.map_congr_left fun f _ => hp f next
  unfold mark blocks
  rw [hnumber, List.flatten_splitBy]

/-- What holds of the fields one by one, and does not depend on unions. -/
theorem AnonymousUnion.forall₂_mark {β : Type} {R : β → Field → Prop}
    (hR : ∀ b f n,
      R b { f with inAnonymousUnion := true, unionId := n } ↔ R b f)
    {bs : List β} {fields : List Field} :
    List.Forall₂ R bs (mark fields) ↔ List.Forall₂ R bs fields := by
  have hmap : (mark fields).map (fun f b => R b f)
      = fields.map fun f b => R b f :=
    map_mark (fun f n => funext fun b => propext (hR b f n)) fields
  have hiff : ∀ fs : List Field,
      List.Forall₂ (fun b p => p b) bs (fs.map fun f b => R b f)
        ↔ List.Forall₂ R bs fs :=
    fun _ => List.forall₂_map_right_iff
  rw [← hiff, hmap, hiff]

theorem AnonymousUnion.map_typeId_mark (fields : List Field) :
    (mark fields).map Field.typeId = fields.map Field.typeId :=
  map_mark (fun _ _ => rfl) fields

namespace Build

theorem count32_toNat (n : Nat) :
    (count32 n).toNat = min n (2 ^ 32 - 1) := by
  unfold count32
  split
  case isTrue h =>
    rw [UInt32.toNat_ofNat_of_lt' h]
    omega
  case isFalse h =>
    show 0xffffffff = min n (2 ^ 32 - 1)
    omega

/-- What stands in a place is the missing one, or made of an answer or of
none. -/
theorem mem_fill {missing y : β} {result : α → Option UInt32 → β}
    {places : List (Option α)} {answers : List (Option UInt32)}
    (h : y ∈ fill missing result places answers) :
    y = missing ∨ (∃ a, y = result a none)
      ∨ ∃ a, ∃ answer ∈ answers, y = result a answer := by
  fun_induction fill missing result places answers with
  | case1 => cases h
  | case2 places answers ih =>
      rcases List.mem_cons.1 h with hy | hy
      · exact .inl hy
      · exact ih hy
  | case3 a places ih =>
      rcases List.mem_cons.1 h with hy | hy
      · exact .inr (.inl ⟨a, hy⟩)
      · exact ih hy
  | case4 a places answer answers ih =>
      rcases List.mem_cons.1 h with hy | hy
      · exact .inr (.inr ⟨a, answer, List.mem_cons_self, hy⟩)
      · rcases ih hy with hmissing | hnone | ⟨a', answer', hmem, hy'⟩
        · exact .inl hmissing
        · exact .inr (.inl hnone)
        · exact .inr (.inr ⟨a', answer', List.mem_cons_of_mem _ hmem, hy'⟩)

/-- A symbol refers to nothing but the answers to its links. -/
theorem mem_references_symbolOf {id r : UInt32} {node : Node H}
    {answers : List (Option UInt32)} {b : Builder}
    (h : r ∈ (symbolOf id node answers b).references) (hr : r ≠ 0) :
    some r ∈ answers := by
  obtain ⟨name, length, shape⟩ := node
  have hzero : ¬ r ∈ [(0 : UInt32)] :=
    fun hmem => hr (List.mem_singleton.1 hmem)
  cases shape with
  | base primitive => exact absurd h hzero
  | enum => exact absurd h hzero
  | pointer => exact absurd h hzero
  | array => exact absurd h hzero
  | aggregate kind members =>
      have hfields : r ∈ (fill .placeholder fieldOf members answers).map
          Field.typeId := by
        unfold TypeSymbol.references symbolOf at h
        dsimp only at h
        rcases List.mem_append.1 h with hmem | hmem
        · split at hmem
          · exact hmem
          · rwa [AnonymousUnion.map_typeId_mark] at hmem
        · exact absurd hmem hzero
      obtain ⟨field, hfield, rfl⟩ := List.mem_map.1 hfields
      rcases mem_fill hfield with rfl | ⟨a, rfl⟩ | ⟨a, answer, hmem, rfl⟩
      · exact absurd rfl hr
      · exact absurd rfl hr
      · cases answer with
        | none => exact absurd rfl hr
        | some typeId => exact hmem
  | typedef target =>
      cases target with
      | none => exact absurd h hzero
      | some target =>
          cases answers with
          | nil => exact absurd h hzero
          | cons answer answers =>
              cases answer with
              | none => exact absurd h hzero
              | some aliasOf =>
                  have hmem : r ∈ [aliasOf] := h
                  rw [List.mem_singleton.1 hmem]
                  exact List.mem_cons_self

/-- What fills a place is found there. -/
theorem mem_fill_fieldOf {c : UInt32} (members : List (Option (FieldNode H)))
    {answers : List (Option UInt32)}
    (hlength : answers.length
      = (members.filterMap (Option.map FieldNode.type)).length)
    (hc : some c ∈ answers) :
    c ∈ (fill .placeholder fieldOf members answers).map Field.typeId := by
  fun_induction fill Field.placeholder fieldOf members answers with
  | case1 =>
      rw [List.eq_nil_of_length_eq_zero hlength] at hc
      cases hc
  | case2 places answers ih =>
      exact List.mem_cons_of_mem _ (ih (by simpa using hlength) hc)
  | case3 => cases hc
  | case4 a places answer answers ih =>
      rcases List.mem_cons.1 hc with rfl | hc
      · exact List.mem_cons_self
      · exact List.mem_cons_of_mem _ (ih (by simpa using hlength) hc)

/-- All answers to its links are references of a symbol. -/
theorem mem_references_of_answer {id c : UInt32} {node : Node H}
    {answers : List (Option UInt32)} {b : Builder}
    (hlength : answers.length = node.shape.links.length)
    (hc : some c ∈ answers) :
    c ∈ (symbolOf id node answers b).references := by
  obtain ⟨name, length, shape⟩ := node
  cases shape with
  | aggregate kind members =>
      have hfields := mem_fill_fieldOf members hlength hc
      refine List.mem_append_left _ ?_
      unfold symbolOf
      dsimp only
      split
      · exact hfields
      · rwa [AnonymousUnion.map_typeId_mark]
  | typedef target =>
      cases target with
      | none =>
          rw [List.eq_nil_of_length_eq_zero hlength] at hc
          cases hc
      | some target =>
          obtain ⟨answer, rfl⟩ := List.length_eq_one_iff.1 hlength
          cases List.mem_singleton.1 hc
          exact List.mem_singleton_self c
  | _ =>
      rw [List.eq_nil_of_length_eq_zero hlength] at hc
      cases hc

/-- A symbol may stand under the id it was built for, if its links were
answered by known ids. -/
theorem symbolOf_wellFormed {known : UInt32 → Prop} {id : UInt32}
    (hid : id ≠ 0) (node : Node H) {answers : List (Option UInt32)}
    (b : Builder) (hanswers : ∀ r, some r ∈ answers → known r) :
    (symbolOf id node answers b).WellFormed known id where
  key_ne := hid
  id_eq := by
    obtain ⟨name, length, shape⟩ := node
    unfold symbolOf
    cases shape with
    | typedef target =>
        cases target with
        | none => rfl
        | some target =>
            dsimp only
            split <;> rfl
    | _ => rfl
  resolved r hr hne := hanswers r (mem_references_symbolOf hr hne)
  counted := by
    obtain ⟨name, length, shape⟩ := node
    unfold symbolOf
    cases shape with
    | aggregate kind members => exact count32_toNat _
    | typedef target =>
        cases target with
        | none => rfl
        | some target =>
            dsimp only
            split <;> rfl
    | _ => rfl

/-- A function may stand under its id, if the types of its signature were
answered by known ids. -/
theorem functionOf_wellFormed {known : UInt32 → Prop} (node : FunctionNode H)
    {answers : List (Option UInt32)}
    (hanswers : ∀ r, some r ∈ answers → known r) :
    (functionOf node answers).WellFormed known node.id where
  id_eq := rfl
  resolved := by
    intro r hr hne
    rw [functionOf_references] at hr
    rcases mem_fill hr with hzero | ⟨a, hzero⟩ | ⟨a, answer, hanswer, hr⟩
    · exact absurd hzero hne
    · exact absurd hzero hne
    · cases answer with
      | none => exact absurd hr hne
      | some id =>
          rw [hr]
          exact hanswers id hanswer
  counted := count32_toNat _

end Build

end SymbolGraph
