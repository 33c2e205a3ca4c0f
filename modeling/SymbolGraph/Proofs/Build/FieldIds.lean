/-
Readers that number fields. Each description may take some more numbers for the
members of a type (`Source.Numbers`). The type is stored only after its links
are built, and these take numbers too, so the ids of the fields come into the
graph in no particular order. But a type is described once, and what is stored
between two moments has numbers between the counts at these moments
(`Grows`). So no number comes into the graph twice (`calls_grown`). Placeholders
have no id; the number that was taken for one is lost.
-/
import SymbolGraph.Proofs.Build.Frame

namespace SymbolGraph

variable {σ H ε : Type}

open Build

-- ================================================================= fields

/-- The fields that have a type. -/
def typed (fields : List Field) : List Field :=
  fields.filter fun f => f.typeId ≠ 0

/-- The fields of all types that have a type themselves. -/
def Graph.typedFields (g : Graph) : List Field :=
  g.types.values.flatMap fun t => typed t.fields

/-- The ids of the members of a type. -/
def Shape.memberIds : Shape H → List UInt32
  | .aggregate _ members => members.filterMap (Option.map FieldNode.id)
  | _ => []

theorem ids_typed_eq (fields : List Field) :
    (typed fields).map Field.id
      = ((fields.map fun f => (f.id, f.typeId)).filter
          fun p => p.2 ≠ 0).map Prod.fst := by
  rw [List.filter_map, List.map_map]
  rfl

theorem ids_typed_mark (fields : List Field) :
    (typed (AnonymousUnion.mark fields)).map Field.id
      = (typed fields).map Field.id := by
  rw [ids_typed_eq, ids_typed_eq, AnonymousUnion.map_mark fun _ _ => rfl]

namespace Build

/-- A field that has a type has the id of its member. -/
theorem ids_typed_fill_sublist (members : List (Option (FieldNode H)))
    (answers : List (Option UInt32)) :
    ((typed (fill .placeholder fieldOf members answers)).map Field.id).Sublist
      (members.filterMap (Option.map FieldNode.id)) := by
  fun_induction fill Field.placeholder fieldOf members answers with
  | case1 => exact .slnil
  | case2 places answers ih => exact ih
  | case3 a places ih => exact ih.cons _
  | case4 a places answer answers ih =>
      cases answer with
      | none => exact ih.cons _
      | some typeId =>
          by_cases hzero : typeId = 0
          · subst hzero
            exact ih.cons _
          · have htyped : typed (fieldOf a (some typeId)
                  :: fill .placeholder fieldOf places answers)
                = fieldOf a (some typeId)
                  :: typed (fill .placeholder fieldOf places answers) :=
              List.filter_cons_of_pos (decide_eq_true hzero)
            rw [htyped]
            exact ih.cons_cons _

theorem ids_typed_symbolOf_sublist (id : UInt32) (node : Node H)
    (answers : List (Option UInt32)) (b : Builder) :
    ((typed (symbolOf id node answers b).fields).map Field.id).Sublist
      node.shape.memberIds := by
  obtain ⟨name, length, shape⟩ := node
  cases shape with
  | aggregate kind members =>
      have hfill := ids_typed_fill_sublist members answers
      unfold symbolOf
      dsimp only
      split
      · exact hfill
      · rw [ids_typed_mark]
        exact hfill
  | typedef target =>
      cases target with
      | none => exact .slnil
      | some target =>
          unfold symbolOf
          dsimp only
          split <;> exact .slnil
  | _ => exact .slnil

end Build

-- ================================================================ numbers

/-- From one count to a greater one, a list of ids grows by the ids of different
numbers between the counts. -/
def Grows (ids : Nat → UInt32) (n n' : Nat) (list list' : List UInt32) : Prop :=
  n ≤ n' ∧ ∃ numbers : List Nat, numbers.Nodup
    ∧ (∀ j ∈ numbers, n ≤ j ∧ j < n')
    ∧ list'.Perm (list ++ numbers.map ids)

section Grows

variable {ids : Nat → UInt32} {n n' n'' : Nat} {list list' list'' : List UInt32}

theorem Grows.of_perm (hle : n ≤ n') (h : list'.Perm list) :
    Grows ids n n' list list' :=
  ⟨hle, [], List.nodup_nil, nofun, by rwa [List.map_nil, List.append_nil]⟩

theorem Grows.trans (h : Grows ids n n' list list')
    (h' : Grows ids n' n'' list' list'') : Grows ids n n'' list list'' := by
  obtain ⟨hle, numbers, hnodup, hbounds, hperm⟩ := h
  obtain ⟨hle', numbers', hnodup', hbounds', hperm'⟩ := h'
  refine ⟨Nat.le_trans hle hle', numbers ++ numbers', ?_, ?_, ?_⟩
  · refine List.nodup_append'.2 ⟨hnodup, hnodup', fun j hj hj' => ?_⟩
    have hlt := (hbounds j hj).2
    have hge := (hbounds' j hj').1
    omega
  · intro j hj
    rcases List.mem_append.1 hj with hj | hj
    · exact ⟨(hbounds j hj).1, Nat.lt_of_lt_of_le (hbounds j hj).2 hle'⟩
    · exact ⟨Nat.le_trans hle (hbounds' j hj).1, (hbounds' j hj).2⟩
  · rw [List.map_append, ← List.append_assoc]
    exact hperm'.trans (hperm.append_right _)

/-- What grows may stand behind something else. -/
theorem Grows.append_left (h : Grows ids n n' list list')
    (front : List UInt32) : Grows ids n n' (front ++ list) (front ++ list') := by
  obtain ⟨hle, numbers, hnodup, hbounds, hperm⟩ := h
  refine ⟨hle, numbers, hnodup, hbounds, ?_⟩
  rw [List.append_assoc]
  exact hperm.append_left front

/-- Some of the ids between two counts come in front. -/
theorem Grows.of_sublist (hle : n ≤ n') {front : List UInt32}
    (h : front.Sublist ((List.range' n (n' - n)).map ids))
    (list : List UInt32) : Grows ids n n' list (front ++ list) := by
  obtain ⟨numbers, hnumbers, rfl⟩ := List.sublist_map_iff.1 h
  refine ⟨hle, numbers, List.Nodup.sublist hnumbers List.nodup_range',
    fun j hj => ?_, List.perm_append_comm⟩
  have hmem := List.mem_range'_1.1 (hnumbers.subset hj)
  omega

/-- A list that grew from nothing has no id twice, if different numbers have
different ids. -/
theorem Grows.nodup (h : Grows ids n n' [] list)
    (hids : ∀ i j, i < n' → j < n' → ids i = ids j → i = j) : list.Nodup := by
  obtain ⟨-, numbers, hnodup, hbounds, hperm⟩ := h
  refine hperm.nodup_iff.2 (hnodup.map_on fun i hi j hj => ?_)
  exact hids i j (hbounds i hi).2 (hbounds j hj).2

theorem Grows.exists_of_mem (h : Grows ids n n' [] list) {id : UInt32}
    (hid : id ∈ list) : ∃ j < n', id = ids j := by
  obtain ⟨-, numbers, -, hbounds, hperm⟩ := h
  obtain ⟨j, hj, rfl⟩ := List.mem_map.1 (hperm.subset hid)
  exact ⟨j, (hbounds j hj).2, rfl⟩

end Grows

-- ================================================================ readers

/-- In a valid state, a description counts the members of a type, and gives them
the ids of the numbers that it counts. -/
structure Source.Numbers (source : Source σ H ε) (count : σ → Nat)
    (ids : Nat → UInt32) (valid : σ → Prop) : Prop where
  keeps : ∀ h st, valid st → valid (source.describe h st).value.2
  mono : ∀ h st, count st ≤ count (source.describe h st).value.2
  members : ∀ h st node, valid st → (source.describe h st).value.1 = .ok node →
    node.shape.memberIds.Sublist
      ((List.range' (count st)
        (count (source.describe h st).value.2 - count st)).map ids)

namespace Build

variable {source : Source σ H ε} {count : σ → Nat} {ids : Nat → UInt32}
  {valid : σ → Prop}

/-- The state is valid, and since some other state the ids of the fields grew. -/
def Grown (count : σ → Nat) (ids : Nat → UInt32) (valid : σ → Prop)
    (s s' : Builder × σ) : Prop :=
  valid s'.2 ∧ Grows ids (count s.2) (count s'.2)
    (s.1.graph.typedFields.map Field.id) (s'.1.graph.typedFields.map Field.id)

theorem Builds.grown (hsource : source.Numbers count ids valid)
    {hs : List H} {s s' : Builder × σ} {answers : List (Answer ε)}
    (h : Builds source hs s answers s') (hvalid : valid s.2) :
    Grown count ids valid s s' := by
  induction h with
  | nil => exact ⟨hvalid, .of_perm (Nat.le_refl _) (.refl _)⟩
  | @replied h hs b st st' s' answer answers hreply _ ih =>
      -- a failed description may change the state, and nothing else does
      have hstep : valid st' ∧ count st ≤ count st' := by
        cases hreply with
        | undescribed _ _ _ _ => exact ⟨hsource.keeps h st hvalid,
            hsource.mono h st⟩
        | _ => exact ⟨hvalid, Nat.le_refl _⟩
      obtain ⟨hvalid', hgrows⟩ := ih hstep.1
      exact ⟨hvalid', (Grows.of_perm hstep.2 (.refl _)).trans hgrows⟩
  | @described h hs id b st inner s' node links answers hid hne hnew hnode
      hlinks hrest ihlinks ih =>
      obtain ⟨hinner, hlinked⟩ := ihlinks (hsource.keeps h st hvalid)
      obtain ⟨hvalid', hgrows⟩ := ih hinner
      have hnew' : inner.1.graph.types.contains id = false :=
        Table.get?_eq_none_iff.1 (hlinks.get?_of_start hnew)
      have hstored : ((inner.1.finish id node
            (links.map Except.toOption)).graph.typedFields.map Field.id).Perm
          ((typed (symbolOf id node (links.map Except.toOption)
              inner.1).fields).map Field.id
            ++ inner.1.graph.typedFields.map Field.id) := by
        unfold Graph.typedFields
        rw [finish_types, ← List.map_append]
        exact ((Table.values_insert_perm hnew' _).flatMap_right _).map _
      refine ⟨hvalid', Grows.trans ?_ hgrows⟩
      -- the numbers of the members, then those of the links
      have hmembers := Grows.of_sublist (hsource.mono h st)
        ((ids_typed_symbolOf_sublist id node (links.map Except.toOption)
          inner.1).trans (hsource.members h st node hvalid hnode))
        (b.graph.typedFields.map Field.id)
      exact (hmembers.trans (hlinked.append_left _)).trans
        (.of_perm (Nat.le_refl _) hstored)

/-- Over a run of calls, ids are added by different numbers. -/
theorem calls_grown (hsource : source.Numbers count ids valid)
    (calls : List (Builder.Call H)) {s s' : Builder × σ}
    (hidle : s'.1.inProgress = []) (h : Grown count ids valid s s') :
    Grown count ids valid s (Builder.calls source calls s').value.2 := by
  induction calls generalizing s' with
  | nil => exact h
  | cons call calls ih =>
      refine ih (call_inProgress source call hidle) ?_
      refine call_preserves (P := Grown count ids valid s) source call hidle h
        (fun answers s'' hbuilds => ?_) fun _ _ _ h => h
      obtain ⟨hvalid, hgrows⟩ := hbuilds.grown hsource h.1
      exact ⟨hvalid, h.2.trans hgrows⟩

end Build

end SymbolGraph
