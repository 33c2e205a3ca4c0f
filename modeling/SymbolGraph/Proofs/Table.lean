/-
Tables read back: what a table answers for a key, after each operation on
it. A table is determined by its answers (`ext_get?`), so everything said
about tables elsewhere is said about `get?`, `contains` and `keys`, and
the list of entries is opened here only.

The one fact under all of it is that an ascending list has one entry for a
key, so looking a key up and finding the entry in the list are the same
(`get?_eq_some_iff`).
-/
import Mathlib.Data.FinEnum
import Mathlib.Data.List.Pairwise
import SymbolGraph.Table

namespace SymbolGraph.Table

variable {α β : Type} {t u : Table α} {k : UInt32} {v : α}

-- ============================================================ entries

/-- A key is looked up at the head of a list or behind it. -/
theorem lookup_cons_ite {κ : Type} [BEq κ] [LawfulBEq κ] [DecidableEq κ]
    (e : κ × α) (l : List (κ × α)) (k : κ) :
    (e :: l).lookup k = if k = e.1 then some e.2 else l.lookup k := by
  rw [List.lookup_cons]
  by_cases hk : k = e.1
  · simp [hk]
  · have hb : (k == e.1) = false := beq_false_of_ne hk
    rw [hb, if_neg hk]

/-- In a list without repeated keys a key is looked up wherever it
stands. -/
private theorem lookup_eq_some_iff_mem {l : List (UInt32 × α)}
    (hl : l.Pairwise (fun a b => a.1 ≠ b.1)) :
    l.lookup k = some v ↔ (k, v) ∈ l := by
  induction l with
  | nil => simp
  | cons e l ih =>
      have ⟨hhead, htail⟩ := List.pairwise_cons.1 hl
      rw [lookup_cons_ite, List.mem_cons]
      by_cases hk : k = e.1
      · -- a second entry of the key would lie behind its own key
        have hnot : (k, v) ∉ l := fun hmem =>
          hhead (k, v) hmem hk.symm
        rw [if_pos hk, Option.some.injEq]
        constructor
        · rintro rfl
          exact .inl (Prod.ext hk rfl)
        · rintro (heq | hmem)
          · rw [← heq]
          · exact absurd hmem hnot
      · rw [if_neg hk, ih htail]
        constructor
        · exact .inr
        · rintro (heq | hmem)
          · exact absurd (congrArg Prod.fst heq) hk
          · exact hmem

/-- An ascending list repeats no key. -/
theorem entries_distinct (t : Table α) :
    t.entries.Pairwise (fun a b => a.1 ≠ b.1) :=
  t.ascending.imp UInt32.ne_of_lt

theorem get?_eq_some_iff : t.get? k = some v ↔ (k, v) ∈ t.entries :=
  lookup_eq_some_iff_mem t.entries_distinct

theorem contains_iff : t.contains k = true ↔ ∃ v, t.get? k = some v := by
  unfold contains
  rw [Option.isSome_iff_exists]

theorem contains_of_get? (h : t.get? k = some v) : t.contains k = true :=
  contains_iff.2 ⟨v, h⟩

theorem get?_eq_none_iff : t.get? k = none ↔ t.contains k = false := by
  unfold contains
  cases t.get? k <;> simp

theorem mem_keys : k ∈ t.keys ↔ t.contains k = true := by
  rw [contains_iff]
  unfold keys
  rw [List.mem_map]
  constructor
  · rintro ⟨⟨k', v⟩, hmem, rfl⟩
    exact ⟨v, get?_eq_some_iff.2 hmem⟩
  · rintro ⟨v, hget⟩
    exact ⟨(k, v), get?_eq_some_iff.1 hget, rfl⟩

theorem mem_values : v ∈ t.values ↔ ∃ k, t.get? k = some v := by
  unfold values
  rw [List.mem_map]
  constructor
  · rintro ⟨⟨k, v'⟩, hmem, rfl⟩
    exact ⟨k, get?_eq_some_iff.2 hmem⟩
  · rintro ⟨k, hget⟩
    exact ⟨(k, v), get?_eq_some_iff.1 hget, rfl⟩

theorem keys_ascending (t : Table α) : t.keys.Pairwise (· < ·) := by
  unfold keys
  rw [List.pairwise_map]
  exact t.ascending

theorem length_keys (t : Table α) : t.keys.length = t.size := by
  unfold keys size
  rw [List.length_map]

/-- A table is what it answers. -/
theorem ext_get? (h : ∀ k, t.get? k = u.get? k) : t = u := by
  have hmem : ∀ e, e ∈ t.entries ↔ e ∈ u.entries := by
    rintro ⟨k, v⟩
    rw [← get?_eq_some_iff, ← get?_eq_some_iff, h]
  have hnodup : ∀ w : Table α, w.entries.Nodup := by
    intro w
    refine w.ascending.imp ?_
    intro a b hlt heq
    exact UInt32.ne_of_lt hlt (congrArg Prod.fst heq)
  have hperm : t.entries.Perm u.entries :=
    (List.perm_ext_iff_of_nodup (hnodup t) (hnodup u)).2 hmem
  have hentries : t.entries = u.entries :=
    hperm.eq_of_pairwise
      (fun a b _ _ hab hba =>
        absurd (UInt32.lt_trans hab hba) (UInt32.lt_irrefl a.1))
      t.ascending u.ascending
  cases t
  cases u
  cases hentries
  rfl

-- ============================================================ look-ups

/-- What is found first has the least key of all that could be found. -/
theorem le_of_find? {p : UInt32 × α → Bool} {e : UInt32 × α} {j : UInt32}
    {w : α} (hfind : t.entries.find? p = some e) (hget : t.get? j = some w)
    (hp : p (j, w) = true) : e.1 ≤ j := by
  obtain ⟨-, before, behind, hentries, hbefore⟩ :=
    List.find?_eq_some_iff_append.1 hfind
  have hmem := get?_eq_some_iff.1 hget
  have hasc := t.ascending
  rw [hentries] at hmem hasc
  obtain ⟨-, hasc, -⟩ := List.pairwise_append.1 hasc
  rcases List.mem_append.1 hmem with hmem | hmem
  · have hnot := hbefore _ hmem
    rw [hp] at hnot
    cases hnot
  · rcases List.mem_cons.1 hmem with rfl | hmem
    · exact UInt32.le_refl _
    · exact UInt32.le_of_lt ((List.pairwise_cons.1 hasc).1 _ hmem)

/-- The value stands under the key and satisfies `p`, and no value under a
lesser key does. -/
structure IsFirst (t : Table α) (p : α → Bool) (k : UInt32) (v : α) : Prop where
  stands : t.get? k = some v
  satisfies : p v = true
  least : ∀ j w, t.get? j = some w → p w = true → k ≤ j

/-- A search finds the first value, or there is none. -/
theorem isFirst_of_find? {p : α → Bool} (h : t.find? p = some v) :
    ∃ k, t.IsFirst p k v := by
  unfold find? values at h
  rw [List.find?_map, Option.map_eq_some_iff] at h
  obtain ⟨⟨k, v⟩, hfind, rfl⟩ := h
  have hp : p v = true := by simpa using List.find?_some hfind
  exact ⟨k, {
    stands := get?_eq_some_iff.2 (List.mem_of_find?_eq_some hfind)
    satisfies := hp
    least := fun j w hget hw => le_of_find? hfind hget hw }⟩

theorem find?_eq_none_iff {p : α → Bool} :
    t.find? p = none ↔ ∀ k v, t.get? k = some v → p v = false := by
  unfold find?
  rw [List.find?_eq_none]
  constructor
  · intro h k v hget
    exact Bool.eq_false_iff.2 (h v (mem_values.2 ⟨k, hget⟩))
  · intro h v hv
    obtain ⟨k, hget⟩ := mem_values.1 hv
    exact Bool.eq_false_iff.1 (h k v hget)

theorem IsFirst.find?_eq {p : α → Bool} (h : t.IsFirst p k v) :
    t.find? p = some v := by
  cases hfind : t.find? p with
  | none =>
      have hnot := find?_eq_none_iff.1 hfind k v h.stands
      rw [h.satisfies] at hnot
      cases hnot
  | some w =>
      obtain ⟨j, hj⟩ := isFirst_of_find? hfind
      have hkey : k = j := UInt32.le_antisymm
        (h.least j w hj.stands hj.satisfies)
        (hj.least k v h.stands h.satisfies)
      rw [← hj.stands, ← h.stands, hkey]

-- ========================================================== operations

theorem get?_map (f : α → β) (t : Table α) (k : UInt32) :
    (t.map f).get? k = (t.get? k).map f := by
  show (t.entries.map fun e => (e.1, f e.2)).lookup k
    = (t.entries.lookup k).map f
  induction t.entries with
  | nil => rfl
  | cons e l ih =>
      rw [List.map_cons, lookup_cons_ite, lookup_cons_ite, ih,
        apply_ite (Option.map f), Option.map_some]

theorem get?_filterKeys (p : UInt32 → Bool) (t : Table α) (k : UInt32) :
    (t.filterKeys p).get? k = if p k then t.get? k else none := by
  ext v
  rw [get?_eq_some_iff]
  unfold filterKeys
  rw [List.mem_filter, ← get?_eq_some_iff]
  cases p k <;> simp

theorem keys_filterKeys (p : UInt32 → Bool) (t : Table α) :
    (t.filterKeys p).keys = t.keys.filter p := by
  unfold keys filterKeys
  rw [List.filter_map]
  rfl

/-- The entries that an insertion leaves: the new one, and the old ones
of other keys. -/
theorem get?_insert (t : Table α) (k j : UInt32) (v : α) :
    (t.insert k v).get? j = if j = k then some v else t.get? j := by
  show (insertEntry k v t.entries).lookup j
    = if j = k then some v else t.entries.lookup j
  induction t.entries with
  | nil => rw [insertEntry, lookup_cons_ite]
  | cons e l ih =>
      unfold insertEntry
      split
      · rw [lookup_cons_ite]
      · split
        · rename_i _ heq
          rw [lookup_cons_ite, lookup_cons_ite, ← heq]
          by_cases hj : j = k <;> simp [hj]
        · rename_i _ hne
          rw [lookup_cons_ite, lookup_cons_ite, ih]
          by_cases hj : j = k
          · simp [hj, hne]
          · simp [hj]

theorem get?_insert_of_ne (t : Table α) {k j : UInt32} (v : α) (h : j ≠ k) :
    (t.insert k v).get? j = t.get? j := by
  rw [get?_insert, if_neg h]

theorem get?_insert_eq_some_iff {t : Table α} {k j : UInt32} {v w : α} :
    (t.insert k v).get? j = some w
      ↔ (j = k ∧ w = v) ∨ (j ≠ k ∧ t.get? j = some w) := by
  rw [get?_insert]
  by_cases hj : j = k <;> simp [hj, eq_comm]

theorem contains_insert (t : Table α) (k j : UInt32) (v : α) :
    (t.insert k v).contains j = (j == k || t.contains j) := by
  unfold contains
  rw [get?_insert]
  by_cases hj : j = k <;> simp [hj]

/-- Under a key that is new, a value joins the others. -/
theorem values_insert_perm (h : t.contains k = false) (v : α) :
    (t.insert k v).values.Perm (v :: t.values) := by
  have hnone : t.entries.lookup k = none := get?_eq_none_iff.2 h
  show ((insertEntry k v t.entries).map Prod.snd).Perm
    (v :: t.entries.map Prod.snd)
  generalize t.entries = entries at hnone ⊢
  induction entries with
  | nil => exact .refl _
  | cons e l ih =>
      have hne : k ≠ e.1 := by
        intro heq
        rw [lookup_cons_ite, if_pos heq] at hnone
        cases hnone
      rw [lookup_cons_ite, if_neg hne] at hnone
      unfold insertEntry
      split
      · exact .refl _
      · exact ((ih hnone).cons e.2).trans (.swap ..)

-- ============================================================== lists

/-- Of several pairs with one key the last counts. -/
theorem get?_ofList (l : List (UInt32 × α)) (k : UInt32) :
    (ofList l).get? k = l.reverse.lookup k := by
  induction l using List.reverseRecOn with
  | nil => rfl
  | append_singleton l e ih =>
      have hlast : ofList (l ++ [e]) = (ofList l).insert e.1 e.2 :=
        List.foldl_concat _ _ _ _
      rw [hlast, get?_insert, ih, List.reverse_concat, lookup_cons_ite]

/-- Nothing stands in the table of a list but what stands in the list. -/
theorem mem_of_get?_ofList {l : List (UInt32 × α)}
    (h : (ofList l).get? k = some v) : (k, v) ∈ l := by
  rw [get?_ofList, List.lookup_eq_some_iff] at h
  obtain ⟨before, behind, hl, -⟩ := h
  rw [← List.mem_reverse, hl]
  exact List.mem_append_right _ List.mem_cons_self

/-- The entries of a table make the table, in any order. -/
theorem ofList_eq_of_perm {l : List (UInt32 × α)} (h : l.Perm t.entries) :
    ofList l = t := by
  refine ext_get? fun k => ?_
  have hperm : l.reverse.Perm t.entries := l.reverse_perm.trans h
  have hdistinct : l.reverse.Pairwise (fun a b => a.1 ≠ b.1) :=
    (hperm.pairwise_iff fun hab => hab.symm).2 t.entries_distinct
  ext v
  rw [get?_ofList, lookup_eq_some_iff_mem hdistinct, hperm.mem_iff,
    get?_eq_some_iff]

/-- There are no more entries than there are keys. -/
theorem size_le (t : Table α) : t.size ≤ 2 ^ 32 := by
  have hnodup : t.keys.Nodup := t.keys_ascending.imp UInt32.ne_of_lt
  have hcard : t.keys.length ≤ Fintype.card UInt32 := hnodup.length_le_card
  have hids : Fintype.card UInt32 = 2 ^ 32 :=
    FinEnum.card_eq_fintypeCard.symm
  rwa [length_keys, hids] at hcard

end SymbolGraph.Table
