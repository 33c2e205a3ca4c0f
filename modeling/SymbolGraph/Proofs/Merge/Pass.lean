/-
What one pass does, said without buckets: every key is led by the least
key whose type has equal content (`leader`), references go to leaders, and
only the types that lead themselves stay (`Graph.collapse`).

# The scan

A scan keeps the first type of each content. `Tracks` says so for the part
of the table that has been read: looking for a content in the bucket of
its digest finds what looking through everything read would find. That one
equation is all a step needs: if it finds something, that is the leader of
the type at hand; if it finds nothing, the type leads itself. Nothing else
about the digest is ever used, so all that follows holds for every digest.

`pass_value` sums up; nothing behind this file opens a scan.
-/
import Mathlib.Data.List.Basic
import SymbolGraph.Merge
import SymbolGraph.Proofs.Table

namespace SymbolGraph

attribute [ext] Graph

/-- The graph with every reference replaced by what stands for it, and
only the types that stand for themselves. -/
def Graph.collapse (rep : UInt32 → UInt32) (g : Graph) : Graph :=
  { g with
    types := (g.types.map (·.mapReferences rep)).filterKeys fun k => rep k == k
    functions := g.functions.map (·.mapReferences rep) }

namespace Merge

variable {types : Table TypeSymbol} {k j : UInt32} {t u : TypeSymbol}

-- ============================================================ leaders

/-- The least key whose type has the content of the type under `k`; a
number that is no key leads itself. -/
def leader (types : Table TypeSymbol) (k : UInt32) : UInt32 :=
  match types.get? k with
  | none => k
  | some t =>
    match types.entries.find? fun e => e.2.sameContent t with
    | none => k
    | some e => e.1

theorem leader_of_not_key (h : types.contains k = false) :
    leader types k = k := by
  unfold leader
  rw [Table.get?_eq_none_iff.2 h]

theorem leader_eq_of_find? {e : UInt32 × TypeSymbol}
    (hget : types.get? k = some t)
    (hfind : types.entries.find? (fun e => e.2.sameContent t) = some e) :
    leader types k = e.1 := by
  unfold leader
  rw [hget]
  simp only [hfind]

/-- The leader of a key is a key, its type has the same content, and it is
the least such key. -/
theorem leader_spec (hget : types.get? k = some t) :
    ∃ s, types.get? (leader types k) = some s ∧ s.content = t.content
      ∧ ∀ {j u}, types.get? j = some u → u.content = t.content →
          leader types k ≤ j := by
  have hmem := Table.get?_eq_some_iff.1 hget
  cases hfind : types.entries.find? (fun e => e.2.sameContent t) with
  | none =>
      have hnot := List.find?_eq_none.1 hfind (k, t) hmem
      simp [TypeSymbol.sameContent] at hnot
  | some e =>
      rw [leader_eq_of_find? hget hfind]
      have hcontent : e.2.sameContent t = true := by
        simpa using List.find?_some hfind
      refine ⟨e.2, ?_, of_decide_eq_true hcontent, ?_⟩
      · exact Table.get?_eq_some_iff.2 (List.mem_of_find?_eq_some hfind)
      · intro j u hj hu
        exact Table.le_of_find? hfind hj (decide_eq_true hu)

theorem leader_le (types : Table TypeSymbol) (k : UInt32) :
    leader types k ≤ k := by
  cases hget : types.get? k with
  | none =>
      rw [leader_of_not_key (Table.get?_eq_none_iff.1 hget)]
      exact UInt32.le_refl k
  | some t =>
      obtain ⟨s, -, -, hleast⟩ := leader_spec hget
      exact hleast hget rfl

/-- Types of equal content have one leader. -/
theorem leader_eq_of_content (hk : types.get? k = some t)
    (hj : types.get? j = some u) (h : t.content = u.content) :
    leader types k = leader types j := by
  obtain ⟨s, hs, hst, hleastk⟩ := leader_spec hk
  obtain ⟨r, hr, hru, hleastj⟩ := leader_spec hj
  exact UInt32.le_antisymm (hleastk hr (hru.trans h.symm))
    (hleastj hs (hst.trans h))

/-- A leader leads itself. -/
theorem leader_leader (types : Table TypeSymbol) (k : UInt32) :
    leader types (leader types k) = leader types k := by
  cases hget : types.get? k with
  | none =>
      have h := leader_of_not_key (Table.get?_eq_none_iff.1 hget)
      rw [h, h]
  | some t =>
      obtain ⟨s, hs, hst, -⟩ := leader_spec hget
      exact leader_eq_of_content hs hget hst

/-- The keys that a pass drops. -/
def followers (types : Table TypeSymbol) : List UInt32 :=
  types.keys.filter fun k => leader types k != k

-- ============================================================ buckets

theorem Buckets.at_cons (d' : UInt64) (es : List (UInt32 × TypeSymbol))
    (b : Buckets) (d : UInt64) :
    Buckets.at ((d', es) :: b) d = if d = d' then es else b.at d := by
  unfold Buckets.at
  rw [Table.lookup_cons_ite]
  by_cases hd : d = d' <;> simp [hd]

theorem Buckets.at_add (b : Buckets) (digest d : UInt64)
    (e : UInt32 × TypeSymbol) :
    (b.add digest e).at d
      = if d = digest then b.at digest ++ [e] else b.at d := by
  induction b with
  | nil =>
      rw [Buckets.add, Buckets.at_cons]
      rfl
  | cons c rest ih =>
      obtain ⟨d', es⟩ := c
      unfold Buckets.add
      by_cases hd' : digest = d'
      · rw [if_pos (beq_iff_eq.2 hd'), Buckets.at_cons, Buckets.at_cons,
          Buckets.at_cons, hd', if_pos rfl]
        by_cases hd : d = d' <;> simp [hd]
      · rw [if_neg (by simpa using hd'), Buckets.at_cons, Buckets.at_cons,
          Buckets.at_cons, ih, if_neg hd']
        by_cases hd : d = d'
        · have hne : d ≠ digest := fun h => hd' (h.symm.trans hd)
          rw [if_pos hd, if_neg hne, if_pos hd]
        · rw [if_neg hd, if_neg hd]

-- =========================================================== the scan

/-- What a scan knows once it has read `done`: every content is found in
its bucket as it would be found in `done`, and the dropped keys are the
followers read so far with their leaders. -/
structure Tracks (digest : Content → UInt64) (types : Table TypeSymbol)
    (done : List (UInt32 × TypeSymbol)) (s : Scan) : Prop where
  kept : ∀ t : TypeSymbol,
    (s.kept.at (digest t.content)).find? (fun e => e.2.sameContent t)
      = done.find? fun e => e.2.sameContent t
  dropped : s.dropped.reverse
    = ((done.map Prod.fst).filter fun k => leader types k != k).map
        fun k => (k, leader types k)

variable {digest : Content → UInt64} {s : Scan}
  {done rest : List (UInt32 × TypeSymbol)} {e : UInt32 × TypeSymbol}

theorem tracks_nil (digest : Content → UInt64) (types : Table TypeSymbol) :
    Tracks digest types [] {} where
  kept _ := rfl
  dropped := rfl

/-- Reading one more type keeps the scan on track. -/
theorem tracks_step (h : Tracks digest types done s)
    (hentries : types.entries = done ++ e :: rest) :
    Tracks digest types (done ++ [e]) (s.step digest e).value := by
  have hget : types.get? e.1 = some e.2 :=
    Table.get?_eq_some_iff.2 (by simp [hentries])
  have hlookup := h.kept e.2
  unfold Scan.step
  cases hfind : done.find? (fun k => k.2.sameContent e.2) with
  | some k =>
      rw [hfind] at hlookup
      simp only [hlookup]
      -- the type found stands in front of the one at hand and leads it
      have hleader : leader types e.1 = k.1 :=
        leader_eq_of_find? hget (by
          rw [hentries, List.find?_append, hfind]
          rfl)
      have hlt : k.1 < e.1 := by
        have hasc := types.ascending
        rw [hentries, List.pairwise_append] at hasc
        exact hasc.2.2 k (List.mem_of_find?_eq_some hfind) e
          (List.mem_cons_self ..)
      have hne : leader types e.1 ≠ e.1 :=
        hleader ▸ UInt32.ne_of_lt hlt
      constructor
      · intro t
        show (s.kept.at (digest t.content)).find? _ = _
        rw [h.kept t, List.find?_append]
        by_cases ht : e.2.content = t.content
        · have hsame : (fun k : UInt32 × TypeSymbol => k.2.sameContent t)
              = fun k => k.2.sameContent e.2 := by
            funext k
            unfold TypeSymbol.sameContent
            rw [ht]
          rw [hsame, hfind]
          rfl
        · simp [TypeSymbol.sameContent, ht]
      · show ((e.1, k.1) :: s.dropped).reverse = _
        rw [List.reverse_cons, h.dropped]
        simp [hne, ← hleader]
  | none =>
      rw [hfind] at hlookup
      simp only [hlookup]
      have hleader : leader types e.1 = e.1 :=
        leader_eq_of_find? hget (by
          rw [hentries, List.find?_append, hfind]
          simp [TypeSymbol.sameContent])
      constructor
      · intro t
        show ((s.kept.add (digest e.2.content) e).at
          (digest t.content)).find? _ = _
        rw [Buckets.at_add, List.find?_append]
        by_cases hd : digest t.content = digest e.2.content
        · rw [if_pos hd, List.find?_append, ← hd, h.kept t]
        · have ht : e.2.content ≠ t.content := fun heq => hd (by rw [heq])
          rw [if_neg hd, h.kept t]
          simp [TypeSymbol.sameContent, ht]
      · show s.dropped.reverse = _
        rw [h.dropped]
        simp [hleader]

/-- Reading the rest of the table keeps the scan on track. -/
theorem tracks_run (h : Tracks digest types done s)
    (hentries : types.entries = done ++ rest) :
    Tracks digest types types.entries (Scan.run digest rest s).value := by
  induction rest generalizing done s with
  | nil =>
      rw [hentries, List.append_nil]
      exact h
  | cons e rest ih =>
      exact ih (tracks_step h hentries) (by rw [hentries]; simp)

/-- The keys that a scan of the whole table drops, with their leaders. -/
theorem dropped_eq (digest : Content → UInt64) (types : Table TypeSymbol) :
    (Scan.run digest types.entries {}).value.dropped
      = ((followers types).map fun k => (k, leader types k)).reverse := by
  have h := (tracks_run (tracks_nil digest types)
    (List.nil_append _).symm).dropped
  rw [← List.reverse_reverse (Scan.run digest types.entries {}).value.dropped,
    h]
  rfl

-- =========================================================== the pass

theorem mem_followers :
    k ∈ followers types ↔ leader types k ≠ k := by
  unfold followers
  rw [List.mem_filter, Table.mem_keys, bne_iff_ne]
  constructor
  · exact fun h => h.2
  · intro h
    refine ⟨?_, h⟩
    by_contra hkey
    exact h (leader_of_not_key (by simpa using hkey))

/-- Looking up a dropped key gives its leader, any other number nothing. -/
theorem lookup_dropped (digest : Content → UInt64)
    (types : Table TypeSymbol) (k : UInt32) :
    (Scan.run digest types.entries {}).value.dropped.lookup k
      = if leader types k = k then none else some (leader types k) := by
  rw [dropped_eq]
  by_cases hk : leader types k = k
  · rw [if_pos hk, List.lookup_eq_none_iff]
    intro e he
    obtain ⟨j, hj, rfl⟩ := List.mem_map.1 (List.mem_reverse.1 he)
    have hne : k ≠ j := by
      rintro rfl
      exact mem_followers.1 hj hk
    simpa using hne
  · rw [if_neg hk]
    have hmem : (k, leader types k) ∈ ((followers types).map
        fun k => (k, leader types k)).reverse :=
      List.mem_reverse.2 (List.mem_map.2 ⟨k, mem_followers.2 hk, rfl⟩)
    cases hlookup : ((followers types).map
        fun k => (k, leader types k)).reverse.lookup k with
    | none =>
        have := List.lookup_eq_none_iff.1 hlookup _ hmem
        simp at this
    | some j =>
        obtain ⟨l₁, l₂, hl, -⟩ := List.lookup_eq_some_iff.1 hlookup
        have hj : (k, j) ∈ ((followers types).map
            fun k => (k, leader types k)).reverse := by
          rw [hl]
          simp
        obtain ⟨i, -, hi⟩ := List.mem_map.1 (List.mem_reverse.1 hj)
        cases hi
        rfl

/-- Nothing changes if everything stands for itself. -/
theorem collapse_eq_self {rep : UInt32 → UInt32} (h : ∀ k, rep k = k)
    (g : Graph) : g.collapse rep = g := by
  obtain rfl : rep = id := funext h
  have htype : ∀ t : TypeSymbol, t.mapReferences id = t := by
    intro t
    simp [TypeSymbol.mapReferences]
  have hfunction : ∀ f : FunctionSymbol, f.mapReferences id = f := by
    intro f
    simp [FunctionSymbol.mapReferences]
  have htypes : (g.collapse id).types = g.types := by
    refine Table.ext_get? fun k => ?_
    show ((g.types.map (·.mapReferences id)).filterKeys _).get? k = _
    rw [Table.get?_filterKeys, Table.get?_map]
    simp [htype]
  have hfunctions : (g.collapse id).functions = g.functions := by
    refine Table.ext_get? fun k => ?_
    show (g.functions.map (·.mapReferences id)).get? k = _
    rw [Table.get?_map]
    simp [hfunction]
  exact Graph.ext rfl htypes hfunctions rfl

/-- A pass sends every reference to its leader, keeps the types that lead
themselves, and counts the others. -/
theorem pass_value (digest : Content → UInt64) (g : Graph) :
    (pass digest g).value
      = (g.collapse (leader g.types), (followers g.types).length) := by
  have hlookup := lookup_dropped digest g.types
  have hdropped := dropped_eq digest g.types
  by_cases hnone : followers g.types = []
  · have hempty :
        (Scan.run digest g.types.entries {}).value.dropped.isEmpty = true := by
      rw [hdropped, hnone]
      rfl
    have hself : ∀ k, leader g.types k = k := by
      intro k
      by_contra hk
      have := mem_followers.2 hk
      rw [hnone] at this
      cases this
    show (if (Scan.run digest g.types.entries {}).value.dropped.isEmpty
      then _ else _ : Logged (Graph × Nat)).value = _
    rw [if_pos hempty, collapse_eq_self hself, hnone]
    rfl
  · have hempty :
        (Scan.run digest g.types.entries {}).value.dropped.isEmpty = false := by
      rw [hdropped]
      simpa using hnone
    have hredirect :
        redirect (Scan.run digest g.types.entries {}).value.dropped
          = leader g.types := by
      funext k
      unfold redirect
      rw [hlookup]
      by_cases hk : leader g.types k = k <;> simp [hk]
    have hstays : (fun k =>
        ((Scan.run digest g.types.entries {}).value.dropped.lookup k).isNone)
          = fun k => leader g.types k == k := by
      funext k
      rw [hlookup]
      by_cases hk : leader g.types k = k <;> simp [hk]
    show (if (Scan.run digest g.types.entries {}).value.dropped.isEmpty
      then _ else _ : Logged (Graph × Nat)).value = _
    rw [if_neg (by rw [hempty]; exact Bool.false_ne_true)]
    show (apply (Scan.run digest g.types.entries {}).value.dropped g,
      (Scan.run digest g.types.entries {}).value.dropped.length) = _
    unfold apply
    rw [hredirect, hstays, hdropped]
    simp [Graph.collapse]

end Merge

end SymbolGraph
