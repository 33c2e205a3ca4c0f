/-
Tables keyed by 32-bit ids, in ascending key order. The order is part of
the type, so two tables that hold the same symbols under the same keys are
equal, and "the first symbol that ..." always means the one with the
least key.
-/
namespace SymbolGraph

/-- Symbols under ids, each id at most once, in ascending order. -/
structure Table (α : Type) where
  entries : List (UInt32 × α) := []
  ascending : entries.Pairwise (fun a b => a.1 < b.1) := by simp
deriving DecidableEq

namespace Table

variable {α β : Type}

-- ============================================================ reading

instance : Inhabited (Table α) := ⟨{}⟩

def empty : Table α := {}

def keys (t : Table α) : List UInt32 := t.entries.map Prod.fst

def values (t : Table α) : List α := t.entries.map Prod.snd

def size (t : Table α) : Nat := t.entries.length

def get? (t : Table α) (key : UInt32) : Option α := t.entries.lookup key

def contains (t : Table α) (key : UInt32) : Bool := (t.get? key).isSome

/-- The value with the least key that satisfies `p`. -/
def find? (t : Table α) (p : α → Bool) : Option α := t.values.find? p

-- ========================================================== insertion

/-- Puts `value` under `key` into an ascending list of entries, in place
of what stood there. -/
def insertEntry (key : UInt32) (value : α) :
    List (UInt32 × α) → List (UInt32 × α)
  | [] => [(key, value)]
  | (k, v) :: rest =>
    if key < k then (key, value) :: (k, v) :: rest
    else if key = k then (key, value) :: rest
    else (k, v) :: insertEntry key value rest

theorem mem_insertEntry {key : UInt32} {value : α} {e : UInt32 × α} :
    ∀ {l : List (UInt32 × α)}, e ∈ insertEntry key value l →
      e = (key, value) ∨ e ∈ l
  | [], h => by simpa [insertEntry] using h
  | (k, v) :: rest, h => by
    unfold insertEntry at h
    split at h
    · simpa using h
    · split at h
      · simp only [List.mem_cons] at h ⊢
        rcases h with h | h
        · exact .inl h
        · exact .inr (.inr h)
      · simp only [List.mem_cons] at h ⊢
        rcases h with h | h
        · exact .inr (.inl h)
        · exact (mem_insertEntry h).imp_right .inr

theorem pairwise_insertEntry {key : UInt32} {value : α} :
    ∀ {l : List (UInt32 × α)}, l.Pairwise (fun a b => a.1 < b.1) →
      (insertEntry key value l).Pairwise (fun a b => a.1 < b.1)
  | [], _ => by simp [insertEntry]
  | (k, v) :: rest, h => by
    have ⟨hk, hr⟩ := List.pairwise_cons.1 h
    unfold insertEntry
    split
    · rename_i hlt
      refine List.pairwise_cons.2 ⟨fun e he => ?_, h⟩
      rcases List.mem_cons.1 he with rfl | he
      · exact hlt
      · exact UInt32.lt_trans hlt (hk e he)
    · split
      · rename_i _ heq
        subst heq
        exact List.pairwise_cons.2 ⟨hk, hr⟩
      · rename_i hlt hne
        refine List.pairwise_cons.2 ⟨fun e he => ?_, pairwise_insertEntry hr⟩
        rcases mem_insertEntry he with rfl | he
        · exact UInt32.lt_of_le_of_ne (UInt32.not_lt.1 hlt) (Ne.symm hne)
        · exact hk e he

/-- Puts a value under a key, in place of what stood there. -/
def insert (t : Table α) (key : UInt32) (value : α) : Table α where
  entries := insertEntry key value t.entries
  ascending := pairwise_insertEntry t.ascending

/-- The table of a list of pairs; of two with one key the later wins. -/
def ofList (l : List (UInt32 × α)) : Table α :=
  l.foldl (fun t e => t.insert e.1 e.2) empty

-- ================================================= removing, changing

/-- Keeps the entries whose key satisfies `p`. -/
def filterKeys (p : UInt32 → Bool) (t : Table α) : Table α where
  entries := t.entries.filter fun e => p e.1
  ascending := t.ascending.filter _

def erase (t : Table α) (key : UInt32) : Table α :=
  t.filterKeys fun k => k != key

/-- Changes every value and no key. -/
def map (f : α → β) (t : Table α) : Table β where
  entries := t.entries.map fun e => (e.1, f e.2)
  ascending := by
    rw [List.pairwise_map]
    exact t.ascending

theorem keys_map (f : α → β) (t : Table α) : (t.map f).keys = t.keys := by
  simp [keys, map]

theorem values_map (f : α → β) (t : Table α) :
    (t.map f).values = t.values.map f := by
  simp [values, map]

end Table

end SymbolGraph
