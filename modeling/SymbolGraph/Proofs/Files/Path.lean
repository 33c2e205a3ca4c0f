/-
The extension of a path that a dot and a word without dots and slashes
have been put behind. It is the word, unless nothing stands between the
dot and the slash before it: then the dot begins the name, and the name
has no extension.
-/
import Mathlib.Data.List.Induction
import SymbolGraph.Files.Path

namespace SymbolGraph.Path

/-- A word that can be an extension. -/
structure IsExtension (word : List Char) : Prop where
  nonempty : word ≠ []
  plain : ∀ c ∈ word, c ≠ '.' ∧ c ≠ '/'

/-- The characters of the last part of a path, backwards. -/
def lastPart (path : String) : List Char :=
  path.toList.reverse.takeWhile (· ≠ '/')

variable {word : List Char}

theorem dropEnd_of_plain {c : Char} {rest : List Char} (hdot : c ≠ '.')
    (hslash : c ≠ '/') : dropEnd (c :: rest) = c :: rest := by
  rw [dropEnd.eq_def]
  split
  case h_1 h => exact absurd (List.cons.inj h).1 hslash
  case h_2 h => exact absurd (List.cons.inj h).1 hdot
  case h_3 => rfl

/-- Nothing is dropped from the end of a path that ends in a word. -/
theorem dropEnd_append (h : IsExtension word) (rest : List Char) :
    dropEnd (word.reverse ++ rest) = word.reverse ++ rest := by
  cases hreverse : word.reverse with
  | nil => exact absurd (List.reverse_eq_nil_iff.1 hreverse) h.nonempty
  | cons c cs =>
      have hc := h.plain c (List.mem_reverse.1 (hreverse ▸ List.mem_cons_self))
      exact dropEnd_of_plain hc.1 hc.2

/-- The name that ends in a dot and a word, cut there. -/
theorem cut_append (h : IsExtension word) (stem : List Char) :
    cut (stem ++ '.' :: word)
      = if stem = [] then ('.' :: word, none) else (stem, some word) := by
  have hplain : ∀ c ∈ word.reverse, (c ≠ '.' : Bool) = true :=
    fun c hc => decide_eq_true (h.plain c (List.mem_reverse.1 hc)).1
  have hreverse : (stem ++ '.' :: word).reverse
      = word.reverse ++ '.' :: stem.reverse := by
    rw [List.reverse_append, List.reverse_cons, List.append_assoc]
    rfl
  have htake : (stem ++ '.' :: word).reverse.takeWhile (· ≠ '.')
      = word.reverse := by
    rw [hreverse, List.takeWhile_append_of_pos hplain]
    simp
  have hdrop : (stem ++ '.' :: word).reverse.dropWhile (· ≠ '.')
      = '.' :: stem.reverse := by
    rw [hreverse, List.dropWhile_append_of_pos hplain]
    simp
  unfold cut
  rw [htake, hdrop]
  cases stem using List.reverseRecOn with
  | nil => rfl
  | append_singleton stem c =>
      rw [List.reverse_concat, if_neg (List.concat_ne_nil c stem)]
      dsimp only
      rw [List.reverse_cons, List.reverse_reverse, List.reverse_reverse]

/-- The name of a path that a dot and a word have been put behind, cut. -/
theorem leaf?_append (base : String) {ext : String}
    (h : IsExtension ext.toList) :
    ∃ folder, leaf? (base ++ "." ++ ext) = some
      (let name := cut ((lastPart base).reverse ++ '.' :: ext.toList)
       { folder, stem := name.1, extension := name.2 }) := by
  have hplain : ∀ c ∈ ext.toList.reverse, (c ≠ '/' : Bool) = true :=
    fun c hc => decide_eq_true (h.plain c (List.mem_reverse.1 hc)).2
  have hpath : (base ++ "." ++ ext).toList.reverse
      = ext.toList.reverse ++ '.' :: base.toList.reverse := by
    rw [String.toList_append, String.toList_append, List.reverse_append,
      List.reverse_append]
    rfl
  have hname : ((ext.toList.reverse ++ '.' :: base.toList.reverse).takeWhile
      (· ≠ '/')).reverse = (lastPart base).reverse ++ '.' :: ext.toList := by
    rw [List.takeWhile_append_of_pos hplain, List.takeWhile_cons_of_pos rfl,
      List.reverse_append, List.reverse_cons, List.reverse_reverse,
      List.append_assoc]
    rfl
  -- a name is more than dots, for the word is
  obtain ⟨c, hc⟩ := List.exists_mem_of_ne_nil _ h.nonempty
  have hmem : c ∈ (lastPart base).reverse ++ '.' :: ext.toList :=
    List.mem_append_right _ (List.mem_cons_of_mem _ hc)
  have hdots : ∀ dots : List Char, (∀ d ∈ dots, d = '.') →
      (lastPart base).reverse ++ '.' :: ext.toList ≠ dots :=
    fun dots hall heq => (h.plain c hc).1 (hall c (heq ▸ hmem))
  have hproper := not_or.2 ⟨hdots [] (by simp),
    not_or.2 ⟨hdots ['.'] (by simp), hdots ['.', '.'] (by simp)⟩⟩
  unfold leaf?
  rw [hpath, dropEnd_append h]
  dsimp only
  rw [hname, if_neg hproper]
  exact ⟨_, rfl⟩

/-- A dot and a word give a path the word as its extension, but behind a
slash, or behind nothing, they give it none. -/
theorem extension?_append (base : String) {ext : String}
    (h : IsExtension ext.toList) :
    extension? (base ++ "." ++ ext)
      = if lastPart base = [] then none else some ext := by
  obtain ⟨folder, hleaf⟩ := leaf?_append base h
  unfold extension?
  rw [hleaf, cut_append h]
  by_cases hlast : lastPart base = []
  · rw [if_pos hlast, if_pos (List.reverse_eq_nil_iff.2 hlast)]
    rfl
  · rw [if_neg hlast, if_neg (mt List.reverse_eq_nil_iff.1 hlast)]
    show some (String.ofList ext.toList) = some ext
    rw [String.ofList_toList]

/-- A target in a folder, for a base that names nothing in it. -/
example : extension? "out/.json" = none := by decide

end SymbolGraph.Path
