/-
Members that share storage. A block is said here by its places: from one place
up to another the fields are no placeholders and stand at one offset, and no
field can be added on either side (`IsBlock`). Of the blocks with two or more
fields, the one with `n` such blocks before it gets the number `n`, and no other
field is touched (`mark_numbers_blocks`).

# How it is done

The split by neighbours lists the blocks in their order, and between them the
placeholders, each alone. A place where the list is cut is never inside fields
that are together (`Together.not_across`), so the blocks by their places are
those of the list that hold no placeholder (`isBlock_of_blocks`,
`exists_of_isBlock`). Numbers are handed out along the list, so what a place
gets is the count of the larger blocks that are listed before
(`ncard_largerBefore`).

The same marks come about without any list of blocks, in one sweep over the
pairs of neighbours that remembers a number and whether a block is open
(`sweep_eq_mark`). A sweep goes through one block after another, as the
numbering does: it leaves each with no block open and the number that is next.
That a second sweep finds all marks in place is seen pair by pair.
-/
import Mathlib.Data.List.SplitBy
import Mathlib.Data.Set.Card
import SymbolGraph.Build.AnonymousUnion

namespace SymbolGraph

/-- The field as a member of the anonymous union with this number. -/
def Field.inUnion (n : UInt32) (f : Field) : Field :=
  { f with inAnonymousUnion := true, unionId := n }

namespace AnonymousUnion

variable {fields : List Field} {first past first' past' k : Nat} {f : Field}
  {pre post bs : List (List Field)} {block : List Field}

-- ============================================================= overlap

theorem overlap_eq_true_iff {a b : Field} :
    overlap a b = true ↔ a.isPlaceholder = false ∧ b.isPlaceholder = false
      ∧ a.offset = b.offset := by
  simp [overlap, and_assoc]

/-- Marks do not change which fields overlap. -/
@[simp] theorem overlap_inUnion_left (n : UInt32) (a b : Field) :
    overlap (a.inUnion n) b = overlap a b := rfl

@[simp] theorem overlap_inUnion_right (n : UInt32) (a b : Field) :
    overlap a (b.inUnion n) = overlap a b := rfl

@[simp] theorem inUnion_inUnion (m n : UInt32) (f : Field) :
    (f.inUnion m).inUnion n = f.inUnion n := rfl

/-- In a row of fields that overlap with their neighbours, one that is no
placeholder determines the others. -/
theorem same_of_isChain {a : Field}
    (hchain : (a :: block).IsChain fun x y => overlap x y = true)
    (ha : a.isPlaceholder = false) :
    ∀ f ∈ a :: block, f.isPlaceholder = false ∧ f.offset = a.offset := by
  induction block generalizing a with
  | nil =>
      intro f hf
      rw [List.mem_singleton.1 hf]
      exact ⟨ha, rfl⟩
  | cons b block ih =>
      obtain ⟨hab, hchain⟩ := List.isChain_cons_cons.1 hchain
      obtain ⟨-, hb, hoffset⟩ := overlap_eq_true_iff.1 hab
      intro f hf
      rcases List.mem_cons.1 hf with rfl | hf
      · exact ⟨ha, rfl⟩
      · rw [hoffset]
        exact ih hchain hb f hf

/-- In a row of two or more there are no placeholders. -/
theorem not_placeholder_of_large
    (hchain : block.IsChain fun x y => overlap x y = true)
    (hlarge : 2 ≤ block.length) (hf : f ∈ block) : f.isPlaceholder = false := by
  match block, hchain, hlarge with
  | a :: b :: block, hchain, _ =>
      obtain ⟨hab, -⟩ := List.isChain_cons_cons.1 hchain
      have ha := (overlap_eq_true_iff.1 hab).1
      exact (same_of_isChain hchain ha f hf).1

theorem head_not_placeholder {a : Field}
    (hchain : (a :: block).IsChain fun x y => overlap x y = true)
    (hf : f ∈ a :: block) (hplain : f.isPlaceholder = false) :
    a.isPlaceholder = false := by
  cases block with
  | nil => rwa [← List.mem_singleton.1 hf]
  | cons b block =>
      obtain ⟨hab, -⟩ := List.isChain_cons_cons.1 hchain
      exact (overlap_eq_true_iff.1 hab).1

-- ============================================================== places

/-- From place `first` up to `past` there are fields at one offset, and no
placeholders. -/
def Together (fields : List Field) (first past : Nat) : Prop :=
  past ≤ fields.length ∧ ∃ offset, ∀ k f, first ≤ k → k < past →
    fields[k]? = some f → f.isPlaceholder = false ∧ f.offset = offset

/-- The fields from place `first` up to `past` are a block: they are together,
and with no more. -/
structure IsBlock (fields : List Field) (first past : Nat) : Prop where
  nonempty : first < past
  together : Together fields first past
  maximal : ∀ first' past', first' ≤ first → past ≤ past' →
    Together fields first' past' → first' = first ∧ past' = past

/-- What is together with one place is together. -/
theorem Together.union (h : Together fields first past)
    (h' : Together fields first' past') (hk : first ≤ k ∧ k < past)
    (hk' : first' ≤ k ∧ k < past') :
    Together fields (min first first') (max past past') := by
  obtain ⟨hpast, offset, hsame⟩ := h
  obtain ⟨hpast', offset', hsame'⟩ := h'
  have hshared : fields[k]? = some fields[k] :=
    List.getElem?_eq_getElem (Nat.lt_of_lt_of_le hk.2 hpast)
  have hoffset : offset' = offset :=
    (hsame' k _ hk'.1 hk'.2 hshared).2.symm.trans
      (hsame k _ hk.1 hk.2 hshared).2
  refine ⟨Nat.max_le.2 ⟨hpast, hpast'⟩, offset, fun j f hj hj' hf => ?_⟩
  -- on the side of the shared place on which it lies, `j` is in one of the two
  by_cases hin : first ≤ j ∧ j < past
  · exact hsame j f hin.1 hin.2 hf
  · rw [← hoffset]
    exact hsame' j f (by omega) (by omega) hf

/-- Blocks that share a place are one block. -/
theorem IsBlock.unique (h : IsBlock fields first past)
    (h' : IsBlock fields first' past') (hk : first ≤ k ∧ k < past)
    (hk' : first' ≤ k ∧ k < past') : first = first' ∧ past = past' := by
  have hunion := h.together.union h'.together hk hk'
  have hfirst :=
    h.maximal _ _ (Nat.min_le_left _ _) (Nat.le_max_left _ _) hunion
  have hsecond :=
    h'.maximal _ _ (Nat.min_le_right _ _) (Nat.le_max_right _ _) hunion
  exact ⟨hfirst.1.symm.trans hsecond.1, hfirst.2.symm.trans hsecond.2⟩

-- ============================================================ the split

/-- Blocks as the split by neighbours lists them. -/
structure IsSplit (bs : List (List Field)) : Prop where
  nonempty : [] ∉ bs
  chain : ∀ block ∈ bs, block.IsChain fun x y => overlap x y = true
  ends : bs.IsChain fun a b =>
    ∃ ha hb, overlap (a.getLast ha) (b.head hb) = false

theorem flatten_blocks (fields : List Field) :
    (blocks fields).flatten = fields :=
  List.flatten_splitBy overlap fields

theorem isSplit_blocks (fields : List Field) : IsSplit (blocks fields) where
  nonempty := List.nil_notMem_splitBy overlap fields
  chain _ := List.isChain_of_mem_splitBy
  ends := List.isChain_getLast_head_splitBy overlap fields

theorem isChain_of_blocks (hsplit : blocks fields = pre ++ block :: post) :
    block.IsChain fun x y => overlap x y = true := by
  apply (isSplit_blocks fields).chain
  rw [hsplit]
  exact List.mem_append_right _ List.mem_cons_self

/-- Where the list is cut, the fields on both sides do not overlap. -/
theorem IsSplit.cut (h : IsSplit (pre ++ post)) :
    ∀ a ∈ pre.flatten.getLast?, ∀ b ∈ post.flatten.head?,
      overlap a b = false := by
  intro a ha b hb
  obtain ⟨-, -, hends⟩ := List.isChain_append.1 h.ends
  rcases List.eq_nil_or_concat pre with rfl | ⟨front, x, rfl⟩
  · cases ha
  · cases post with
    | nil => cases hb
    | cons y back =>
        obtain ⟨hx, hy, hxy⟩ := hends x (by simp) y (by simp)
        have ha' : x.getLast hx = a := by
          simpa [List.getLast?_append, List.getLast?_eq_some_getLast hx]
            using ha
        have hb' : y.head hy = b := by
          simpa [List.head?_append, List.head?_eq_some_head hy] using hb
        rwa [← ha', ← hb']

/-- Fields that are together lie on one side of a cut. -/
theorem Together.not_across (h : Together (pre ++ post).flatten first past)
    (hsplit : IsSplit (pre ++ post)) :
    past ≤ pre.flatten.length ∨ pre.flatten.length ≤ first := by
  by_contra hacross
  obtain ⟨hpast, offset, hsame⟩ := h
  rw [List.flatten_append] at hpast hsame
  rw [List.length_append] at hpast
  have hbefore : pre.flatten.length - 1 < pre.flatten.length := by omega
  have hbehind : 0 < post.flatten.length := by omega
  have ha : pre.flatten[pre.flatten.length - 1]?
      = some (pre.flatten[pre.flatten.length - 1]) :=
    List.getElem?_eq_getElem hbefore
  have hb : post.flatten[0]? = some (post.flatten[0]) :=
    List.getElem?_eq_getElem hbehind
  have hapart := hsplit.cut _ (List.getLast?_eq_getElem?.trans ha) _
    (List.head?_eq_getElem?.trans hb)
  have hsame₁ := hsame (pre.flatten.length - 1) _ (by omega) (by omega)
    ((List.getElem?_append_left hbefore).trans ha)
  have hsame₂ := hsame pre.flatten.length _ (by omega) (by omega) (by
    rw [List.getElem?_append_right (Nat.le_refl _), Nat.sub_self]
    exact hb)
  rw [overlap_eq_true_iff.2
    ⟨hsame₁.1, hsame₂.1, hsame₁.2.trans hsame₂.2.symm⟩] at hapart
  cases hapart

/-- A block of the list that holds a field is a block by its places. -/
theorem isBlock_of_blocks (hsplit : blocks fields = pre ++ block :: post)
    (hf : f ∈ block) (hplain : f.isPlaceholder = false) :
    IsBlock fields pre.flatten.length (pre.flatten.length + block.length) := by
  have hfields : fields = (pre ++ block :: post).flatten := by
    rw [← hsplit, flatten_blocks]
  have hwell : IsSplit (pre ++ block :: post) := by
    rw [← hsplit]
    exact isSplit_blocks fields
  have hlength : fields.length
      = pre.flatten.length + (block.length + post.flatten.length) := by
    rw [hfields]
    simp
  cases block with
  | nil => cases hf
  | cons a block =>
      have hchain := isChain_of_blocks hsplit
      have hall := same_of_isChain hchain
        (head_not_placeholder hchain hf hplain)
      refine ⟨by simp, ⟨by omega, a.offset, ?_⟩, ?_⟩
      · intro k g hk hk' hg
        apply hall
        rw [hfields, List.flatten_append, List.getElem?_append_right hk,
          List.flatten_cons, List.getElem?_append_left (by omega)] at hg
        exact List.mem_of_getElem? hg
      · intro first' past' hle hle' htogether
        -- neither end of the block lies inside what is together
        rw [hfields] at htogether
        have hleft := htogether.not_across hwell
        rw [List.append_cons] at htogether hwell
        have hright := htogether.not_across hwell
        simp only [List.flatten_append, List.flatten_cons, List.flatten_nil,
          List.append_nil, List.length_append, List.length_cons]
          at hright hle' ⊢
        omega

/-- Every place is in a block of the list. -/
theorem exists_block_of_lt (hk : k < bs.flatten.length) :
    ∃ pre block post, bs = pre ++ block :: post
      ∧ pre.flatten.length ≤ k ∧ k < pre.flatten.length + block.length := by
  induction bs generalizing k with
  | nil => cases hk
  | cons block bs ih =>
      rw [List.flatten_cons, List.length_append] at hk
      by_cases hhere : k < block.length
      · exact ⟨[], block, bs, rfl, by simp, by simpa using hhere⟩
      · obtain ⟨pre, block', post, rfl, hle, hlt⟩ :=
          ih (k := k - block.length) (by omega)
        refine ⟨block :: pre, block', post, rfl, ?_, ?_⟩
        · rw [List.flatten_cons, List.length_append]
          omega
        · rw [List.flatten_cons, List.length_append]
          omega

theorem exists_block_of_field (hf : fields[k]? = some f) :
    ∃ pre block post, blocks fields = pre ++ block :: post
      ∧ (pre.flatten.length ≤ k ∧ k < pre.flatten.length + block.length)
      ∧ f ∈ block := by
  obtain ⟨hk, -⟩ := List.getElem?_eq_some_iff.1 hf
  rw [← flatten_blocks fields] at hk
  obtain ⟨pre, block, post, hsplit, hle, hlt⟩ := exists_block_of_lt hk
  refine ⟨pre, block, post, hsplit, ⟨hle, hlt⟩, ?_⟩
  rw [← flatten_blocks fields, hsplit, List.flatten_append,
    List.getElem?_append_right hle, List.flatten_cons,
    List.getElem?_append_left (by omega)] at hf
  exact List.mem_of_getElem? hf

/-- The blocks by their places are those of the list. -/
theorem exists_of_isBlock (h : IsBlock fields first past) :
    ∃ pre block post, blocks fields = pre ++ block :: post
      ∧ first = pre.flatten.length
      ∧ past = pre.flatten.length + block.length := by
  obtain ⟨hpast, offset, hsame⟩ := h.together
  have hfirst : first < fields.length := Nat.lt_of_lt_of_le h.nonempty hpast
  have hf : fields[first]? = some fields[first] :=
    List.getElem?_eq_getElem hfirst
  obtain ⟨pre, block, post, hsplit, hin, hmem⟩ := exists_block_of_field hf
  have hblock := isBlock_of_blocks hsplit hmem
    (hsame first _ (Nat.le_refl _) h.nonempty hf).1
  exact ⟨pre, block, post, hsplit,
    h.unique hblock ⟨Nat.le_refl _, h.nonempty⟩ hin⟩

-- ============================================================= counting

/-- The places at which blocks of two or more fields begin, if the first block
begins at `place`. -/
def beginnings : Nat → List (List Field) → List Nat
  | _, [] => []
  | place, block :: rest =>
    if block.length < 2 then beginnings (place + block.length) rest
    else place :: beginnings (place + block.length) rest

theorem beginnings_append (place : Nat) (pre post : List (List Field)) :
    beginnings place (pre ++ post) = beginnings place pre
      ++ beginnings (place + pre.flatten.length) post := by
  induction pre generalizing place with
  | nil => rfl
  | cons block pre ih =>
      rw [List.cons_append, beginnings, beginnings, ih, List.flatten_cons,
        List.length_append, Nat.add_assoc]
      split <;> rfl

theorem mem_beginnings {place s : Nat} :
    s ∈ beginnings place bs ↔ ∃ pre block post, bs = pre ++ block :: post
      ∧ s = place + pre.flatten.length ∧ 2 ≤ block.length := by
  constructor
  · intro hs
    induction bs generalizing place with
    | nil => cases hs
    | cons block bs ih =>
        have hlater : s ∈ beginnings (place + block.length) bs →
            ∃ pre block' post, block :: bs = pre ++ block' :: post
              ∧ s = place + pre.flatten.length ∧ 2 ≤ block'.length := by
          intro hs
          obtain ⟨pre, block', post, rfl, rfl, hlarge⟩ := ih hs
          exact ⟨block :: pre, block', post, rfl, by simp [Nat.add_assoc],
            hlarge⟩
        rw [beginnings] at hs
        split at hs
        case isTrue => exact hlater hs
        case isFalse hlarge =>
          rcases List.mem_cons.1 hs with rfl | hs
          · exact ⟨[], block, bs, rfl, rfl, Nat.not_lt.1 hlarge⟩
          · exact hlater hs
  · rintro ⟨pre, block, post, rfl, rfl, hlarge⟩
    rw [beginnings_append, beginnings, if_neg (Nat.not_lt.2 hlarge)]
    exact List.mem_append_right _ List.mem_cons_self

theorem mem_beginnings_bounds {place s : Nat} (hs : s ∈ beginnings place bs) :
    place ≤ s ∧ s < place + bs.flatten.length := by
  obtain ⟨pre, block, post, rfl, rfl, hlarge⟩ := mem_beginnings.1 hs
  simp
  omega

theorem beginnings_nodup (place : Nat) (bs : List (List Field)) :
    (beginnings place bs).Nodup := by
  induction bs generalizing place with
  | nil => exact List.nodup_nil
  | cons block bs ih =>
      rw [beginnings]
      split
      case isTrue => exact ih _
      case isFalse hlarge =>
        refine List.nodup_cons.2 ⟨fun hmem => ?_, ih _⟩
        have := (mem_beginnings_bounds hmem).1
        omega

theorem length_beginnings_le (place : Nat) (bs : List (List Field)) :
    (beginnings place bs).length ≤ bs.flatten.length := by
  induction bs generalizing place with
  | nil => exact Nat.le_refl _
  | cons block bs ih =>
      have hrest := ih (place + block.length)
      rw [beginnings, List.flatten_cons, List.length_append]
      split
      · omega
      · rw [List.length_cons]
        omega

/-- The places before a place at which blocks of two or more fields begin. -/
def largerBefore (fields : List Field) (place : Nat) : Set Nat :=
  {s | s < place ∧ ∃ e, s + 2 ≤ e ∧ IsBlock fields s e}

/-- Of the blocks with two or more fields, those before a block are the ones
that are listed before it. -/
theorem ncard_largerBefore (hsplit : blocks fields = pre ++ block :: post) :
    (largerBefore fields pre.flatten.length).ncard
      = (beginnings 0 pre).length := by
  have hset : largerBefore fields pre.flatten.length
      = ↑(beginnings 0 pre).toFinset := by
    ext s
    rw [Finset.mem_coe, List.mem_toFinset]
    constructor
    · rintro ⟨hs, e, hlarge, hblock⟩
      obtain ⟨pre', block', post', hsplit', rfl, rfl⟩ :=
        exists_of_isBlock hblock
      have hmem : pre'.flatten.length ∈ beginnings 0 (blocks fields) :=
        mem_beginnings.2 ⟨pre', block', post', hsplit', by simp, by omega⟩
      rw [hsplit, beginnings_append, List.mem_append] at hmem
      rcases hmem with hmem | hmem
      · exact hmem
      · have := (mem_beginnings_bounds hmem).1
        omega
    · intro hs
      refine ⟨by simpa using (mem_beginnings_bounds hs).2, ?_⟩
      obtain ⟨pre', block', post', rfl, rfl, hlarge⟩ := mem_beginnings.1 hs
      rw [List.append_assoc, List.cons_append] at hsplit
      obtain ⟨f, hf⟩ := List.exists_mem_of_length_pos (l := block') (by omega)
      rw [Nat.zero_add]
      exact ⟨_, by omega, isBlock_of_blocks hsplit hf
        (not_placeholder_of_large (isChain_of_blocks hsplit) hlarge hf)⟩
  rw [hset, Set.ncard_coe_finset,
    List.toFinset_card_of_nodup (beginnings_nodup 0 pre)]

-- =============================================================== numbers

theorem length_number (next : UInt32) (bs : List (List Field)) :
    (number next bs).length = bs.flatten.length := by
  induction bs generalizing next with
  | nil => rfl
  | cons block bs ih =>
      rw [number]
      split <;> simp [ih]

/-- Numbers go on behind a block where they stopped before it. -/
theorem number_append (n place : Nat) (pre post : List (List Field)) :
    number (UInt32.ofNat n) (pre ++ post) = number (UInt32.ofNat n) pre
      ++ number (UInt32.ofNat (n + (beginnings place pre).length)) post := by
  induction pre generalizing n place with
  | nil => rfl
  | cons block pre ih =>
      rw [List.cons_append, number, number, beginnings]
      split
      case isTrue =>
        rw [ih n (place + block.length), List.append_assoc]
      case isFalse =>
        have hnext : UInt32.ofNat n + 1 = UInt32.ofNat (n + 1) :=
          (UInt32.ofNat_add n 1).symm
        rw [hnext, ih (n + 1) (place + block.length), List.append_assoc,
          List.length_cons, Nat.add_assoc, Nat.add_comm 1]

/-- What numbering makes of the field at a place. -/
theorem getElem?_mark (hsplit : blocks fields = pre ++ block :: post)
    (hle : pre.flatten.length ≤ k)
    (hlt : k < pre.flatten.length + block.length) :
    (mark fields)[k]? = fields[k]?.map fun f =>
      if block.length < 2 then f
      else f.inUnion (UInt32.ofNat (beginnings 0 pre).length) := by
  have hfields : fields[k]? = block[k - pre.flatten.length]? := by
    rw [← flatten_blocks fields, hsplit, List.flatten_append,
      List.getElem?_append_right hle, List.flatten_cons,
      List.getElem?_append_left (by omega)]
  have hlength : (number 0 pre).length = pre.flatten.length :=
    length_number 0 pre
  have hnumber : number 0 (pre ++ block :: post) = number 0 pre
      ++ number (UInt32.ofNat (beginnings 0 pre).length) (block :: post) := by
    have happend := number_append 0 0 pre (block :: post)
    rwa [Nat.zero_add] at happend
  rw [mark, hsplit, hfields, hnumber,
    List.getElem?_append_right (by omega), hlength, number]
  split
  · rw [List.getElem?_append_left (by omega), Option.map_id']
  · rw [List.getElem?_append_left (by rw [List.length_map]; omega),
      List.getElem?_map]
    rfl

-- =============================================================== sweep

/-- Goes on from a field to the ones behind it, pair by pair. If the two of a
pair overlap, both are marked with the number at hand, and a block is open;
otherwise an open block ends, and the number at hand is the next one. -/
def sweepFrom (next : UInt32) (opened : Bool) : Field → List Field → List Field
  | a, [] => [a]
  | a, b :: rest =>
    if overlap a b then
      a.inUnion next :: sweepFrom next true (b.inUnion next) rest
    else a :: sweepFrom (if opened then next + 1 else next) false b rest

/-- The marks, set in one sweep. -/
def sweep (next : UInt32) : List Field → List Field
  | [] => []
  | a :: rest => sweepFrom next false a rest

/-- An open block is marked to its end. -/
theorem sweepFrom_opened {a : Field} {rest : List Field} (next : UInt32)
    (hchain : (a :: block).IsChain fun x y => overlap x y = true)
    (hend : ∀ x ∈ (a :: block).getLast?, ∀ y ∈ rest.head?,
      overlap x y = false) :
    sweepFrom next true (a.inUnion next) (block ++ rest)
      = (a :: block).map (Field.inUnion next) ++ sweep (next + 1) rest := by
  induction block generalizing a with
  | nil =>
      cases rest with
      | nil => rfl
      | cons b rest =>
          have hab : overlap a b = false := hend a rfl b rfl
          rw [List.nil_append, sweepFrom, overlap_inUnion_left, hab]
          rfl
  | cons b block ih =>
      obtain ⟨hab, hchain⟩ := List.isChain_cons_cons.1 hchain
      have hrest := ih hchain fun x hx => hend x (by simpa using hx)
      rw [List.cons_append, sweepFrom, overlap_inUnion_left, if_pos hab,
        inUnion_inUnion, hrest]
      rfl

/-- One block is swept, and the number that is next goes to the rest. -/
theorem sweep_block {rest : List Field} (next : UInt32) (hne : block ≠ [])
    (hchain : block.IsChain fun x y => overlap x y = true)
    (hend : ∀ x ∈ block.getLast?, ∀ y ∈ rest.head?, overlap x y = false) :
    sweep next (block ++ rest)
      = if block.length < 2 then block ++ sweep next rest
        else block.map (Field.inUnion next) ++ sweep (next + 1) rest := by
  match block, hne, hchain, hend with
  | [a], _, _, hend =>
      cases rest with
      | nil => rfl
      | cons b rest =>
          have hab : overlap a b = false := hend a rfl b rfl
          show sweepFrom next false a (b :: rest) = _
          rw [sweepFrom, hab]
          rfl
  | a :: b :: block, _, hchain, hend =>
      obtain ⟨hab, hchain⟩ := List.isChain_cons_cons.1 hchain
      have hopened := sweepFrom_opened next hchain
        fun x hx => hend x (by simpa using hx)
      show sweepFrom next false a (b :: (block ++ rest)) = _
      rw [sweepFrom, if_pos hab, hopened, if_neg (by simp)]
      rfl

/-- A sweep gives the blocks their numbers. -/
theorem sweep_flatten (next : UInt32) (h : IsSplit bs) :
    sweep next bs.flatten = number next bs := by
  induction bs generalizing next with
  | nil => rfl
  | cons block bs ih =>
      have hcut := @IsSplit.cut [block] bs h
      have hrest : IsSplit bs := {
        nonempty := fun hmem => h.nonempty (List.mem_cons_of_mem _ hmem)
        chain := fun b hb => h.chain b (List.mem_cons_of_mem _ hb)
        ends := h.ends.tail }
      rw [List.flatten_cons, sweep_block next
        (fun hnil => h.nonempty (hnil ▸ List.mem_cons_self))
        (h.chain block List.mem_cons_self) (by simpa using hcut),
        ih next hrest, ih (next + 1) hrest]
      rfl

theorem sweep_eq_mark (fields : List Field) : sweep 0 fields = mark fields := by
  have hsweep := sweep_flatten 0 (isSplit_blocks fields)
  rwa [flatten_blocks] at hsweep

/-- What a sweep has gone through, it goes through again without a change: its
first field is at most marked, so a pair overlaps then if it did before. -/
theorem sweepFrom_again (next : UInt32) (opened : Bool) (a : Field)
    (rest : List Field) :
    ∃ b rest', sweepFrom next opened a rest = b :: rest'
      ∧ (b = a ∨ b = a.inUnion next)
      ∧ sweepFrom next opened b rest' = b :: rest' := by
  induction rest generalizing next opened a with
  | nil => exact ⟨a, [], rfl, .inl rfl, rfl⟩
  | cons c rest ih =>
      rw [sweepFrom]
      split
      case isTrue hac =>
        obtain ⟨c', rest', hsweep, hfirst, hagain⟩ :=
          ih next true (c.inUnion next)
        have hc' : c' = c.inUnion next := by
          rcases hfirst with rfl | rfl <;> rfl
        subst hc'
        refine ⟨a.inUnion next, c.inUnion next :: rest', by rw [hsweep],
          .inr rfl, ?_⟩
        rw [sweepFrom, overlap_inUnion_left, overlap_inUnion_right, if_pos hac,
          inUnion_inUnion, inUnion_inUnion, hagain]
      case isFalse hac =>
        obtain ⟨c', rest', hsweep, hfirst, hagain⟩ :=
          ih (if opened then next + 1 else next) false c
        have hac' : overlap a c' = overlap a c := by
          rcases hfirst with rfl | rfl <;> rfl
        refine ⟨a, c' :: rest', by rw [hsweep], .inl rfl, ?_⟩
        rw [sweepFrom, hac', if_neg hac, hagain]

theorem mark_mark (fields : List Field) : mark (mark fields) = mark fields := by
  rw [← sweep_eq_mark fields, ← sweep_eq_mark]
  cases fields with
  | nil => rfl
  | cons a rest =>
      obtain ⟨b, rest', hsweep, -, hagain⟩ := sweepFrom_again 0 false a rest
      show sweep 0 (sweepFrom 0 false a rest) = sweepFrom 0 false a rest
      rw [hsweep]
      exact hagain

-- =============================================================== marks

theorem length_mark (fields : List Field) :
    (mark fields).length = fields.length := by
  rw [mark, length_number, flatten_blocks]

/-- A placeholder is left as it is. -/
theorem getElem?_mark_of_placeholder (hf : fields[k]? = some f)
    (hplaceholder : f.isPlaceholder = true) : (mark fields)[k]? = some f := by
  obtain ⟨pre, block, post, hsplit, ⟨hle, hlt⟩, hmem⟩ :=
    exists_block_of_field hf
  have hsmall : block.length < 2 := by
    by_contra hlarge
    rw [not_placeholder_of_large (isChain_of_blocks hsplit) (by omega) hmem]
      at hplaceholder
    cases hplaceholder
  rw [getElem?_mark hsplit hle hlt, hf, Option.map_some, if_pos hsmall]

/-- Marking finds the maximal blocks of neighbours at one offset, placeholders
aside. A field of a block with two or more gets the number of such blocks
before its own; every other field is left as it is, as are all other members.
One sweep over the pairs of neighbours does the same, and marking a second time
changes nothing. -/
theorem mark_numbers_blocks (fields : List Field)
    (hshort : fields.length < 2 ^ 32) :
    (mark fields).length = fields.length
      ∧ (∀ (k : Nat) (f : Field), fields[k]? = some f → f.isPlaceholder = true →
        (mark fields)[k]? = some f)
      ∧ (∀ (k : Nat) (f : Field), fields[k]? = some f →
        f.isPlaceholder = false →
        (∃! b : Nat × Nat, IsBlock fields b.1 b.2 ∧ b.1 ≤ k ∧ k < b.2)
        ∧ ∀ first past, IsBlock fields first past → first ≤ k → k < past →
          (past < first + 2 → (mark fields)[k]? = some f)
          ∧ (first + 2 ≤ past → ∃ n : UInt32,
            n.toNat = (largerBefore fields first).ncard
            ∧ (mark fields)[k]? = some { f with
                inAnonymousUnion := true, unionId := n }))
      ∧ sweep 0 fields = mark fields
      ∧ mark (mark fields) = mark fields := by
  refine ⟨length_mark fields, fun k f => getElem?_mark_of_placeholder, ?_,
    sweep_eq_mark fields, mark_mark fields⟩
  intro k f hf hplain
  constructor
  · obtain ⟨pre, block, post, hsplit, hin, hmem⟩ := exists_block_of_field hf
    have hblock := isBlock_of_blocks hsplit hmem hplain
    refine ⟨(_, _), ⟨hblock, hin⟩, ?_⟩
    rintro ⟨first, past⟩ ⟨hblock', hin'⟩
    exact Prod.ext_iff.2 (hblock'.unique hblock hin' hin)
  · intro first past hblock hle hlt
    obtain ⟨pre, block, post, hsplit, rfl, rfl⟩ := exists_of_isBlock hblock
    have hmark := getElem?_mark hsplit hle hlt
    rw [hf, Option.map_some] at hmark
    constructor
    · intro hsmall
      rw [hmark, if_pos (by omega)]
    · intro hlarge
      have hpast := hblock.together.1
      have hcount : (beginnings 0 pre).length < 2 ^ 32 := by
        have hle := length_beginnings_le 0 pre
        omega
      refine ⟨UInt32.ofNat (beginnings 0 pre).length, ?_, ?_⟩
      · rw [ncard_largerBefore hsplit]
        exact UInt32.toNat_ofNat_of_lt' hcount
      · rw [hmark, if_neg (by omega)]
        rfl

/-- Two members at one offset, one that could not be read, one alone, and two
more at one offset. -/
def packetFields : List Field :=
  [{ id := 1, name := "word" }, { id := 2, name := "bytes" }, .placeholder,
    { id := 4, name := "kind", offset := 4 },
    { id := 5, name := "count", offset := 8 },
    { id := 6, name := "flags", offset := 8 }]

theorem mark_numbers_blocks_packetFields :
    packetFields.length < 2 ^ 32
      ∧ IsBlock packetFields 4 6
      ∧ (largerBefore packetFields 4).ncard = 1
      ∧ (mark packetFields)[5]?.map Field.unionId = some 1
      ∧ (mark packetFields)[2]? = some .placeholder
      ∧ mark (mark packetFields) = mark packetFields := by
  have hshort : packetFields.length < 2 ^ 32 := by decide
  have hsplit : blocks packetFields
      = (blocks packetFields).take 3 ++ packetFields.drop 4 :: [] := by rfl
  have hblock : IsBlock packetFields 4 6 :=
    isBlock_of_blocks hsplit List.mem_cons_self rfl
  have hvalue : (mark packetFields)[5]?.map Field.unionId = some 1 := by rfl
  obtain ⟨-, hplaceholder, hmarks, -, hagain⟩ :=
    mark_numbers_blocks packetFields hshort
  obtain ⟨-, hnumbers⟩ := hmarks 5 _ rfl rfl
  obtain ⟨n, hn, hmark⟩ :=
    (hnumbers 4 6 hblock (by decide) (by decide)).2 (by decide)
  rw [hmark] at hvalue
  cases hvalue
  exact ⟨hshort, hblock, hn.symm, by rw [hmark]; rfl,
    hplaceholder 2 _ rfl rfl, hagain⟩

end AnonymousUnion

end SymbolGraph
