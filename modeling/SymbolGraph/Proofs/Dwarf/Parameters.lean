/-
The parameters of a function. They are gathered from left to right, and whether
a parameter is the receiver depends on what was gathered before it; but that is
decided by the first one alone, and behind it every parameter becomes an
argument (`gathered`). The builder then leaves out a first argument without a
type. What remains are all parameters but at most one (`entered`), in the order
of their declaration.
-/
import SymbolGraph.Proofs.Build.Functions
import SymbolGraph.Proofs.Dwarf.Entries

namespace SymbolGraph.Dwarf.Unit

variable {u : Unit} {e c : Entry} {pointer : Option Nat}

-- ============================================================ parameters

/-- Does the child of a function stand for parameters? -/
def isParameter (c : Entry) : Bool :=
  c.tag = Tag.formalParameter || c.tag = Tag.unspecifiedParameters

/-- The type of a parameter; none if it has none in its unit. -/
def parameterType (c : Entry) : Option Nat :=
  if c.tag = Tag.formalParameter then (c.reference? Attr.type).value else none

/-- Is the first parameter the receiver? -/
def isReceiver (pointer : Option Nat) (c : Entry) : Bool :=
  (parameterType c).isSome
    && (pointer = some c.offset || c.isSet Attr.artificial)

/-- Parameters without the first one, if that has no type. -/
def withoutUntyped : List Entry → List Entry
  | [] => []
  | c :: rest => if (parameterType c).isNone then rest else c :: rest

/-- The parameters that get an entry in the symbol of a function: all but the
first one that is not the receiver, which needs a type. -/
def entered (pointer : Option Nat) : List Entry → List Entry
  | [] => []
  | c :: rest =>
    if isReceiver pointer c then c :: withoutUntyped rest
    else withoutUntyped (c :: rest)

/-- At most one parameter is left out, and that has no type. -/
theorem entered_eq_or (pointer : Option Nat) (parameters : List Entry) :
    entered pointer parameters = parameters
      ∨ ∃ before c after, parameters = before ++ c :: after
        ∧ entered pointer parameters = before ++ after
        ∧ parameterType c = none
        ∧ (before = [] ∨ ∃ r, before = [r] ∧ isReceiver pointer r = true) := by
  have hwithout : ∀ parameters : List Entry,
      withoutUntyped parameters = parameters
        ∨ ∃ c after, parameters = c :: after
          ∧ withoutUntyped parameters = after ∧ parameterType c = none := by
    intro parameters
    cases parameters with
    | nil => exact .inl rfl
    | cons c rest =>
        rw [withoutUntyped]
        split
        case isTrue hnone =>
          exact .inr ⟨c, rest, rfl, rfl, Option.isNone_iff_eq_none.1 hnone⟩
        case isFalse => exact .inl rfl
  cases parameters with
  | nil => exact .inl rfl
  | cons r rest =>
      rw [entered]
      split
      case isTrue hreceiver =>
        rcases hwithout rest with hall | ⟨c, after, rfl, hafter, hnone⟩
        · exact .inl (by rw [hall])
        · exact .inr ⟨[r], c, after, rfl, by rw [hafter]; rfl, hnone,
            .inr ⟨r, rfl, hreceiver⟩⟩
      case isFalse =>
        rcases hwithout (r :: rest) with hall | ⟨c, after, hcons, hafter, hnone⟩
        · exact .inl hall
        · exact .inr ⟨[], c, after, hcons, hafter, hnone, .inl rfl⟩

-- ============================================================= gathering

/-- A parameter as an argument. -/
def argument (c : Entry) : Argument Nat :=
  match parameterType c with
  | some type => .typed type
  | none => .untyped none

/-- The parameters as they are gathered. -/
def gathered (pointer : Option Nat) : List Entry → Parameters
  | [] => {}
  | c :: rest =>
    if isReceiver pointer c then
      { receiver := parameterType c, arguments := rest.map argument }
    else { arguments := (c :: rest).map argument }

/-- The handles of the parameters that get an entry. -/
theorem handles_gathered (pointer : Option Nat) (parameters : List Entry) :
    (gathered pointer parameters).receiver.toList.map some
        ++ (Argument.kept (gathered pointer parameters).arguments).map
          Argument.handle?
      = (entered pointer parameters).map parameterType := by
  have hargument : ∀ c, (argument c).handle? = parameterType c := by
    intro c
    unfold argument
    cases parameterType c <;> rfl
  have hkept : ∀ parameters : List Entry,
      (Argument.kept (parameters.map argument)).map Argument.handle?
        = (withoutUntyped parameters).map parameterType := by
    intro parameters
    cases parameters with
    | nil => rfl
    | cons c rest =>
        have hrest : (rest.map argument).map Argument.handle?
            = rest.map parameterType := by
          rw [List.map_map]
          exact List.map_congr_left fun c _ => hargument c
        rw [withoutUntyped, List.map_cons]
        unfold argument
        cases htype : parameterType c with
        | none => exact hrest
        | some type =>
            show some type :: _ = parameterType c :: _
            rw [htype]
            exact congrArg _ hrest
  cases parameters with
  | nil => rfl
  | cons c rest =>
      rw [gathered, entered]
      split
      case isTrue hreceiver =>
        obtain ⟨type, htype⟩ : ∃ type, parameterType c = some type := by
          unfold isReceiver at hreceiver
          rw [Bool.and_eq_true] at hreceiver
          exact Option.isSome_iff_exists.1 hreceiver.1
        rw [hkept, List.map_cons, htype]
        rfl
      case isFalse => exact hkept (c :: rest)

-- =============================================================== reading

/-- The child of a function is no parameter, or one whose type can be read. -/
def Readable (c : Entry) : Prop :=
  c.tag = Tag.formalParameter →
    ∃ type, (c.reference Attr.type).run.value = .ok type

/-- What becomes of a child. Only the first parameter may be the receiver. -/
def Parameters.extend (pointer : Option Nat) (p : Parameters) (c : Entry) :
    Parameters :=
  if isParameter c then
    if p.receiver.isNone && p.arguments.isEmpty && isReceiver pointer c then
      { p with receiver := parameterType c }
    else { p with arguments := p.arguments ++ [argument c] }
  else p

theorem extend_untyped {p : Parameters} (hparameter : isParameter c = true)
    (htype : parameterType c = none) :
    p.extend pointer c
      = { p with arguments := p.arguments ++ [.untyped none] } := by
  unfold Parameters.extend isReceiver argument
  rw [if_pos hparameter, htype, Option.isSome_none, Bool.false_and,
    Bool.and_false]
  rfl

theorem extend_typed {p : Parameters} {type : Nat}
    (hparameter : isParameter c = true) (htype : parameterType c = some type) :
    p.extend pointer c
      = if p.receiver.isNone && p.arguments.isEmpty
            && (pointer = some c.offset || c.isSet Attr.artificial) then
          { p with receiver := some type }
        else { p with arguments := p.arguments ++ [.typed type] } := by
  unfold Parameters.extend isReceiver argument
  rw [if_pos hparameter, htype, Option.isSome_some, Bool.true_and]

theorem add_of_readable (h : Readable c) (p : Parameters) :
    (Parameters.add pointer p c).run.value = .ok (p.extend pointer c) := by
  unfold Parameters.add
  by_cases hformal : c.tag = Tag.formalParameter
  · obtain ⟨type, hread⟩ := h hformal
    have hparameter : isParameter c = true := by
      unfold isParameter
      rw [hformal]
      rfl
    have htype : parameterType c = type := by
      unfold parameterType
      rw [if_pos hformal, Entry.reference?_value, hread]
      rfl
    rw [if_pos hformal]
    dsimp only
    rw [value_bind_of_ok hread]
    cases type with
    | none =>
        rw [extend_untyped hparameter htype]
        rfl
    | some type =>
        rw [extend_typed hparameter htype]
        dsimp only
        split <;> rfl
  · have htype : parameterType c = none := if_neg hformal
    rw [if_neg hformal]
    by_cases hvariadic : c.tag = Tag.unspecifiedParameters
    · have hparameter : isParameter c = true := by
        unfold isParameter
        rw [hvariadic]
        rfl
      rw [if_pos hvariadic, extend_untyped hparameter htype]
      rfl
    · have hparameter : ¬ isParameter c = true := by
        unfold isParameter
        rw [Bool.or_eq_true, decide_eq_true_eq, decide_eq_true_eq]
        exact not_or.2 ⟨hformal, hvariadic⟩
      unfold Parameters.extend
      rw [if_neg hvariadic, if_neg hparameter]
      rfl

theorem readable_of_add {p found : Parameters}
    (h : (Parameters.add pointer p c).run.value = .ok found) : Readable c := by
  intro hformal
  unfold Parameters.add at h
  rw [if_pos hformal] at h
  dsimp only at h
  rw [value_bind_eq_ok_iff] at h
  obtain ⟨type, htype, -⟩ := h
  exact ⟨type, htype⟩

/-- Gathering succeeds just if each child can be read. -/
theorem foldlM_add_eq_ok_iff {children : List Entry} {p found : Parameters} :
    (children.foldlM (Parameters.add pointer) p).run.value = .ok found
      ↔ (∀ c ∈ children, Readable c)
        ∧ found = children.foldl (Parameters.extend pointer) p := by
  induction children generalizing p with
  | nil =>
      exact ⟨fun h => ⟨nofun, (Except.ok.inj h).symm⟩, fun h => by rw [h.2]; rfl⟩
  | cons c rest ih =>
      rw [List.foldlM_cons, value_bind_eq_ok_iff, List.forall_mem_cons,
        List.foldl_cons]
      constructor
      · rintro ⟨q, hq, hrest⟩
        have hreadable := readable_of_add hq
        rw [add_of_readable hreadable] at hq
        cases hq
        obtain ⟨hall, hfound⟩ := ih.1 hrest
        exact ⟨⟨hreadable, hall⟩, hfound⟩
      · rintro ⟨⟨hreadable, hall⟩, hfound⟩
        exact ⟨_, add_of_readable hreadable p, ih.2 ⟨hall, hfound⟩⟩

/-- Behind the first parameter all parameters become arguments. -/
theorem foldl_extend_of_begun (pointer : Option Nat) (children : List Entry)
    {p : Parameters}
    (hbegun : (p.receiver.isNone && p.arguments.isEmpty) = false) :
    children.foldl (Parameters.extend pointer) p
      = { p with arguments :=
            p.arguments ++ (children.filter isParameter).map argument } := by
  induction children generalizing p with
  | nil => rw [List.filter_nil, List.map_nil, List.append_nil]; rfl
  | cons c rest ih =>
      have hstep : p.extend pointer c
          = if isParameter c then
              { p with arguments := p.arguments ++ [argument c] }
            else p := by
        unfold Parameters.extend
        rw [hbegun, Bool.false_and]
        rfl
      rw [List.foldl_cons, List.filter_cons, hstep]
      split
      case isTrue =>
        have hbegun' : (p.receiver.isNone
            && (p.arguments ++ [argument c]).isEmpty) = false := by
          simp
        rw [ih hbegun', List.map_cons, List.append_assoc, List.singleton_append]
      case isFalse => exact ih hbegun

/-- Which parameter is the receiver is decided by the first one. -/
theorem foldl_extend (pointer : Option Nat) (children : List Entry) :
    children.foldl (Parameters.extend pointer) {}
      = gathered pointer (children.filter isParameter) := by
  induction children with
  | nil => rfl
  | cons c rest ih =>
      have hstep : Parameters.extend pointer {} c
          = if isParameter c then
              if isReceiver pointer c then { receiver := parameterType c }
              else { arguments := [argument c] }
            else {} := rfl
      rw [List.foldl_cons, List.filter_cons, hstep]
      split
      case isFalse => exact ih
      case isTrue =>
        rw [gathered]
        split
        case isTrue hreceiver =>
          unfold isReceiver at hreceiver
          rw [Bool.and_eq_true] at hreceiver
          exact foldl_extend_of_begun pointer rest (by simp [hreceiver.1])
        case isFalse => exact foldl_extend_of_begun pointer rest (by simp)

/-- The parameters of a function can be read just if the walk through its
children comes to its end and each of them can be read. -/
theorem parameters_eq_ok_iff {found : Parameters} :
    (u.parameters e).run.value = .ok found
      ↔ (∃ pointer, (e.reference Attr.objectPointer).run.value = .ok pointer)
        ∧ (u.children e.offset).2 = none
        ∧ (∀ c ∈ (u.children e.offset).1, Readable c)
        ∧ found = gathered (e.reference? Attr.objectPointer).value
          ((u.children e.offset).1.filter isParameter) := by
  rw [← foldl_extend]
  unfold parameters
  rw [value_bind_eq_ok_iff]
  generalize u.children e.offset = listed
  obtain ⟨children, fault⟩ := listed
  dsimp only
  constructor
  · rintro ⟨pointer, hpointer, h⟩
    rw [value_bind_eq_ok_iff] at h
    obtain ⟨gathered, hgathered, h⟩ := h
    obtain ⟨hreadable, rfl⟩ := foldlM_add_eq_ok_iff.1 hgathered
    cases fault with
    | some fault => cases h
    | none =>
        cases h
        refine ⟨⟨pointer, hpointer⟩, rfl, hreadable, ?_⟩
        rw [Entry.reference?_value, hpointer]
        rfl
  · rintro ⟨⟨pointer, hpointer⟩, rfl, hreadable, rfl⟩
    refine ⟨pointer, hpointer, ?_⟩
    rw [value_bind_of_ok (foldlM_add_eq_ok_iff.2 ⟨hreadable, rfl⟩),
      Entry.reference?_value, hpointer]
    rfl

end SymbolGraph.Dwarf.Unit
