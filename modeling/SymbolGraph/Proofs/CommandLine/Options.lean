/-
The words of a command line and the strict check. What has been taken in
so far may be strict already (`Given.strictly`), and words that do not ask
for the check are taken in all the same: step by step, each imitated by the
same step on strict ground (`bind_imitated`). So a word for the check, put
in front of a command line, adds the check and nothing else
(`parse_strict_cons`).
-/
import SymbolGraph.CommandLine.Options
import SymbolGraph.Proofs.Except

namespace SymbolGraph.CommandLine

/-- The options with the strict check. -/
def Options.strictly (o : Options) : Options := { o with strict := true }

-- =============================================================== steps

section Steps

variable {α β ε : Type} {x x' : Except ε α} {f f' : α → Except ε β} {b b' : β}

/-- Two steps that are imitated, one after the other. What the second needs
to know of the first result, it learns from its own. -/
theorem bind_imitated {P : α → Prop} {Q : Prop} {s : α → α}
    (h : (x >>= f) = .ok b)
    (hsecond : ∀ a, f a = .ok b → P a ∧ f' (s a) = .ok b')
    (hfirst : ∀ a, x = .ok a → P a → Q ∧ x' = .ok (s a)) :
    Q ∧ (x' >>= f') = .ok b' := by
  obtain ⟨a, ha, hb⟩ := bind_eq_ok_iff.1 h
  obtain ⟨hP, hb'⟩ := hsecond a hb
  obtain ⟨hQ, ha'⟩ := hfirst a ha hP
  exact ⟨hQ, bind_eq_ok_iff.2 ⟨s a, ha', hb'⟩⟩

end Steps

-- =============================================================== words

namespace Given

variable {given after : Given} {pending : Option Valued}

/-- What has been taken in, and the strict check with it. -/
def strictly (given : Given) : Given := { given with strict := true }

theorem addFlag_strictly {flag : Flag} (h : given.addFlag flag = .ok after)
    (hplain : after.strict = false) :
    given.strict = false
      ∧ given.strictly.addFlag flag = .ok after.strictly := by
  cases flag with
  | strict =>
      unfold addFlag at h
      dsimp only at h
      split at h
      · cases h
      · cases h
        cases hplain
  | quiet =>
      unfold addFlag at h ⊢
      dsimp only at h
      split at h
      · cases h
      · cases h
        rename_i hquiet
        exact ⟨hplain, if_neg hquiet⟩
  | verbose =>
      cases h
      exact ⟨hplain, rfl⟩
  | help => cases h
  | version => cases h

theorem addValue_strictly {value : String} {option : Valued}
    (h : given.addValue value option = .ok after)
    (hplain : after.strict = false) :
    given.strict = false
      ∧ given.strictly.addValue value option = .ok after.strictly := by
  cases option with
  | output =>
      unfold addValue at h ⊢
      dsimp only at h
      split at h
      · cases h
      · cases h
        rename_i houtput
        exact ⟨hplain, if_neg houtput⟩
  | format =>
      unfold addValue at h ⊢
      dsimp only [strictly] at h ⊢
      split at h
      · cases h
        exact ⟨hplain, rfl⟩
      · cases h

theorem addInput_strictly {path : String}
    (h : given.addInput path = .ok after) (hplain : after.strict = false) :
    given.strict = false
      ∧ given.strictly.addInput path = .ok after.strictly := by
  unfold addInput at h ⊢
  split at h
  · cases h
  · cases h
    rename_i hinput
    exact ⟨hplain, if_neg hinput⟩

theorem addOperands_strictly {words : List String}
    (h : given.addOperands words = .ok after) (hplain : after.strict = false) :
    given.strict = false
      ∧ given.strictly.addOperands words = .ok after.strictly := by
  induction words generalizing given with
  | nil =>
      cases h
      exact ⟨hplain, rfl⟩
  | cons word words ih =>
      unfold addOperands at h ⊢
      rw [List.foldlM_cons] at h ⊢
      exact bind_imitated h (fun _ => ih) fun _ => addInput_strictly

/-- What a word that is over by itself comes to. -/
theorem answer_strictly (hplain : after.strict = false) (next : Given)
    (h : (pure (next, none) : Except Stop (Given × Option Valued))
      = .ok (after, pending)) :
    next.strict = false
      ∧ (pure (next.strictly, none) : Except Stop (Given × Option Valued))
        = .ok (after.strictly, pending) := by
  cases h
  exact ⟨hplain, rfl⟩

theorem addWord_strictly {word : List Char}
    (h : given.addWord word = .ok (after, pending))
    (hplain : after.strict = false) :
    given.strict = false
      ∧ given.strictly.addWord word = .ok (after.strictly, pending) := by
  unfold addWord at h ⊢
  dsimp only at h ⊢
  split at h
  case h_1 =>
    exact bind_imitated h (answer_strictly hplain) fun _ => addFlag_strictly
  case h_2 =>
    cases h
    exact ⟨hplain, rfl⟩
  case h_3 =>
    exact bind_imitated h (answer_strictly hplain) fun _ => addValue_strictly
  case h_4 => cases h

theorem addLetters_strictly {letters : List Char}
    (h : given.addLetters letters = .ok (after, pending))
    (hplain : after.strict = false) :
    given.strict = false
      ∧ given.strictly.addLetters letters = .ok (after.strictly, pending) := by
  induction letters generalizing given with
  | nil =>
      cases h
      exact ⟨hplain, rfl⟩
  | cons letter letters ih =>
      unfold addLetters at h ⊢
      split at h
      case h_1 =>
        exact bind_imitated h (fun _ => ih) fun _ => addFlag_strictly
      case h_2 =>
        cases h
        exact ⟨hplain, rfl⟩
      case h_3 | h_4 =>
        exact bind_imitated h (answer_strictly hplain)
          fun _ => addValue_strictly
      case h_5 => cases h

/-- Words that do not ask for the check are taken in all the same behind a
word that does. -/
theorem addWords_strictly {words : List String}
    (h : given.addWords pending words = .ok after)
    (hplain : after.strict = false) :
    given.strict = false
      ∧ given.strictly.addWords pending words = .ok after.strictly := by
  induction words generalizing given pending with
  | nil =>
      cases pending with
      | none =>
          cases h
          exact ⟨hplain, rfl⟩
      | some option => cases h
  | cons word words ih =>
      rw [addWords.eq_def] at h ⊢
      cases pending with
      | some option =>
          dsimp only at h ⊢
          split at h
          case h_1 => cases h
          case h_2 =>
            exact bind_imitated h (fun _ => ih) fun _ => addValue_strictly
          all_goals contradiction
      | none =>
          dsimp only at h ⊢
          split at h
          case h_3 => exact addOperands_strictly h hplain
          case h_4 =>
            exact bind_imitated (s := fun p => (p.1.strictly, p.2)) h
              (fun _ => ih) fun _ => addWord_strictly
          case h_5 =>
            exact bind_imitated (s := fun p => (p.1.strictly, p.2)) h
              (fun _ => ih) fun _ => addLetters_strictly
          case h_6 =>
            exact bind_imitated h (fun _ => ih) fun _ => addInput_strictly
          all_goals contradiction

end Given

/-- In front of words that do not ask for the check, a word that does adds
the check and nothing else. -/
theorem parse_strict_cons {o : Options} {words : List String}
    (h : Options.parse words = .ok o)
    (hplain : o.strict = false) :
    Options.parse ("--strict" :: words) = .ok o.strictly := by
  unfold Options.parse at h ⊢
  rw [bind_eq_ok_iff] at h ⊢
  obtain ⟨given, hwords, hoptions⟩ := h
  unfold Given.options at hoptions
  split at hoptions
  case h_1 => cases hoptions
  case h_2 input hinput =>
    cases hoptions
    obtain ⟨-, hstrict⟩ := Given.addWords_strictly hwords hplain
    refine ⟨given.strictly, hstrict, ?_⟩
    unfold Given.options
    rw [show given.strictly.input = given.input from rfl, hinput]
    rfl

end SymbolGraph.CommandLine
