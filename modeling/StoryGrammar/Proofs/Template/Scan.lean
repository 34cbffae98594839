import StoryGrammar.Template.Parser

namespace StoryGrammar.Template

theorem isName_iff {chars : List Char} :
    isName chars = true ↔ chars ≠ [] ∧ ∀ c ∈ chars, isNameChar c = true := by
  simp [isName, List.isEmpty_eq_false_iff]

namespace Letter

-- A letter that is read as it is written. A character with a meaning needs its backslash.
def Legible (l : Letter) : Prop :=
  l.escaped = false → Mark.ofChar? l.char = none ∧ l.char ≠ '\\'

-- The letter for a character, escaped only if that is needed.
def quote (c : Char) : Letter := ⟨c, (Mark.ofChar? c).isSome || c == '\\'⟩

def plain (c : Char) : Letter := ⟨c, false⟩

theorem legible_quote (c : Char) : (quote c).Legible := by
  simp [Legible, quote]

theorem legible_plain {c : Char} (h : isNameChar c = true) : (plain c).Legible := by
  refine fun _ => ⟨Mark.ofChar?_eq_none_iff.mpr fun m hm => ?_, fun hc => ?_⟩
  · rw [plain] at hm
    subst hm
    cases m <;> revert h <;> decide
  · rw [plain] at hc
    subst hc
    revert h
    decide

end Letter

namespace Lexeme

-- The lexemes do not go on with a run, so that text in front of them stays apart.
def Apart (lexemes : List Lexeme) : Prop := ∀ letters rest, lexemes ≠ .run letters :: rest

theorem apart_nil : Apart [] := by simp [Apart]

theorem apart_mark (m : Mark) (lexemes : List Lexeme) : Apart (.mark m :: lexemes) := by
  simp [Apart]

theorem scan_mark (m : Mark) (chars : List Char) :
    scan (m.char :: chars) = .mark m :: scan chars := by
  cases m <;> rfl

theorem scan_letter {l : Letter} (h : l.Legible) (chars : List Char) :
    scan (l.written ++ chars) = attach l (scan chars) := by
  obtain ⟨c, escaped⟩ := l
  cases escaped with
  | true => rfl
  | false =>
      obtain ⟨hm, hc⟩ := h rfl
      simp only [Letter.written, Bool.false_eq_true, if_false, List.cons_append, List.nil_append]
      rw [scan, hm]
      · exact fun he => absurd he hc
      · exact fun _ _ he => absurd he hc

theorem attach_of_apart {lexemes : List Lexeme} (h : Apart lexemes) (l : Letter) :
    attach l lexemes = .run [l] :: lexemes := by
  unfold attach
  split
  · rename_i letters rest
    exact absurd rfl (h letters rest)
  · rfl

-- A backslash comes before a character that it takes out of its role, or before nothing.
theorem ne_backslash {c : Char} {rest : List Char} (hend : c = '\\' → rest = [] → False)
    (hescape : ∀ next more, c = '\\' → rest = next :: more → False) : c ≠ '\\' := by
  intro hc
  cases rest with
  | nil => exact hend hc rfl
  | cons next more => exact hescape next more hc rfl

theorem mark_mem_attach {m : Mark} {l : Letter} {lexemes : List Lexeme} :
    .mark m ∈ attach l lexemes ↔ .mark m ∈ lexemes := by
  unfold attach
  split <;> simp

theorem run_nil_notMem_attach {l : Letter} {lexemes : List Lexeme} (h : .run [] ∉ lexemes) :
    .run [] ∉ attach l lexemes := by
  unfold attach
  split <;> simp_all

-- A run is never empty.
theorem run_nil_notMem_scan (chars : List Char) : .run [] ∉ scan chars := by
  fun_induction scan chars with
  | case1 | case2 => decide
  | case3 c rest ih | case5 c rest _ _ _ ih => exact run_nil_notMem_attach ih
  | case4 c rest _ _ m _ ih => simp [ih]

-- Letters become one run, unless a run follows them.
theorem scan_run {letters : List Letter} {chars : List Char} (hne : letters ≠ [])
    (hl : ∀ l ∈ letters, l.Legible) (ha : Apart (scan chars)) :
    scan ((Lexeme.run letters).written ++ chars) = .run letters :: scan chars := by
  induction letters with
  | nil => exact absurd rfl hne
  | cons l others ih =>
      obtain ⟨hl, hothers⟩ := List.forall_mem_cons.mp hl
      rw [written, List.flatMap_cons, List.append_assoc, scan_letter hl]
      by_cases he : others = []
      · subst he
        exact attach_of_apart ha l
      · rw [← written, ih he hothers]
        rfl

theorem Apart.append {lexemes others : List Lexeme} (h : Apart lexemes) (ho : Apart others) :
    Apart (lexemes ++ others) := by
  cases lexemes with
  | nil => exact ho
  | cons l rest =>
      intro letters more he
      obtain ⟨rfl, -⟩ := List.cons.inj he
      exact h letters rest rfl

-- Lexemes that come out of the text in which they are written, in front of anything that stays
-- apart from them.
def Stable (lexemes : List Lexeme) : Prop :=
  ∀ chars, Apart (scan chars) → scan (lexemes.flatMap written ++ chars) = lexemes ++ scan chars

theorem stable_nil : Stable [] := fun _ _ => rfl

theorem Stable.mark {lexemes : List Lexeme} (h : Stable lexemes) (m : Mark) :
    Stable (.mark m :: lexemes) := by
  intro chars ha
  rw [List.flatMap_cons, List.append_assoc, written, List.singleton_append, scan_mark, h chars ha]
  rfl

theorem Stable.run {lexemes : List Lexeme} (h : Stable lexemes) (ha : Apart lexemes)
    {letters : List Letter} (hne : letters ≠ []) (hl : ∀ l ∈ letters, l.Legible) :
    Stable (.run letters :: lexemes) := by
  intro chars hc
  have hscan := h chars hc
  rw [List.flatMap_cons, List.append_assoc, scan_run hne hl (hscan ▸ ha.append hc), hscan]
  rfl

theorem Stable.append {lexemes others : List Lexeme} (h : Stable lexemes) (ho : Stable others)
    (ha : Apart others) : Stable (lexemes ++ others) := by
  intro chars hc
  have hscan := ho chars hc
  rw [List.flatMap_append, List.append_assoc, h _ (hscan ▸ ha.append hc), hscan,
    List.append_assoc]

end Lexeme

end StoryGrammar.Template
