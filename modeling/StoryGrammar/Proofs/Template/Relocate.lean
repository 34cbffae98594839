import StoryGrammar.Proofs.Template.Reads

namespace StoryGrammar.Template

-- The same fault in a text with so many bytes more in front.
def ParseError.shift (bytes : Nat) : ParseError → ParseError
  | .unclosedAlternation offset => .unclosedAlternation (bytes + offset)
  | .unclosedReference offset => .unclosedReference (bytes + offset)
  | .missingName offset => .missingName (bytes + offset)
  | .invalidName name offset => .invalidName name (bytes + offset)
  | .unclosedArguments offset => .unclosedArguments (bytes + offset)
  | .missingComparison offset => .missingComparison (bytes + offset)
  | .missingBranch offset => .missingBranch (bytes + offset)
  | .unexpected found offset => .unexpected found (bytes + offset)

theorem Enclosure.shift_unclosed (enclosure : Enclosure) (bytes opened : Nat) :
    (enclosure.unclosed opened).shift bytes = enclosure.unclosed (bytes + opened) := by
  cases enclosure <;> rfl

namespace Token

def shift (bytes : Nat) (token : Token) : Token := ⟨token.lexeme, bytes + token.offset⟩

theorem locate_add (bytes offset : Nat) (lexemes : List Lexeme) :
    locate (bytes + offset) lexemes = (locate offset lexemes).map (shift bytes) := by
  induction lexemes generalizing offset with
  | nil => rfl
  | cons l rest ih =>
      rw [locate, locate, List.map_cons, Nat.add_assoc, ih]
      rfl

end Token

-- Two readings that differ only in the bytes in front of what is read.
inductive Moved (bytes : Nat) {α : Type} {bound bound' : Nat} :
    Except ParseError (Parsed bound α) → Except ParseError (Parsed bound' α) → Prop
  | error (cause : ParseError) : Moved bytes (.error cause) (.error (cause.shift bytes))
  | ok {value : α} {rest : List Token} {h h'} :
      Moved bytes (.ok ⟨value, rest, h⟩) (.ok ⟨value, rest.map (Token.shift bytes), h'⟩)

section

variable {bytes : Nat}

theorem Moved.bind {α β : Type} {bound bound' limit limit' : Nat}
    {m : Except ParseError (Parsed bound α)} {m' : Except ParseError (Parsed bound' α)}
    {f : Parsed bound α → Except ParseError (Parsed limit β)}
    {f' : Parsed bound' α → Except ParseError (Parsed limit' β)} (hm : Moved bytes m m')
    (hf : ∀ value rest h h',
      Moved bytes (f ⟨value, rest, h⟩) (f' ⟨value, rest.map (Token.shift bytes), h'⟩)) :
    Moved bytes (m >>= f) (m' >>= f') := by
  cases hm with
  | error cause => exact .error cause
  | ok => exact hf _ _ _ _

theorem Moved.map_value {α : Type} {bound bound' : Nat} {m : Except ParseError (Parsed bound α)}
    {m' : Except ParseError (Parsed bound' α)} (h : Moved bytes m m') :
    m'.map Parsed.value = (m.map Parsed.value).mapError (ParseError.shift bytes) := by
  cases h <;> rfl

@[simp] theorem map_shift_cons (l : Lexeme) (offset : Nat) (rest : List Token) :
    (⟨l, offset⟩ :: rest).map (Token.shift bytes) =
      ⟨l, bytes + offset⟩ :: rest.map (Token.shift bytes) := rfl

theorem hashAhead_shift (tokens : List Token) :
    hashAhead (tokens.map (Token.shift bytes)) = hashAhead tokens := by
  rw [hashAhead, List.any_map]
  rfl

theorem isEmpty_shift (tokens : List Token) :
    (tokens.map (Token.shift bytes)).isEmpty = tokens.isEmpty := by
  cases tokens <;> rfl

theorem offsetOf_shift (stop : Nat) (tokens : List Token) :
    offsetOf (bytes + stop) (tokens.map (Token.shift bytes)) = bytes + offsetOf stop tokens := by
  cases tokens <;> rfl

-- A mark comes first in both or in neither.
theorem behind?_shift (bytes : Nat) (m : Mark) (tokens : List Token) :
    (behind? m tokens = none ∧ behind? m (tokens.map (Token.shift bytes)) = none) ∨
      ∃ rest h h', behind? m tokens = some ⟨rest, h⟩ ∧
        behind? m (tokens.map (Token.shift bytes)) =
          some ⟨rest.map (Token.shift bytes), h'⟩ := by
  match tokens with
  | [] => exact .inl ⟨rfl, rfl⟩
  | ⟨l, offset⟩ :: rest =>
      rw [map_shift_cons]
      by_cases hl : l = .mark m
      · subst hl
        exact .inr ⟨rest, _, _, behind?_cons m offset rest, behind?_cons m (bytes + offset) _⟩
      · exact .inl ⟨behind?_cons_of_ne hl _ _, behind?_cons_of_ne hl _ _⟩

variable (stop : Nat)

theorem moved_parseName (tokens : List Token) :
    Moved bytes (parseName stop tokens)
      (parseName (bytes + stop) (tokens.map (Token.shift bytes))) := by
  match tokens with
  | [] => exact .error (.missingName stop)
  | ⟨.mark m, offset⟩ :: rest => exact .error (.missingName offset)
  | ⟨.run letters, offset⟩ :: rest =>
      rw [map_shift_cons]
      simp only [parseName]
      split
      · exact .ok
      · exact .error _

theorem moved_parseHash (opened : Nat) (tokens : List Token) :
    Moved bytes (parseHash opened tokens)
      (parseHash (bytes + opened) (tokens.map (Token.shift bytes))) := by
  match tokens with
  | [] => exact .error _
  | ⟨l, offset⟩ :: rest =>
      rw [map_shift_cons]
      simp only [parseHash]
      split
      · exact .ok
      · exact .error _

-- Reading looks at offsets only to say where a fault is.

mutual

theorem moved_parseNodes (place : Place) (tokens : List Token) :
    Moved bytes (parseNodes stop place tokens)
      (parseNodes (bytes + stop) place (tokens.map (Token.shift bytes))) := by
  match tokens with
  | [] =>
      rw [List.map_nil, parseNodes, parseNodes]
      exact .ok
  | ⟨l, opened⟩ :: rest =>
      have hspan := moved_parseSpan opened rest
      rw [map_shift_cons, parseNodes, parseNodes]
      by_cases he : place.endsAt l = true
      · rw [if_pos he, if_pos he]
        exact .ok
      · rw [if_neg he, if_neg he]
        by_cases hh : l = .mark .hash
        · rw [if_pos hh, if_pos hh]
          by_cases hp : place.isBranch = true
          · rw [if_pos hp, if_pos hp]
            generalize parseSpan stop opened rest = found at hspan ⊢
            generalize parseSpan (bytes + stop) (bytes + opened) _ = found' at hspan ⊢
            cases hspan with
            | error cause => exact .ok
            | @ok node more h _ =>
                simp only [hashAhead_shift]
                by_cases ha : hashAhead more = true
                · rw [if_pos ha, if_pos ha]
                  refine (moved_parseNodes place more).bind fun nodes after h _ => ?_
                  exact .ok
                · rw [if_neg ha, if_neg ha]
                  exact .ok
          · rw [if_neg hp, if_neg hp]
            refine hspan.bind fun node more h _ => ?_
            refine (moved_parseNodes place more).bind fun nodes after h _ => ?_
            exact .ok
        · rw [if_neg hh, if_neg hh]
          by_cases hb : l = .mark .openBracket ∧ place ≠ .option
          · rw [if_pos hb, if_pos hb]
            refine (moved_parseItems .options opened rest).bind fun options more h _ => ?_
            refine (moved_parseNodes place more).bind fun nodes after h _ => ?_
            exact .ok
          · rw [if_neg hb, if_neg hb]
            refine (moved_parseNodes place rest).bind fun nodes after h _ => ?_
            exact .ok
termination_by 4 * tokens.length
decreasing_by all_goals (simp only [List.length_cons]; omega)

theorem moved_parseItems (enclosure : Enclosure) (opened : Nat) (tokens : List Token) :
    Moved bytes (parseItems stop enclosure opened tokens)
      (parseItems (bytes + stop) enclosure (bytes + opened)
        (tokens.map (Token.shift bytes))) := by
  rw [parseItems, parseItems]
  refine (moved_parseNodes enclosure.place tokens).bind fun item more h _ => ?_
  dsimp only
  rcases behind?_shift bytes enclosure.separator more with ⟨hs, hs'⟩ | ⟨next, h₁, _, hs, hs'⟩
  · rcases behind?_shift bytes enclosure.closer more with ⟨hc, hc'⟩ | ⟨after, h₂, _, hc, hc'⟩
    · simp only [hs, hs', hc, hc', ← enclosure.shift_unclosed]
      exact .error _
    · simp only [hs, hs', hc, hc']
      exact .ok
  · simp only [hs, hs']
    refine (moved_parseItems enclosure opened next).bind fun items after h₂ _ => ?_
    exact .ok
termination_by 4 * tokens.length + 1
decreasing_by all_goals omega

theorem moved_parseArguments (tokens : List Token) :
    Moved bytes (parseArguments stop tokens)
      (parseArguments (bytes + stop) (tokens.map (Token.shift bytes))) := by
  rw [parseArguments, parseArguments]
  rcases behind?_shift bytes .openParen tokens with ⟨ho, ho'⟩ | ⟨inner, h, _, ho, ho'⟩
  · simp only [ho, ho']
    exact .ok
  · rcases behind?_shift bytes .closeParen inner with ⟨hc, hc'⟩ | ⟨after, h₁, _, hc, hc'⟩
    · simp only [ho, ho', hc, hc', offsetOf_shift]
      refine (moved_parseItems .arguments (offsetOf stop tokens) inner).bind
        fun items after h₁ _ => ?_
      exact .ok
    · simp only [ho, ho', hc, hc']
      exact .ok
termination_by 4 * tokens.length
decreasing_by all_goals omega

theorem moved_parseCalls (tokens : List Token) :
    Moved bytes (parseCalls stop tokens)
      (parseCalls (bytes + stop) (tokens.map (Token.shift bytes))) := by
  rw [parseCalls, parseCalls]
  rcases behind?_shift bytes .dot tokens with ⟨hd, hd'⟩ | ⟨rest, h, _, hd, hd'⟩
  · simp only [hd, hd']
    exact .ok
  · simp only [hd, hd']
    refine (moved_parseName stop rest).bind fun name more h₁ _ => ?_
    refine (moved_parseArguments more).bind fun arguments next h₂ _ => ?_
    refine (moved_parseCalls next).bind fun calls after h₃ _ => ?_
    exact .ok
termination_by 4 * tokens.length
decreasing_by all_goals omega

theorem moved_parseReference (tokens : List Token) :
    Moved bytes (parseReference stop tokens)
      (parseReference (bytes + stop) (tokens.map (Token.shift bytes))) := by
  rw [parseReference, parseReference]
  refine (moved_parseName stop tokens).bind fun name more h₁ _ => ?_
  refine (moved_parseCalls more).bind fun calls after h₂ _ => ?_
  exact .ok
termination_by 4 * tokens.length + 1
decreasing_by omega

theorem moved_parseSpan (opened : Nat) (tokens : List Token) :
    Moved bytes (parseSpan stop opened tokens)
      (parseSpan (bytes + stop) (bytes + opened) (tokens.map (Token.shift bytes))) := by
  rw [parseSpan, parseSpan, isEmpty_shift]
  by_cases he : tokens.isEmpty = true
  · rw [if_pos he, if_pos he]
    exact .error (.unclosedReference opened)
  · rw [if_neg he, if_neg he]
    rcases behind?_shift bytes .question tokens with ⟨hq, hq'⟩ | ⟨rest, h, _, hq, hq'⟩
    · rcases behind?_shift bytes .bang tokens with ⟨hb, hb'⟩ | ⟨rest, h, _, hb, hb'⟩
      · simp only [hq, hq', hb, hb']
        refine (moved_parseReference tokens).bind fun target more h₁ _ => ?_
        refine (moved_parseHash opened more).bind fun _ after h₂ _ => ?_
        exact .ok
      · simp only [hq, hq', hb, hb']
        refine (moved_parseBranching .notEqual opened rest).bind fun branching after h₁ _ => ?_
        exact .ok
    · simp only [hq, hq']
      refine (moved_parseBranching .equal opened rest).bind fun branching after h₁ _ => ?_
      exact .ok
termination_by 4 * tokens.length + 2
decreasing_by all_goals omega

theorem moved_parseBranching (comparison : Comparison) (opened : Nat) (tokens : List Token) :
    Moved bytes (parseBranching stop comparison opened tokens)
      (parseBranching (bytes + stop) comparison (bytes + opened)
        (tokens.map (Token.shift bytes))) := by
  rw [parseBranching, parseBranching]
  refine (moved_parseReference tokens).bind fun subject more h₁ _ => ?_
  dsimp only
  rcases behind?_shift bytes .equals more with ⟨he, he'⟩ | ⟨inTest, h₂, _, he, he'⟩
  · simp only [he, he', isEmpty_shift]
    split
    · exact .error (.unclosedReference opened)
    · exact .error (.missingComparison opened)
  · simp only [he, he']
    refine (moved_parseNodes .test inTest).bind fun test untested h₃ _ => ?_
    dsimp only
    rcases behind?_shift bytes .question untested with ⟨hq, hq'⟩ | ⟨inTrue, h₄, _, hq, hq'⟩
    · simp only [hq, hq']
      exact .error (.missingBranch opened)
    · simp only [hq, hq']
      refine (moved_parseNodes .whenTrue inTrue).bind fun whenTrue inFalse h₅ _ => ?_
      refine (moved_parseOtherwise inFalse).bind fun whenFalse closing h₆ _ => ?_
      refine (moved_parseHash opened closing).bind fun _ after h₇ _ => ?_
      exact .ok
termination_by 4 * tokens.length + 2
decreasing_by all_goals omega

theorem moved_parseOtherwise (tokens : List Token) :
    Moved bytes (parseOtherwise stop tokens)
      (parseOtherwise (bytes + stop) (tokens.map (Token.shift bytes))) := by
  rw [parseOtherwise, parseOtherwise]
  rcases behind?_shift bytes .colon tokens with ⟨hc, hc'⟩ | ⟨rest, h, _, hc, hc'⟩
  · simp only [hc, hc']
    exact .ok
  · simp only [hc, hc']
    refine (moved_parseNodes .whenFalse rest).bind fun nodes after h₁ _ => ?_
    exact .ok
termination_by 4 * tokens.length
decreasing_by omega

end

end

end StoryGrammar.Template
