import StoryGrammar.Proofs.Template.Slice

namespace StoryGrammar.Template

def Enclosure.opener : Enclosure → Mark
  | .options => .openBracket
  | .arguments => .openParen

-- What a fault says about the byte that it names.
def ParseError.Points (text : String) : ParseError → Prop
  | .unclosedAlternation offset => StartsAt text ['['] offset
  | .unclosedReference offset => StartsAt text ['#'] offset
  | .missingName offset => offset = text.utf8ByteSize ∨ ∃ m : Mark, StartsAt text [m.char] offset
  | .invalidName name offset => ∃ letters, ⟨.run letters, offset⟩ ∈ Token.ofText text ∧
      StartsAt text (Lexeme.run letters).written offset ∧ (Lexeme.run letters).text = name ∧
      isName name.toList = false
  | .unclosedArguments offset => StartsAt text ['('] offset
  | .missingComparison offset | .missingBranch offset =>
      StartsAt text ['#', '?'] offset ∨ StartsAt text ['#', '!'] offset
  | .unexpected found offset => ∃ l, ⟨l, offset⟩ ∈ Token.ofText text ∧
      StartsAt text l.written offset ∧ l ≠ .mark .hash ∧ l.text = found

-- A fault points at a border between two characters of the text, or at its end.
theorem ParseError.Points.isValid {text : String} {cause : ParseError} (h : cause.Points text) :
    String.Pos.Raw.IsValid text ⟨cause.offset⟩ := by
  cases cause with
  | unclosedAlternation offset | unclosedReference offset | unclosedArguments offset =>
      exact StartsAt.isValid h
  | missingName offset =>
      rcases h with rfl | ⟨m, h⟩
      · exact String.Pos.Raw.isValid_iff_exists_append.mpr ⟨text, "", by simp, rfl⟩
      · exact h.isValid
  | missingComparison offset | missingBranch offset => exact h.elim StartsAt.isValid StartsAt.isValid
  | invalidName name offset =>
      obtain ⟨letters, -, h, -⟩ := h
      exact h.isValid
  | unexpected found offset =>
      obtain ⟨l, -, h, -⟩ := h
      exact h.isValid

-- A reading of part of a text: it leaves an end of the tokens, or a fault that is in the text.
inductive Traced (text : String) {α : Type} {bound : Nat} : Except ParseError (Parsed bound α) → Prop
  | error {cause : ParseError} : cause.Points text → Traced text (.error cause)
  | ok {value : α} {rest : List Token} {h} : rest <:+ Token.ofText text →
      Traced text (.ok ⟨value, rest, h⟩)

section

variable {text : String}

theorem Traced.bind {α β : Type} {bound limit : Nat} {m : Except ParseError (Parsed bound α)}
    {f : Parsed bound α → Except ParseError (Parsed limit β)} (hm : Traced text m)
    (hf : ∀ value rest h, rest <:+ Token.ofText text → Traced text (f ⟨value, rest, h⟩)) :
    Traced text (m >>= f) := by
  cases hm with
  | error hc => exact .error hc
  | ok hr => exact hf _ _ _ hr

theorem Traced.points {α : Type} {bound : Nat} {m : Except ParseError (Parsed bound α)}
    (h : Traced text m) {cause : ParseError} (he : m = .error cause) : cause.Points text := by
  subst he
  cases h with
  | error hc => exact hc

-- The tokens behind a mark are an end of the text as well.
theorem suffix_of_behind? {m : Mark} {tokens rest : List Token} {h}
    (hb : behind? m tokens = some ⟨rest, h⟩) (ht : tokens <:+ Token.ofText text) :
    rest <:+ Token.ofText text := by
  obtain ⟨offset, rfl⟩ := eq_cons_of_behind? hb
  exact (List.suffix_cons _ _).trans ht

theorem traced_parseName {tokens : List Token} (ht : tokens <:+ Token.ofText text) :
    Traced text (parseName text.utf8ByteSize tokens) := by
  match tokens, ht with
  | [], _ => exact .error (.inl rfl)
  | ⟨.mark m, offset⟩ :: rest, ht => exact .error (.inr ⟨m, startsAt_of_cons_suffix ht⟩)
  | ⟨.run letters, offset⟩ :: rest, ht =>
      simp only [parseName]
      split
      · exact .ok ((List.suffix_cons _ _).trans ht)
      · rename_i hname
        refine .error ⟨letters, ht.subset (by simp), startsAt_of_cons_suffix ht, rfl, ?_⟩
        rw [String.toList_ofList]
        simpa using hname

theorem traced_parseHash {opened : Nat} (ho : StartsAt text ['#'] opened) {tokens : List Token}
    (ht : tokens <:+ Token.ofText text) : Traced text (parseHash opened tokens) := by
  match tokens, ht with
  | [], _ => exact .error ho
  | ⟨l, offset⟩ :: rest, ht =>
      simp only [parseHash]
      split
      · exact .ok ((List.suffix_cons _ _).trans ht)
      · rename_i hl
        exact .error ⟨l, ht.subset (by simp), startsAt_of_cons_suffix ht, hl, rfl⟩

theorem Enclosure.points_unclosed {enclosure : Enclosure} {opened : Nat}
    (h : StartsAt text [enclosure.opener.char] opened) :
    (enclosure.unclosed opened).Points text := by
  cases enclosure <;> exact h

theorem Comparison.points {comparison : Comparison} {opened : Nat}
    (h : StartsAt text ['#', comparison.mark.char] opened) :
    StartsAt text ['#', '?'] opened ∨ StartsAt text ['#', '!'] opened := by
  cases comparison with
  | equal => exact .inl h
  | notEqual => exact .inr h

-- Reading goes from one end of the tokens to another and blames what it has come past. A part that
-- is tried in a branch may fail without any fault.

mutual

theorem traced_parseNodes (place : Place) (tokens : List Token)
    (ht : tokens <:+ Token.ofText text) :
    Traced text (parseNodes text.utf8ByteSize place tokens) := by
  match tokens, ht with
  | [], ht =>
      rw [parseNodes]
      exact .ok ht
  | ⟨l, opened⟩ :: rest, ht =>
      have hrest : rest <:+ Token.ofText text := (List.suffix_cons _ _).trans ht
      have hspan := fun hl : l = .mark .hash => traced_parseSpan opened rest (hl ▸ ht)
      rw [parseNodes]
      by_cases he : place.endsAt l = true
      · rw [if_pos he]
        exact .ok ht
      · rw [if_neg he]
        by_cases hh : l = .mark .hash
        · have hspan := hspan hh
          rw [if_pos hh]
          by_cases hp : place.isBranch = true
          · rw [if_pos hp]
            generalize parseSpan text.utf8ByteSize opened rest = found at hspan ⊢
            cases hspan with
            | error _ => exact .ok ht
            | @ok node more h hmore =>
                by_cases ha : hashAhead more = true
                · simp only [if_pos ha]
                  refine (traced_parseNodes place more hmore).bind fun nodes after h ha => ?_
                  exact .ok ha
                · simp only [if_neg ha]
                  exact .ok ht
          · rw [if_neg hp]
            refine hspan.bind fun node more h hmore => ?_
            refine (traced_parseNodes place more hmore).bind fun nodes after h ha => ?_
            exact .ok ha
        · rw [if_neg hh]
          by_cases hb : l = .mark .openBracket ∧ place ≠ .option
          · rw [if_pos hb]
            have ho : StartsAt text [Enclosure.options.opener.char] opened := by
              have hstart := startsAt_of_cons_suffix ht
              rwa [hb.1] at hstart
            refine (traced_parseItems .options opened rest ho hrest).bind
              fun options more h hmore => ?_
            refine (traced_parseNodes place more hmore).bind fun nodes after h ha => ?_
            exact .ok ha
          · rw [if_neg hb]
            refine (traced_parseNodes place rest hrest).bind fun nodes after h ha => ?_
            exact .ok ha
termination_by 4 * tokens.length
decreasing_by all_goals (simp only [List.length_cons]; omega)

theorem traced_parseItems (enclosure : Enclosure) (opened : Nat) (tokens : List Token)
    (ho : StartsAt text [enclosure.opener.char] opened) (ht : tokens <:+ Token.ofText text) :
    Traced text (parseItems text.utf8ByteSize enclosure opened tokens) := by
  rw [parseItems]
  refine (traced_parseNodes enclosure.place tokens ht).bind fun item more h hmore => ?_
  dsimp only
  rcases hs : behind? enclosure.separator more with _ | ⟨next, h₁⟩
  · rcases hc : behind? enclosure.closer more with _ | ⟨after, h₂⟩
    · exact .error (Enclosure.points_unclosed ho)
    · exact .ok (suffix_of_behind? hc hmore)
  · refine (traced_parseItems enclosure opened next ho (suffix_of_behind? hs hmore)).bind
      fun items after h₂ ha => ?_
    exact .ok ha
termination_by 4 * tokens.length + 1
decreasing_by all_goals omega

theorem traced_parseArguments (tokens : List Token) (ht : tokens <:+ Token.ofText text) :
    Traced text (parseArguments text.utf8ByteSize tokens) := by
  rw [parseArguments]
  rcases hb : behind? .openParen tokens with _ | ⟨inner, h⟩
  · exact .ok ht
  · have hinner := suffix_of_behind? hb ht
    dsimp only
    rcases hc : behind? .closeParen inner with _ | ⟨after, h₁⟩
    · have ho : StartsAt text [Enclosure.arguments.opener.char]
          (offsetOf text.utf8ByteSize tokens) := by
        obtain ⟨offset, rfl⟩ := eq_cons_of_behind? hb
        exact startsAt_of_cons_suffix ht
      refine (traced_parseItems .arguments _ inner ho hinner).bind fun items after h₁ ha => ?_
      exact .ok ha
    · exact .ok (suffix_of_behind? hc hinner)
termination_by 4 * tokens.length
decreasing_by all_goals omega

theorem traced_parseCalls (tokens : List Token) (ht : tokens <:+ Token.ofText text) :
    Traced text (parseCalls text.utf8ByteSize tokens) := by
  rw [parseCalls]
  rcases hb : behind? .dot tokens with _ | ⟨rest, h⟩
  · exact .ok ht
  · refine (traced_parseName (suffix_of_behind? hb ht)).bind fun name more h₁ hmore => ?_
    refine (traced_parseArguments more hmore).bind fun arguments next h₂ hnext => ?_
    refine (traced_parseCalls next hnext).bind fun calls after h₃ ha => ?_
    exact .ok ha
termination_by 4 * tokens.length
decreasing_by all_goals omega

theorem traced_parseReference (tokens : List Token) (ht : tokens <:+ Token.ofText text) :
    Traced text (parseReference text.utf8ByteSize tokens) := by
  rw [parseReference]
  refine (traced_parseName ht).bind fun name more h₁ hmore => ?_
  refine (traced_parseCalls more hmore).bind fun calls after h₂ ha => ?_
  exact .ok ha
termination_by 4 * tokens.length + 1
decreasing_by omega

theorem traced_parseSpan (opened : Nat) (tokens : List Token)
    (ht : ⟨.mark .hash, opened⟩ :: tokens <:+ Token.ofText text) :
    Traced text (parseSpan text.utf8ByteSize opened tokens) := by
  have ho : StartsAt text ['#'] opened := startsAt_of_cons_suffix ht
  have hinner : tokens <:+ Token.ofText text := (List.suffix_cons _ _).trans ht
  -- the mark of a comparison stands directly behind the hash
  have hcompared (comparison : Comparison) {rest : List Token} {h}
      (hb : behind? comparison.mark tokens = some ⟨rest, h⟩) :
      StartsAt text ['#', comparison.mark.char] opened := by
    obtain ⟨offset, rfl⟩ := eq_cons_of_behind? hb
    have hrow : ⟨.mark .hash, opened⟩ :: [⟨.mark comparison.mark, offset⟩] ++ rest <:+
      Token.ofText text := ht
    exact startsAt_of_suffix hrow
  rw [parseSpan]
  by_cases he : tokens.isEmpty = true
  · rw [if_pos he]
    exact .error ho
  · rw [if_neg he]
    rcases hq : behind? .question tokens with _ | ⟨rest, h⟩
    · rcases hb : behind? .bang tokens with _ | ⟨rest, h⟩
      · refine (traced_parseReference tokens hinner).bind fun target more h₁ hmore => ?_
        refine (traced_parseHash ho hmore).bind fun _ after h₂ ha => ?_
        exact .ok ha
      · refine (traced_parseBranching .notEqual opened rest (hcompared .notEqual hb)
          (suffix_of_behind? hb hinner)).bind fun branching after h₁ ha => ?_
        exact .ok ha
    · refine (traced_parseBranching .equal opened rest (hcompared .equal hq)
        (suffix_of_behind? hq hinner)).bind fun branching after h₁ ha => ?_
      exact .ok ha
termination_by 4 * tokens.length + 2
decreasing_by all_goals omega

theorem traced_parseBranching (comparison : Comparison) (opened : Nat) (tokens : List Token)
    (ho : StartsAt text ['#', comparison.mark.char] opened) (ht : tokens <:+ Token.ofText text) :
    Traced text (parseBranching text.utf8ByteSize comparison opened tokens) := by
  have hhash : StartsAt text ['#'] opened := StartsAt.of_append ho
  rw [parseBranching]
  refine (traced_parseReference tokens ht).bind fun subject more h₁ hmore => ?_
  dsimp only
  rcases he : behind? .equals more with _ | ⟨inTest, h₂⟩
  · dsimp only
    split
    · exact .error hhash
    · exact .error (Comparison.points ho)
  · refine (traced_parseNodes .test inTest (suffix_of_behind? he hmore)).bind
      fun test untested h₃ huntested => ?_
    dsimp only
    rcases hq : behind? .question untested with _ | ⟨inTrue, h₄⟩
    · exact .error (Comparison.points ho)
    · refine (traced_parseNodes .whenTrue inTrue (suffix_of_behind? hq huntested)).bind
        fun whenTrue inFalse h₅ hfalse => ?_
      refine (traced_parseOtherwise inFalse hfalse).bind fun whenFalse closing h₆ hclosing => ?_
      refine (traced_parseHash hhash hclosing).bind fun _ after h₇ ha => ?_
      exact .ok ha
termination_by 4 * tokens.length + 2
decreasing_by all_goals omega

theorem traced_parseOtherwise (tokens : List Token) (ht : tokens <:+ Token.ofText text) :
    Traced text (parseOtherwise text.utf8ByteSize tokens) := by
  rw [parseOtherwise]
  rcases hb : behind? .colon tokens with _ | ⟨rest, h⟩
  · exact .ok ht
  · refine (traced_parseNodes .whenFalse rest (suffix_of_behind? hb ht)).bind
      fun nodes after h₁ ha => ?_
    exact .ok ha
termination_by 4 * tokens.length
decreasing_by omega

end

end

-- A text that is no template is refused for something that is in it: the fault names a byte at which
-- the mark that was left open stands with its meaning, or the lexeme that cannot be there, or the
-- place where a name is missing.
theorem parse_error_points {text : String} {cause : ParseError}
    (h : Template.parse text = .error cause) :
    cause.offset ≤ text.utf8ByteSize ∧ String.Pos.Raw.IsValid text ⟨cause.offset⟩ ∧
      cause.Points text := by
  have hread : read text = .error cause := by
    rw [parse_eq_map] at h
    exact Except.map_eq_error_iff.mp h
  have hfault : parseNodes text.utf8ByteSize .template (Token.ofText text) = .error cause :=
    Except.map_eq_error_iff.mp hread
  have hpoints : cause.Points text :=
    (traced_parseNodes .template (Token.ofText text) (List.suffix_refl _)).points hfault
  exact ⟨hpoints.isValid.le_utf8ByteSize, hpoints.isValid, hpoints⟩

-- The first bracket and the first hash have no meaning here, and the letter in front of them takes two
-- bytes. The conditional fails before the alternation around it can.
def unanswered : String := "é\\[\\#[so #?who=me"

theorem parse_error_points_unanswered :
    Template.parse unanswered = .error (.missingBranch 10) ∧
      (StartsAt unanswered ['#', '?'] 10 ∨ StartsAt unanswered ['#', '!'] 10) ∧
    Template.parse "é.#a b.low#" = .error (.invalidName "a b" 4) ∧
      ∃ letters, ⟨.run letters, 4⟩ ∈ Token.ofText "é.#a b.low#" ∧
        (Lexeme.run letters).text = "a b" := by
  have hbranch : (Template.parse unanswered).map (fun _ => ()) = .error (.missingBranch 10) := by
    decide +kernel
  have hname : (Template.parse "é.#a b.low#").map (fun _ => ()) =
      .error (.invalidName "a b" 4) := by decide +kernel
  have hbranch := Except.map_eq_error_iff.mp hbranch
  have hname := Except.map_eq_error_iff.mp hname
  obtain ⟨-, -, hpoints⟩ := parse_error_points hbranch
  obtain ⟨-, -, letters, hmem, -, htext, -⟩ := parse_error_points hname
  exact ⟨hbranch, hpoints, hname, letters, hmem, htext⟩

end StoryGrammar.Template
