import StoryGrammar.Proofs.Except
import StoryGrammar.Template.Parser

namespace StoryGrammar.Template

open Except (bind_eq_ok_iff ok_bind)

namespace Comparison

-- What stands behind the opening hash of a conditional.
def mark : Comparison → Mark
  | .equal => .question
  | .notEqual => .bang

end Comparison

namespace Place

-- What is text at a place. All other marks have a role there.
def IsText (place : Place) (l : Lexeme) : Prop :=
  place.endsAt l = false ∧ l ≠ .mark .hash ∧ (l = .mark .openBracket → place = .option)

@[simp] theorem endsAt_hash (place : Place) : place.endsAt (.mark .hash) = false := by
  cases place <;> rfl

@[simp] theorem endsAt_openBracket (place : Place) :
    place.endsAt (.mark .openBracket) = false := by
  cases place <;> rfl

end Place

-- The kinds of things that tokens are read as, one for each function of the parser.
inductive Phrase where
  | nodes (place : Place)
  | items (enclosure : Enclosure)
  | arguments
  | calls
  | reference
  | span
  | branching (comparison : Comparison)
  | otherwise

namespace Phrase

abbrev Value : Phrase → Type
  | .nodes _ => List Node
  | .items _ => List (List Node)
  | .arguments => List (List Node)
  | .calls => List Call
  | .reference => Reference
  | .span => Node
  | .branching _ => Branching
  | .otherwise => List Node

end Phrase

section

variable (stop : Nat)

-- The grammar of templates: which tokens are read as what, and which of them are left. A span
-- lies behind its opening hash, items behind the mark that opens them. The rule `close` is where
-- the grammar looks ahead, so it speaks of what the parser would find there.
inductive Reads : (phrase : Phrase) → List Token → phrase.Value → List Token → Prop
  | finish {place} : Reads (.nodes place) [] [] []
  | stop {place token rest} : place.endsAt token.lexeme = true →
      Reads (.nodes place) (token :: rest) [] (token :: rest)
  | close {place opened rest} : place.isBranch = true →
      (∀ node more h, parseSpan stop opened rest = .ok ⟨node, more, h⟩ → hashAhead more = false) →
      Reads (.nodes place) (⟨.mark .hash, opened⟩ :: rest) [] (⟨.mark .hash, opened⟩ :: rest)
  | hash {place opened rest node more nodes after} : Reads .span rest node more →
      (place.isBranch = true → hashAhead more = true) → Reads (.nodes place) more nodes after →
      Reads (.nodes place) (⟨.mark .hash, opened⟩ :: rest) (node :: nodes) after
  | bracket {place opened rest options more nodes after} : place ≠ .option →
      Reads (.items .options) rest options more → Reads (.nodes place) more nodes after →
      Reads (.nodes place) (⟨.mark .openBracket, opened⟩ :: rest)
        (.alternation options :: nodes) after
  | text {place token rest nodes after} : place.IsText token.lexeme →
      Reads (.nodes place) rest nodes after →
      Reads (.nodes place) (token :: rest) (Node.consText token.lexeme.text nodes) after
  | lastItem {enclosure tokens nodes offset rest} :
      Reads (.nodes enclosure.place) tokens nodes (⟨.mark enclosure.closer, offset⟩ :: rest) →
      Reads (.items enclosure) tokens [nodes] rest
  | item {enclosure tokens nodes offset rest items after} :
      Reads (.nodes enclosure.place) tokens nodes (⟨.mark enclosure.separator, offset⟩ :: rest) →
      Reads (.items enclosure) rest items after →
      Reads (.items enclosure) tokens (nodes :: items) after
  | noArguments {tokens} : behind? .openParen tokens = none → Reads .arguments tokens [] tokens
  | emptyArguments {opened closed rest} :
      Reads .arguments (⟨.mark .openParen, opened⟩ :: ⟨.mark .closeParen, closed⟩ :: rest) [] rest
  | arguments {opened tokens items rest} : behind? .closeParen tokens = none →
      Reads (.items .arguments) tokens items rest →
      Reads .arguments (⟨.mark .openParen, opened⟩ :: tokens) items rest
  | noCalls {tokens} : behind? .dot tokens = none → Reads .calls tokens [] tokens
  | call {dot letters offset tokens arguments more calls rest} :
      isName (letters.map Letter.char) = true → Reads .arguments tokens arguments more →
      Reads .calls more calls rest →
      Reads .calls (⟨.mark .dot, dot⟩ :: ⟨.run letters, offset⟩ :: tokens)
        (⟨String.ofList (letters.map Letter.char), arguments⟩ :: calls) rest
  | reference {letters offset tokens calls rest} : isName (letters.map Letter.char) = true →
      Reads .calls tokens calls rest →
      Reads .reference (⟨.run letters, offset⟩ :: tokens)
        ⟨String.ofList (letters.map Letter.char), calls⟩ rest
  | referenceSpan {tokens target closed rest} :
      Reads .reference tokens target (⟨.mark .hash, closed⟩ :: rest) →
      Reads .span tokens (.reference target) rest
  | conditionalSpan {comparison : Comparison} {offset tokens branching rest} :
      Reads (.branching comparison) tokens branching rest →
      Reads .span (⟨.mark comparison.mark, offset⟩ :: tokens) (.conditional branching) rest
  | branching {comparison tokens subject equals inTest test question inTrue whenTrue inFalse
      whenFalse closed rest} :
      Reads .reference tokens subject (⟨.mark .equals, equals⟩ :: inTest) →
      Reads (.nodes .test) inTest test (⟨.mark .question, question⟩ :: inTrue) →
      Reads (.nodes .whenTrue) inTrue whenTrue inFalse →
      Reads .otherwise inFalse whenFalse (⟨.mark .hash, closed⟩ :: rest) →
      Reads (.branching comparison) tokens ⟨comparison, subject, test, whenTrue, whenFalse⟩ rest
  | noOtherwise {tokens} : behind? .colon tokens = none → Reads .otherwise tokens [] tokens
  | otherwise {colon tokens nodes rest} : Reads (.nodes .whenFalse) tokens nodes rest →
      Reads .otherwise (⟨.mark .colon, colon⟩ :: tokens) nodes rest

-- The function of the parser that reads a phrase. What a failure says may depend on where the
-- phrase was opened.
def parse? (opened : Nat) : (phrase : Phrase) → (tokens : List Token) →
    Except ParseError (Parsed tokens.length phrase.Value)
  | .nodes place, tokens => parseNodes stop place tokens
  | .items enclosure, tokens => parseItems stop enclosure opened tokens
  | .arguments, tokens => parseArguments stop tokens
  | .calls, tokens => parseCalls stop tokens
  | .reference, tokens => parseReference stop tokens
  | .span, tokens => parseSpan stop opened tokens
  | .branching comparison, tokens => parseBranching stop comparison opened tokens
  | .otherwise, tokens => parseOtherwise stop tokens

end

section

variable {stop : Nat}

theorem eq_cons_of_behind? {m : Mark} {tokens rest : List Token} {h : rest.length < tokens.length}
    (hb : behind? m tokens = some ⟨rest, h⟩) : ∃ offset, tokens = ⟨.mark m, offset⟩ :: rest := by
  cases tokens with
  | nil => simp [behind?] at hb
  | cons token others =>
      obtain ⟨lexeme, offset⟩ := token
      simp only [behind?, Option.ite_none_right_eq_some, Option.some.injEq, Subtype.mk.injEq] at hb
      obtain ⟨rfl, rfl⟩ := hb
      exact ⟨offset, rfl⟩

@[simp] theorem behind?_cons (m : Mark) (offset : Nat) (rest : List Token) :
    behind? m (⟨.mark m, offset⟩ :: rest) = some ⟨rest, Nat.lt_succ_self _⟩ := by
  simp [behind?]

theorem behind?_cons_of_ne {m : Mark} {l : Lexeme} (h : l ≠ .mark m) (offset : Nat)
    (rest : List Token) : behind? m (⟨l, offset⟩ :: rest) = none := by
  simp [behind?, h]

theorem parseName_eq_ok {tokens rest : List Token} {name : String} {hb}
    (h : parseName stop tokens = .ok ⟨name, rest, hb⟩) : ∃ letters offset,
      tokens = ⟨.run letters, offset⟩ :: rest ∧ isName (letters.map Letter.char) = true ∧
      name = String.ofList (letters.map Letter.char) := by
  unfold parseName at h
  split at h
  · rename_i letters offset others
    dsimp only at h
    split at h
    · rename_i hn
      cases h
      exact ⟨letters, offset, rfl, hn, rfl⟩
    · cases h
  · cases h

theorem parseHash_eq_ok {opened : Nat} {tokens rest : List Token} {hb}
    (h : parseHash opened tokens = .ok ⟨(), rest, hb⟩) :
    ∃ closed, tokens = ⟨.mark .hash, closed⟩ :: rest := by
  unfold parseHash at h
  split at h
  · cases h
  · rename_i token others
    obtain ⟨lexeme, closed⟩ := token
    dsimp only at h
    split at h
    · rename_i hl
      cases h
      exact ⟨closed, by rw [hl]⟩
    · cases h

-- The parser only accepts what the grammar does. The recursion is the one of the parser, and as its
-- measure speaks of the tokens, these are taken apart behind the recursive calls only.

mutual

theorem reads_of_parseNodes {place : Place} {tokens : List Token} {p}
    (h : parseNodes stop place tokens = .ok p) :
    Reads stop (.nodes place) tokens p.value p.rest := by
  match tokens, p, h with
  | [], p, h =>
      rw [parseNodes] at h
      obtain rfl := Except.ok.inj h
      exact .finish
  | ⟨lexeme, opened⟩ :: rest, p, h =>
      rw [parseNodes] at h
      dsimp only at h
      by_cases he : place.endsAt lexeme = true
      · rw [if_pos he] at h
        obtain rfl := Except.ok.inj h
        exact .stop he
      · rw [if_neg he] at h
        by_cases hh : lexeme = .mark .hash
        · subst hh
          rw [if_pos rfl] at h
          by_cases hp : place.isBranch = true
          · rw [if_pos hp] at h
            split at h
            · rename_i hs
              obtain rfl := Except.ok.inj h
              exact .close hp (by simp [hs])
            · rename_i node more hm hs
              split at h
              · rename_i ha
                obtain ⟨⟨nodes, after, hb⟩, hn, h⟩ := bind_eq_ok_iff.mp h
                obtain rfl := Except.ok.inj h
                exact .hash (reads_of_parseSpan hs) (fun _ => ha) (reads_of_parseNodes hn)
              · rename_i ha
                obtain rfl := Except.ok.inj h
                refine .close hp fun other rest' _ ho => ?_
                rw [hs] at ho
                cases ho
                simpa using ha
          · rw [if_neg hp] at h
            obtain ⟨⟨node, more, hm⟩, hs, h⟩ := bind_eq_ok_iff.mp h
            obtain ⟨⟨nodes, after, hb⟩, hn, h⟩ := bind_eq_ok_iff.mp h
            obtain rfl := Except.ok.inj h
            exact .hash (reads_of_parseSpan hs) (absurd · hp) (reads_of_parseNodes hn)
        · rw [if_neg hh] at h
          split at h
          · rename_i hb
            obtain ⟨rfl, hp⟩ := hb
            obtain ⟨⟨options, more, hm⟩, ho, h⟩ := bind_eq_ok_iff.mp h
            obtain ⟨⟨nodes, after, hb⟩, hn, h⟩ := bind_eq_ok_iff.mp h
            obtain rfl := Except.ok.inj h
            exact .bracket hp (reads_of_parseItems ho) (reads_of_parseNodes hn)
          · rename_i hb
            obtain ⟨⟨nodes, after, hm⟩, hn, h⟩ := bind_eq_ok_iff.mp h
            obtain rfl := Except.ok.inj h
            exact .text ⟨by simpa using he, hh, by simpa using hb⟩
              (reads_of_parseNodes hn)
termination_by 4 * tokens.length
decreasing_by all_goals (simp only [List.length_cons]; omega)

theorem reads_of_parseItems {enclosure : Enclosure} {opened : Nat} {tokens : List Token} {p}
    (h : parseItems stop enclosure opened tokens = .ok p) :
    Reads stop (.items enclosure) tokens p.value p.rest := by
  rw [parseItems] at h
  obtain ⟨⟨item, more, hm⟩, hi, h⟩ := bind_eq_ok_iff.mp h
  have hi := reads_of_parseNodes hi
  dsimp only at h
  split at h
  · rename_i next hl hb
    obtain ⟨⟨items, after, ha⟩, hrest, h⟩ := bind_eq_ok_iff.mp h
    obtain rfl := Except.ok.inj h
    have hrest := reads_of_parseItems hrest
    obtain ⟨offset, rfl⟩ := eq_cons_of_behind? hb
    exact .item hi hrest
  · split at h
    · rename_i after ha hb
      obtain ⟨offset, rfl⟩ := eq_cons_of_behind? hb
      obtain rfl := Except.ok.inj h
      exact .lastItem hi
    · cases h
termination_by 4 * tokens.length + 1
decreasing_by all_goals omega

theorem reads_of_parseArguments {tokens : List Token} {p}
    (h : parseArguments stop tokens = .ok p) : Reads stop .arguments tokens p.value p.rest := by
  rw [parseArguments] at h
  split at h
  · rename_i hb
    obtain rfl := Except.ok.inj h
    exact .noArguments hb
  · rename_i inner hl hb
    split at h
    · rename_i after ha hc
      obtain ⟨offset, rfl⟩ := eq_cons_of_behind? hb
      obtain ⟨closed, rfl⟩ := eq_cons_of_behind? hc
      obtain rfl := Except.ok.inj h
      exact .emptyArguments
    · rename_i hc
      obtain ⟨⟨items, after, ha⟩, hi, h⟩ := bind_eq_ok_iff.mp h
      obtain rfl := Except.ok.inj h
      have hitems := reads_of_parseItems hi
      obtain ⟨offset, rfl⟩ := eq_cons_of_behind? hb
      exact .arguments hc hitems
termination_by 4 * tokens.length
decreasing_by all_goals omega

theorem reads_of_parseCalls {tokens : List Token} {p}
    (h : parseCalls stop tokens = .ok p) : Reads stop .calls tokens p.value p.rest := by
  rw [parseCalls] at h
  split at h
  · rename_i hb
    obtain rfl := Except.ok.inj h
    exact .noCalls hb
  · rename_i rest hl hb
    obtain ⟨⟨name, more, hm⟩, hn, h⟩ := bind_eq_ok_iff.mp h
    obtain ⟨⟨arguments, next, hx⟩, ha, h⟩ := bind_eq_ok_iff.mp h
    obtain ⟨⟨calls, after, hy⟩, hc, h⟩ := bind_eq_ok_iff.mp h
    obtain rfl := Except.ok.inj h
    have ha := reads_of_parseArguments ha
    have hc := reads_of_parseCalls hc
    obtain ⟨letters, offset, rfl, hname, rfl⟩ := parseName_eq_ok hn
    obtain ⟨dot, rfl⟩ := eq_cons_of_behind? hb
    exact .call hname ha hc
termination_by 4 * tokens.length
decreasing_by all_goals omega

theorem reads_of_parseReference {tokens : List Token} {p}
    (h : parseReference stop tokens = .ok p) : Reads stop .reference tokens p.value p.rest := by
  rw [parseReference] at h
  obtain ⟨⟨name, more, hm⟩, hn, h⟩ := bind_eq_ok_iff.mp h
  obtain ⟨⟨calls, after, hx⟩, hc, h⟩ := bind_eq_ok_iff.mp h
  obtain rfl := Except.ok.inj h
  have hc := reads_of_parseCalls hc
  obtain ⟨letters, offset, rfl, hname, rfl⟩ := parseName_eq_ok hn
  exact .reference hname hc
termination_by 4 * tokens.length + 1
decreasing_by all_goals omega

theorem reads_of_parseSpan {opened : Nat} {tokens : List Token} {p}
    (h : parseSpan stop opened tokens = .ok p) : Reads stop .span tokens p.value p.rest := by
  rw [parseSpan] at h
  split at h
  · cases h
  · split at h
    · rename_i rest hl hb
      obtain ⟨⟨branching, after, hx⟩, hr, h⟩ := bind_eq_ok_iff.mp h
      obtain rfl := Except.ok.inj h
      have hr := reads_of_parseBranching hr
      obtain ⟨offset, rfl⟩ := eq_cons_of_behind? hb
      exact .conditionalSpan hr
    · split at h
      · rename_i rest hl hb
        obtain ⟨offset, rfl⟩ := eq_cons_of_behind? hb
        obtain ⟨⟨branching, after, hx⟩, hr, h⟩ := bind_eq_ok_iff.mp h
        obtain rfl := Except.ok.inj h
        exact .conditionalSpan (reads_of_parseBranching hr)
      · obtain ⟨⟨target, more, hm⟩, hr, h⟩ := bind_eq_ok_iff.mp h
        obtain ⟨⟨⟨⟩, after, ha⟩, hc, h⟩ := bind_eq_ok_iff.mp h
        obtain rfl := Except.ok.inj h
        have hr := reads_of_parseReference hr
        obtain ⟨closed, rfl⟩ := parseHash_eq_ok hc
        exact .referenceSpan hr
termination_by 4 * tokens.length + 2
decreasing_by all_goals omega

theorem reads_of_parseBranching {comparison : Comparison} {opened : Nat} {tokens : List Token} {p}
    (h : parseBranching stop comparison opened tokens = .ok p) :
    Reads stop (.branching comparison) tokens p.value p.rest := by
  rw [parseBranching] at h
  obtain ⟨⟨subject, more, hx⟩, hs, h⟩ := bind_eq_ok_iff.mp h
  have hs := reads_of_parseReference hs
  dsimp only at h
  split at h
  · cases h
  · rename_i more₁ hx₁ hequals
    obtain ⟨⟨test, more₂, hx₂⟩, ht, h⟩ := bind_eq_ok_iff.mp h
    have ht := reads_of_parseNodes ht
    dsimp only at h
    split at h
    · cases h
    · rename_i more₃ hx₃ hquestion
      obtain ⟨⟨whenTrue, more₄, hx₄⟩, htrue, h⟩ := bind_eq_ok_iff.mp h
      obtain ⟨⟨whenFalse, more₅, hx₅⟩, hfalse, h⟩ := bind_eq_ok_iff.mp h
      obtain ⟨⟨⟨⟩, after, hx₆⟩, hclosed, h⟩ := bind_eq_ok_iff.mp h
      obtain rfl := Except.ok.inj h
      have htrue := reads_of_parseNodes htrue
      have hfalse := reads_of_parseOtherwise hfalse
      obtain ⟨equals, rfl⟩ := eq_cons_of_behind? hequals
      obtain ⟨question, rfl⟩ := eq_cons_of_behind? hquestion
      obtain ⟨closed, rfl⟩ := parseHash_eq_ok hclosed
      exact .branching hs ht htrue hfalse
termination_by 4 * tokens.length + 2
decreasing_by all_goals omega

theorem reads_of_parseOtherwise {tokens : List Token} {p}
    (h : parseOtherwise stop tokens = .ok p) : Reads stop .otherwise tokens p.value p.rest := by
  rw [parseOtherwise] at h
  split at h
  · rename_i hb
    obtain rfl := Except.ok.inj h
    exact .noOtherwise hb
  · rename_i rest hl hb
    obtain ⟨⟨nodes, after, hx⟩, hn, h⟩ := bind_eq_ok_iff.mp h
    obtain rfl := Except.ok.inj h
    have hn := reads_of_parseNodes hn
    obtain ⟨colon, rfl⟩ := eq_cons_of_behind? hb
    exact .otherwise hn
termination_by 4 * tokens.length
decreasing_by all_goals omega

end

theorem parseName_run {letters : List Letter} (h : isName (letters.map Letter.char) = true)
    (offset : Nat) (rest : List Token) : parseName stop (⟨.run letters, offset⟩ :: rest) =
      .ok ⟨String.ofList (letters.map Letter.char), rest, Nat.le_refl _⟩ := by
  simp [parseName, Lexeme.content, h]

theorem parseHash_hash (opened closed : Nat) (rest : List Token) :
    parseHash opened (⟨.mark .hash, closed⟩ :: rest) = .ok ⟨(), rest, Nat.le_refl _⟩ := by
  simp [parseHash]

-- The parser accepts all that the grammar does, wherever the phrase was opened.
theorem Reads.parse {phrase : Phrase} {tokens rest : List Token} {value : phrase.Value}
    (h : Reads stop phrase tokens value rest) (opened : Nat) :
    ∃ hb, parse? stop opened phrase tokens = .ok ⟨value, rest, hb⟩ := by
  induction h generalizing opened with
  | finish => exact ⟨_, by rw [parse?, parseNodes]⟩
  | stop he => exact ⟨_, by rw [parse?, parseNodes, if_pos he]⟩
  | @close place opened' rest hp ha =>
      refine ⟨Nat.le_refl _, ?_⟩
      rw [parse?, parseNodes, if_neg (by simp), if_pos rfl, if_pos hp]
      split
      · rfl
      · rename_i node more hm hs
        rw [if_neg (by simp [ha node more hm hs])]
  | @hash place opened' rest node more nodes after hs ha hn ihs ihn =>
      obtain ⟨hm, hs⟩ := ihs opened'
      obtain ⟨hb, hn⟩ := ihn opened
      simp only [parse?] at hs hn
      refine ⟨by simp only [List.length_cons]; omega, ?_⟩
      rw [parse?, parseNodes, if_neg (by simp), if_pos rfl]
      by_cases hp : place.isBranch = true
      · simp only [if_pos hp, hs, if_pos (ha hp), hn, ok_bind]
      · simp only [if_neg hp, hs, hn, ok_bind]
  | @bracket place opened' rest options more nodes after hp ho hn iho ihn =>
      obtain ⟨hm, ho⟩ := iho opened'
      obtain ⟨hb, hn⟩ := ihn opened
      simp only [parse?] at ho hn
      refine ⟨by simp only [List.length_cons]; omega, ?_⟩
      rw [parse?, parseNodes, if_neg (by simp), if_neg (by simp), if_pos ⟨rfl, hp⟩]
      simp only [ho, hn, ok_bind]
  | @text place token rest nodes after ht hn ihn =>
      obtain ⟨hb, hn⟩ := ihn opened
      obtain ⟨he, hh, hl⟩ := ht
      simp only [parse?] at hn
      refine ⟨by simp only [List.length_cons]; omega, ?_⟩
      rw [parse?, parseNodes, if_neg (by simp [he]), if_neg hh, if_neg (fun h => h.2 (hl h.1))]
      simp only [hn, ok_bind]
  | @lastItem enclosure tokens nodes offset rest hn ihn =>
      obtain ⟨hb, hn⟩ := ihn opened
      simp only [parse?] at hn
      simp only [List.length_cons] at hb
      have hs : behind? enclosure.separator (⟨.mark enclosure.closer, offset⟩ :: rest) = none :=
        behind?_cons_of_ne (by cases enclosure <;> decide) _ _
      refine ⟨by omega, ?_⟩
      rw [parse?, parseItems]
      simp only [hn, ok_bind, hs, behind?_cons]
  | @item enclosure tokens nodes offset rest items after hn hi ihn ihi =>
      obtain ⟨hb, hn⟩ := ihn opened
      obtain ⟨ha, hi⟩ := ihi opened
      simp only [parse?] at hn hi
      simp only [List.length_cons] at hb
      refine ⟨by omega, ?_⟩
      rw [parse?, parseItems]
      simp only [hn, hi, ok_bind, behind?_cons]
  | @noArguments tokens hb =>
      refine ⟨Nat.le_refl _, ?_⟩
      rw [parse?, parseArguments]
      split
      · rfl
      · simp_all
  | @emptyArguments opened' closed rest =>
      refine ⟨by simp only [List.length_cons]; omega, ?_⟩
      rw [parse?, parseArguments]
      simp only [behind?_cons]
  | @arguments opened' tokens items rest hb hi ihi =>
      obtain ⟨ha, hi⟩ := ihi opened'
      simp only [parse?] at hi
      refine ⟨by simp only [List.length_cons]; omega, ?_⟩
      rw [parse?, parseArguments]
      simp only [behind?_cons]
      split
      · simp_all
      · simp only [offsetOf, hi, ok_bind]
  | @noCalls tokens hb =>
      refine ⟨Nat.le_refl _, ?_⟩
      rw [parse?, parseCalls]
      split
      · rfl
      · simp_all
  | @call dot letters offset tokens arguments more calls rest hname ha hc iha ihc =>
      obtain ⟨hx, ha⟩ := iha opened
      obtain ⟨hy, hc⟩ := ihc opened
      simp only [parse?] at ha hc
      refine ⟨by simp only [List.length_cons]; omega, ?_⟩
      rw [parse?, parseCalls]
      simp only [behind?_cons, parseName_run hname, ha, hc, ok_bind]
  | @reference letters offset tokens calls rest hname hc ihc =>
      obtain ⟨hy, hc⟩ := ihc opened
      simp only [parse?] at hc
      refine ⟨by simp only [List.length_cons]; omega, ?_⟩
      rw [parse?, parseReference]
      simp only [parseName_run hname, hc, ok_bind]
  | @referenceSpan tokens target closed rest hr ihr =>
      obtain ⟨letters, offset, others, rfl⟩ :
          ∃ letters offset others, tokens = ⟨.run letters, offset⟩ :: others := by
        cases hr
        exact ⟨_, _, _, rfl⟩
      obtain ⟨hb, hr⟩ := ihr opened
      simp only [parse?] at hr
      simp only [List.length_cons] at hb ⊢
      refine ⟨by omega, ?_⟩
      rw [parse?, parseSpan, if_neg (by simp)]
      have hrun (m : Mark) : behind? m (⟨.run letters, offset⟩ :: others) = none :=
        behind?_cons_of_ne (by simp) _ _
      simp only [hrun, hr, ok_bind, parseHash_hash]
  | @conditionalSpan comparison offset tokens branching rest hr ihr =>
      obtain ⟨hb, hr⟩ := ihr opened
      simp only [parse?] at hr
      refine ⟨by simp only [List.length_cons]; omega, ?_⟩
      rw [parse?, parseSpan, if_neg (by simp)]
      cases comparison with
      | equal => simp only [Comparison.mark, behind?_cons, hr, ok_bind]
      | notEqual =>
          have hbang : behind? .question (⟨.mark .bang, offset⟩ :: tokens) = none :=
            behind?_cons_of_ne (by decide) _ _
          simp only [Comparison.mark, hbang, behind?_cons, hr, ok_bind]
  | @branching comparison tokens subject equals inTest test question inTrue whenTrue inFalse
      whenFalse closed rest hs ht htrue hfalse ihs iht ihtrue ihfalse =>
      obtain ⟨hx₁, hs⟩ := ihs opened
      obtain ⟨hx₂, ht⟩ := iht opened
      obtain ⟨hx₃, htrue⟩ := ihtrue opened
      obtain ⟨hx₄, hfalse⟩ := ihfalse opened
      simp only [parse?] at hs ht htrue hfalse
      simp only [List.length_cons] at hx₁ hx₂ hx₃ hx₄
      refine ⟨by omega, ?_⟩
      rw [parse?, parseBranching]
      simp only [hs, ht, htrue, hfalse, ok_bind, behind?_cons, parseHash_hash]
  | @noOtherwise tokens hb =>
      refine ⟨Nat.le_refl _, ?_⟩
      rw [parse?, parseOtherwise]
      split
      · rfl
      · simp_all
  | @otherwise colon tokens nodes rest hn ihn =>
      obtain ⟨hb, hn⟩ := ihn opened
      simp only [parse?] at hn
      refine ⟨by simp only [List.length_cons]; omega, ?_⟩
      rw [parse?, parseOtherwise]
      simp only [behind?_cons, hn, ok_bind]

-- The grammar says exactly what the parser accepts.
theorem parse?_eq_ok_iff {phrase : Phrase} {tokens rest : List Token} {value : phrase.Value}
    {opened : Nat} : (∃ hb, parse? stop opened phrase tokens = .ok ⟨value, rest, hb⟩) ↔
      Reads stop phrase tokens value rest := by
  refine ⟨fun ⟨hb, h⟩ => ?_, fun h => h.parse opened⟩
  cases phrase with
  | nodes place => exact reads_of_parseNodes h
  | items enclosure => exact reads_of_parseItems h
  | arguments => exact reads_of_parseArguments h
  | calls => exact reads_of_parseCalls h
  | reference => exact reads_of_parseReference h
  | span => exact reads_of_parseSpan h
  | branching comparison => exact reads_of_parseBranching h
  | otherwise => exact reads_of_parseOtherwise h

-- Nothing ends a template but the end of its text.
theorem Reads.rest_eq_nil {phrase : Phrase} {tokens rest : List Token} {value : phrase.Value}
    (h : Reads stop phrase tokens value rest) (hp : phrase = .nodes .template) : rest = [] := by
  induction h with
  | finish => rfl
  | stop he => cases hp; simp [Place.endsAt, Place.terminators] at he
  | close hb _ => cases hp; simp [Place.isBranch] at hb
  | hash _ _ _ _ ihn | bracket _ _ _ _ ihn | text _ _ ihn => exact ihn hp
  | _ => cases hp

end

theorem read_eq_ok_iff {text : String} {nodes : List Node} :
    read text = .ok nodes ↔
      Reads text.utf8ByteSize (.nodes .template) (Token.ofText text) nodes [] := by
  unfold read
  rw [Except.map_eq_ok_iff]
  constructor
  · rintro ⟨⟨value, rest, hb⟩, hp, rfl⟩
    have hr := reads_of_parseNodes hp
    obtain rfl : rest = [] := hr.rest_eq_nil rfl
    exact hr
  · intro hr
    obtain ⟨hb, hp⟩ := hr.parse 0
    exact ⟨_, hp, rfl⟩

end StoryGrammar.Template
