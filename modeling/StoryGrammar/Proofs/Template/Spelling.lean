import Mathlib.Computability.Language
import StoryGrammar.Proofs.Template.Reads

namespace StoryGrammar.Template

open Language (append_mem_mul mem_mul)

-- What tokens say when all of them are read as text.
def Token.contents (tokens : List Token) : List Char :=
  tokens.flatMap fun token => token.lexeme.content

theorem Token.contents_append (tokens others : List Token) :
    contents (tokens ++ others) = contents tokens ++ contents others :=
  List.flatMap_append

def Mark.spelling (m : Mark) : Language Char := {[m.char]}

-- What is empty may be left out together with the marks around it.
def orNothing (empty : Bool) (spellings : Language Char) : Language Char :=
  if empty then 1 + spellings else spellings

mutual

-- The ways in which nodes may be written. They differ only in the parentheses of a call without
-- arguments and in the colon before an empty branch.
def Node.spellings : List Node → Language Char
  | [] => 1
  | node :: rest => node.spelling * Node.spellings rest

def Node.spelling : Node → Language Char
  | .literal text => {text.toList}
  | .alternation options =>
    Mark.openBracket.spelling * (Node.joined .bar options * Mark.closeBracket.spelling)
  | .reference target => Mark.hash.spelling * (target.spelling * Mark.hash.spelling)
  | .conditional ⟨comparison, subject, test, whenTrue, whenFalse⟩ =>
    Mark.hash.spelling * (comparison.mark.spelling * (subject.spelling *
      (Mark.equals.spelling * (Node.spellings test *
        (Mark.question.spelling * (Node.spellings whenTrue *
          (orNothing whenFalse.isEmpty (Mark.colon.spelling * Node.spellings whenFalse) *
            Mark.hash.spelling)))))))

def Node.joined (separator : Mark) : List (List Node) → Language Char
  | [] => 1
  | [nodes] => Node.spellings nodes
  | nodes :: next :: more =>
    Node.spellings nodes * (separator.spelling * Node.joined separator (next :: more))

def Reference.spelling : Reference → Language Char
  | ⟨name, calls⟩ => {name.toList} * Call.spellings calls

def Call.spellings : List Call → Language Char
  | [] => 1
  | ⟨name, arguments⟩ :: rest =>
    Mark.dot.spelling * ({name.toList} *
      (orNothing arguments.isEmpty (Mark.openParen.spelling *
        (Node.joined .comma arguments * Mark.closeParen.spelling)) * Call.spellings rest))

end

-- The ways to write a phrase behind the marks that lead to it.
def Phrase.spellings : (phrase : Phrase) → phrase.Value → Language Char
  | .nodes _, value => Node.spellings value
  | .items enclosure, value =>
    Node.joined enclosure.separator value * enclosure.closer.spelling
  | .arguments, value => orNothing value.isEmpty
    (Mark.openParen.spelling * (Node.joined .comma value * Mark.closeParen.spelling))
  | .calls, value => Call.spellings value
  | .reference, value => value.spelling
  | .span, value => fun chars => Mark.hash.char :: chars ∈ value.spelling
  | .branching comparison, value => fun chars =>
    Mark.hash.char :: comparison.mark.char :: chars ∈ (Node.conditional value).spelling
  | .otherwise, value => orNothing value.isEmpty (Mark.colon.spelling * Node.spellings value)

theorem mem_orNothing {empty : Bool} {spellings : Language Char} {chars : List Char}
    (h : chars ∈ spellings) : chars ∈ orNothing empty spellings := by
  unfold orNothing
  split
  · exact .inr h
  · exact h

theorem nil_mem_orNothing (spellings : Language Char) : [] ∈ orNothing true spellings :=
  .inl rfl

section

variable {spellings others : Language Char} {tokens more : List Token}

theorem contents_append_mem (h : Token.contents tokens ∈ spellings)
    (hm : Token.contents more ∈ others) : Token.contents (tokens ++ more) ∈ spellings * others := by
  rw [Token.contents_append]
  exact append_mem_mul h hm

theorem contents_mark_mem (m : Mark) (offset : Nat) (h : Token.contents tokens ∈ spellings) :
    Token.contents (⟨.mark m, offset⟩ :: tokens) ∈ m.spelling * spellings :=
  append_mem_mul (a := [m.char]) rfl h

theorem contents_run_mem (letters : List Letter) (offset : Nat)
    (h : Token.contents tokens ∈ spellings) : Token.contents (⟨.run letters, offset⟩ :: tokens) ∈
      ({(String.ofList (letters.map Letter.char)).toList} : Language Char) * spellings := by
  rw [String.toList_ofList]
  exact append_mem_mul rfl h

theorem contents_singleton_mem (m : Mark) (offset : Nat) :
    Token.contents [⟨.mark m, offset⟩] ∈ m.spelling := rfl

end

theorem append_mem_spellings_consText (text : String) {nodes : List Node} {chars : List Char}
    (h : chars ∈ Node.spellings nodes) :
    text.toList ++ chars ∈ Node.spellings (Node.consText text nodes) := by
  unfold Node.consText
  split
  · rename_i next rest
    rw [Node.spellings, Node.spelling] at h ⊢
    obtain ⟨literal, rfl, others, ho, rfl⟩ := mem_mul.mp h
    rw [← List.append_assoc, ← String.toList_append]
    exact append_mem_mul rfl ho
  · rw [Node.spellings, Node.spelling]
    exact append_mem_mul rfl h

-- What was read is written in one of these ways in the tokens that are gone.
theorem Reads.spelled {stop : Nat} {phrase : Phrase} {tokens rest : List Token}
    {value : phrase.Value} (h : Reads stop phrase tokens value rest) :
    ∃ consumed, tokens = consumed ++ rest ∧ Token.contents consumed ∈ phrase.spellings value := by
  induction h with
  | finish | stop _ | close _ _ | noCalls _ => exact ⟨[], rfl, rfl⟩
  | @hash _ opened _ _ _ _ _ _ _ _ ihs ihn =>
      obtain ⟨span, rfl, hspan⟩ := ihs
      obtain ⟨others, rfl, hothers⟩ := ihn
      refine ⟨⟨.mark .hash, opened⟩ :: span ++ others, by simp, ?_⟩
      exact contents_append_mem hspan hothers
  | @bracket _ opened _ _ _ _ _ _ _ _ iho ihn =>
      obtain ⟨options, rfl, hoptions⟩ := iho
      obtain ⟨others, rfl, hothers⟩ := ihn
      refine ⟨⟨.mark .openBracket, opened⟩ :: options ++ others, by simp, ?_⟩
      exact contents_append_mem (contents_mark_mem .openBracket opened hoptions) hothers
  | @text place token _ _ _ _ _ ihn =>
      obtain ⟨others, rfl, hothers⟩ := ihn
      refine ⟨token :: others, rfl, ?_⟩
      have h := append_mem_spellings_consText token.lexeme.text hothers
      rwa [Lexeme.text, String.toList_ofList] at h
  | @lastItem enclosure _ _ offset _ _ ihn =>
      obtain ⟨item, rfl, hitem⟩ := ihn
      refine ⟨item ++ [⟨.mark enclosure.closer, offset⟩], by simp, ?_⟩
      exact contents_append_mem hitem (contents_singleton_mem _ _)
  | @item enclosure _ _ offset _ items _ _ hi ihn ihi =>
      obtain ⟨item, rfl, hitem⟩ := ihn
      obtain ⟨others, rfl, hothers⟩ := ihi
      refine ⟨item ++ ⟨.mark enclosure.separator, offset⟩ :: others, by simp, ?_⟩
      obtain ⟨next, more, rfl⟩ : ∃ next more, items = next :: more := by
        cases hi with
        | lastItem _ | item _ _ => exact ⟨_, _, rfl⟩
      rw [Phrase.spellings, Node.joined, mul_assoc, mul_assoc]
      exact contents_append_mem hitem (contents_mark_mem _ _ hothers)
  | noArguments _ | noOtherwise _ => exact ⟨[], rfl, nil_mem_orNothing _⟩
  | @emptyArguments opened closed _ =>
      refine ⟨[⟨.mark .openParen, opened⟩, ⟨.mark .closeParen, closed⟩], rfl, mem_orNothing ?_⟩
      rw [Node.joined, one_mul]
      exact contents_mark_mem _ _ (contents_singleton_mem _ _)
  | @arguments opened _ _ _ _ _ ihi =>
      obtain ⟨inner, rfl, hinner⟩ := ihi
      refine ⟨⟨.mark .openParen, opened⟩ :: inner, rfl, mem_orNothing ?_⟩
      exact contents_mark_mem _ _ hinner
  | @call dot letters offset _ _ _ _ _ _ _ _ iha ihc =>
      obtain ⟨inner, rfl, hinner⟩ := iha
      obtain ⟨others, rfl, hothers⟩ := ihc
      refine ⟨⟨.mark .dot, dot⟩ :: ⟨.run letters, offset⟩ :: (inner ++ others), by simp, ?_⟩
      exact contents_mark_mem _ _ (contents_run_mem _ _ (contents_append_mem hinner hothers))
  | @reference letters offset _ _ _ _ _ ihc =>
      obtain ⟨others, rfl, hothers⟩ := ihc
      exact ⟨⟨.run letters, offset⟩ :: others, rfl, contents_run_mem _ _ hothers⟩
  | @referenceSpan _ target closed _ _ ihr =>
      obtain ⟨inner, rfl, hinner⟩ := ihr
      refine ⟨inner ++ [⟨.mark .hash, closed⟩], by simp, ?_⟩
      exact contents_mark_mem .hash 0 (contents_append_mem hinner (contents_singleton_mem _ _))
  | @conditionalSpan comparison offset _ _ _ _ ihr =>
      obtain ⟨inner, rfl, hinner⟩ := ihr
      exact ⟨⟨.mark comparison.mark, offset⟩ :: inner, rfl, hinner⟩
  | @branching comparison _ _ equals _ _ question _ _ _ _ closed _ _ _ _ _ ihs iht ihtrue ihfalse =>
      obtain ⟨subject, rfl, hsubject⟩ := ihs
      obtain ⟨test, rfl, htest⟩ := iht
      obtain ⟨whenTrue, rfl, hwhenTrue⟩ := ihtrue
      obtain ⟨whenFalse, rfl, hwhenFalse⟩ := ihfalse
      refine ⟨subject ++ ⟨.mark .equals, equals⟩ :: (test ++ ⟨.mark .question, question⟩ ::
        (whenTrue ++ (whenFalse ++ [⟨.mark .hash, closed⟩]))), by simp, ?_⟩
      have hbranches := contents_append_mem hwhenTrue
        (contents_append_mem hwhenFalse (contents_singleton_mem .hash closed))
      have hcompared := contents_append_mem htest (contents_mark_mem .question question hbranches)
      have hinner := contents_append_mem hsubject (contents_mark_mem .equals equals hcompared)
      exact contents_mark_mem .hash 0 (contents_mark_mem comparison.mark 0 hinner)
  | @otherwise colon _ _ _ _ ihn =>
      obtain ⟨inner, rfl, hinner⟩ := ihn
      refine ⟨⟨.mark .colon, colon⟩ :: inner, rfl, mem_orNothing ?_⟩
      exact contents_mark_mem _ _ hinner

-- Reading a template loses nothing, repeats nothing and moves nothing: its nodes, written in
-- reading order, say what the tokens of the text say.
theorem contents_mem_spellings {text : String} {template : Template}
    (h : Template.parse text = .ok template) :
    Token.contents (Token.ofText text) ∈ Node.spellings template.nodes := by
  obtain ⟨nodes, hread, h⟩ := Except.bind_eq_ok_iff.mp h
  obtain rfl := Except.ok.inj h
  obtain ⟨consumed, htokens, hspelled⟩ := (read_eq_ok_iff.mp hread).spelled
  rwa [htokens, List.append_nil]

-- A test with a choice in it, references in both branches, an escaped hash among the hashes that
-- close them, and parentheses that enclose nothing.
def weather : String := "#?sky.low()=[grey|#cloud#]?#rain.by(day,[|night])#\\#:#sun##."

theorem contents_mem_spellings_weather : ∃ template, Template.parse weather = .ok template ∧
    "#?sky.low()=[grey|#cloud#]?#rain.by(day,[|night])##:#sun##.".toList ∈
      Node.spellings template.nodes := by
  have hparse : (Template.parse weather).toBool = true := by decide +kernel
  obtain ⟨template, h⟩ : ∃ template, Template.parse weather = .ok template := by
    cases h : Template.parse weather with
    | ok template => exact ⟨template, rfl⟩
    | error cause => simp [h, Except.toBool] at hparse
  have hcontents : Token.contents (Token.ofText weather) =
      "#?sky.low()=[grey|#cloud#]?#rain.by(day,[|night])##:#sun##.".toList := by decide +kernel
  exact ⟨template, h, hcontents ▸ contents_mem_spellings h⟩

end StoryGrammar.Template
