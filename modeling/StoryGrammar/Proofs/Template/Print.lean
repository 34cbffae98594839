import StoryGrammar.Proofs.Template.Canonical
import StoryGrammar.Proofs.Template.Scan
import StoryGrammar.Proofs.Template.Spelling

namespace StoryGrammar.Template

mutual

-- How nodes are printed. Only literals need backslashes. What is empty is left out together with
-- the marks around it.
def Node.lexemes : List Node → List Lexeme
  | [] => []
  | .literal text :: rest => .run (text.toList.map .quote) :: Node.lexemes rest
  | .alternation options :: rest =>
    .mark .openBracket ::
      (Node.lexemesOfEach .bar options ++ .mark .closeBracket :: Node.lexemes rest)
  | .reference target :: rest =>
    .mark .hash :: (target.lexemes ++ .mark .hash :: Node.lexemes rest)
  | .conditional ⟨comparison, subject, test, whenTrue, whenFalse⟩ :: rest =>
    .mark .hash :: .mark comparison.mark :: (subject.lexemes ++
      .mark .equals :: (Node.lexemes test ++ .mark .question :: (Node.lexemes whenTrue ++
        ((if whenFalse.isEmpty then [] else .mark .colon :: Node.lexemes whenFalse) ++
          .mark .hash :: Node.lexemes rest))))

def Node.lexemesOfEach (separator : Mark) : List (List Node) → List Lexeme
  | [] => []
  | [nodes] => Node.lexemes nodes
  | nodes :: next :: more =>
    Node.lexemes nodes ++ .mark separator :: Node.lexemesOfEach separator (next :: more)

def Reference.lexemes : Reference → List Lexeme
  | ⟨name, calls⟩ => .run (name.toList.map .plain) :: Call.lexemes calls

def Call.lexemes : List Call → List Lexeme
  | [] => []
  | ⟨name, arguments⟩ :: rest =>
    .mark .dot :: .run (name.toList.map .plain) ::
      ((if arguments.isEmpty then [] else
        .mark .openParen :: (Node.lexemesOfEach .comma arguments ++ [.mark .closeParen])) ++
          Call.lexemes rest)

end

-- The text of a template with these nodes.
def Node.print (nodes : List Node) : String :=
  String.ofList ((Node.lexemes nodes).flatMap Lexeme.written)

theorem Node.lexemes_append (nodes others : List Node) :
    Node.lexemes (nodes ++ others) = Node.lexemes nodes ++ Node.lexemes others := by
  induction nodes with
  | nil => rfl
  | cons node rest ih =>
      cases node with
      | literal _ | alternation _ | reference _ => simp [Node.lexemes, ih]
      | conditional branching =>
          obtain ⟨comparison, subject, test, whenTrue, whenFalse⟩ := branching
          simp [Node.lexemes, ih]

section

open Lexeme Node

theorem apart_lexemes {text : String} {rest : List Node}
    (h : ∀ next ∈ rest.head?, Separate (.literal text) next) : Apart (Node.lexemes rest) := by
  cases rest with
  | nil => exact apart_nil
  | cons next more =>
      cases next with
      | literal other => exact absurd ⟨trivial, trivial⟩ (h _ rfl)
      | alternation options | reference target => exact apart_mark _ _
      | conditional branching =>
          obtain ⟨comparison, subject, test, whenTrue, whenFalse⟩ := branching
          exact apart_mark _ _

theorem apart_calls (calls : List Call) : Apart (Call.lexemes calls) := by
  cases calls with
  | nil => exact apart_nil
  | cons call rest =>
      obtain ⟨name, arguments⟩ := call
      exact apart_mark _ _

theorem Lexeme.Stable.name {lexemes : List Lexeme} (hs : Stable lexemes) (ha : Apart lexemes)
    {name : String} (h : isName name.toList = true) :
    Stable (.run (name.toList.map .plain) :: lexemes) := by
  obtain ⟨hne, hc⟩ := isName_iff.mp h
  refine hs.run ha (by simpa using hne) ?_
  simp only [List.mem_map]
  rintro l ⟨c, hm, rfl⟩
  exact Letter.legible_plain (hc c hm)

-- What is printed splits into the lexemes that were printed. Two runs would melt into one, and here
-- it is the marks between sequences and the distance between literals that keep them apart.

mutual

theorem Node.stable_lexemes (nodes : List Node) (ht : TidySequence nodes)
    (hi : Inside TidySequence nodes) : Stable (Node.lexemes nodes) := by
  match nodes with
  | [] => exact stable_nil
  | .literal text :: rest =>
      obtain ⟨hne, hs, hrest⟩ := tidySequence_cons.mp ht
      have hletters : text.toList.map Letter.quote ≠ [] := by
        simpa [Tidy] using hne
      exact (Node.stable_lexemes rest hrest (inside_literal.mp hi)).run (apart_lexemes hs) hletters
        (by simp [Letter.legible_quote])
  | .alternation options :: rest =>
      obtain ⟨-, -, hrest⟩ := tidySequence_cons.mp ht
      obtain ⟨ho, hi⟩ := inside_alternation.mp hi
      have hoptions := Node.stable_lexemesOfEach .bar options ho
      have hclosed := (Node.stable_lexemes rest hrest hi).mark .closeBracket
      exact (hoptions.append hclosed (apart_mark _ _)).mark .openBracket
  | .reference target :: rest =>
      obtain ⟨htarget, -, hrest⟩ := tidySequence_cons.mp ht
      obtain ⟨ha, hi⟩ := inside_reference.mp hi
      have hclosed := (Node.stable_lexemes rest hrest hi).mark .hash
      exact ((target.stable_lexemes htarget ha).append hclosed (apart_mark _ _)).mark .hash
  | .conditional ⟨comparison, subject, test, whenTrue, whenFalse⟩ :: rest =>
      obtain ⟨hsubject, -, hrest⟩ := tidySequence_cons.mp ht
      obtain ⟨ha, htest, htrue, hfalse, hi⟩ := inside_conditional.mp hi
      have hclosed := (Node.stable_lexemes rest hrest hi).mark .hash
      have hwhenFalse := (Node.stable_lexemes whenFalse hfalse.1 hfalse.2).mark .colon
      have hwhenTrue := Node.stable_lexemes whenTrue htrue.1 htrue.2
      have hbranches : Stable (Node.lexemes whenTrue ++
          ((if whenFalse.isEmpty then [] else .mark .colon :: Node.lexemes whenFalse) ++
            .mark .hash :: Node.lexemes rest)) := by
        split
        · exact hwhenTrue.append hclosed (apart_mark _ _)
        · exact hwhenTrue.append (hwhenFalse.append hclosed (apart_mark _ _)) (apart_mark _ _)
      have hcompared := (Node.stable_lexemes test htest.1 htest.2).append
        (hbranches.mark .question) (apart_mark _ _)
      exact (((subject.stable_lexemes hsubject ha).append (hcompared.mark .equals)
        (apart_mark _ _)).mark comparison.mark).mark .hash

theorem Node.stable_lexemesOfEach (separator : Mark) (items : List (List Node))
    (h : ∀ item ∈ items, Throughout TidySequence item) :
    Stable (Node.lexemesOfEach separator items) := by
  match items with
  | [] => exact stable_nil
  | [nodes] =>
      obtain ⟨ht, hi⟩ := h nodes (by simp)
      exact Node.stable_lexemes nodes ht hi
  | nodes :: next :: more =>
      obtain ⟨⟨ht, hi⟩, hrest⟩ := List.forall_mem_cons.mp h
      have hmore := (Node.stable_lexemesOfEach separator (next :: more) hrest).mark separator
      exact (Node.stable_lexemes nodes ht hi).append hmore (apart_mark _ _)

theorem Reference.stable_lexemes (target : Reference) (ht : target.Tidy)
    (hi : target.Inside TidySequence) : Stable target.lexemes := by
  match target with
  | ⟨name, calls⟩ => exact (Call.stable_lexemes calls ht.2 hi).name (apart_calls calls) ht.1

theorem Call.stable_lexemes (calls : List Call) (ht : ∀ call ∈ calls, call.Tidy)
    (hi : ∀ call ∈ calls, ∀ argument ∈ call.arguments, Throughout TidySequence argument) :
    Stable (Call.lexemes calls) := by
  match calls with
  | [] => exact stable_nil
  | ⟨name, arguments⟩ :: rest =>
      obtain ⟨hname, htidy⟩ := List.forall_mem_cons.mp ht
      obtain ⟨ha, hrest⟩ := List.forall_mem_cons.mp hi
      have hcalls := Call.stable_lexemes rest htidy hrest
      rw [Call.lexemes]
      split
      · exact (hcalls.name (apart_calls rest) hname.1).mark .dot
      · have hinner := (Node.stable_lexemesOfEach .comma arguments ha).append
          (stable_nil.mark .closeParen) (apart_mark _ _)
        exact (((hinner.mark .openParen).append hcalls (apart_calls rest)).name
          (apart_mark _ _) hname.1).mark .dot

end

end

end StoryGrammar.Template
