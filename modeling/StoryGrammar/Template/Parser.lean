import StoryGrammar.Error
import StoryGrammar.Template.Node
import StoryGrammar.Template.Token
import StoryGrammar.Text.Classes

namespace StoryGrammar.Template

-- Names of symbols and modifiers: letters, digits, underscores and hyphens, at least one.
def isNameChar (c : Char) : Bool := Text.isAlphanumeric c || c == '_' || c == '-'

def isName (chars : List Char) : Bool := !chars.isEmpty && chars.all isNameChar

-- Where a sequence of nodes stands. It decides which marks end the sequence.
inductive Place where
  | template
  | option
  | argument
  | test
  | whenTrue
  | whenFalse
deriving DecidableEq, Repr

namespace Place

def terminators : Place → List Mark
  | .template => []
  | .option => [.bar, .closeBracket]
  | .argument => [.comma, .closeParen]
  | .test => [.question]
  | .whenTrue => [.colon]
  | .whenFalse => []

def endsAt (place : Place) (l : Lexeme) : Bool := place.terminators.any (l = .mark ·)

-- In a branch a hash may close the conditional as well as open a reference.
def isBranch : Place → Bool
  | .whenTrue | .whenFalse => true
  | _ => false

end Place

-- A list of sequences between marks.
inductive Enclosure where
  | options
  | arguments
deriving DecidableEq, Repr

namespace Enclosure

def place : Enclosure → Place
  | .options => .option
  | .arguments => .argument

def separator : Enclosure → Mark
  | .options => .bar
  | .arguments => .comma

def closer : Enclosure → Mark
  | .options => .closeBracket
  | .arguments => .closeParen

def unclosed : Enclosure → Nat → ParseError
  | .options => .unclosedAlternation
  | .arguments => .unclosedArguments

end Enclosure

-- What was read, and the tokens that are left. `bound` limits how many those may be, so that
-- reading on from them ends.
structure Parsed (bound : Nat) (α : Type) where
  value : α
  rest : List Token
  le_bound : rest.length ≤ bound

-- The tokens behind a mark, if that mark comes first.
def behind? (m : Mark) :
    (tokens : List Token) → Option { rest : List Token // rest.length < tokens.length }
  | [] => none
  | token :: rest =>
    if token.lexeme = .mark m then some ⟨rest, by simp⟩ else none

def hashAhead (tokens : List Token) : Bool := tokens.any (·.lexeme = .mark .hash)

section

-- The length of the text in bytes, which is where its end lies.
variable (stop : Nat)

def offsetOf : List Token → Nat
  | [] => stop
  | token :: _ => token.offset

def parseName (tokens : List Token) : Except ParseError (Parsed (tokens.length - 1) String) :=
  match tokens with
  | ⟨.run letters, offset⟩ :: rest =>
    let name := (Lexeme.run letters).content
    if isName name then .ok ⟨String.ofList name, rest, Nat.le_refl _⟩
    else .error (.invalidName (String.ofList name) offset)
  | _ => .error (.missingName (offsetOf stop tokens))

-- The hash that closes what was opened at `opened`.
def parseHash (opened : Nat) (tokens : List Token) :
    Except ParseError (Parsed (tokens.length - 1) Unit) :=
  match tokens with
  | [] => .error (.unclosedReference opened)
  | token :: rest =>
    if token.lexeme = .mark .hash then .ok ⟨(), rest, Nat.le_refl _⟩
    else .error (.unexpected token.lexeme.text token.offset)

-- Each of these consumes a token before it calls one that stands above it, so the number of
-- tokens left, with the order of the functions to break ties, bounds the recursion.
mutual

-- Reads as far as the place allows. In a branch, a hash opens a reference only if the reference
-- can be read and another hash is left to close the conditional; otherwise the branch ends.
def parseNodes (place : Place) (tokens : List Token) :
    Except ParseError (Parsed tokens.length (List Node)) :=
  match tokens with
  | [] => .ok ⟨[], [], by simp⟩
  | token :: rest =>
    if place.endsAt token.lexeme then .ok ⟨[], token :: rest, by simp⟩
    else if token.lexeme = .mark .hash then
      if place.isBranch then
        match parseSpan token.offset rest with
        | .error _ => .ok ⟨[], token :: rest, by simp⟩
        | .ok ⟨node, more, h⟩ =>
          if hashAhead more then do
            let ⟨nodes, after, h'⟩ ← parseNodes place more
            .ok ⟨node :: nodes, after, by simp only [List.length_cons]; omega⟩
          else .ok ⟨[], token :: rest, by simp⟩
      else do
        let ⟨node, more, h⟩ ← parseSpan token.offset rest
        let ⟨nodes, after, h'⟩ ← parseNodes place more
        .ok ⟨node :: nodes, after, by simp only [List.length_cons]; omega⟩
    else if token.lexeme = .mark .openBracket ∧ place ≠ .option then do
      let ⟨options, more, h⟩ ← parseItems .options token.offset rest
      let ⟨nodes, after, h'⟩ ← parseNodes place more
      .ok ⟨.alternation options :: nodes, after, by simp only [List.length_cons]; omega⟩
    else do
      let ⟨nodes, after, h⟩ ← parseNodes place rest
      .ok ⟨Node.consText token.lexeme.text nodes, after, by simp only [List.length_cons]; omega⟩
termination_by 4 * tokens.length
decreasing_by all_goals (simp only [List.length_cons]; omega)

-- The sequences of an enclosure, behind the mark that opens it.
def parseItems (enclosure : Enclosure) (opened : Nat) (tokens : List Token) :
    Except ParseError (Parsed tokens.length (List (List Node))) := do
  let ⟨item, more, h⟩ ← parseNodes enclosure.place tokens
  match behind? enclosure.separator more with
  | some ⟨next, h'⟩ => do
    let ⟨items, after, h''⟩ ← parseItems enclosure opened next
    .ok ⟨item :: items, after, by omega⟩
  | none =>
    match behind? enclosure.closer more with
    | some ⟨after, h'⟩ => .ok ⟨[item], after, by omega⟩
    | none => .error (enclosure.unclosed opened)
termination_by 4 * tokens.length + 1
decreasing_by all_goals omega

-- An empty pair of parentheses, like none at all, means no arguments.
def parseArguments (tokens : List Token) :
    Except ParseError (Parsed tokens.length (List (List Node))) :=
  match behind? .openParen tokens with
  | none => .ok ⟨[], tokens, by simp⟩
  | some ⟨inner, h⟩ =>
    match behind? .closeParen inner with
    | some ⟨after, h'⟩ => .ok ⟨[], after, by omega⟩
    | none => do
      let ⟨items, after, h'⟩ ← parseItems .arguments (offsetOf stop tokens) inner
      .ok ⟨items, after, by omega⟩
termination_by 4 * tokens.length
decreasing_by all_goals omega

def parseCalls (tokens : List Token) : Except ParseError (Parsed tokens.length (List Call)) :=
  match behind? .dot tokens with
  | none => .ok ⟨[], tokens, by simp⟩
  | some ⟨rest, h⟩ => do
    let ⟨name, more, h₁⟩ ← parseName stop rest
    let ⟨arguments, next, h₂⟩ ← parseArguments more
    let ⟨calls, after, h₃⟩ ← parseCalls next
    .ok ⟨⟨name, arguments⟩ :: calls, after, by omega⟩
termination_by 4 * tokens.length
decreasing_by all_goals omega

def parseReference (tokens : List Token) :
    Except ParseError (Parsed tokens.length Reference) := do
  let ⟨name, more, h⟩ ← parseName stop tokens
  let ⟨calls, after, h'⟩ ← parseCalls more
  .ok ⟨⟨name, calls⟩, after, by omega⟩
termination_by 4 * tokens.length + 1
decreasing_by omega

-- What stands behind an opening hash, with the hash that closes it.
def parseSpan (opened : Nat) (tokens : List Token) :
    Except ParseError (Parsed tokens.length Node) :=
  if tokens.isEmpty then .error (.unclosedReference opened)
  else
    match behind? .question tokens with
    | some ⟨rest, h⟩ => do
      let ⟨branching, after, h'⟩ ← parseBranching .equal opened rest
      .ok ⟨.conditional branching, after, by omega⟩
    | none =>
      match behind? .bang tokens with
      | some ⟨rest, h⟩ => do
        let ⟨branching, after, h'⟩ ← parseBranching .notEqual opened rest
        .ok ⟨.conditional branching, after, by omega⟩
      | none => do
        let ⟨target, more, h⟩ ← parseReference tokens
        let ⟨(), after, h'⟩ ← parseHash opened more
        .ok ⟨.reference target, after, by omega⟩
termination_by 4 * tokens.length + 2
decreasing_by all_goals omega

def parseBranching (comparison : Comparison) (opened : Nat) (tokens : List Token) :
    Except ParseError (Parsed tokens.length Branching) := do
  let ⟨subject, more, h⟩ ← parseReference tokens
  match behind? .equals more with
  | none => .error (if more.isEmpty then .unclosedReference opened else .missingComparison opened)
  | some ⟨more₁, h₁⟩ => do
    let ⟨test, more₂, h₂⟩ ← parseNodes .test more₁
    match behind? .question more₂ with
    | none => .error (.missingBranch opened)
    | some ⟨more₃, h₃⟩ => do
      let ⟨whenTrue, more₄, h₄⟩ ← parseNodes .whenTrue more₃
      let ⟨whenFalse, more₅, h₅⟩ ← parseOtherwise more₄
      let ⟨(), after, h₆⟩ ← parseHash opened more₅
      .ok ⟨⟨comparison, subject, test, whenTrue, whenFalse⟩, after, by omega⟩
termination_by 4 * tokens.length + 2
decreasing_by all_goals omega

-- The branch for a comparison that fails may be left out.
def parseOtherwise (tokens : List Token) :
    Except ParseError (Parsed tokens.length (List Node)) :=
  match behind? .colon tokens with
  | none => .ok ⟨[], tokens, by simp⟩
  | some ⟨rest, h⟩ => do
    let ⟨nodes, after, h'⟩ ← parseNodes .whenFalse rest
    .ok ⟨nodes, after, by omega⟩
termination_by 4 * tokens.length
decreasing_by omega

end

end

-- The nodes of a whole text.
def read (text : String) : Except ParseError (List Node) :=
  (parseNodes text.utf8ByteSize .template (Token.ofText text)).map Parsed.value

end StoryGrammar.Template

namespace StoryGrammar

-- A template together with the text that it was read from.
structure Template where
  source : String
  nodes : List Template.Node

namespace Template

def parse (source : String) : Except ParseError Template := do
  return ⟨source, ← read source⟩

-- Text that stands for itself, whatever marks it holds.
def verbatim (text : String) : Template := ⟨text, if text.isEmpty then [] else [.literal text]⟩

def references (template : Template) : List Reference := Node.references template.nodes

end Template

-- A template that may be used only where each of its conditions comes out as some text.
structure Passage where
  template : Template
  conditions : List Template

namespace Passage

-- The references of the template, then those of the conditions.
def references (passage : Passage) : List Template.Reference :=
  passage.template.references ++ passage.conditions.flatMap Template.references

-- The conditions are read before the template, so their faults come first.
def parse (source : String) (conditions : List String) : Except Template.ParseError Passage := do
  let conditions ← conditions.mapM Template.parse
  return ⟨← Template.parse source, conditions⟩

end Passage

end StoryGrammar
