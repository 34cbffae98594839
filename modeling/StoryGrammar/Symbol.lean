import StoryGrammar.Rules
import StoryGrammar.Sampling.Sampler
import StoryGrammar.Template.Parser

namespace StoryGrammar

inductive Body where
  | written (passage : Passage)
  | generated (generator : Generator)

namespace Body

def passage? : Body → Option Passage
  | .written passage => some passage
  | .generated _ => none

def conditions : Body → List Template
  | .written passage => passage.conditions
  | .generated _ => []

-- The template to use for a draw. Generated text is read when it is needed, so it may turn out
-- to be none.
def template (body : Body) (calls : CallCounts) :
    Except Template.ParseError Template × CallCounts :=
  match body with
  | .written passage => (.ok passage.template, calls)
  | .generated generator =>
    let (text, calls) := generator.next calls
    (Template.parse text, calls)

end Body

-- One of the texts that a symbol may stand for.
structure Candidate where
  body : Body
  weight : UInt32

namespace Candidate

-- The text as written, unless it is generated.
def text? (candidate : Candidate) : Option String :=
  candidate.body.passage?.map (·.template.source)

def references (candidate : Candidate) : List Template.Reference :=
  candidate.body.passage?.elim [] Passage.references

def conditions (candidate : Candidate) : List Template := candidate.body.conditions

def display (candidate : Candidate) : String :=
  let body := match candidate.body with
    | .written passage => s!"Template({Text.quote passage.template.source})"
    | .generated _ => "Generated"
  s!"Candidate \x7b body: {body}, weight: {candidate.weight.toNat} \x7d"

end Candidate

-- A named source of text. Once drawn or assigned, its value stays until it is asked to draw
-- again.
structure Symbol where
  candidates : List Candidate
  -- What the draws go by: the weight of each candidate, in the same order.
  weights : List UInt32
  sampler : Sampler
  value : Option String := none

namespace Symbol

def candidateOf (keepWeight : Bool) (rule : Rule) : Except GrammarError Candidate := do
  let passage ← (Passage.parse rule.text rule.conditions).mapError .template
  return ⟨.written passage, if keepWeight then rule.weight else 1⟩

-- A symbol from which nothing has been drawn yet.
def ofCandidates (candidates : List Candidate) (distribution : Distribution) : Symbol :=
  ⟨candidates, candidates.map Candidate.weight, ⟨distribution, none, none⟩, none⟩

-- Weights are kept only where the distribution looks at them.
def ofRules (set : RuleSet) : Except GrammarError Symbol :=
  match set.source with
  | .rules [] => .error .emptyRules
  | .rules rules => do
    let candidates ← rules.mapM (candidateOf set.distribution.usesWeights)
    return ofCandidates candidates set.distribution
  | .generator generator =>
    return ofCandidates [⟨.generated generator, 1⟩] set.distribution

-- A symbol that holds a value from outside. Drawn again, it yields the same value.
def fixed (value : String) : Symbol :=
  ⟨[⟨.written ⟨Template.verbatim value, []⟩, 1⟩], [1], ⟨.uniform, none, none⟩, some value⟩

def distribution (symbol : Symbol) : Distribution := symbol.sampler.policy

def remaining (symbol : Symbol) : Option Nat := symbol.sampler.remaining

def setValue (symbol : Symbol) (value : String) : Symbol := { symbol with value := some value }

-- Returns the candidates to the deck. The value stays.
def reset (symbol : Symbol) : Symbol := { symbol with sampler := symbol.sampler.reset }

def hasConditions (symbol : Symbol) : Bool := symbol.candidates.any (!·.conditions.isEmpty)

def draw {σ : Type} [RandomSource σ] (symbol : Symbol) (mask : Option (List Bool)) :
    Roll σ (Option Nat × Symbol) := do
  let (index, sampler) ← symbol.sampler.draw symbol.weights mask
  return (index, { symbol with sampler })

def displayOption {α : Type} (display : α → String) : Option α → String
  | none => "None"
  | some a => s!"Some({display a})"

def display (symbol : Symbol) : String :=
  let candidates := Text.bracketed (symbol.candidates.map Candidate.display)
  let weights := Text.bracketed (symbol.weights.map fun weight => toString weight.toNat)
  let deck := displayOption (fun deck => Text.bracketed (deck.map toString)) symbol.sampler.deck
  let last := displayOption toString symbol.sampler.last
  s!"Symbol \x7b candidates: {candidates}, weights: {weights}, sampler: Sampler \x7b " ++
    s!"policy: {symbol.distribution.label}, deck: {deck}, last: {last} \x7d, value: " ++
    displayOption Text.quote symbol.value ++ " \x7d"

end Symbol

end StoryGrammar
