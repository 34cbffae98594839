import StoryGrammar.Expansion

namespace StoryGrammar

-- Symbols that refer to each other, with all that their templates need to come out as text.
structure Grammar (σ : Type) where
  symbols : SymbolTable
  modifiers : Modifiers
  source : σ
  calls : CallCounts := ∅
  origin : String
  output : String := ""
  maxDepth : Nat

-- What an operation on a grammar gives, and the grammar afterwards. A failed operation may have
-- drawn values and cards before it failed.
structure Outcome (σ : Type) (α : Type) where
  result : Except GrammarError α
  grammar : Grammar σ
  requests : Array Request := #[]
  journal : Array Step := #[]

namespace Outcome

def events {σ α : Type} (outcome : Outcome σ α) : List Event :=
  outcome.journal.toList.filterMap Step.event?

end Outcome

namespace Grammar

variable {σ : Type}

def symbol? (grammar : Grammar σ) (name : String) : Option Symbol := grammar.symbols[name]?

def contains (grammar : Grammar σ) (name : String) : Bool := grammar.symbols.contains name

-- All names, in the order of their characters.
def symbolNames (grammar : Grammar σ) : List String := grammar.symbols.keys

def put (grammar : Grammar σ) (name : String) (symbol : Symbol) : Grammar σ :=
  { grammar with symbols := grammar.symbols.insert name symbol }

-- Replaces what a symbol is made from. Its value and its deck are gone.
def set (grammar : Grammar σ) (name : String) (rules : RuleSet) :
    Except GrammarError (Grammar σ) :=
  match Symbol.ofRules rules with
  | .ok symbol => .ok (grammar.put name symbol)
  | .error cause => .error (.inSymbol name cause)

-- Assigns a value. A name that is new becomes a symbol that holds nothing else.
def setValue (grammar : Grammar σ) (name value : String) : Grammar σ :=
  match grammar.symbol? name with
  | some symbol => grammar.put name (symbol.setValue value)
  | none => grammar.put name (Symbol.fixed value)

-- Assigns a value, if the symbol exists.
def setValue? (grammar : Grammar σ) (name value : String) : Option (Grammar σ) :=
  (grammar.symbol? name).map fun symbol => grammar.put name (symbol.setValue value)

-- Returns the candidates of a symbol to its deck, if the symbol exists.
def reset? (grammar : Grammar σ) (name : String) : Option (Grammar σ) :=
  (grammar.symbol? name).map fun symbol => grammar.put name symbol.reset

def registerModifier (grammar : Grammar σ) (name : String) (modifier : Modifier) : Grammar σ :=
  { grammar with modifiers := grammar.modifiers.register name modifier }

def display (grammar : Grammar σ) : String :=
  let symbols := Text.bracketed (grammar.symbolNames.map Text.quote)
  s!"Grammar \x7b symbols: {symbols}, modifiers: {grammar.modifiers.display}, " ++
    s!"origin: {Text.quote grammar.origin}, output: {Text.quote grammar.output}, " ++
    s!"max_depth: {grammar.maxDepth}, .. \x7d"

-- Carries out an expansion on the symbols, the source and the generators of a grammar.
def run {α : Type} (grammar : Grammar σ) (expansion : Expansion σ α) : Outcome σ α :=
  let (result, world) := expansion.run.run
    ⟨grammar.symbols, ⟨grammar.source, #[]⟩, grammar.calls, #[]⟩
  ⟨result,
    { grammar with symbols := world.symbols, source := world.dice.source, calls := world.calls },
    world.dice.requests, world.journal⟩

variable [RandomSource σ]

-- The text of a symbol when nothing is being drawn yet.
def lookUp (grammar : Grammar σ) (force : Bool) (name : String) : Expansion σ String :=
  Expansion.lookUp grammar.modifiers grammar.maxDepth grammar.maxDepth [] force name

-- Reads a symbol, drawing it if it has no value. With `force` it is drawn in any case.
def resolve (grammar : Grammar σ) (name : String) (force : Bool) : Outcome σ String :=
  if grammar.contains name then grammar.run (grammar.lookUp force name)
  else { result := .error (.symbolNotFound name), grammar }

def get (grammar : Grammar σ) (name : String) : Outcome σ String := grammar.resolve name false

-- Like `resolve`, and keeps the text as the output of the grammar.
def expandSymbol (grammar : Grammar σ) (name : String) (force : Bool) : Outcome σ String :=
  let outcome := grammar.resolve name force
  match outcome.result with
  | .ok output => { outcome with grammar := { outcome.grammar with output } }
  | .error _ => outcome

def expand (grammar : Grammar σ) : Outcome σ String := grammar.expandSymbol grammar.origin false

def render (grammar : Grammar σ) (template : Template) : Outcome σ String :=
  grammar.run (Expansion.render grammar.modifiers (grammar.lookUp false) template.nodes)

-- Whether a passage may be used at present.
def admits (grammar : Grammar σ) (passage : Passage) : Outcome σ Bool :=
  grammar.run (Expansion.admits grammar.modifiers (grammar.lookUp false) passage.conditions)

-- The text of a template that is no rule of the grammar.
def evaluate (grammar : Grammar σ) (text : String) : Outcome σ String :=
  match Template.parse text with
  | .ok template => grammar.render template
  | .error cause => { result := .error (.template cause), grammar }

end Grammar

end StoryGrammar
