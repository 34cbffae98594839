import Std.Data.TreeMap
import StoryGrammar.Modifier
import StoryGrammar.Symbol

namespace StoryGrammar

-- Something that an expansion makes known about itself.
inductive Event where
  | alternation (options chosen : Nat)
  | symbol (name value : String) (cached : Bool)
  | undefinedSymbol (name : String)
  | modifier (name input output : String)
  | undefinedModifier (name : String)
  | condition (subject test : String) (holds : Bool)
  | exhausted (name : String)
deriving DecidableEq, Repr

-- An entry of the journal. Apart from the events it tells when a symbol starts to be drawn,
-- with the symbols around it, the outermost first, and what a draw was offered and what it gave.
inductive Step where
  | event (event : Event)
  | opened (chain : List String)
  | drawn (name : String) (mask : Option (List Bool)) (index : Option Nat)
deriving DecidableEq, Repr

namespace Step

def event? : Step → Option Event
  | .event shown => some shown
  | _ => none

end Step

-- The symbols of a grammar by name.
abbrev SymbolTable := Std.TreeMap String Symbol

-- All that an expansion may change.
structure World (σ : Type) where
  symbols : SymbolTable
  dice : Dice σ
  calls : CallCounts := ∅
  journal : Array Step := #[]

-- An expansion that fails keeps what it has changed until then.
abbrev Expansion (σ : Type) := ExceptT GrammarError (StateM (World σ))

namespace Expansion

variable {σ : Type}

def note (step : Step) : Expansion σ Unit :=
  modify fun world => { world with journal := world.journal.push step }

def record (event : Event) : Expansion σ Unit := note (.event event)

def symbol? (name : String) : Expansion σ (Option Symbol) := do return (← get).symbols[name]?

def put (name : String) (symbol : Symbol) : Expansion σ Unit :=
  modify fun world => { world with symbols := world.symbols.insert name symbol }

-- Gives a symbol its value.
def hold (name value : String) : Expansion σ Unit := do
  match ← symbol? name with
  | some symbol => put name (symbol.setValue value)
  | none => return

def roll {α : Type} (question : Roll σ α) : Expansion σ α :=
  modifyGet fun world =>
    let (answer, dice) := question.run world.dice
    (answer, { world with dice })

open Template (Node Reference Call)

section

variable [RandomSource σ]

-- Picks an option for each alternation that stands directly in the sequence, from left to right.
-- This comes before anything in the sequence is looked up.
def choose : List Node → Expansion σ (List Nat)
  | [] => return []
  | .alternation options :: rest => do
    let chosen ← roll (Roll.uniform options.length)
    record (.alternation options.length chosen)
    return chosen :: (← choose rest)
  | _ :: rest => choose rest

-- `lookUp` gives the text of a symbol.
variable (modifiers : Modifiers) (lookUp : String → Expansion σ String)

mutual

-- The text of a sequence whose alternations have been settled: the choices belong to them in
-- order. A sequence inside another one makes its choices when its turn comes.
def renderNodes : List Node → List Nat → Expansion σ String
  | [], _ => return ""
  | .literal text :: rest, choices => return text ++ (← renderNodes rest choices)
  | .alternation options :: rest, choices => do
    let text ← renderOption options (choices.headD 0)
    return text ++ (← renderNodes rest choices.tail)
  | .reference target :: rest, choices => do
    let text ← renderReference target
    return text ++ (← renderNodes rest choices)
  | .conditional ⟨comparison, subject, test, whenTrue, whenFalse⟩ :: rest, choices => do
    let left ← renderReference subject
    let right ← renderNodes test (← choose test)
    record (.condition left right (comparison.holds left right))
    let text ←
      if comparison.holds left right then (do renderNodes whenTrue (← choose whenTrue))
      else (do renderNodes whenFalse (← choose whenFalse))
    return text ++ (← renderNodes rest choices)

-- The text of one of the options; nothing for an option that does not exist.
def renderOption : List (List Node) → Nat → Expansion σ String
  | [], _ => return ""
  | nodes :: _, 0 => do renderNodes nodes (← choose nodes)
  | _ :: rest, index + 1 => renderOption rest index

def renderReference : Reference → Expansion σ String
  | ⟨name, calls⟩ => do applyCalls calls (← lookUp name)

-- An unknown modifier leaves the value as it is.
def applyCalls : List Call → String → Expansion σ String
  | [], value => return value
  | ⟨name, arguments⟩ :: rest, value => do
    let texts ← renderEach arguments
    match modifiers.result? name value texts with
    | some output => do
      record (.modifier name value output)
      applyCalls rest output
    | none => do
      record (.undefinedModifier name)
      applyCalls rest value

def renderEach : List (List Node) → Expansion σ (List String)
  | [] => return []
  | nodes :: rest => do
    let text ← renderNodes nodes (← choose nodes)
    return text :: (← renderEach rest)

end

-- The text of a template.
def render (nodes : List Node) : Expansion σ String := do
  renderNodes modifiers lookUp nodes (← choose nodes)

-- Whether each condition comes out as some text. The first that does not settles it.
def admits : List Template → Expansion σ Bool
  | [] => return true
  | condition :: rest => do
    if (← render modifiers lookUp condition.nodes).isEmpty then return false
    else admits rest

end

variable [RandomSource σ]

section

variable (modifiers : Modifiers) (lookUp : String → Expansion σ String)

-- The candidates whose conditions hold, each tried in turn. No mask if there are no conditions.
def eligibility (symbol : Symbol) : Expansion σ (Option (List Bool)) :=
  if symbol.hasConditions then
    some <$> symbol.candidates.mapM fun candidate => admits modifiers lookUp candidate.conditions
  else return none

-- Takes a candidate out of a symbol.
def drawCandidate (name : String) (mask : Option (List Bool)) : Expansion σ (Option Candidate) := do
  match ← symbol? name with
  | none => return none
  | some symbol =>
    let (index, drawn) ← roll (symbol.draw mask)
    put name drawn
    note (.drawn name mask index)
    return index.bind (symbol.candidates[·]?)

-- The template of a candidate, if it turns out to be one.
def templateOf (body : Body) : Expansion σ Template := do
  let template ← modifyGet fun world =>
    let (template, calls) := body.template world.calls
    (template, { world with calls })
  match template with
  | .ok template => return template
  | .error cause => throw (.template cause)

-- Draws a new text for a symbol. There is none when nothing can be drawn.
def drawText (name : String) : Expansion σ String := do
  match ← symbol? name with
  | none => return ""
  | some symbol =>
    match ← drawCandidate name (← eligibility modifiers lookUp symbol) with
    | some candidate => do render modifiers lookUp (← templateOf candidate.body).nodes
    | none => do
      record (.exhausted name)
      return ""

end

variable (modifiers : Modifiers) (limit : Nat)

-- The text of a symbol: the value it holds, unless it is forced to draw anew. `active` lists the
-- symbols that are being drawn around it, the outermost first, and `budget` says how many more
-- may be drawn inside them; together they make up the limit. A symbol whose text depends on
-- itself has no text.
def lookUp : (budget : Nat) → (active : List String) → (force : Bool) → String →
    Expansion σ String
  | budget, active, force, name => do
    match ← symbol? name with
    | none => do
      record (.undefinedSymbol name)
      return ""
    | some symbol =>
      match if force then none else symbol.value with
      | some value => do
        record (.symbol name value true)
        return value
      | none =>
        if name ∈ active then throw (.recursion name (active ++ [name]))
        else
          match budget with
          | 0 => throw (.depthExceeded name limit)
          | budget + 1 => do
            note (.opened (active ++ [name]))
            let value ← drawText modifiers (lookUp budget (active ++ [name]) false) name
            hold name value
            record (.symbol name value false)
            return value

end Expansion

end StoryGrammar
