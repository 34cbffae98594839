import StoryGrammar.Grammar.Blueprint
import StoryGrammar.Notation.Json.Definitions
import StoryGrammar.Random.Seeded

namespace StoryGrammar.Demo

-- A night at the Gilded Goose. `origin` tells of an arrival and `rumour` is a pool of gossip that
-- runs dry; `bouncer` waits for `mood` to be set.
def tavern : List (String × RuleSet) := [
  ("origin", .ofText "#greeting.capitalize#, #traveler#! #keeper# #offer#"),
  ("greeting", .ofTexts ["howdy", "well met", "good evening", "ho there"]),
  ("traveler", .ofTexts ["stranger", "friend", "wanderer", "pilgrim"]),
  ("keeper", ⟨.rules [
    { text := "The keeper nods.", weight := 3 },
    { text := "The keeper [wipes a mug|polishes the bar] and grins." },
    { text := "#keeper_name# looks up from the ledger.", weight := 2 }], .weighted⟩),
  ("keeper_name", .ofTexts ["Old Brannoc", "Mother Hild", "Tamsin"]),
  ("offer", .ofText "Care for #drink.a#?"),
  ("drink", ⟨.rules [
    { text := "ale" },
    { text := "cider" },
    { text := "mead" },
    { text := "elderberry wine" }], .shuffle⟩),
  ("rumour", ⟨.rules [
    { text := "the mill burned down", weight := 2 },
    { text := "a dragon was seen at dusk" },
    { text := "the baron's #heir# has gone missing" }], .popWeighted⟩),
  ("heir", .ofTexts ["son", "daughter", "ward"]),
  ("gossip", .ofText "They say #rumour#."),
  ("bouncer", ⟨.rules [
    { text := "Out!", conditions := ["#?mood=rowdy?yes#"] },
    { text := "Mind your manners.", conditions := ["#!mood=calm?yes#"] },
    { text := "Welcome." }], .uniform⟩),
  ("mood", .ofText "calm")]

end StoryGrammar.Demo

namespace StoryGrammar

-- A grammar to play with, which speaks JSON to the outside.
structure Demo where
  grammar : Grammar Seeded

-- What went wrong, by what was asked for.
inductive DemoError where
  | malformedDefinitions
  | build (cause : GrammarError)
  | expansion (cause : GrammarError)
  | evaluation (cause : GrammarError)
  | rules (cause : GrammarError)
deriving DecidableEq, Repr

def DemoError.message : DemoError → String
  | malformedDefinitions => "Invalid grammar JSON"
  | build cause => s!"Grammar build error: {cause.message}"
  | expansion cause => s!"Expansion error: {cause.message}"
  | evaluation cause => s!"Evaluation error: {cause.message}"
  | rules cause => s!"Invalid rules: {cause.message}"

namespace Demo

def ofDefinitions (symbols : List (String × RuleSet)) (seed : UInt64) : Except DemoError Demo :=
  match ({ symbols : Blueprint }).build (Seeded.ofSeed seed) with
  | .ok grammar => .ok ⟨grammar⟩
  | .error cause => .error (.build cause)

def ofJson (text : String) (seed : UInt64) : Except DemoError Demo :=
  match Json.definitions? text with
  | some definitions => ofDefinitions definitions.toList seed
  | none => .error .malformedDefinitions

def ofTavern (seed : UInt64) : Except DemoError Demo := ofDefinitions tavern seed

def expand (demo : Demo) (name : String) (force : Bool) : Except DemoError String × Demo :=
  let outcome := demo.grammar.expandSymbol name force
  (outcome.result.mapError .expansion, ⟨outcome.grammar⟩)

-- The texts of so many forced expansions. The first one that fails ends the series.
def series (name : String) : Nat → Demo → Except DemoError (List String) × Demo
  | 0, demo => (.ok [], demo)
  | count + 1, demo =>
    match demo.expand name true with
    | (.error cause, demo) => (.error cause, demo)
    | (.ok text, demo) =>
      let (texts, demo) := series name count demo
      (texts.map (text :: ·), demo)

def expandMany (demo : Demo) (name : String) (count : Nat) : Except DemoError String × Demo :=
  let (texts, demo) := series name count demo
  (texts.map fun texts => Json.showArray (texts.map Json.showString), demo)

def evaluate (demo : Demo) (text : String) : Except DemoError String × Demo :=
  let outcome := demo.grammar.evaluate text
  (outcome.result.mapError .evaluation, ⟨outcome.grammar⟩)

-- Replaces the rules of a symbol by one template.
def set (demo : Demo) (name text : String) : Except DemoError Demo :=
  match demo.grammar.set name (RuleSet.ofText text) with
  | .ok grammar => .ok ⟨grammar⟩
  | .error cause => .error (.rules cause)

def setValue (demo : Demo) (name value : String) : Demo := ⟨demo.grammar.setValue name value⟩

def reset? (demo : Demo) (name : String) : Option Demo := (demo.grammar.reset? name).map Demo.mk

def output (demo : Demo) : String := demo.grammar.output

def describe (name : String) (symbol : Symbol) : String :=
  Json.showObject [
    ("name", Json.showString name),
    ("candidates", toString symbol.candidates.length),
    ("distribution", Json.showString symbol.distribution.name),
    ("value", Json.showOption Json.showString symbol.value),
    ("remaining", Json.showOption toString symbol.remaining)]

-- All symbols by name.
def symbols (demo : Demo) : String :=
  Json.showArray (demo.grammar.symbols.toList.map fun (name, symbol) => describe name symbol)

def distributions : String :=
  Json.showArray (Distribution.all.map fun distribution => Json.showString distribution.name)

end Demo

end StoryGrammar
