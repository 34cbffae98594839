import Std.Data.TreeMap
import StoryGrammar.Error
import StoryGrammar.Sampling.Distribution
import StoryGrammar.Text.Quoted

namespace StoryGrammar

-- One rule of a symbol, as written: the text of a template, its weight, and the conditions under
-- which it may be used.
structure Rule where
  text : String
  weight : UInt32 := 1
  conditions : List String := []
deriving DecidableEq, Repr

-- A rule whose text is made up anew whenever it is drawn. Generators are told apart by their
-- numbers; the text may depend on how often the generator has been called before.
structure Generator where
  id : Nat
  text : Nat → String

-- How often each generator has been called.
abbrev CallCounts := Std.TreeMap Nat Nat

-- The next text of a generator.
def Generator.next (generator : Generator) (calls : CallCounts) : String × CallCounts :=
  let count := calls.getD generator.id 0
  (generator.text count, calls.insert generator.id (count + 1))

inductive RuleSource where
  | rules (rules : List Rule)
  | generator (generator : Generator)

-- What a symbol is made from.
structure RuleSet where
  source : RuleSource
  distribution : Distribution := .uniform

-- Symbols by name. Of two that share a name the later one counts.
abbrev Definitions := Std.TreeMap String RuleSet

namespace RuleSet

def ofRules (rules : List Rule) : RuleSet := ⟨.rules rules, .uniform⟩

def ofText (text : String) : RuleSet := ofRules [{ text }]

def ofTexts (texts : List String) : RuleSet := ofRules (texts.map fun text => { text })

end RuleSet

namespace Rule

def display (rule : Rule) : String :=
  s!"Rule \x7b text: {Text.quote rule.text}, weight: {rule.weight.toNat}, conditions: " ++
    Text.bracketed (rule.conditions.map Text.quote) ++ " \x7d"

end Rule

namespace RuleSet

def display (set : RuleSet) : String :=
  let rules := match set.source with
    | .rules rules => Text.bracketed (rules.map Rule.display)
    | .generator _ => Text.quote "<generator>"
  s!"RuleSet \x7b rules: {rules}, distribution: {set.distribution.label} \x7d"

end RuleSet

end StoryGrammar
