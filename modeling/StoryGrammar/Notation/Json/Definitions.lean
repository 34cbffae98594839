import StoryGrammar.Notation.Json.Value
import StoryGrammar.Notation.Reader

namespace StoryGrammar.Json

def Value.string? : Value → Option String
  | .string s => some s
  | _ => none

def Value.array? : Value → Option (List Value)
  | .array items => some items
  | _ => none

def Value.weight? : Value → Option UInt32
  | .number n =>
    n.natural?.bind fun weight => if weight < UInt32.size then some (UInt32.ofNat weight) else none
  | _ => none

def Value.strings? (value : Value) : Option (List String) := do
  (← value.array?).mapM Value.string?

-- The name of a distribution, or an object with nothing but the name and a null.
def distribution? : Value → Option Distribution
  | .string name | .object [(name, .null)] => Distribution.ofName? name
  | _ => none

def ruleField? : String × Value → Option RuleField
  | ("text", value) => .text <$> value.string?
  | ("weight", value) => .weight <$> value.weight?
  | ("conditions", value) => .conditions <$> value.strings?
  | _ => some .other

-- A rule is its text, an object, or an array of its fields in order, where the last ones may be
-- left out.
def rule? : Value → Option Rule
  | .string text => some { text }
  | .object members => do Rule.ofFields? (← members.mapM ruleField?)
  | .array [text] => do return { text := ← text.string? }
  | .array [text, weight] => do return ⟨← text.string?, ← weight.weight?, []⟩
  | .array [text, weight, conditions] => do
    return ⟨← text.string?, ← weight.weight?, ← conditions.strings?⟩
  | _ => none

def rules? (value : Value) : Option (List Rule) := do (← value.array?).mapM rule?

def ruleSetField? : String × Value → Option RuleSetField
  | ("rules", value) => .rules <$> rules? value
  | ("distribution", value) => .distribution <$> distribution? value
  | _ => some .other

-- A symbol is one template, a list of rules, or an object that also names the distribution.
def ruleSet? : Value → Option RuleSet
  | .string text => some (RuleSet.ofText text)
  | .object members => do RuleSet.ofFields? (← members.mapM ruleSetField?)
  | value => RuleSet.ofRules <$> rules? value

-- The symbols that a text defines, unless it is malformed.
def definitions? (text : String) : Option Definitions := do
  match ← value? text with
  | .object members =>
    return Std.TreeMap.ofList (← members.mapM fun (name, value) =>
      (ruleSet? value).map fun rules => (name, rules))
  | _ => none

end StoryGrammar.Json
