import StoryGrammar.Notation.Reader
import StoryGrammar.Notation.Ron.Value

namespace StoryGrammar.Ron

open Reader

-- The number of levels that a text may nest.
def levels : Nat := 128

def extensions : List String := ["unwrap_newtypes", "implicit_some", "unwrap_variant_newtypes"]

def expectAll : List String → Reader Unit
  | [] => return
  | word :: rest => do
    expect word
    gap
    expectAll rest

def extensionNames : (limit : Nat) → Reader (List String)
  | 0 => failure
  | limit + 1 => do
    let name ← identifier
    if !extensions.contains name then failure
    if ← comma then
      if (← peek?).any isIdentRest then return name :: (← extensionNames limit)
    return [name]

-- The attributes in front of a text, each with the names of some extensions.
def attributes : (limit : Nat) → Reader (List String)
  | 0 => failure
  | limit + 1 => do
    if (← peek?) == some '#' then
      expectAll ["#", "!", "[", "enable", "("]
      let names ← extensionNames ((← get).length + 1)
      gap
      expectAll [")", "]"]
      return names ++ (← attributes limit)
    else return []

def texts : Reader (List String) := enclosed "[" ']' string

section

variable (bare : Bool)

-- A rule stands four levels deeper than the list that holds it: the list, its item, the rule
-- and the field.
def ruleField (room : Nat) : String → Reader RuleField
  | "text" => .text <$> string
  | "weight" => do return .weight (UInt32.ofNat (← natural (UInt32.size - 1)))
  | "conditions" => .conditions <$> texts
  | _ => do
    passValue bare room
    return .other

-- The word `Rule` may stand before the fields, and no other.
def rule (room : Nat) : Reader Rule := do
  if (← peek?).any isIdentRest then
    if (← identifier) ≠ "Rule" then failure
    gap
  Rule.ofFields? (← enclosed "(" ')' (field (ruleField bare room)))

def ruleSetField (room : Nat) : String → Reader RuleSetField
  | "rules" => .rules <$> enclosed "[" ']' (rule bare (room - 4))
  | "distribution" => do return .distribution (← Distribution.ofName? (← identifier))
  | _ => do
    passValue bare room
    return .other

-- A single value in parentheses, where a comma may follow.
def wrapped {α : Type} (value : Reader α) : Reader α := do
  expect "("
  gap
  let a ← value
  discard comma
  expect ")"
  return a

-- A symbol in one of its three forms. A field stands three levels deeper than the symbol: the
-- form, its parentheses and the field.
def ruleSet (room : Nat) : Reader RuleSet := do
  let form ← identifier
  gap
  match form with
  | "Text" => RuleSet.ofText <$> wrapped string
  | "List" => RuleSet.ofTexts <$> wrapped texts
  | "Rules" => RuleSet.ofFields? (← enclosed "(" ')' (field (ruleSetField bare (room - 3))))
  | _ => failure

def entry (room : Nat) : Reader (String × RuleSet) := do
  let name ← string
  gap
  expect ":"
  gap
  return (name, ← ruleSet bare room)

end

def definitions : Reader Definitions := do
  gap
  let enabled ← attributes ((← get).length + 1)
  let entries ← enclosed "\x7b" '\x7d' (entry (enabled.contains "implicit_some") (levels - 2))
  gap
  return Std.TreeMap.ofList entries

-- The symbols that a text defines, unless it is malformed.
def definitions? (text : String) : Option Definitions := readAll? definitions text

end StoryGrammar.Ron
