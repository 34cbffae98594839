import Std.Data.TreeMap
import StoryGrammar.Text.Case
import StoryGrammar.Text.Quoted

namespace StoryGrammar

-- Changes a text, given the texts of its arguments.
abbrev Modifier := String → List String → String

-- The modifiers that templates may call by name.
structure Modifiers where
  byName : Std.TreeMap String Modifier

namespace Modifiers

def empty : Modifiers := ⟨∅⟩

-- A name that is taken gets the new meaning.
def register (modifiers : Modifiers) (name : String) (modifier : Modifier) : Modifiers :=
  ⟨modifiers.byName.insert name modifier⟩

def ofList (entries : List (String × Modifier)) : Modifiers :=
  entries.foldl (fun modifiers (name, modifier) => modifiers.register name modifier) empty

def get? (modifiers : Modifiers) (name : String) : Option Modifier := modifiers.byName[name]?

def contains (modifiers : Modifiers) (name : String) : Bool := modifiers.byName.contains name

-- All names, in the order of their characters.
def names (modifiers : Modifiers) : List String := modifiers.byName.keys

-- Nothing if there is no such modifier.
def result? (modifiers : Modifiers) (name value : String) (arguments : List String) :
    Option String :=
  (modifiers.get? name).map fun modifier => modifier value arguments

def display (modifiers : Modifiers) : String :=
  "ModifierRegistry \x7b modifiers: " ++ Text.bracketed (modifiers.names.map Text.quote) ++
    " \x7d"

theorem get?_register_self (modifiers : Modifiers) (name : String) (modifier : Modifier) :
    (modifiers.register name modifier).get? name = some modifier := by
  simp [get?, register]

theorem get?_register_of_ne (modifiers : Modifiers) {name other : String} (modifier : Modifier)
    (h : name ≠ other) : (modifiers.register name modifier).get? other = modifiers.get? other := by
  simp [get?, register, Std.TreeMap.getElem?_insert, h]

theorem contains_eq_isSome_get? (modifiers : Modifiers) (name : String) :
    modifiers.contains name = (modifiers.get? name).isSome := by
  simp [contains, get?]

end Modifiers

namespace English

def isVowel (c : Char) : Bool := ['a', 'e', 'i', 'o', 'u'].contains c.toLower

-- A final y behind a consonant gives way to an ending of its own.
def endsInSoftY (word : String) : Bool :=
  match word.toList.reverse with
  | 'y' :: before :: _ => !isVowel before
  | _ => false

def withoutLast (word : String) : String := String.ofList word.toList.dropLast

def endsIn (finals : List Char) (word : String) : Bool :=
  word.toList.getLast?.any (finals.contains ·)

def plural (word : String) : String :=
  if word.isEmpty then ""
  else if endsIn ['s', 'h', 'x'] word then word ++ "es"
  else if endsInSoftY word then withoutLast word ++ "ies"
  else word ++ "s"

def past (word : String) : String :=
  if word.isEmpty then ""
  else if endsIn ['e'] word then word ++ "d"
  else if endsInSoftY word then withoutLast word ++ "ied"
  else word ++ "ed"

def withArticle (word : String) : String :=
  match word.toList with
  | [] => ""
  | first :: _ => (if isVowel first then "an " else "a ") ++ word

-- Words are what stands between single spaces.
def capitalizeAll (text : String) : String :=
  " ".intercalate ((text.splitOn " ").map Text.capitalize)

def join (value : String) (arguments : List String) : String := value ++ String.join arguments

end English

namespace Modifiers

-- The modifiers for English text. Only `join` looks at its arguments.
def english : Modifiers :=
  ofList [
    ("uppercase", fun value _ => Text.upper value),
    ("lowercase", fun value _ => Text.lower value),
    ("capitalize", fun value _ => Text.capitalize value),
    ("capitalize_all", fun value _ => English.capitalizeAll value),
    ("s", fun value _ => English.plural value),
    ("a", fun value _ => English.withArticle value),
    ("ed", fun value _ => English.past value),
    ("join", English.join)]

end Modifiers

end StoryGrammar
