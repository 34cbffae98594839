import StoryGrammar.Rules

namespace StoryGrammar

-- Reads something off the front of a text, or refuses the text.
abbrev Reader := StateT (List Char) Option

namespace Reader

def peek? : Reader (Option Char) := do return (← get).head?

-- The characters in front that belong to a class.
def takeWhile (p : Char → Bool) : Reader (List Char) := fun chars =>
  some (chars.takeWhile p, chars.dropWhile p)

def dropPrefix? : List Char → List Char → Option (List Char)
  | [], chars => some chars
  | _, [] => none
  | c :: cs, d :: ds => if c = d then dropPrefix? cs ds else none

-- Whether the text starts with a given word, which is then passed.
def accept (word : String) : Reader Bool := fun chars =>
  match dropPrefix? word.toList chars with
  | some rest => some (true, rest)
  | none => some (false, chars)

def expect (word : String) : Reader Unit := fun chars =>
  (dropPrefix? word.toList chars).map ((), ·)

def ended : Reader Unit := do
  if (← get).isEmpty then return else failure

-- The whole text must be used up.
def readAll? {α : Type} (reader : Reader α) (text : String) : Option α :=
  ((do
    let a ← reader
    ended
    return a : Reader α) text.toList).map Prod.fst

end Reader

def hexDigit? (c : Char) : Option Nat :=
  if '0' ≤ c ∧ c ≤ '9' then some (c.toNat - '0'.toNat)
  else if 'a' ≤ c ∧ c ≤ 'f' then some (c.toNat - 'a'.toNat + 10)
  else if 'A' ≤ c ∧ c ≤ 'F' then some (c.toNat - 'A'.toNat + 10)
  else none

-- The number that digits stand for in a base; none if a digit does not belong to it.
def numberOfDigits? (base : Nat) (digits : List Char) : Option Nat :=
  digits.foldlM (fun number c => do
    let digit ← hexDigit? c
    if digit < base then some (base * number + digit) else none) 0

def charOfCode? (code : Nat) : Option Char :=
  if code.isValidChar then some (Char.ofNat code) else none

-- A field of a rule in a written definition. Fields without a meaning are passed over.
inductive RuleField where
  | text (text : String)
  | weight (weight : UInt32)
  | conditions (conditions : List String)
  | other

inductive RuleSetField where
  | rules (rules : List Rule)
  | distribution (distribution : Distribution)
  | other

-- The value of a field that may be left out, but not be given twice.
def atMostOne? {α β : Type} (select : α → Option β) (fields : List α) : Option (Option β) :=
  match fields.filterMap select with
  | [] => some none
  | [value] => some (some value)
  | _ => none

-- A rule needs a text.
def Rule.ofFields? (fields : List RuleField) : Option Rule := do
  let text ← ← atMostOne? (fun | .text t => some t | _ => none) fields
  let weight ← atMostOne? (fun | .weight w => some w | _ => none) fields
  let conditions ← atMostOne? (fun | .conditions cs => some cs | _ => none) fields
  return ⟨text, weight.getD 1, conditions.getD []⟩

-- A set of rules needs the rules, even if there are none.
def RuleSet.ofFields? (fields : List RuleSetField) : Option RuleSet := do
  let rules ← ← atMostOne? (fun | .rules rs => some rs | _ => none) fields
  let distribution ← atMostOne? (fun | .distribution d => some d | _ => none) fields
  return ⟨.rules rules, distribution.getD .uniform⟩

end StoryGrammar
