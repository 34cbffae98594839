import StoryGrammar.Notation.Ron.Lexical

namespace StoryGrammar.Ron

open Reader

def isFloatChar (c : Char) : Bool :=
  c.isDigit || c == 'e' || c == 'E' || c == '.' || c == '+' || c == '-' || c == '_'

-- Whether characters spell a number with an optional sign, fraction and exponent. One side of
-- the point may be empty.
def isDecimal (chars : List Char) : Bool :=
  let unsigned := match chars with
    | '+' :: rest | '-' :: rest => rest
    | _ => chars
  let whole := unsigned.takeWhile Char.isDigit
  let (fraction, rest) := match unsigned.dropWhile Char.isDigit with
    | '.' :: rest => (rest.takeWhile Char.isDigit, rest.dropWhile Char.isDigit)
    | rest => ([], rest)
  !(whole.isEmpty && fraction.isEmpty) && match rest with
    | [] => true
    | mark :: exponent =>
      let digits := match exponent with
        | '+' :: rest | '-' :: rest => rest
        | _ => exponent
      (mark == 'e' || mark == 'E') && !digits.isEmpty && digits.all Char.isDigit

-- What a number without digits may be called.
def decimalWords : List String := ["inf", "+inf", "-inf", "NaN", "+NaN", "-NaN"]

def passDecimal : Reader Unit := do
  if ← decimalWords.anyM acceptWord then return
  if isDecimal (← takeWhile isFloatChar) then return else failure

def passInteger : Reader Unit := do
  if ← accept "+" then discard (natural (UInt64.size / 2 - 1))
  else if ← accept "-" then discard (natural (UInt64.size / 2))
  else discard (natural (UInt64.size - 1))

-- A number of any kind. What does not fit into 64 bits counts as a decimal.
def passNumber : Reader Unit := do
  let unsigned := match ← get with
    | '+' :: rest | '-' :: rest => rest
    | chars => chars
  if (unsigned.takeWhile isFloatChar).length > (unsigned.takeWhile isIntegerChar).length then
    passDecimal
  else if (← optional passInteger).isSome then return
  else passDecimal

-- A field with its name; what follows the colon is read according to the name.
def field {α : Type} (value : String → Reader α) : Reader α := do
  let name ← identifier
  gap
  expect ":"
  gap
  value name

-- What stands in parentheses starts with the name of a field, or it is a plain sequence.
def startsWithField : Reader Bool := do
  expect "("
  gap
  if (← optional identifier).isNone then return false
  gap
  match ← peek? with
  | some c => return c == ':'
  | none => failure

def passParentheses (inner : Reader Unit) : Reader Unit := do
  if ← (fun chars => (startsWithField chars).map fun (found, _) => (found, chars)) then
    discard (enclosed "(" ')' (field fun _ => inner))
  else discard (enclosed "(" ')' inner)

-- Parts that stand in brackets of some kind. No reader for them means that no brackets may be
-- opened any more.
def passBracketed (inner : Option (Reader Unit)) (pass : Reader Unit → Reader Unit) :
    Reader Unit :=
  match inner with
  | some inner => pass inner
  | none => failure

-- A value of any form. `inner` reads what stands in brackets, `wrapped` what stands in an
-- option, which may go without its own brackets if `bare` is set.
def passOne (bare : Bool) (inner wrapped : Option (Reader Unit)) : Reader Unit := do
  if ← acceptWord "true" then return
  if ← acceptWord "false" then return
  if ← atWord "Some" then
    let opened ← optional (do
      expect "Some"
      gap
      expect "(")
    if opened.isSome then
      gap
      passBracketed wrapped id
      discard comma
      expect ")"
    else if bare then
      expect "Some"
      gap
      passBracketed wrapped id
    else failure
    return
  if ← ["None", "inf", "-inf", "NaN"].anyM acceptWord then return
  if ← accept "()" then return
  if (← optional identifier).isSome then
    gap
    if (← peek?) == some '(' then passBracketed inner passParentheses
    return
  match ← peek? with
  | none => failure
  | some '(' => passBracketed inner passParentheses
  | some '[' => passBracketed inner fun inner => discard (enclosed "[" ']' inner)
  | some '\x7b' =>
    passBracketed inner fun inner =>
      discard (enclosed "\x7b" '\x7d' (do
        inner
        gap
        expect ":"
        gap
        inner))
  | some '\'' => char
  | some c =>
    if c.isDigit || c == '+' || c == '-' then passNumber
    else if c == '.' then passDecimal
    else if c == '"' || c == 'r' then discard string
    else failure

-- Passes over a value that nobody asks for. Brackets use up two levels of the room, one for
-- themselves and one for what stands in them; an option uses up one.
def passValue (bare : Bool) : (room : Nat) → Reader Unit
  | 0 => passOne bare none none
  | 1 => passOne bare (some failure) (some (passValue bare 0))
  | room + 2 => passOne bare (some (passValue bare room)) (some (passValue bare (room + 1)))

end StoryGrammar.Ron
