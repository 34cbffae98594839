import StoryGrammar.Notation.Reader

namespace StoryGrammar.Ron

open Reader

-- What a gap between two parts is in the middle of. Block comments nest; the number counts the
-- ones around the present one.
inductive Gap where
  | blank
  | line
  | block (outer : Nat)

def isSpace (c : Char) : Bool := c == ' ' || c == '\n' || c == '\t' || c == '\r'

-- Passes over blanks and comments. A slash can only start a comment.
def passGap : Gap → List Char → Option (List Char)
  | .blank, [] => some []
  | .blank, '/' :: '/' :: rest => passGap .line rest
  | .blank, '/' :: '*' :: rest => passGap (.block 0) rest
  | .blank, '/' :: _ => none
  | .blank, c :: rest => if isSpace c then passGap .blank rest else some (c :: rest)
  | .line, [] => some []
  | .line, '\n' :: rest => passGap .blank rest
  | .line, _ :: rest => passGap .line rest
  | .block _, [] => none
  | .block outer, '/' :: '*' :: rest => passGap (.block (outer + 1)) rest
  | .block 0, '*' :: '/' :: rest => passGap .blank rest
  | .block (outer + 1), '*' :: '/' :: rest => passGap (.block outer) rest
  | .block outer, _ :: rest => passGap (.block outer) rest

def gap : Reader Unit := fun chars => (passGap .blank chars).map ((), ·)

-- A comma with gaps around it, if there is one.
def comma : Reader Bool := do
  gap
  let found ← accept ","
  if found then gap
  return found

-- Items up to a closing character, which is not passed. A comma may follow the last one. Each
-- item takes at least one character, so `limit` is never reached when it exceeds the length.
def itemsUpTo {α : Type} (close : Char) (item : Reader α) : (limit : Nat) → Reader (List α)
  | 0 => failure
  | limit + 1 => do
    gap
    if (← peek?) == some close then return []
    let first ← item
    if ← comma then return first :: (← itemsUpTo close item limit)
    else if (← peek?) == some close then return [first]
    else failure

-- Items between an opening word and a closing character.
def enclosed {α : Type} (opening : String) (close : Char) (item : Reader α) :
    Reader (List α) := do
  expect opening
  let items ← itemsUpTo close item ((← get).length + 1)
  expect (String.singleton close)
  return items

def isIdentFirst (c : Char) : Bool := c.isAlpha || c == '_'

def isIdentRest (c : Char) : Bool := c.isAlphanum || c == '_'

-- What may stand in a word that is marked as raw.
def isIdentRaw (c : Char) : Bool := isIdentRest c || c == '.' || c == '+' || c == '-'

-- A word: plain, or behind `r#` with a wider choice of characters. A plain word that only a raw
-- one could continue is refused, unless it starts with an r.
def identifier : Reader String := do
  match ← get with
  | 'r' :: '#' :: c :: _ =>
    if isIdentRaw c then do
      expect "r#"
      return String.ofList (← takeWhile isIdentRaw)
    else failure
  | ['r', '#'] | ['r'] | 'r' :: '"' :: _ => failure
  | first :: rest =>
    if !isIdentFirst first then failure
    else if first ≠ 'r' ∧ (rest.dropWhile isIdentRest).head?.any isIdentRaw then failure
    else return String.ofList (← takeWhile isIdentRest)
  | [] => failure

-- Whether the text starts with exactly this word.
def atWord (word : String) : Reader Bool := fun chars =>
  match dropPrefix? word.toList chars with
  | some rest => some (!rest.head?.any isIdentRest, chars)
  | none => some (false, chars)

def acceptWord (word : String) : Reader Bool := do
  if ← atWord word then accept word else return false

def simpleEscape? : Char → Option Char
  | '\'' => some '\''
  | '"' => some '"'
  | '\\' => some '\\'
  | 'n' => some '\n'
  | 'r' => some '\r'
  | 't' => some '\t'
  | '0' => some '\x00'
  | _ => none

-- The characters of a quoted text up to its closing quote. While a number in braces is being
-- read, `code` holds the count of its digits, at most six, and their value.
def quotedBody (close : Char) : (code : Option (Nat × Nat)) → List Char →
    Option (List Char × List Char)
  | _, [] => none
  | none, '\\' :: 'u' :: '\x7b' :: rest => quotedBody close (some (0, 0)) rest
  | none, '\\' :: 'x' :: high :: low :: rest => do
    let code := 16 * (← hexDigit? high) + (← hexDigit? low)
    let (chars, after) ← quotedBody close none rest
    return (Char.ofNat code :: chars, after)
  | none, '\\' :: c :: rest => do
    let char ← simpleEscape? c
    let (chars, after) ← quotedBody close none rest
    return (char :: chars, after)
  | none, c :: rest =>
    if c = close then some ([], rest)
    else if c = '\\' then none
    else do
      let (chars, after) ← quotedBody close none rest
      return (c :: chars, after)
  | some (count, code), c :: rest =>
    if c = '\x7d' then
      if count = 0 then none
      else do
        let char ← charOfCode? code
        let (chars, after) ← quotedBody close none rest
        return (char :: chars, after)
    else if count < 6 then do
      quotedBody close (some (count + 1, 16 * code + (← hexDigit? c))) rest
    else none

-- The characters of a raw text, which ends at a quote with as many hashes behind it as stood
-- before it.
def rawBody (hashes : Nat) : List Char → Option (List Char × List Char)
  | [] => none
  | c :: rest =>
    if c = '"' ∧ rest.take hashes = List.replicate hashes '#' then some ([], rest.drop hashes)
    else do
      let (chars, after) ← rawBody hashes rest
      return (c :: chars, after)

def string : Reader String := do
  if ← accept "\"" then return String.ofList (← quotedBody '"' none)
  else
    expect "r"
    let hashes ← takeWhile (· == '#')
    expect "\""
    return String.ofList (← rawBody hashes.length)

-- One character between single quotes.
def char : Reader Unit := do
  expect "'"
  match ← get with
  | '\\' :: _ =>
    match ← quotedBody '\'' none with
    | [_] => return
    | _ => failure
  | c :: '\'' :: rest => if c = '\'' then failure else set rest
  | _ => failure

def isIntegerChar (c : Char) : Bool := (hexDigit? c).isSome || c == '_'

-- A whole number without sign, up to a bound. A prefix may name another base than ten, and
-- underscores may stand between the digits.
def natural (bound : Nat) : Reader Nat := do
  let base ←
    if ← accept "0x" then pure 16
    else if ← accept "0b" then pure 2
    else if ← accept "0o" then pure 8
    else pure 10
  let written ← takeWhile isIntegerChar
  if written.isEmpty || written.head? == some '_' then failure
  match numberOfDigits? base (written.filter (· ≠ '_')) with
  | some number => if number ≤ bound then return number else failure
  | none => failure

end StoryGrammar.Ron
