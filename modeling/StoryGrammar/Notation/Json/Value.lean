import StoryGrammar.Notation.Reader
import StoryGrammar.Text.Number

namespace StoryGrammar.Json

-- A number as it is spelled: the digits before and after the point, and the power of ten.
structure Number where
  negative : Bool
  whole : List Char
  fraction : Option (List Char)
  exponent : Option Int

namespace Number

-- Only a number without sign, point and exponent counts as a natural one.
def natural? (number : Number) : Option Nat :=
  match number with
  | ⟨false, whole, none, none⟩ => numberOfDigits? 10 whole
  | _ => none

-- Counts digits on to a number as long as it fits into 64 bits. From the first that does not,
-- the digits are left over.
def addDigits (number : Nat) : List Char → Nat × List Char
  | [] => (number, [])
  | c :: rest =>
    let next := 10 * number + (c.toNat - '0'.toNat)
    if next < UInt64.size then addDigits next rest else (number, c :: rest)

-- The number as a whole one of 64 bits and a power of ten. Digits that are left over count by
-- their place only.
def scaled (number : Number) : Nat × Int :=
  let fraction := number.fraction.getD []
  let (whole, wholeLeft) := addDigits 0 number.whole
  let (significand, fractionLeft) := addDigits whole fraction
  let places : Int := wholeLeft.length + fractionLeft.length - fraction.length
  (significand, number.exponent.getD 0 + places)

-- Whether the number stays below 2^1024 when it is held in 53 binary digits. The digits, the
-- power of ten and their product are rounded one after the other.
def isFinite (number : Number) : Bool :=
  let (significand, power) := number.scaled
  significand == 0 || power < 0 || (power ≤ 308 &&
    Text.roundBinary (Text.roundBinary significand * Text.roundBinary (Nat.pow 10 power.toNat)) <
      1 <<< 1024)

end Number

inductive Value where
  | null
  | bool (b : Bool)
  | number (n : Number)
  | string (s : String)
  | array (items : List Value)
  | object (members : List (String × Value))

open Reader

def isSpace (c : Char) : Bool := c == ' ' || c == '\n' || c == '\t' || c == '\r'

def gap : Reader Unit := discard (takeWhile isSpace)

def digits : Reader (List Char) := do
  let digits ← takeWhile Char.isDigit
  if digits.isEmpty then failure else return digits

def exponent : Reader Int := do
  let negative ← if ← accept "-" then pure true else do
    discard (accept "+")
    pure false
  let size ← numberOfDigits? 10 (← digits)
  return if negative then -(size : Int) else size

-- A number does not start with a superfluous zero.
def number : Reader Number := do
  let negative ← accept "-"
  let whole ← digits
  if whole.head? == some '0' && whole.length > 1 then failure
  let fraction ← if ← accept "." then some <$> digits else pure none
  let exponent ←
    if ← ["e", "E"].anyM accept then some <$> exponent else pure none
  let number : Number := ⟨negative, whole, fraction, exponent⟩
  if number.isFinite then return number else failure

def simpleEscape? : Char → Option Char
  | '"' => some '"'
  | '\\' => some '\\'
  | '/' => some '/'
  | 'b' => some '\x08'
  | 'f' => some '\x0c'
  | 'n' => some '\n'
  | 'r' => some '\r'
  | 't' => some '\t'
  | _ => none

def codeUnit? (a b c d : Char) : Option Nat := numberOfDigits? 16 [a, b, c, d]

-- Two code units that together stand for a character beyond the first 2^16.
def pair? (high low : Nat) : Option Char :=
  if 0xD800 ≤ high ∧ high < 0xDC00 ∧ 0xDC00 ≤ low ∧ low < 0xE000 then
    charOfCode? (0x10000 + 0x400 * (high - 0xD800) + (low - 0xDC00))
  else none

-- The characters of a text up to the closing quote. Control characters must be escaped, and half
-- a pair of code units stands for nothing.
def stringBody : List Char → Option (List Char × List Char)
  | [] => none
  | '"' :: rest => some ([], rest)
  | '\\' :: 'u' :: a :: b :: c :: d :: rest => do
    let unit ← codeUnit? a b c d
    match charOfCode? unit, rest with
    | some char, rest => do
      let (chars, after) ← stringBody rest
      return (char :: chars, after)
    | none, '\\' :: 'u' :: e :: f :: g :: h :: rest => do
      let char ← pair? unit (← codeUnit? e f g h)
      let (chars, after) ← stringBody rest
      return (char :: chars, after)
    | none, _ => none
  | '\\' :: c :: rest => do
    let char ← simpleEscape? c
    let (chars, after) ← stringBody rest
    return (char :: chars, after)
  | c :: rest => do
    if c.toNat < 0x20 then none
    else
      let (chars, after) ← stringBody rest
      return (c :: chars, after)

def string : Reader String := do
  expect "\""
  return String.ofList (← stringBody)

-- The items of an array or object behind its opening bracket, with commas between them. Each
-- takes at least one character, so a limit above the length is not reached.
def itemsFrom {α : Type} (close : Char) (item : Reader α) : (limit : Nat) → Reader (List α)
  | 0 => failure
  | limit + 1 => do
    gap
    let first ← item
    gap
    if ← accept "," then return first :: (← itemsFrom close item limit)
    else do
      expect (String.singleton close)
      return [first]

def items {α : Type} (close : Char) (item : Reader α) : Reader (List α) := do
  gap
  if ← accept (String.singleton close) then return []
  else itemsFrom close item ((← get).length + 1)

-- A value whose parts are read by `inner`. Without it no bracket may be opened any more.
def valueWith (inner : Option (Reader Value)) : Reader Value := do
  match ← peek?, inner with
  | some 'n', _ => do expect "null"; return .null
  | some 't', _ => do expect "true"; return .bool true
  | some 'f', _ => do expect "false"; return .bool false
  | some '"', _ => .string <$> string
  | some '[', none | some '\x7b', none => failure
  | some '[', some inner => do
    expect "["
    return .array (← items ']' inner)
  | some '\x7b', some inner => do
    expect "\x7b"
    return .object (← items '\x7d' (do
      let name ← string
      gap
      expect ":"
      gap
      return (name, ← inner)))
  | _, _ => .number <$> number

-- A value in which so many brackets may be opened one inside the other.
def value : (room : Nat) → Reader Value
  | 0 => valueWith none
  | room + 1 => valueWith (some (value room))

-- The number of brackets that may be open at once.
def levels : Nat := 127

def value? (text : String) : Option Value :=
  readAll? (do
    gap
    let value ← value levels
    gap
    return value) text

def hexDigits (code : Nat) : List Char :=
  let digits := Nat.toDigits 16 code
  List.replicate (4 - digits.length) '0' ++ digits

def escapeChar (c : Char) : List Char :=
  match c with
  | '"' => ['\\', '"']
  | '\\' => ['\\', '\\']
  | '\n' => ['\\', 'n']
  | '\t' => ['\\', 't']
  | '\r' => ['\\', 'r']
  | '\x08' => ['\\', 'b']
  | '\x0c' => ['\\', 'f']
  | c => if c.toNat < 0x20 then '\\' :: 'u' :: hexDigits c.toNat else [c]

def showString (text : String) : String :=
  String.ofList ('"' :: text.toList.flatMap escapeChar ++ ['"'])

def showOption {α : Type} (written : α → String) : Option α → String
  | none => "null"
  | some a => written a

def showArray (items : List String) : String := "[" ++ ",".intercalate items ++ "]"

-- Members keep their order.
def showObject (members : List (String × String)) : String :=
  "\x7b" ++ ",".intercalate (members.map fun (name, value) => showString name ++ ":" ++ value) ++
    "\x7d"

end StoryGrammar.Json
