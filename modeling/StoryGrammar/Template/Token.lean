namespace StoryGrammar.Template

-- The characters that have a meaning in a template. Where a mark stands decides whether the
-- meaning applies; elsewhere it is ordinary text.
inductive Mark where
  | openBracket
  | bar
  | closeBracket
  | hash
  | dot
  | openParen
  | closeParen
  | comma
  | question
  | bang
  | equals
  | colon
deriving DecidableEq, Repr

namespace Mark

def all : List Mark :=
  [.openBracket, .bar, .closeBracket, .hash, .dot, .openParen, .closeParen, .comma, .question,
    .bang, .equals, .colon]

def char : Mark → Char
  | .openBracket => '['
  | .bar => '|'
  | .closeBracket => ']'
  | .hash => '#'
  | .dot => '.'
  | .openParen => '('
  | .closeParen => ')'
  | .comma => ','
  | .question => '?'
  | .bang => '!'
  | .equals => '='
  | .colon => ':'

def ofChar? (c : Char) : Option Mark := all.find? (·.char == c)

theorem mem_all (m : Mark) : m ∈ all := by cases m <;> decide

@[simp] theorem ofChar?_char (m : Mark) : ofChar? m.char = some m := by cases m <;> decide

theorem char_of_ofChar? {c : Char} {m : Mark} (h : ofChar? c = some m) : m.char = c := by
  simpa using List.find?_some h

theorem ofChar?_eq_none_iff {c : Char} : ofChar? c = none ↔ ∀ m : Mark, m.char ≠ c := by
  simp only [ofChar?, List.find?_eq_none, beq_iff_eq]
  exact ⟨fun h m => h m (mem_all m), fun h m _ => h m⟩

-- Every mark takes one byte.
theorem utf8Size_char (m : Mark) : m.char.utf8Size = 1 := by cases m <;> decide

end Mark

-- A character of running text. An escaped one has a backslash before it, which is not part of
-- the text.
structure Letter where
  char : Char
  escaped : Bool
deriving DecidableEq, Repr

namespace Letter

def written (l : Letter) : List Char := if l.escaped then ['\\', l.char] else [l.char]

end Letter

-- A mark with its meaning available, or a run of text as long as possible.
inductive Lexeme where
  | mark (m : Mark)
  | run (letters : List Letter)
deriving DecidableEq, Repr

namespace Lexeme

-- What the lexeme says when it is read as text.
def content : Lexeme → List Char
  | .mark m => [m.char]
  | .run letters => letters.map Letter.char

-- How the lexeme is spelled in the template.
def written : Lexeme → List Char
  | .mark m => [m.char]
  | .run letters => letters.flatMap Letter.written

def text (l : Lexeme) : String := String.ofList l.content

-- The bytes that the lexeme takes up in the template.
def width (l : Lexeme) : Nat := l.written.foldr (·.utf8Size + ·) 0

-- A letter joins the run that follows it.
def attach (letter : Letter) : List Lexeme → List Lexeme
  | .run letters :: rest => .run (letter :: letters) :: rest
  | lexemes => .run [letter] :: lexemes

-- Every text splits into lexemes. A backslash takes the character after it out of its role; one
-- that nothing follows stands for itself.
def scan : List Char → List Lexeme
  | [] => []
  | ['\\'] => [.run [⟨'\\', false⟩]]
  | '\\' :: c :: rest => attach ⟨c, true⟩ (scan rest)
  | c :: rest =>
    match Mark.ofChar? c with
    | some m => .mark m :: scan rest
    | none => attach ⟨c, false⟩ (scan rest)

@[simp] theorem flatMap_written_attach (letter : Letter) (lexemes : List Lexeme) :
    (attach letter lexemes).flatMap written = letter.written ++ lexemes.flatMap written := by
  unfold attach
  split <;> simp [written]

@[simp] theorem flatMap_content_attach (letter : Letter) (lexemes : List Lexeme) :
    (attach letter lexemes).flatMap content = letter.char :: lexemes.flatMap content := by
  unfold attach
  split <;> simp [content]

-- Nothing of the template is lost between its lexemes.
theorem flatMap_written_scan (chars : List Char) : (scan chars).flatMap written = chars := by
  fun_induction scan chars with
  | case1 => rfl
  | case2 => decide
  | case3 c rest ih => simp [Letter.written, ih]
  | case4 c rest _ _ m hm ih => simp [written, ih, Mark.char_of_ofChar? hm]
  | case5 c rest _ _ _ ih => simp [Letter.written, ih]

end Lexeme

-- A lexeme and the byte of the template at which it starts.
structure Token where
  lexeme : Lexeme
  offset : Nat
deriving DecidableEq, Repr

namespace Token

-- Each lexeme starts where the one before it ends.
def locate : Nat → List Lexeme → List Token
  | _, [] => []
  | offset, l :: rest => ⟨l, offset⟩ :: locate (offset + l.width) rest

def ofText (text : String) : List Token := locate 0 (Lexeme.scan text.toList)

@[simp] theorem map_lexeme_locate (offset : Nat) (lexemes : List Lexeme) :
    (locate offset lexemes).map lexeme = lexemes := by
  induction lexemes generalizing offset with
  | nil => rfl
  | cons l rest ih => simp [locate, ih]

end Token

end StoryGrammar.Template
