import StoryGrammar.Proofs.Template.Concat

namespace StoryGrammar.Template

-- What a walk over tokens tells about itself. Positions count tokens from the first one.
inductive Stride where
  | went (position : Nat)
  -- All tokens from a position on are looked at.
  | looked (position : Nat)
  -- A loop goes around, and comes from one position to another.
  | turned (before after : Nat)
  -- What was tried from a hash on is given up, and the walk goes on from a position.
  | gaveUp (hash position : Nat)
deriving DecidableEq, Repr

-- Where a walk is, and its strides so far, the last one first.
structure Cursor where
  position : Nat
  strides : List Stride

-- Why a walk ends early. It crashes where it leaves the tokens or an assertion fails, and is cut
-- off where it would nest too deep or go around too often.
inductive Halt where
  | fault (cause : ParseError)
  | crash
  | cutOff
deriving DecidableEq, Repr

-- A walk that fails keeps where it is and what it has told.
abbrev Walk := ExceptT Halt (StateM Cursor)

namespace Walk

variable {σ α : Type}

def position : Walk Nat := return (← get).position

def tell (stride : Stride) : Walk Unit :=
  modify fun cursor => { cursor with strides := stride :: cursor.strides }

def goTo (position : Nat) : Walk Unit := do
  modify fun cursor => { cursor with position }
  tell (.went position)

-- Takes turns until one of them comes to a result.
def loop (turn : σ → Walk (σ ⊕ α)) : Nat → σ → Walk α
  | 0, _ => throw .cutOff
  | turns + 1, state => do
    let before ← position
    match ← turn state with
    | .inl next => do
      tell (.turned before (← position))
      loop turn turns next
    | .inr result => return result

-- A fault as a result to go on with.
def outcome (walk : Walk α) : Walk (Except ParseError α) :=
  tryCatch (do return .ok (← walk)) fun
    | .fault cause => return .error cause
    | halt => throw halt

def giveUp (hash : Nat) : Walk (Option α) := do
  goTo hash
  tell (.gaveUp hash (← position))
  return none

section

variable (tokens : List Token)

def peek : Walk (Option Lexeme) := return tokens[← position]?.map Token.lexeme

def advance : Walk (Option Lexeme) := do
  match ← peek tokens with
  | none => return none
  | some l => do
    goTo ((← position) + 1)
    return some l

def skip : Walk Unit := do
  let _ ← advance tokens
  return

-- From a position behind the end on there are no tokens to look at, not even an empty list of them.
def hashAhead : Walk Bool := do
  let start ← position
  tell (.looked start)
  if start ≤ tokens.length then return Template.hashAhead (tokens.drop start)
  else throw .crash

-- Tries to walk from a hash on. It stays where it was unless this leads to an end in front of
-- another hash.
def attempt (walk : Walk α) : Walk (Option α) := do
  let hash ← position
  match ← outcome walk with
  | .ok a => if ← hashAhead tokens then return some a else giveUp hash
  | .error _ => giveUp hash

variable (stop : Nat)

def offset : Walk Nat := return tokens[← position]?.elim stop Token.offset

def name : Walk String := do
  match ← peek tokens with
  | some (.run letters) =>
    let name := (Lexeme.run letters).content
    if isName name then do
      skip tokens
      return String.ofList name
    else throw (.fault (.invalidName (String.ofList name) (← offset tokens stop)))
  | _ => throw (.fault (.missingName (← offset tokens stop)))

def close (opened : Nat) : Walk Unit := do
  let offset ← offset tokens stop
  match ← advance tokens with
  | none => throw (.fault (.unclosedReference opened))
  | some l =>
    if l = .mark .hash then return
    else throw (.fault (.unexpected l.text offset))

def equalsSign (opened : Nat) : Walk Unit := do
  match ← peek tokens with
  | none => throw (.fault (.unclosedReference opened))
  | some l =>
    if l = .mark .equals then skip tokens
    else throw (.fault (.missingComparison opened))

def questionMark (opened : Nat) : Walk Unit := do
  if (← advance tokens) = some (.mark .question) then return
  else throw (.fault (.missingBranch opened))

-- What stands behind a mark, if that mark comes next.
def optional (m : Mark) (walk : Walk (List α)) : Walk (List α) := do
  if (← peek tokens) = some (.mark m) then walk else return []

def nodesTurn (reference alternation : Walk Node) (place : Place) (nodes : List Node) :
    Walk (List Node ⊕ List Node) := do
  match ← peek tokens with
  | none => return .inr nodes
  | some l =>
    if place.endsAt l then return .inr nodes
    else if l = .mark .hash then
      if place.isBranch then
        match ← attempt tokens reference with
        | some node => return .inl (nodes ++ [node])
        | none => return .inr nodes
      else return .inl (nodes ++ [← reference])
    else if l = .mark .openBracket ∧ place ≠ .option then
      return .inl (nodes ++ [← alternation])
    else do
      skip tokens
      return .inl (Node.join nodes [.literal l.text])

def itemsTurn (nodes : Walk (List Node)) (enclosure : Enclosure) (opened : Nat)
    (items : List (List Node)) : Walk (List (List Node) ⊕ List (List Node)) := do
  let item ← nodes
  match ← advance tokens with
  | some (.mark m) =>
    if m = enclosure.separator then return .inl (items ++ [item])
    else if m = enclosure.closer then return .inr (items ++ [item])
    else throw (.fault (enclosure.unclosed opened))
  | _ => throw (.fault (enclosure.unclosed opened))

def callsTurn (arguments : Walk (List (List Node))) (calls : List Call) :
    Walk (List Call ⊕ List Call) := do
  if (← peek tokens) = some (.mark .dot) then do
    skip tokens
    let name ← name tokens stop
    let arguments ← optional tokens .openParen arguments
    return .inl (calls ++ [⟨name, arguments⟩])
  else return .inr calls

-- The parser as a walk. The number bounds how deep its functions nest and how often each loop goes
-- around.
mutual

def nodes : Nat → Place → Walk (List Node)
  | 0, _ => throw .cutOff
  | depth + 1, place =>
    loop (nodesTurn tokens (reference depth) (alternation depth) place) depth []

def items : Nat → Enclosure → Nat → Walk (List (List Node))
  | 0, _, _ => throw .cutOff
  | depth + 1, enclosure, opened =>
    loop (itemsTurn tokens (nodes depth enclosure.place) enclosure opened) depth []

def alternation : Nat → Walk Node
  | 0 => throw .cutOff
  | depth + 1 => do
    let opened ← offset tokens stop
    skip tokens
    return .alternation (← items depth .options opened)

def arguments : Nat → Walk (List (List Node))
  | 0 => throw .cutOff
  | depth + 1 => do
    let opened ← offset tokens stop
    skip tokens
    if (← peek tokens) = some (.mark .closeParen) then do
      skip tokens
      return []
    else items depth .arguments opened

def target : Nat → Walk Reference
  | 0 => throw .cutOff
  | depth + 1 => do
    let name ← name tokens stop
    return ⟨name, ← loop (callsTurn tokens stop (arguments depth)) depth []⟩

def reference : Nat → Walk Node
  | 0 => throw .cutOff
  | depth + 1 => do
    let opened ← offset tokens stop
    skip tokens
    match ← peek tokens with
    | some (.mark .question) => do
      skip tokens
      conditional depth .equal opened
    | some (.mark .bang) => do
      skip tokens
      conditional depth .notEqual opened
    | some _ => do
      let target ← target depth
      close tokens stop opened
      return .reference target
    | none => throw (.fault (.unclosedReference opened))

def conditional : Nat → Comparison → Nat → Walk Node
  | 0, _, _ => throw .cutOff
  | depth + 1, comparison, opened => do
    let subject ← target depth
    equalsSign tokens opened
    let test ← nodes depth .test
    questionMark tokens opened
    let whenTrue ← nodes depth .whenTrue
    let whenFalse ← optional tokens .colon do
      skip tokens
      nodes depth .whenFalse
    close tokens stop opened
    return .conditional ⟨comparison, subject, test, whenTrue, whenFalse⟩

end

-- Reading a whole text asserts that nothing is left of it.
def template (depth : Nat) : Walk (List Node) := do
  let nodes ← nodes tokens stop depth .template
  if (← peek tokens) = none then return nodes else throw .crash

end

def parse (text : String) (depth : Nat) : Walk Template := do
  return ⟨text, ← template (Token.ofText text) text.utf8ByteSize depth⟩

end Walk

end StoryGrammar.Template
