namespace StoryGrammar.Template

inductive Comparison where
  | equal
  | notEqual
deriving DecidableEq, Repr

namespace Comparison

def holds : Comparison → String → String → Bool
  | .equal, left, right => left == right
  | .notEqual, left, right => left != right

end Comparison

mutual

-- One part of a template. Nodes are listed in reading order wherever they occur.
inductive Node where
  | literal (text : String)
  | alternation (options : List (List Node))
  | reference (target : Reference)
  | conditional (branching : Branching)

-- A symbol to look up, and the modifiers that its text then goes through, the first one first.
structure Reference where
  name : String
  calls : List Call

-- A modifier with its arguments, each a template of its own.
structure Call where
  name : String
  arguments : List (List Node)

-- Compares the text of the subject with the test and goes on with one of two templates.
structure Branching where
  comparison : Comparison
  subject : Reference
  test : List Node
  whenTrue : List Node
  whenFalse : List Node

end

deriving instance Repr for Node, Reference, Call, Branching

namespace Node

-- Text in front of a template; it merges with a literal that starts there.
def consText (text : String) : List Node → List Node
  | .literal next :: rest => .literal (text ++ next) :: rest
  | nodes => .literal text :: nodes

end Node

mutual

-- Every reference of a template, nested ones included, in reading order: the subject of a
-- conditional comes before its test, and a reference before those in its arguments.
def Node.references : List Node → List Reference
  | [] => []
  | .literal _ :: rest => Node.references rest
  | .alternation options :: rest => Node.referencesOfEach options ++ Node.references rest
  | .reference target :: rest => Reference.references target ++ Node.references rest
  | .conditional ⟨_, subject, test, whenTrue, whenFalse⟩ :: rest =>
    Reference.references subject ++ Node.references test ++ Node.references whenTrue ++
      Node.references whenFalse ++ Node.references rest

def Node.referencesOfEach : List (List Node) → List Reference
  | [] => []
  | nodes :: rest => Node.references nodes ++ Node.referencesOfEach rest

def Reference.references : Reference → List Reference
  | ⟨name, calls⟩ => ⟨name, calls⟩ :: Call.references calls

def Call.references : List Call → List Reference
  | [] => []
  | ⟨_, arguments⟩ :: rest => Node.referencesOfEach arguments ++ Call.references rest

end

end StoryGrammar.Template
