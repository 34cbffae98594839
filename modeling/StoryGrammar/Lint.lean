import StoryGrammar.Modifier
import StoryGrammar.Notation.Reader
import StoryGrammar.Symbol

namespace StoryGrammar

-- Something about a grammar that a writer should know.
inductive Finding where
  | brokenSymbol (name : String) (cause : GrammarError)
  | undefinedReference (name target : String)
  | unknownModifier (name modifier : String)
  | endlessRecursion (name : String)
  | zeroWeights (name : String)
  | undefinedOrigin (origin : String)
  | unreachable (name origin : String)
deriving DecidableEq, Repr

namespace Finding

-- The other findings are warnings.
def isError : Finding → Bool
  | brokenSymbol .. | endlessRecursion .. => true
  | _ => false

def message : Finding → String
  | brokenSymbol name cause => s!"Symbol '{name}' failed to build: {cause.message}"
  | undefinedReference name target =>
    s!"Symbol '{name}' references undefined symbol '{target}' (expands to empty text)"
  | unknownModifier name modifier => s!"Symbol '{name}' uses unknown modifier '.{modifier}'"
  | endlessRecursion name =>
    s!"Symbol '{name}' has no non-recursive candidate (infinite recursion)"
  | zeroWeights name => s!"Symbol '{name}' has only zero weights"
  | undefinedOrigin origin => s!"Origin symbol '{origin}' is not defined"
  | unreachable name origin =>
    s!"Symbol '{name}' is unreachable from '{origin}' (only usable via state or direct expansion)"

end Finding

namespace Lint

-- The names that a candidate refers to.
def targets (candidate : Candidate) : List String := candidate.references.map (·.name)

def checkReference (definitions : Definitions) (name : String) (reference : Template.Reference) :
    List Finding :=
  (if definitions.contains reference.name then []
    else [Finding.undefinedReference name reference.name]) ++
    (reference.calls.filter fun call => !Modifiers.english.contains call.name).map fun call =>
      Finding.unknownModifier name call.name

-- Generated candidates are not known beforehand, so nothing is said about them.
def written (symbol : Symbol) : List Candidate :=
  symbol.candidates.filter (·.body.passage?.isSome)

def checkSymbol (definitions : Definitions) (name : String) (symbol : Symbol) : List Finding :=
  ((written symbol).flatMap fun candidate =>
    candidate.references.flatMap (checkReference definitions name)) ++
    (if !(written symbol).isEmpty && (written symbol).all fun candidate =>
        (targets candidate).contains name
      then [.endlessRecursion name] else []) ++
    (if symbol.distribution.usesWeights && symbol.candidates.all (·.weight == 0)
      then [.zeroWeights name] else [])

def checkDefinition (definitions : Definitions) (name : String) (rules : RuleSet) :
    List Finding :=
  match Symbol.ofRules rules with
  | .ok symbol => checkSymbol definitions name symbol
  | .error cause => [.brokenSymbol name cause]

-- The defined names that a symbol refers to. A symbol that cannot be built refers to none.
def successors (definitions : Definitions) (name : String) : List String :=
  match definitions[name]?.map Symbol.ofRules with
  | some (.ok symbol) =>
    (symbol.candidates.flatMap targets).filter fun target => definitions.contains target
  | _ => []

-- The names that cannot be reached from those in the queue. Each name that is reached leaves the
-- list, and what it refers to joins the queue.
def unreached (next : String → List String) (names queue : List String) : List String :=
  match queue with
  | [] => names
  | name :: queue =>
    if _h : name ∈ names then unreached next (names.erase name) (queue ++ next name)
    else unreached next names queue
termination_by (names.length, queue.length)
decreasing_by
  · have := List.length_erase_of_mem _h
    have := List.length_pos_of_mem _h
    exact Prod.Lex.left _ _ (by omega)
  · exact Prod.Lex.right _ (by simp)

def checkReach (definitions : Definitions) (origin : String) : List Finding :=
  if definitions.contains origin then
    (unreached (successors definitions) definitions.keys [origin]).map (.unreachable · origin)
  else [.undefinedOrigin origin]

end Lint

-- All findings: those on each symbol by name, then those on the way from the origin.
def lint (definitions : Definitions) (origin : String) : List Finding :=
  (definitions.toList.flatMap fun (name, rules) => Lint.checkDefinition definitions name rules) ++
    Lint.checkReach definitions origin

end StoryGrammar
