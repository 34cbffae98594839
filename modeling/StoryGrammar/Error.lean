namespace StoryGrammar.Template

-- Why a text is no template. An offset counts bytes from the start of the text. Where something
-- is left open, it is the offset at which that part was opened.
inductive ParseError where
  | unclosedAlternation (offset : Nat)
  | unclosedReference (offset : Nat)
  | missingName (offset : Nat)
  | invalidName (name : String) (offset : Nat)
  | unclosedArguments (offset : Nat)
  | missingComparison (offset : Nat)
  | missingBranch (offset : Nat)
  | unexpected (found : String) (offset : Nat)
deriving DecidableEq, Repr

namespace ParseError

def offset : ParseError → Nat
  | unclosedAlternation offset | unclosedReference offset | missingName offset
  | invalidName _ offset | unclosedArguments offset | missingComparison offset
  | missingBranch offset | unexpected _ offset => offset

def message : ParseError → String
  | unclosedAlternation offset => s!"unclosed alternation starting at byte {offset}"
  | unclosedReference offset => s!"unclosed reference starting at byte {offset}"
  | missingName offset => s!"expected a symbol or modifier name at byte {offset}"
  | invalidName name offset => s!"invalid name '{name}' at byte {offset}"
  | unclosedArguments offset => s!"unclosed argument list starting at byte {offset}"
  | missingComparison offset => s!"conditional at byte {offset} is missing '='"
  | missingBranch offset => s!"conditional at byte {offset} is missing '?'"
  | unexpected found offset => s!"unexpected '{found}' at byte {offset}"

end ParseError

end StoryGrammar.Template

namespace StoryGrammar

-- Why a grammar cannot be built, or why an expansion comes to no text.
inductive GrammarError where
  | template (cause : Template.ParseError)
  | emptyRules
  | unknownDistribution (name : String)
  | inSymbol (name : String) (cause : GrammarError)
  | symbolNotFound (name : String)
  -- The chain runs from the symbol first drawn to the one that closes the circle.
  | recursion (symbol : String) (chain : List String)
  | depthExceeded (symbol : String) (limit : Nat)
  | unreadableFile
  | malformedDefinitions
deriving DecidableEq, Repr

namespace GrammarError

def message : GrammarError → String
  | template cause => s!"template parse error: {cause.message}"
  | emptyRules => "rule set is empty"
  | unknownDistribution name => s!"unknown distribution '{name}'"
  | inSymbol name cause => s!"symbol '{name}': {cause.message}"
  | symbolNotFound name => s!"symbol not found: {name}"
  | recursion symbol chain =>
    s!"recursive reference to '{symbol}' (" ++ " -> ".intercalate chain ++ ")"
  | depthExceeded symbol limit => s!"expansion depth limit of {limit} exceeded at '{symbol}'"
  | unreadableFile => "IO error: the file cannot be read"
  | malformedDefinitions => "RON deserialization error"

end GrammarError

end StoryGrammar
