import StoryGrammar.Grammar
import StoryGrammar.Modifier
import StoryGrammar.Notation.Ron.Definitions

namespace StoryGrammar

-- What a grammar is built from. Later definitions of a symbol win over earlier ones: those in
-- files come first, then those in texts, then those given one by one. A value supplied from
-- outside wins over any definition.
structure Blueprint where
  -- The content of each file, or nothing for a file that cannot be read.
  files : List (Option ByteArray) := []
  texts : List String := []
  symbols : List (String × RuleSet) := []
  state : List (String × String) := []
  modifiers : Modifiers := Modifiers.english
  origin : String := "origin"
  maxDepth : Nat := 64

namespace Blueprint

def readText (text : String) : Except GrammarError (List (String × RuleSet)) :=
  match Ron.definitions? text with
  | some definitions => .ok definitions.toList
  | none => .error .malformedDefinitions

def readFile (content : Option ByteArray) : Except GrammarError (List (String × RuleSet)) :=
  match content.bind String.fromUTF8? with
  | some text => readText text
  | none => .error .unreadableFile

-- All definitions in the order in which they count.
def definitions (blueprint : Blueprint) : Except GrammarError (List (String × RuleSet)) := do
  let fromFiles ← blueprint.files.mapM readFile
  let fromTexts ← blueprint.texts.mapM readText
  return fromFiles.flatten ++ fromTexts.flatten ++ blueprint.symbols

def define (table : SymbolTable) (entry : String × RuleSet) : Except GrammarError SymbolTable :=
  match Symbol.ofRules entry.2 with
  | .ok symbol => .ok (table.insert entry.1 symbol)
  | .error cause => .error (.inSymbol entry.1 cause)

-- Every definition must be sound, also one that a later definition replaces.
def symbolTable (blueprint : Blueprint) : Except GrammarError SymbolTable := do
  let table ← (← blueprint.definitions).foldlM define ∅
  return blueprint.state.foldl (fun table (name, value) => table.insert name (Symbol.fixed value))
    table

def build {σ : Type} (blueprint : Blueprint) (source : σ) : Except GrammarError (Grammar σ) := do
  return {
    symbols := ← blueprint.symbolTable
    modifiers := blueprint.modifiers
    source
    origin := blueprint.origin
    maxDepth := blueprint.maxDepth }

end Blueprint

end StoryGrammar
