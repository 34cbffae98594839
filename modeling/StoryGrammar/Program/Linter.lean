import StoryGrammar.Grammar.Blueprint
import StoryGrammar.Lint
import StoryGrammar.Program.Files

namespace StoryGrammar.Program.Linter

def usage : String := "Usage: grammar_linter <grammar_file_or_dir> [--origin <key>]"

-- The origin named last counts. Other arguments are passed over.
def originOf (origin : String) : List String → String
  | "--origin" :: name :: rest => originOf name rest
  | _ :: rest => originOf origin rest
  | [] => origin

-- Grammars that could be loaded, with what is printed on the way, and the number of those that
-- could not.
structure Loaded where
  definitions : Definitions := ∅
  printed : List String := []
  failures : Nat := 0

def Loaded.add (loaded : Loaded) (entries : List (String × RuleSet)) : Loaded :=
  { loaded with
    definitions := entries.foldl (fun all (name, rules) => all.insert name rules)
      loaded.definitions }

def load (loaded : Loaded) (path : String) (content : ByteArray) : Loaded :=
  match Blueprint.readFile (some content) with
  | .ok entries =>
    { loaded.add entries with printed := loaded.printed ++ ["  Loaded: " ++ path] }
  | .error _ => { loaded with failures := loaded.failures + 1 }

def report (loaded : Loaded) (origin : String) : Ended :=
  let findings := lint loaded.definitions origin
  let errors := (findings.filter Finding.isError).map Finding.message ++
    if loaded.failures > 0 then [s!"{loaded.failures} grammar file(s) failed to load"] else []
  let warnings := (findings.filter (!·.isError)).map Finding.message
  { stdout := lines (loaded.printed ++
      [s!"Loaded {loaded.definitions.size} symbols", "", "=== Grammar Lint Report ===", ""] ++
      (if errors.isEmpty && warnings.isEmpty then ["All checks passed!"] else []) ++
      warnings.map ("WARNING: " ++ ·) ++ errors.map ("ERROR: " ++ ·) ++
      ["", s!"Summary: {errors.length} errors, {warnings.length} warnings"])
    exit := if errors.isEmpty then 0 else 1 }

-- Checks the grammar at the path that the first argument names. A folder stands for all grammar
-- files in it.
def run (args : List String) (at? : String → Option FileTree) : Ended :=
  match args with
  | [] | "--help" :: _ | "-h" :: _ => { stdout := lines [usage], exit := 0 }
  | path :: rest =>
    let origin := originOf "origin" rest
    match at? path with
    | some (.file content) =>
      match Blueprint.readFile (some content) with
      | .ok entries => report (({} : Loaded).add entries) origin
      | .error cause =>
        { stdout := ""
          stderr := lines ["ERROR: Failed to load grammar file: " ++ cause.message]
          exit := 1 }
    | some folder =>
      report ((folder.grammarFiles path).foldl (fun loaded (path, content) =>
        load loaded path content) {}) origin
    | none =>
      { stdout := "", stderr := lines [s!"ERROR: Path '{path}' does not exist"], exit := 1 }

end StoryGrammar.Program.Linter
