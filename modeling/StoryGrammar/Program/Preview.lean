import StoryGrammar.Grammar.Blueprint
import StoryGrammar.Program.Files
import StoryGrammar.Random.Seeded
import StoryGrammar.Text.Case
import StoryGrammar.Text.Classes
import StoryGrammar.Text.Number

namespace StoryGrammar.Program.Preview

def usage : String := lines [
  "Usage: preview --grammar <path> [--seed <n>] [--origin <key>]",
  "",
  "Options:",
  "  --grammar <path>   RON grammar file or directory of .ron files",
  "  --seed <n>         Initial RNG seed (default: 42)",
  "  --origin <key>     Symbol expanded by default (default: origin)"]

def help : String := lines [
  "Commands:",
  "  expand [key]         Expand a symbol, reusing its cached value",
  "  force [key]          Expand a symbol, drawing a fresh value",
  "  set <name> <text>    Replace a symbol's rules with one template",
  "  value <name> <text>  Assign a symbol's cached value directly",
  "  reset <name>         Return a symbol's candidates to its deck",
  "  eval <template>      Evaluate ad hoc template text",
  "  bulk <n> [key]       Force-expand n times with variety statistics",
  "  seed <n>             Rebuild the grammar with a new seed",
  "  symbols              List symbols and their distributions",
  "  help                 Show this help",
  "  quit                 Exit"]

def prompt : String := "preview> "

structure Options where
  path : Option String := none
  origin : String := "origin"
  seed : UInt64 := 42

def word64? (text : String) : Option UInt64 :=
  (Text.natural? (UInt64.size - 1) text).map UInt64.ofNat

-- A seed that is no number counts as the default one. Nothing if an argument is unknown.
def Options.read? (options : Options) : List String → Option Options
  | [] => some options
  | "--grammar" :: path :: rest => { options with path := some path }.read? rest
  | "--origin" :: origin :: rest => { options with origin }.read? rest
  | "--seed" :: seed :: rest => { options with seed := (word64? seed).getD 42 }.read? rest
  | _ => none

-- A shell around a grammar, which can be built anew from its files.
structure Shell where
  files : List ByteArray
  origin : String
  seed : UInt64
  grammar : Grammar Seeded

def build (files : List ByteArray) (origin : String) (seed : UInt64) :
    Except GrammarError (Grammar Seeded) :=
  ({ files := files.map some, origin } : Blueprint).build (Seeded.ofSeed seed)

def errorLine (cause : GrammarError) : String := lines ["ERROR: " ++ cause.message]

def distinct (texts : List String) : Nat :=
  (texts.foldl (fun seen text => seen.insert text ()) (∅ : Std.TreeMap String Unit)).size

-- The texts of so many forced expansions, and how many have failed.
def collect (name : String) : Nat → Grammar Seeded → List String × Nat
  | 0, _ => ([], 0)
  | count + 1, grammar =>
    let outcome := grammar.expandSymbol name true
    let (texts, failures) := collect name count outcome.grammar
    match outcome.result with
    | .ok text => (text :: texts, failures)
    | .error _ => (texts, failures + 1)

def statistics (texts : List String) (failures : Nat) : String :=
  let empty := (texts.filter String.isEmpty).length
  let mean := Text.showMean (texts.foldr (·.utf8ByteSize + ·) 0) texts.length
  lines (
    ["", s!"=== Bulk Expansion: {texts.length} passages ({failures} errors) ===", "",
      s!"Unique passages: {distinct texts} / {texts.length}"] ++
    (if empty > 0 then [s!"Empty passages: {empty}"] else []) ++
    [s!"Average length: {mean} chars", "", "Samples:"] ++
    (texts.take 5).map ("  " ++ ·) ++ [""])

namespace Shell

variable (shell : Shell)

def expand (key : String) (force : Bool) : String × Shell :=
  let key := if key.isEmpty then shell.origin else key
  let outcome := shell.grammar.expandSymbol key force
  let printed := match outcome.result with
    | .ok text => lines ["", s!"--- {key} ---", text, "--- End ---", ""]
    | .error cause => errorLine cause
  (printed, { shell with grammar := outcome.grammar })

def set (rest : String) : String × Shell :=
  match Text.splitBlank? rest with
  | none => (lines ["Usage: set <name> <text>"], shell)
  | some (name, text) =>
    match shell.grammar.set name (RuleSet.ofText (Text.trim text)) with
    | .ok grammar => (lines [s!"Rules for '{name}' replaced"], { shell with grammar })
    | .error cause => (errorLine cause, shell)

def setValue (rest : String) : String × Shell :=
  match Text.splitBlank? rest with
  | none => (lines ["Usage: value <name> <text>"], shell)
  | some (name, text) =>
    (lines [s!"Value of '{name}' set"],
      { shell with grammar := shell.grammar.setValue name (Text.trim text) })

def reset (name : String) : String × Shell :=
  if name.isEmpty then (lines ["Usage: reset <name>"], shell)
  else
    match shell.grammar.reset? name with
    | some grammar => (lines [s!"Deck for '{name}' reset"], { shell with grammar })
    | none => (lines [s!"Unknown symbol: {name}"], shell)

def evaluate (text : String) : String × Shell :=
  let outcome := shell.grammar.evaluate text
  let printed := match outcome.result with
    | .ok text => lines [text]
    | .error cause => errorLine cause
  (printed, { shell with grammar := outcome.grammar })

def reseed (text : String) : String × Shell :=
  if text.isEmpty then (lines [s!"Current seed: {shell.seed.toNat}"], shell)
  else
    match word64? text with
    | none => (lines [s!"Invalid seed: {text}"], shell)
    | some seed =>
      match build shell.files shell.origin seed with
      | .ok grammar =>
        (lines [s!"Seed set to {seed.toNat}"], { shell with seed, grammar })
      | .error cause => (errorLine cause, shell)

-- Works on a grammar of its own, so the shell stays as it is.
def bulk (rest : String) : String :=
  let words := Text.words rest
  match words.head?.bind (Text.natural? (UInt64.size - 1)) with
  | none | some 0 => lines ["Usage: bulk <n> [key]"]
  | some count =>
    match build shell.files shell.origin shell.seed with
    | .ok grammar =>
      let (texts, failures) := collect (words[1]?.getD shell.origin) count grammar
      statistics texts failures
    | .error cause => errorLine cause

def describe (name : String) (symbol : Symbol) : String :=
  let remaining := symbol.remaining.elim "" fun count => s!", {count} left"
  let padding := String.ofList (List.replicate (20 - name.length) ' ')
  s!"  {name}{padding} {symbol.candidates.length} candidate(s), " ++
    s!"{symbol.distribution.name}{remaining}"

def symbols : String :=
  lines (shell.grammar.symbols.toList.map fun (name, symbol) => describe name symbol)

-- Carries out one line of input. Without a shell in the answer, the session is over.
def answer (line : String) : String × Option Shell :=
  let line := Text.trim line
  if line.isEmpty then ("", some shell)
  else
    let (command, rest) := match Text.splitBlank? line with
      | some (command, rest) => (Text.lower command, Text.trim rest)
      | none => (Text.lower line, "")
    let goOn : String × Shell → String × Option Shell := fun (printed, shell) =>
      (printed, some shell)
    match command with
    | "quit" | "exit" | "q" => (lines ["Goodbye."], none)
    | "help" | "h" | "?" => (help, some shell)
    | "expand" => goOn (shell.expand rest false)
    | "force" => goOn (shell.expand rest true)
    | "set" => goOn (shell.set rest)
    | "value" => goOn (shell.setValue rest)
    | "reset" => goOn (shell.reset rest)
    | "eval" => goOn (shell.evaluate rest)
    | "seed" => goOn (shell.reseed rest)
    | "bulk" => (shell.bulk rest, some shell)
    | "symbols" => (shell.symbols, some shell)
    | _ => (lines [s!"Unknown command: {command}. Type 'help' for commands."], some shell)

def greeting : String :=
  lines [s!"Loaded {shell.grammar.symbols.size} symbols from {shell.files.length} file(s)",
    s!"Seed: {shell.seed.toNat}", "Type 'help' for commands.", ""]

-- All that is printed for a sequence of lines, each behind a prompt. When the lines are used up
-- the last prompt stays without an answer.
def converse : Shell → List String → String
  | _, [] => prompt
  | shell, line :: rest =>
    match shell.answer line with
    | (printed, some shell) => prompt ++ printed ++ converse shell rest
    | (printed, none) => prompt ++ printed

end Shell

-- The shell that the arguments ask for, or what is printed instead of one.
def start (args : List String) (at? : String → Option FileTree) : Except Ended Shell :=
  match args with
  | [] | "--help" :: _ | "-h" :: _ => .error { stdout := usage, exit := 0 }
  | _ =>
    match ({} : Options).read? args with
    | none => .error { stdout := usage, stderr := lines ["Unknown argument"], exit := 1 }
    | some { path := none, .. } =>
      .error { stdout := usage, stderr := lines ["ERROR: --grammar is required"], exit := 1 }
    | some { path := some path, origin, seed } =>
      match at? path with
      | none =>
        .error
          { stdout := "", stderr := lines [s!"ERROR: Path '{path}' does not exist"], exit := 1 }
      | some tree =>
        let files := match tree with
          | .file content => [content]
          | folder => (folder.grammarFiles path).map Prod.snd
        match build files origin seed with
        | .ok grammar => .ok ⟨files, origin, seed, grammar⟩
        | .error cause => .error { stdout := "", stderr := errorLine cause, exit := 1 }

-- The lines of an input, up to the first that is no text.
def linesOf (input : ByteArray) : List String :=
  let pieces := input.toList.splitOn 0x0A
  let whole := if pieces.getLast? == some [] then pieces.dropLast else pieces
  ((whole.map fun piece => String.fromUTF8? ⟨piece.toArray⟩).takeWhile Option.isSome).filterMap id

def run (args : List String) (at? : String → Option FileTree) (input : ByteArray) : Ended :=
  match start args at? with
  | .error ended => ended
  | .ok shell => { stdout := shell.greeting ++ shell.converse (linesOf input), exit := 0 }

end StoryGrammar.Program.Preview
