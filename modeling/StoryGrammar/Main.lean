import StoryGrammar.Program.Linter
import StoryGrammar.Program.Preview

namespace StoryGrammar.Program

-- Reads what lies at a path, with all that lies below it.
partial def readTree? (path : String) : IO (Option FileTree) := do
  let place := (← IO.currentDir) / path
  if !(← place.pathExists) then return none
  if ← place.isDir then
    let mut entries := []
    for entry in ← place.readDir do
      match ← readTree? (FileTree.join path entry.fileName) with
      | some tree => entries := FileTree.put entry.fileName tree entries
      | none => pure ()
    return some (.folder entries)
  else return some (.file (← IO.FS.readBinFile place))

def finish (ended : Ended) : IO UInt32 := do
  IO.print ended.stdout
  IO.eprint ended.stderr
  return UInt32.ofNat ended.exit

partial def converse (stdin stdout : IO.FS.Stream) (shell : Preview.Shell) : IO Unit := do
  stdout.putStr Preview.prompt
  stdout.flush
  let line ← stdin.getLine
  if line.isEmpty then return
  let (printed, next) := shell.answer line
  stdout.putStr printed
  match next with
  | some shell => converse stdin stdout shell
  | none => return

def runLinter (args : List String) : IO UInt32 := do
  let found ← match args.head? with
    | some path => readTree? path
    | none => pure none
  finish (Linter.run args fun _ => found)

def runPreview (args : List String) : IO UInt32 := do
  let options := ({} : Preview.Options).read? args
  let found ← match options.bind Preview.Options.path with
    | some path => readTree? path
    | none => pure none
  match Preview.start args fun _ => found with
  | .error ended => finish ended
  | .ok shell => do
    IO.print shell.greeting
    converse (← IO.getStdin) (← IO.getStdout) shell
    return 0

end StoryGrammar.Program

open StoryGrammar.Program in
-- The first word says which of the two programs to run.
def main (args : List String) : IO UInt32 := do
  match args with
  | "preview" :: rest => runPreview rest
  | "lint" :: rest => runLinter rest
  | _ => do
    IO.println Linter.usage
    IO.print Preview.usage
    return 0
