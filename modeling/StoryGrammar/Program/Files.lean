namespace StoryGrammar.Program

-- What lies at a path. The entries of a folder are kept in the order of their names.
inductive FileTree where
  | file (content : ByteArray)
  | folder (entries : List (String × FileTree))

namespace FileTree

def child? (name : String) (entries : List (String × FileTree)) : Option FileTree :=
  (entries.find? (·.1 == name)).map Prod.snd

def entries : FileTree → List (String × FileTree)
  | file _ => []
  | folder entries => entries

def put (name : String) (tree : FileTree) (entries : List (String × FileTree)) :
    List (String × FileTree) :=
  entries.filter (·.1 < name) ++ (name, tree) :: entries.filter (name < ·.1)

-- Stores a file under the names of its folders and its own.
def insert (content : ByteArray) : List String → List (String × FileTree) →
    List (String × FileTree)
  | [], entries => entries
  | [name], entries => put name (file content) entries
  | name :: rest, entries =>
    let inner := (child? name entries).elim [] FileTree.entries
    put name (folder (insert content rest inner)) entries

-- A folder that holds files at the given paths.
def ofFiles (files : List (String × ByteArray)) : FileTree :=
  folder (files.foldl (fun entries (path, content) => insert content (path.splitOn "/") entries) [])

-- Walks down and up through folders. `above` lists the folders around the present place, the
-- nearest first.
def walk : (above : List FileTree) → FileTree → List String → Option FileTree
  | _, tree, [] => some tree
  | _, file _, _ :: _ => none
  | above, folder entries, name :: rest =>
    if name = "" ∨ name = "." then walk above (folder entries) rest
    else if name = ".." then
      match above with
      | [] => none
      | parent :: above => walk above parent rest
    else
      match child? name entries with
      | some tree => walk (folder entries :: above) tree rest
      | none => none

-- What lies at a path that starts in this folder. There is nothing at the empty path, and
-- absolute paths lead out of the folder.
def at? (root : FileTree) (path : String) : Option FileTree :=
  if path.isEmpty || path.startsWith "/" then none else walk [] root (path.splitOn "/")

def join (path name : String) : String :=
  if path.endsWith "/" then path ++ name else path ++ "/" ++ name

-- Grammar files end in `.ron`, behind a name that is not empty.
def isGrammarName (name : String) : Bool := name.endsWith ".ron" && name.length > 4

mutual

-- The grammar files in a folder and in the folders inside it, with their paths. They come in
-- the order of the names on their paths.
def grammarFiles (path : String) : FileTree → List (String × ByteArray)
  | file _ => []
  | folder entries => grammarFilesIn path entries

def grammarFilesIn (path : String) : List (String × FileTree) → List (String × ByteArray)
  | [] => []
  | (name, file content) :: rest =>
    (if isGrammarName name then [(join path name, content)] else []) ++ grammarFilesIn path rest
  | (name, folder entries) :: rest =>
    grammarFilesIn (join path name) entries ++ grammarFilesIn path rest

end

end FileTree

-- What a program has printed when it ends, and the code that it ends with.
structure Ended where
  stdout : String
  stderr : String := ""
  exit : Nat

def lines (texts : List String) : String := String.join (texts.map (· ++ "\n"))

end StoryGrammar.Program
