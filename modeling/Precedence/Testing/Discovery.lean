import Precedence.Testing.Path

/-!
# Finding test files

Test files are the files below a directory whose names have the extension of tests, and any file
that is asked for by name.

## Main definitions

- `FileTree` — files and directories
- `FileTree.ofPaths` — the tree with given files and directories
- `FileTree.find?` — what a path leads to
- `FileTree.testsBelow` — the test files below a directory
- `testFilesOf` — the test files of a list of paths
-/

namespace Precedence

/-- A file, or a directory with named entries. -/
inductive FileTree where
  | file
  | directory (entries : List (String × FileTree))
deriving Inhabited

/-- The extension of test files. -/
def testExtension : String := ".ut.py"

/-- Whether a list of names is in ascending order of their characters. -/
def nameOrder (a b : String) : Bool :=
  decide (a ≤ b)

namespace FileTree

/-- The entries of a directory; a file has none. -/
def entries : FileTree → List (String × FileTree)
  | file => []
  | directory entries => entries

/-- Whether it is a directory. -/
def isDirectory : FileTree → Bool
  | file => false
  | directory _ => true

/-- The empty directory. -/
def empty : FileTree :=
  directory []

/-- An entry of a directory. -/
def entry? (tree : FileTree) (name : String) : Option FileTree :=
  tree.entries.lookup name

/-- Put an entry into a directory in the place of the one with its name. -/
def setEntry (tree : FileTree) (name : String) (entry : FileTree) : FileTree :=
  directory (tree.entries.filter (·.1 != name) ++ [(name, entry)])

/-- Put something at a path, with the directories on the way. A directory that is there already is
kept. -/
def insert (added : FileTree) : List String → FileTree → FileTree
  | [], tree => if tree.isDirectory && added.isDirectory then tree else added
  | name :: rest, tree =>
    match tree.entry? name with
    | some below => tree.setEntry name (insert added rest below)
    | none => tree.setEntry name (insert added rest empty)

/-- The components of a path that lead anywhere. -/
def parts (path : String) : List String :=
  (splitPath path).filter fun part => part != "" && part != "."

/-- The tree with some files and directories. -/
def ofPaths (files directories : List String) : FileTree :=
  let withDirectories := directories.foldl (fun tree path => insert empty (parts path) tree) empty
  files.foldl (fun tree path => insert file (parts path) tree) withDirectories

/-- What the components of a path lead to. `above` are the directories on the way, the nearest
first. Every step starts in a directory, and none leads above the root. -/
def walk : List String → FileTree → (above : List FileTree) → Option FileTree
  | [], tree, _ => some tree
  | part :: rest, tree, above =>
    if !tree.isDirectory then none
    else if part = "" || part = "." then walk rest tree above
    else if part = ".." then
      match above with
      | [] => none
      | parent :: above => walk rest parent above
    else (tree.entry? part).bind fun below => walk rest below (tree :: above)

/-- What a relative path leads to. -/
def find? (tree : FileTree) (path : String) : Option FileTree :=
  if path.isEmpty || path.startsWith "/" then none else walk (splitPath path) tree []

/-- The paths of the test files among the entries of a directory, in the order of their names. -/
def ownTests (path : String) (entries : List (String × FileTree)) : List String :=
  let files := entries.filterMap fun (name, tree) =>
    if !tree.isDirectory && name.endsWith testExtension then some name else none
  (files.mergeSort nameOrder).map (joinPath path)

mutual

/-- The paths of the test files below a directory with a given path: its own, and then those of its
subdirectories in the order of their names. -/
def testsBelow (path : String) : FileTree → List String
  | file => []
  | directory entries =>
    ownTests path entries ++
      ((testsOfEntries path entries).mergeSort fun a b => nameOrder a.1 b.1).flatMap (·.2)
termination_by structural tree => tree

/-- The names of the entries, each with the paths of the test files below it. -/
def testsOfEntries (path : String) : List (String × FileTree) → List (String × List String)
  | [] => []
  | (name, tree) :: rest =>
    (name, tree.testsBelow (joinPath path name)) :: testsOfEntries path rest
termination_by structural entries => entries

end

/-- The test files of a path, given what it leads to: the path itself if it leads to a file, and
otherwise those below it. -/
def testsOf (path : String) : Option FileTree → List String
  | some .file => [path]
  | some below => below.testsBelow path
  | none => []

end FileTree

/-- The test files of a list of paths, path by path, given what paths lead to. -/
def testFilesOf (leadsTo : String → Option FileTree) (paths : List String) : List String :=
  paths.flatMap fun path => FileTree.testsOf path (leadsTo path)

/-- The test files of a list of paths in a tree. -/
def testFiles (tree : FileTree) (paths : List String) : List String :=
  testFilesOf tree.find? paths

end Precedence
