/-!
# Paths

A path is a text of components with slashes between them. A path that does not start with a slash is
relative to a working directory.

## Main definitions

- `splitPath` — the components of a path
- `absoluteParts` — the components of a path from the root, without dots
- `relativePath` — a path as seen from a directory
- `joinPath` — a path below a directory
-/

namespace Precedence

/-- The components of a path, empty ones included. -/
def splitPath (path : String) : List String :=
  go path.toList
where
  /-- The components of a list of characters. -/
  go : List Char → List String
    | [] => [""]
    | c :: rest =>
      if c = '/' then "" :: go rest
      else
        match go rest with
        | [] => [c.toString]
        | part :: parts => (c.toString ++ part) :: parts

/-- A path below a directory; a path that starts with a slash stands for itself. -/
def joinPath (directory path : String) : String :=
  if path.startsWith "/" then path
  else if directory.isEmpty || directory.endsWith "/" then directory ++ path
  else directory ++ "/" ++ path

/-- Follow a component from a place that is given by its components from the root, the last one first.
Two dots lead to the parent, and the root is its own parent. -/
def followPart (place : List String) (part : String) : List String :=
  if part = "" || part = "." then place
  else if part = ".." then place.tail
  else part :: place

/-- The components of a path from the root, given the working directory. -/
def absoluteParts (workDir path : String) : List String :=
  ((splitPath (joinPath workDir path)).foldl followPart []).reverse

/-- What is left of two lists after their common start. -/
def dropCommon : List String → List String → List String × List String
  | a :: as, b :: bs => if a = b then dropCommon as bs else (a :: as, b :: bs)
  | as, bs => (as, bs)

/-- A path as seen from a directory: up to the common parent, and down again. -/
def relativePath (workDir path directory : String) : String :=
  let (up, down) := dropCommon (absoluteParts workDir directory) (absoluteParts workDir path)
  match up.map (fun _ => "..") ++ down with
  | [] => "."
  | parts => "/".intercalate parts

end Precedence
