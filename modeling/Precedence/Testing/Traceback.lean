import Precedence.Text.Digit

/-!
# Tracebacks

A line of a traceback names a file. Paths below the working directory are shown relative to it, and
paths below the home directory with a tilde.

## Main definitions

- `FrameLine` — a message that names a file
- `FrameLine.ofChars?` — recognise such a message
- `slashed` — a directory with a slash at its end
- `shortenMessage` — a message with its path shortened
-/

namespace Precedence

/-- A message that names a file: the path, and everything from the line number on. -/
structure FrameLine where
  file : List Char
  rest : List Char
deriving Repr, DecidableEq

namespace FrameLine

/-- What the message starts with. -/
def opening : List Char :=
  "  File \"".toList

/-- What stands between the path and the line number. -/
def between : List Char :=
  "\", line ".toList

/-- What follows a prefix. -/
def after? (start text : List Char) : Option (List Char) :=
  if start.isPrefixOf text then some (text.drop start.length) else none

/-- A message that names a file. The path has no quote and no newline in it, and the line number has
at least one digit, of whatever script. -/
def ofChars? (message : List Char) : Option FrameLine := do
  let text ← after? opening message
  let inPath (c : Char) : Bool := c != '\x22' && c != '\n'
  let file := text.takeWhile inPath
  let rest ← after? between (text.dropWhile inPath)
  guard (!file.isEmpty && (rest.head?.map isDigit).getD false)
  some ⟨file, rest⟩

/-- The message. -/
def chars (line : FrameLine) : List Char :=
  opening ++ line.file ++ between ++ line.rest

end FrameLine

/-- A directory with a slash at its end. -/
def slashed (directory : String) : String :=
  if directory.endsWith "/" then directory else directory ++ "/"

/-- A path as it is shown: below the working directory relative to it, with a dot before a bare name,
and below the home directory with a tilde. Both directories end with a slash. -/
def shortenPath (workDir home file : List Char) : List Char :=
  match FrameLine.after? workDir file with
  | some path => if path.contains '/' then path else '.' :: '/' :: path
  | none =>
    match FrameLine.after? home file with
    | some path => '~' :: '/' :: path
    | none => file

/-- A message with its path shortened, if it names a file. -/
def shortenMessage (workDir home message : String) : String :=
  match FrameLine.ofChars? message.toList with
  | some line =>
    String.ofList { line with file := shortenPath workDir.toList home.toList line.file }.chars
  | none => message

end Precedence
