import Precedence.Lexer
import Precedence.Pattern.Reading
import Precedence.Value.Text

/-!
# Defining lexers by texts

A lexer is defined by flags and an ordered list of names with the texts of their patterns. Each
pattern becomes a group with its name, and must be a pattern by itself; the alternatives together are
the pattern of the lexer.

## Main definitions

- `LexerDefinition` — flags and named texts
- `LexerDefinition.build` — the lexer
- `LexerFault` — why there is no such lexer
- `Drop` — which kinds of pairs are left out
-/

namespace Precedence

/-- Flags, and names with the texts of their patterns. What stands for a text may be another value,
which is refused. -/
structure LexerDefinition where
  flags : String
  patterns : List (String × Value)

/-- A lexer with the texts of its patterns as they were built. -/
structure NamedLexer where
  lexer : Lexer String
  patterns : List (String × String)

/-- Why a definition does not make a lexer. -/
inductive LexerFault where
  | badFlag (letter : Char)
  | noPatterns
  | badName (name : String)
  | reservedName (name : String)
  | notText (name : String) (found : Value)
  | badPattern (name text : String)
  | badRepeat (fault : PatternFault)
  | conflictingGroup (name group : String)
  | badAlternatives (text : List Char) (fault : PatternFault)

/-- The kind of text that no pattern matches. -/
def invalidKind : String := "invalid"

/-- Which kinds are left out: those of a list, or all whose names are parts of a text. -/
inductive Drop where
  | kinds (names : List String)
  | partsOf (text : String)

/-- Whether a list of characters starts with, or holds somewhere, another one. -/
def isPart (part : List Char) : List Char → Bool
  | [] => part.isEmpty
  | c :: rest => part.isPrefixOf (c :: rest) || isPart part rest

/-- Whether a kind is left out. -/
def Drop.contains : Drop → String → Bool
  | kinds names, kind => names.contains kind
  | partsOf text, kind => isPart kind.toList text.toList

/-- A fault of a definition as an exception. -/
def LexerFault.toFault : LexerFault → Fault
  | badFlag letter => definition ("invalid global regex flag: " ++ letter.toString)
  | noPatterns => definition "Lexer instance must define at least one pattern"
  | badName name => definition ("invalid name: " ++ quoted name)
  | reservedName name =>
    definition (quoted name ++ " pattern name collides with the invalid token name")
  | notText name found =>
    definition (quoted name ++ " pattern value must be a string; found " ++ found.shown)
  | badPattern name text => definition (quoted name ++ " pattern is invalid: " ++ text)
  | badRepeat fault =>
    let cls : ObjectClass := match fault with
      | .repeatTooLarge => "OverflowError"
      | _ => "ValueError"
    .ofMessage cls (fault.message [])
  | conflictingGroup name group =>
    definition (quoted name ++ " pattern contains a conflicting capture group name: "
      ++ quoted group)
  | badAlternatives text fault => .ofMessage "error" (fault.message text)
where
  /-- A complaint about the definition of a lexer. -/
  definition (message : String) : Fault :=
    .ofMessage "Lexer.DefinitionError" message

/-- Why lexing stopped, as an exception. -/
def LexFault.toFault : LexFault String → Fault
  | emptyMatch kind pos =>
    .ofMessage "Lexer.DefinitionError"
      ("Zero-length patterns are disallowed.\n  kind: " ++ kind.getD "None"
        ++ "; match: <re.Match object; span=(" ++ toString pos ++ ", " ++ toString pos
        ++ "), match=''>")
  | noKind => ⟨"AssertionError", []⟩

/-- The complaint about something that is to be lexed and is no source. -/
def notASource (v : Value) : Fault :=
  ⟨"TypeError", [v]⟩

namespace LexerDefinition

/-- The letters of flags. -/
def flagLetters : List Char :=
  ['a', 'i', 'L', 'm', 's', 'u', 'x']

/-- Put a named text into a list; a name that is there already keeps its place. -/
def put (patterns : List (String × Value)) (name : String) (v : Value) : List (String × Value) :=
  if patterns.any (·.1 == name) then
    patterns.map fun entry => if entry.1 == name then (name, v) else entry
  else patterns ++ [(name, v)]

/-- The definition with a list of named texts, of which the last one with a name counts. -/
def ofList (flags : String) (patterns : List (String × Value)) : LexerDefinition :=
  ⟨flags, patterns.foldl (fun done entry => put done entry.1 entry.2) []⟩

/-- Whether a text starts with an ASCII letter or an underscore and goes on with word characters. -/
def isPatternName : List Char → Bool
  | [] => false
  | c :: rest => (c.isAlpha || c = '_') && rest.all isWord

/-- The text of a pattern as a named group, with the flags before it. -/
def groupText (flags name text : String) : String :=
  (if flags.isEmpty then "" else "(?" ++ flags ++ ")") ++ "(?P<" ++ name ++ ">" ++ text ++ ")"

/-- The text of a named pattern as a group, which must be a pattern by itself, and must have no group
with the name of another pattern. -/
def checkPattern (definition : LexerDefinition) (name : String) (v : Value) :
    Except LexerFault (String × String) := do
  unless isPatternName name.toList do throw (.badName name)
  if name = invalidKind then throw (.reservedName name)
  match v with
  | .text text =>
    let built := groupText definition.flags name text
    match Regex.read built.toList with
    | .error .repeatTooLarge => throw (.badRepeat .repeatTooLarge)
    | .error (.repeatTooLong digits) => throw (.badRepeat (.repeatTooLong digits))
    | .error _ => throw (.badPattern name built)
    | .ok regex =>
      let taken (group : String) : Bool :=
        group != name && definition.patterns.any (·.1 == group)
      match regex.names.find? (taken ·.1) with
      | some (group, _) => throw (.conflictingGroup name group)
      | none => return (name, built)
  | v => throw (.notText name v)

/-- The lexer of a definition. -/
def build (definition : LexerDefinition) : Except LexerFault NamedLexer := do
  match definition.flags.toList.find? (!flagLetters.contains ·) with
  | some letter => throw (.badFlag letter)
  | none => pure ()
  if definition.patterns.isEmpty then throw .noPatterns
  let patterns ← definition.patterns.mapM fun entry => definition.checkPattern entry.1 entry.2
  let text := ("|".intercalate (patterns.map (·.2))).toList
  match Regex.read text with
  | .error fault => throw (.badAlternatives text fault)
  | .ok regex => return ⟨⟨regex.pattern, regex.nameOf?, invalidKind⟩, patterns⟩

end LexerDefinition

/-- The names of a lexer's patterns in ascending order. -/
def NamedLexer.kinds (lexer : NamedLexer) : List String :=
  (lexer.patterns.map (·.1)).mergeSort fun a b => decide (a ≤ b)

end Precedence
