import Precedence.Text.Digit
import Precedence.Text.Quoted

/-!
# Command line options

A command takes options, none of which has a value, and any number of operands. Options may be
shortened as long as only one matches; a word that could be a negative number, or that has a space in
it, is an operand; and so is every word after the first `--`.

## Main definitions

- `OptionSpec` — the spellings of an option
- `Word` — what a word of the command line is
- `Word.classify` — tell what the words are
- `Invocation` — what a command line asks for
- `readOptions` — read a command line

## Design notes

The operands are the first run of words that are no options; words of later runs, and options that
are not known, are left over. A letter option may be followed by other letters, each of which is an
option of its own.
-/

namespace Precedence

/-- The spellings of an option, with their hyphens, and whether it asks for help. -/
structure OptionSpec where
  names : List String
  asksHelp : Bool
deriving Repr, DecidableEq, Inhabited

/-- What follows the spelling of an option in the same word, and whether an equals sign is between
them. -/
structure Attached where
  afterEquals : Bool
  text : List Char
deriving Repr

/-- A word of a command line: an operand, the mark that ends the options, an option, or something
that looks like one. -/
inductive Word where
  | operand (text : String)
  | endMark
  | option (spec : OptionSpec) (name : List Char) (attached : Option Attached)
  | unknown (text : String)
deriving Repr

/-- What a command line asks for: help, or a run with some options and operands. -/
inductive Invocation where
  | help
  | run (options : List OptionSpec) (operands : List String)
deriving Repr

/-- The option with a spelling. -/
def findOption? (specs : List OptionSpec) (name : List Char) : Option OptionSpec :=
  specs.find? fun spec => spec.names.any (·.toList == name)

/-- All spellings, each with its option. -/
def spellings (specs : List OptionSpec) : List (List Char × OptionSpec) :=
  specs.flatMap fun spec => spec.names.map fun name => (name.toList, spec)

/-- Whether a text is a whole or decimal negative number; one newline may follow. -/
def looksNegative (text : List Char) : Bool :=
  let trimmed := if text.getLast? = some '\n' then text.dropLast else text
  let isNumber : List Char → Bool
    | '-' :: digits =>
      let fraction := digits.dropWhile isDigit
      match fraction with
      | [] => !digits.isEmpty
      | '.' :: places => !places.isEmpty && places.all isDigit
      | _ => false
    | _ => false
  isNumber text || isNumber trimmed

/-- The options that a word which is no spelling may stand for, each with the spelling. A long option
may be shortened, and have something attached after an equals sign; an option with one hyphen may be
shortened, or be a letter with something attached. -/
def candidates (specs : List OptionSpec) (word : List Char) : List Word :=
  match word with
  | '-' :: '-' :: _ =>
    let stem := word.takeWhile (· != '=')
    let attached := match word.dropWhile (· != '=') with
      | [] => none
      | _ :: text => some ⟨true, text⟩
    (spellings specs).filterMap fun (name, spec) =>
      if stem.isPrefixOf name then some (.option spec name attached) else none
  | _ =>
    let letter := word.take 2
    (spellings specs).filterMap fun (name, spec) =>
      if name == letter then some (.option spec name (some ⟨false, word.drop 2⟩))
      else if word.isPrefixOf name then some (.option spec name none)
      else none

/-- The spelling that a word in question is for. -/
def Word.spelling : Word → String
  | option _ name _ => String.ofList name
  | operand text => text
  | unknown text => text
  | endMark => "--"

/-- What a word before the end mark is. -/
def Word.ofText (specs : List OptionSpec) (text : String) : Except String Word :=
  let word := text.toList
  let exact := fun name attached => (findOption? specs name).map (Word.option · name attached)
  let beforeEquals := word.takeWhile (· != '=')
  let afterEquals := word.dropWhile (· != '=')
  if word.head? != some '-' then .ok (.operand text)
  else
    match exact word none with
    | some found => .ok found
    | none =>
      if word.length = 1 then .ok (.operand text)
      else
        match afterEquals, exact beforeEquals (some ⟨true, afterEquals.tail⟩) with
        | _ :: _, some found => .ok found
        | _, _ =>
          match candidates specs word with
          | [found] => .ok found
          | [] =>
            if looksNegative word || word.contains ' ' then .ok (.operand text)
            else .ok (.unknown text)
          | several =>
            .error ("ambiguous option: " ++ text ++ " could match "
              ++ ", ".intercalate (several.map Word.spelling))

/-- What the words of a command line are. -/
def Word.classify (specs : List OptionSpec) : List String → Except String (List Word)
  | [] => .ok []
  | text :: rest =>
    if text = "--" then .ok (.endMark :: rest.map .operand)
    else do
      let word ← Word.ofText specs text
      let words ← Word.classify specs rest
      pure (word :: words)

/-- The text of a word that is no option. -/
def Word.operandText? : Word → Option String
  | operand text => some text
  | endMark => some "--"
  | _ => none

/-- Why a command line ends before it has been read: it asks for help, or is refused. -/
inductive Halt where
  | help
  | refused (message : String)
deriving Repr

/-- The complaint about something attached to an option, which takes no value. -/
def OptionSpec.noValue (spec : OptionSpec) (text : List Char) : Halt :=
  .refused ("argument " ++ "/".intercalate spec.names ++ ": ignored explicit argument "
    ++ quoted (String.ofList text))

/-- The options that a word stands for, and what is left over of it: every letter attached to a letter
option is an option of its own. At most `fuel` of them are looked at. -/
def expand (specs : List OptionSpec) : (fuel : Nat) → OptionSpec → (name : List Char) →
    Option Attached → Except Halt (List OptionSpec × List String)
  | 0, spec, _, _ => .ok ([spec], [])
  | _ + 1, spec, _, none => .ok ([spec], [])
  | fuel + 1, spec, name, some ⟨afterEquals, text⟩ =>
    match name, text with
    | _ :: '-' :: _, _ => .error (spec.noValue text)
    | _, [] => .error (spec.noValue text)
    | _, letter :: rest =>
      if afterEquals || letter = '-' then .error (spec.noValue text)
      else
        match findOption? specs ['-', letter] with
        | none => .ok ([spec], [String.ofList ('-' :: text)])
        | some next =>
          let attached := match rest with
            | [] => none
            | '=' :: value => some ⟨true, value⟩
            | _ => some ⟨false, rest⟩
          (expand specs fuel next ['-', letter] attached).map fun (found, left) =>
            (spec :: found, left)

/-- What has been read of a command line: the options, the operands once they have been met, and what
is left over. -/
structure Selection where
  options : List OptionSpec
  operands : Option (List String)
  left : List String

namespace Selection

/-- Take a run of words that are no options. The first run gives the operands. -/
def takeRun (selection : Selection) (texts : List String) : Selection :=
  match selection.operands with
  | none => { selection with operands := some (texts.erase "--") }
  | some _ => { selection with left := selection.left ++ texts }

/-- Take options. -/
def takeOptions (selection : Selection) (options : List OptionSpec) (left : List String) :
    Except Halt Selection :=
  if options.any (·.asksHelp) then .error .help
  else
    .ok { selection with
      options := selection.options ++ options
      left := selection.left ++ left }

end Selection

/-- Read words, where `run` has the words since the last option that are no options, the last one
first. -/
def readWords (specs : List OptionSpec) : List Word → (run : List String) → Selection →
    Except Halt Selection
  | [], run, selection => .ok (selection.takeRun run.reverse)
  | word :: rest, run, selection =>
    match word.operandText? with
    | some text => readWords specs rest (text :: run) selection
    | none => do
      let selection := if run.isEmpty then selection else selection.takeRun run.reverse
      match word with
      | .option spec name attached =>
        let fuel := (attached.map (·.text.length)).getD 0 + 1
        let (options, left) ← expand specs fuel spec name attached
        let selection ← selection.takeOptions options left
        readWords specs rest [] selection
      | word => readWords specs rest [] { selection with left := selection.left ++ [word.spelling] }

/-- Read a command line. It is refused if anything is left over. -/
def readOptions (specs : List OptionSpec) (args : List String) : Except String Invocation :=
  match Word.classify specs args with
  | .error message => .error message
  | .ok words =>
    match readWords specs words [] ⟨[], none, []⟩ with
    | .error .help => .ok .help
    | .error (.refused message) => .error message
    | .ok selection =>
      if selection.left.isEmpty then
        .ok (.run selection.options (selection.operands.getD []))
      else .error ("unrecognized arguments: " ++ " ".intercalate selection.left)

/-- A command: its name, its usage and help texts, and its options. -/
structure Command where
  name : String
  usage : String
  description : String
  options : List OptionSpec

namespace Command

/-- What the command writes when asked for help. -/
def help (command : Command) : String :=
  "usage: " ++ command.usage ++ "\n\n" ++ command.description

/-- What the command writes when its command line is refused. -/
def refusal (command : Command) (message : String) : String :=
  "usage: " ++ command.usage ++ "\n" ++ command.name ++ ": error: " ++ message ++ "\n"

/-- The option that asks for help. -/
def helpOption : OptionSpec :=
  ⟨["-h", "--help"], true⟩

end Command

end Precedence
