import Precedence.Number.Numeral
import Precedence.Pattern.Basic
import Precedence.Text.Quoted

/-!
# Reading patterns

Patterns are written as text: most characters stand for themselves, and the others build sets,
anchors, repetitions and groups.

## Main definitions

- `PatternFault` — why a text is no pattern
- `Flags` — what a pattern's flags change
- `PatternToken` — a character, or a character after a backslash
- `Regex.read` — the pattern of a text, with the names of its groups

## Design notes

A brace that does not start a repetition stands for itself. Flags for the whole pattern have to stand
at its start. A reference must be to a group that is closed; within a look-behind, to one that was
opened before it. A look-behind of variable width is refused only after the whole text has been read.

Reading an item takes at least one token, and every nested call takes one as well, so four times the
number of tokens bounds the depth of the recursion and serves as the fuel.
-/

namespace Precedence

/-- Why a text is no pattern. The faults that depend on what stands before a part of the text tell
what they are about and where it is. -/
inductive PatternFault where
  | malformed
  | misplacedFlags (pos : Nat)
  | openGroup (pos : Nat)
  | redefinedGroup (name : String) (index earlier pos : Nat)
  | variableLookBehind
  | repeatTooLarge
  | repeatTooLong (digits : Nat)
deriving Repr, DecidableEq

/-- The flags of a pattern: case does not matter; `^` and `$` hold at every line; a point matches a
newline too; blanks and comments are skipped; categories and case are those of ASCII. -/
structure Flags where
  ignoreCase : Bool
  multiline : Bool
  dotAll : Bool
  verbose : Bool
  ascii : Bool
deriving Repr, DecidableEq

namespace Flags

/-- No flags. -/
def none : Flags :=
  ⟨false, false, false, false, false⟩

/-- How case is compared. -/
def folding (flags : Flags) : Folding :=
  if !flags.ignoreCase then .none else if flags.ascii then .ascii else .unicode

/-- Turn a flag on or off. The flag for all scripts turns off the one for ASCII. -/
def set (flags : Flags) (on : Bool) (letter : Char) : Flags :=
  match letter with
  | 'i' => { flags with ignoreCase := on }
  | 'm' => { flags with multiline := on }
  | 's' => { flags with dotAll := on }
  | 'x' => { flags with verbose := on }
  | 'a' => { flags with ascii := on }
  | 'u' => { flags with ascii := !on }
  | _ => flags

/-- Turn some flags on, and then some off. -/
def update (flags : Flags) (on off : List Char) : Flags :=
  off.foldl (·.set false ·) (on.foldl (·.set true ·) flags)

end Flags

/-- A character of a pattern's text at a position; an escaped one stands after a backslash, at whose
position the token starts. -/
structure PatternToken where
  pos : Nat
  char : Char
  escaped : Bool
deriving Repr, DecidableEq

namespace PatternToken

/-- The tokens of a text that starts at a position. A backslash needs a character after it. -/
def ofChars? : Nat → List Char → Option (List PatternToken)
  | _, [] => some []
  | pos, '\\' :: c :: rest => (ofChars? (pos + 2) rest).map (⟨pos, c, true⟩ :: ·)
  | _, ['\\'] => none
  | pos, c :: rest => (ofChars? (pos + 1) rest).map (⟨pos, c, false⟩ :: ·)

/-- Whether a token is a character that is not escaped. -/
def is (token : PatternToken) (c : Char) : Bool :=
  !token.escaped && token.char == c

/-- Whether a token is one of some characters, not escaped. -/
def isOneOf (token : PatternToken) (cs : List Char) : Bool :=
  !token.escaped && cs.contains token.char

/-- The text of a token. -/
def chars (token : PatternToken) : List Char :=
  if token.escaped then ['\\', token.char] else [token.char]

end PatternToken

/-- What has been read so far: the tokens to come, the length of the text, the widths of the groups
opened so far, of which an open one has none yet, the names of groups, how many groups had been opened
before the look-behind that is being read, the groups that conditions ask about, and whether the width
of some look-behind varies. -/
structure Reading where
  rest : List PatternToken
  size : Nat
  groups : List (Option Width)
  names : List (String × Nat)
  behind : Option Nat
  conditions : List Nat
  variableBehind : Bool

/-- An action that reads a pattern. -/
abbrev ReadM := StateT Reading (Except PatternFault)

/-- Whether an item of a sequence can be repeated: a place cannot, and a repetition not again. -/
inductive ItemKind where
  | place
  | repetition
  | other
deriving Repr, DecidableEq

/-- An item of a sequence. -/
structure PatternItem where
  pattern : Pattern
  kind : ItemKind

/-- The bounds of a repetition. -/
structure RepeatBounds where
  least : Nat
  most : Option Nat

/-- What an escape stands for: a code point, a category, an anchor, or a group. -/
inductive Escape where
  | code (n : Nat)
  | category (category : Category)
  | place (anchor : Anchor)
  | group (index : Nat)

/-- What a group that starts with a question mark and flags is for: setting flags for the whole
pattern, or for the rest of the group. -/
inductive FlagGroup where
  | everywhere (on : List Char)
  | scoped (on off : List Char)

namespace ReadM

/-- The text is no pattern. -/
def malformed {α : Type} : ReadM α :=
  throw .malformed

/-- The next token, if there is one. -/
def peek : ReadM (Option PatternToken) := do
  return (← get).rest.head?

/-- Whether the next token is a given character. -/
def nextIs (c : Char) : ReadM Bool := do
  return ((← peek).map (·.is c)).getD false

/-- Take the next token. -/
def take : ReadM (Option PatternToken) := do
  let reading ← get
  set { reading with rest := reading.rest.tail }
  return reading.rest.head?

/-- Take the next token, which must be there. -/
def takeSome : ReadM PatternToken := do
  match ← take with
  | some token => pure token
  | none => malformed

/-- Take the next token if it is a given character. -/
def accept (c : Char) : ReadM Bool := do
  if ← nextIs c then
    let _ ← take
    pure true
  else pure false

/-- Take the next token, which must be a given character. -/
def expect (c : Char) : ReadM Unit := do
  unless ← accept c do malformed

/-- The position of the next token. -/
def position : ReadM Nat := do
  let reading ← get
  return (reading.rest.head?.map PatternToken.pos).getD reading.size

/-- Take at most `count` characters of which each is one of some. -/
def takeUpTo (allowed : Char → Bool) : Nat → ReadM (List Char)
  | 0 => pure []
  | count + 1 => do
    match ← peek with
    | some token =>
      if !token.escaped && allowed token.char then
        let _ ← take
        return token.char :: (← takeUpTo allowed count)
      else pure []
    | none => pure []

/-- Take all characters up to a mark, and the mark; there must be at least one. -/
def takeUntil (mark : Char) : ReadM (List Char) := do
  let reading ← get
  let name := reading.rest.takeWhile (!·.is mark)
  if name.isEmpty then malformed
  else
    set { reading with rest := reading.rest.drop name.length }
    expect mark
    return name.flatMap PatternToken.chars

/-! ### Groups -/

/-- Open a group; the name must be new. -/
def openGroup (name : Option String) (pos : Nat) : ReadM Nat := do
  let reading ← get
  let index := reading.groups.length + 1
  let names ← match name with
    | none => pure reading.names
    | some name =>
      match reading.names.lookup name with
      | some earlier => throw (.redefinedGroup name index earlier pos)
      | none => pure (reading.names ++ [(name, index)])
  set { reading with groups := reading.groups ++ [none], names }
  return index

/-- Close a group, whose width is known now. -/
def closeGroup (index : Nat) (width : Width) : ReadM Unit :=
  modify fun reading => { reading with groups := reading.groups.set (index - 1) (some width) }

/-- Whether a group has been closed. -/
def isClosed (index : Nat) : ReadM Bool := do
  return (((← get).groups[index - 1]?).bind id).isSome

/-- The width of a closed group. -/
def widthOf (groups : List (Option Width)) (index : Nat) : Width :=
  ((groups[index - 1]?).bind id).getD .zero

/-- Within a look-behind, a group must be closed and have been opened before the look-behind. -/
def checkBehind (index pos : Nat) : ReadM Unit := do
  match (← get).behind with
  | none => pure ()
  | some opened =>
    unless ← isClosed index do throw (.openGroup pos)
    if opened < index then malformed

/-- Refer to a group that must exist and be closed. -/
def reference (index pos : Nat) : ReadM Nat := do
  unless 0 < index && index ≤ (← get).groups.length do malformed
  unless ← isClosed index do throw (.openGroup pos)
  checkBehind index pos
  return index

/-! ### Escapes -/

/-- The number that digits of a base stand for. -/
def numeral (base : Nat) (digits : List Char) : Nat :=
  digits.foldl (fun n c => base * n + hexValue c) 0
where
  /-- The value of a digit in base sixteen. -/
  hexValue (c : Char) : Nat :=
    if c.isDigit then c.toNat - 0x30 else c.toLower.toNat - 0x57

/-- Whether a character is a digit in base sixteen. -/
def isHex (c : Char) : Bool :=
  c.isDigit || ('a' ≤ c && c ≤ 'f') || ('A' ≤ c && c ≤ 'F')

/-- Whether a character is a digit in base eight. -/
def isOctal (c : Char) : Bool :=
  '0' ≤ c && c ≤ '7'

/-- The code point that `count` digits in base sixteen stand for. -/
def hexCode (count : Nat) : ReadM Escape := do
  let digits ← takeUpTo isHex count
  let n := numeral 16 digits
  if digits.length = count && n ≤ 0x10ffff then return .code n else malformed

/-- The code point of a control character that a letter stands for. -/
def controlCode? : Char → Option Nat
  | 'a' => some 7
  | 'b' => some 8
  | 'f' => some 12
  | 'n' => some 10
  | 'r' => some 13
  | 't' => some 9
  | 'v' => some 11
  | _ => none

/-- The category that a letter stands for. -/
def category? (ascii : Bool) : Char → Option Category
  | 'd' => some ⟨.digit, ascii, false⟩
  | 'D' => some ⟨.digit, ascii, true⟩
  | 's' => some ⟨.blank, ascii, false⟩
  | 'S' => some ⟨.blank, ascii, true⟩
  | 'w' => some ⟨.word, ascii, false⟩
  | 'W' => some ⟨.word, ascii, true⟩
  | _ => none

/-- The place that a letter stands for. -/
def place? (ascii : Bool) : Char → Option Anchor
  | 'A' => some .textStart
  | 'Z' => some .textEnd
  | 'b' => some (.boundary ascii false)
  | 'B' => some (.boundary ascii true)
  | _ => none

/-- An octal code point, which must be less than 256. -/
def octalCode (digits : List Char) : ReadM Escape := do
  let n := numeral 8 digits
  if n < 0x100 then return .code n else malformed

/-- An escape that means the same everywhere: a code point in base sixteen, or a character that is
no ASCII letter and stands for itself. -/
def plainEscape (c : Char) : ReadM Escape :=
  match c with
  | 'x' => hexCode 2
  | 'u' => hexCode 4
  | 'U' => hexCode 8
  | c => if c.isAlpha then malformed else return .code c.toNat

/-- An escape that starts with a digit other than zero: three octal digits are a code point, and
anything shorter refers to a group. -/
def digitEscape (first : Char) (pos : Nat) : ReadM Escape := do
  match ← takeUpTo Char.isDigit 1 with
  | [] => return .group (← reference (numeral 10 [first]) pos)
  | second :: _ =>
    let third ← if isOctal first && isOctal second then takeUpTo isOctal 1 else pure []
    match third with
    | [] => return .group (← reference (numeral 10 [first, second]) pos)
    | third :: _ => octalCode [first, second, third]

/-- What an escape outside a set stands for. -/
def escape (flags : Flags) (token : PatternToken) : ReadM Escape := do
  let c := token.char
  match category? flags.ascii c, place? flags.ascii c, controlCode? c with
  | some category, _, _ => return .category category
  | none, some anchor, _ => return .place anchor
  | none, none, some code => return .code code
  | none, none, none =>
    if c = '0' then octalCode (← takeUpTo isOctal 2)
    else if c.isDigit then digitEscape c token.pos
    else plainEscape c

/-- What an escape within a set stands for. -/
def setEscape (flags : Flags) (token : PatternToken) : ReadM CharItem := do
  let c := token.char
  let code ← match controlCode? c, category? flags.ascii c with
    | some code, _ => pure (.code code)
    | none, some category => pure (.category category)
    | none, none =>
      if isOctal c then octalCode (c :: (← takeUpTo isOctal 2))
      else if c.isDigit then malformed
      else plainEscape c
  match code with
  | .code n => return .single n
  | .category k => return .category k
  | _ => malformed

/-! ### Sets -/

/-- One end of a range, or an item of its own. -/
def setItem (flags : Flags) (token : PatternToken) : ReadM CharItem :=
  if token.escaped then setEscape flags token else return .single token.char.toNat

/-- The items of a set up to the closing bracket, which stands for itself as the first item. -/
def setItems (flags : Flags) : (fuel : Nat) → List CharItem → ReadM (List CharItem)
  | 0, _ => malformed
  | fuel + 1, done => do
    let token ← takeSome
    if token.is ']' && !done.isEmpty then return done.reverse
    let first ← setItem flags token
    if ← accept '-' then
      let token ← takeSome
      if token.is ']' then return (.single 0x2d :: first :: done).reverse
      let last ← setItem flags token
      match first, last with
      | .single lo, .single hi =>
        if hi < lo then malformed
        else setItems flags fuel (.range lo hi :: done)
      | _, _ => malformed
    else setItems flags fuel (first :: done)

/-- A set after its opening bracket. -/
def charSet (flags : Flags) : ReadM CharSet := do
  let negated ← accept '^'
  let items ← setItems flags ((← get).rest.length + 1) []
  match items.eraseDups with
  | [.single code] => return .ofLiteral flags.folding negated code
  | items => return .ofItems flags.folding negated items

/-! ### Repetitions -/

/-- The most rounds that a repetition can be asked for, plus one. -/
def repeatLimit : Nat := 0xffffffff

/-- A number of rounds. -/
def roundCount (digits : List Char) : ReadM Nat := do
  if maxIntegerDigits < digits.length then throw (.repeatTooLong digits.length)
  let n := numeral 10 digits
  if repeatLimit ≤ n then throw .repeatTooLarge
  return n

/-- The texts of the bounds after an opening brace, and what follows the closing one. A lone number
is both bounds. Nothing if the brace starts no repetition. -/
def boundTexts? (rest : List PatternToken) : Option (List Char × List Char × List PatternToken) :=
  let isDigitToken (token : PatternToken) : Bool := !token.escaped && token.char.isDigit
  let low := rest.takeWhile isDigitToken
  let afterLow := rest.dropWhile isDigitToken
  let (high, afterHigh) :=
    match afterLow with
    | token :: tail =>
      if token.is ',' then (tail.takeWhile isDigitToken, tail.dropWhile isDigitToken)
      else (low, afterLow)
    | [] => (low, [])
  match rest, afterHigh with
  | first :: _, close :: after =>
    if close.is '}' && !first.is '}' then
      some (low.map PatternToken.char, high.map PatternToken.char, after)
    else none
  | _, _ => none

/-- The bounds after an opening brace, if it starts a repetition. -/
def braceBounds : ReadM (Option RepeatBounds) := do
  let reading ← get
  match boundTexts? reading.rest with
  | none => return none
  | some (low, high, after) =>
    set { reading with rest := after }
    let least ← if low.isEmpty then pure 0 else roundCount low
    let most ← if high.isEmpty then pure none else some <$> roundCount high
    match most with
    | some n => if n < least then malformed
    | none => pure ()
    return some ⟨least, most⟩

/-- The bounds of a repetition whose mark has been taken. -/
def repeatBounds (mark : Char) : ReadM (Option RepeatBounds) :=
  match mark with
  | '?' => return some ⟨0, some 1⟩
  | '*' => return some ⟨0, none⟩
  | '+' => return some ⟨1, none⟩
  | _ => braceBounds

/-- How a repetition proceeds, by the mark after its bounds. -/
def takeGreed : ReadM Greed := do
  if ← accept '?' then return .lazy
  if ← accept '+' then return .possessive
  return .greedy

/-- Put a repetition in the place of the last item. -/
def repeatLast (bounds : RepeatBounds) : List PatternItem → ReadM (List PatternItem)
  | ⟨body, .other⟩ :: rest => do
    let greed ← takeGreed
    return ⟨.repeat greed bounds.least bounds.most body, .repetition⟩ :: rest
  | _ => malformed

/-! ### Flags and names -/

/-- The letters of flags that can be turned on. -/
def flagLetters : List Char :=
  ['a', 'i', 'm', 's', 'u', 'x']

/-- The letters of flags that can be turned off. -/
def offLetters : List Char :=
  ['i', 'm', 's', 'x']

/-- The flags of a group after its question mark. -/
def flagGroup : ReadM FlagGroup := do
  let on ← takeUpTo flagLetters.contains (← get).rest.length
  if on.contains 'a' && on.contains 'u' then malformed
  let close ← takeSome
  if close.is ')' && !on.isEmpty then return .everywhere on
  else if close.is ':' then return .scoped on []
  else if close.is '-' then
    let off ← takeUpTo offLetters.contains (← get).rest.length
    expect ':'
    if off.isEmpty || off.any on.contains then malformed
    return .scoped on off
  else malformed

/-- The name of a group up to a mark. -/
def groupName (mark : Char) : ReadM String := do
  let name ← takeUntil mark
  if isName name then return String.ofList name else malformed

/-- The index of a group with a name. -/
def namedGroup (name : String) : ReadM Nat := do
  match (← get).names.lookup name with
  | some index => return index
  | none => malformed

/-- The group that a condition asks about, by name or by number. -/
def condition : ReadM Nat := do
  let name ← takeUntil ')'
  let index ←
    if isName name then namedGroup (String.ofList name)
    else
      match readInteger? name with
      | some (.ofNat (n + 1)) =>
        modify fun reading => { reading with conditions := (n + 1) :: reading.conditions }
        pure (n + 1)
      | _ => malformed
  checkBehind index (← position)
  return index

/-- Skip the rest of a comment in a verbose pattern. -/
def skipLine : ReadM Unit :=
  modify fun reading => { reading with rest := (reading.rest.dropWhile (!·.is '\n')).tail }

/-- Skip a comment group. -/
def skipComment : ReadM Unit := do
  let reading ← get
  let rest := reading.rest.dropWhile (!·.is ')')
  if rest.isEmpty then malformed else set { reading with rest := rest.tail }

/-- The blanks that a verbose pattern skips. -/
def skippedBlanks : List Char :=
  [' ', '\t', '\n', '\r', '\x0b', '\x0c']

/-- A look-behind, whose width must not vary. -/
def lookBehind (negated : Bool) (body : Pattern) : ReadM Pattern := do
  let reading ← get
  let width := body.width (widthOf reading.groups)
  if repeatLimit < width.least then malformed
  if width.fixed?.isNone then set { reading with variableBehind := true }
  return .lookBehind negated width.least body

/-! ### Sequences and alternatives -/

mutual

/-- One of several sequences. -/
def alternatives : (fuel : Nat) → Flags → ReadM Pattern
  | 0, _ => malformed
  | fuel + 1, flags => do
    let first ← sequence fuel flags []
    if ← accept '|' then return .alt first (← alternatives fuel flags) else return first

/-- A sequence of items, up to a bar, a closing parenthesis or the end. -/
def sequence : (fuel : Nat) → Flags → List PatternItem → ReadM Pattern
  | 0, _, _ => malformed
  | fuel + 1, flags, done => do
    match ← peek with
    | none => return .sequence (done.reverse.map PatternItem.pattern)
    | some token =>
      if token.isOneOf ['|', ')'] then
        return .sequence (done.reverse.map PatternItem.pattern)
      else
        let _ ← take
        let done ← item fuel flags token done
        sequence fuel flags done

/-- An item that starts with a token, put before the items already read. -/
def item : (fuel : Nat) → Flags → PatternToken → List PatternItem → ReadM (List PatternItem)
  | 0, _, _, _ => malformed
  | fuel + 1, flags, token, done => do
    let literal (code : Nat) : List PatternItem :=
      ⟨.char (.ofLiteral flags.folding false code), .other⟩ :: done
    let anchor (place : Anchor) : List PatternItem := ⟨.anchor place, .place⟩ :: done
    if token.escaped then
      match ← escape flags token with
      | .code n => return literal n
      | .category k => return ⟨.char (.ofCategory k), .other⟩ :: done
      | .place place => return anchor place
      | .group index => return ⟨.backref flags.folding index, .other⟩ :: done
    else if flags.verbose && skippedBlanks.contains token.char then return done
    else if flags.verbose && token.char = '#' then
      skipLine
      return done
    else
      match token.char with
      | '[' => return ⟨.char (← charSet flags), .other⟩ :: done
      | '.' =>
        return ⟨.char (if flags.dotAll then .all else .allButNewline), .other⟩ :: done
      | '^' => return anchor (if flags.multiline then .lineStart else .textStart)
      | '$' => return anchor (if flags.multiline then .lineEnd else .lastEnd)
      | '(' =>
        if ← accept '?' then extended fuel flags token.pos done
        else
          let index ← openGroup none token.pos
          return (← captured fuel flags index) :: done
      | c =>
        if ['*', '+', '?', '{'].contains c then
          match ← repeatBounds c with
          | some bounds => repeatLast bounds done
          | none => return literal c.toNat
        else return literal c.toNat

/-- The rest of a group that has been opened. -/
def captured : (fuel : Nat) → Flags → (index : Nat) → ReadM PatternItem
  | 0, _, _ => malformed
  | fuel + 1, flags, index => do
    let body ← alternatives fuel flags
    expect ')'
    closeGroup index (body.width (widthOf (← get).groups))
    return ⟨.group index body, .other⟩

/-- The rest of a group that starts with a question mark. -/
def extended : (fuel : Nat) → Flags → (start : Nat) → List PatternItem → ReadM (List PatternItem)
  | 0, _, _, _ => malformed
  | fuel + 1, flags, start, done => do
    let enclosedBody (flags : Flags) : ReadM Pattern := do
      let body ← alternatives fuel flags
      expect ')'
      return body
    let mark ← takeSome
    if mark.escaped then malformed
    match mark.char with
    | 'P' =>
      if ← accept '<' then
        let pos ← position
        let name ← groupName '>'
        let index ← openGroup (some name) pos
        return (← captured fuel flags index) :: done
      else
        expect '='
        let pos ← position
        let index ← namedGroup (← groupName ')')
        return ⟨.backref flags.folding (← reference index pos), .other⟩ :: done
    | ':' => return ⟨← enclosedBody flags, .other⟩ :: done
    | '#' =>
      skipComment
      return done
    | '=' => return ⟨.lookAhead false (← enclosedBody flags), .other⟩ :: done
    | '!' => return ⟨.lookAhead true (← enclosedBody flags), .other⟩ :: done
    | '<' =>
      let sign ← takeSome
      unless sign.isOneOf ['=', '!'] do malformed
      let outer := (← get).behind
      modify fun reading =>
        { reading with behind := some (reading.behind.getD reading.groups.length) }
      let body ← alternatives fuel flags
      modify fun reading => { reading with behind := outer }
      expect ')'
      return ⟨← lookBehind (sign.is '!') body, .other⟩ :: done
    | '(' =>
      let index ← condition
      let whenSet ← sequence fuel flags []
      let whenUnset ← if ← accept '|' then sequence fuel flags [] else pure .empty
      expect ')'
      return ⟨.ifGroup index whenSet whenUnset, .other⟩ :: done
    | '>' => return ⟨.atomic (← enclosedBody flags), .other⟩ :: done
    | _ =>
      modify fun reading => { reading with rest := mark :: reading.rest }
      match ← flagGroup with
      | .everywhere _ => throw (.misplacedFlags start)
      | .scoped on off => return ⟨← enclosedBody (flags.update on off), .other⟩ :: done

end

/-- The flags at the start of a pattern; comments may stand between them, and blanks too once the
pattern is verbose. -/
def leadingFlags : (fuel : Nat) → Flags → ReadM Flags
  | 0, flags => pure flags
  | fuel + 1, flags => do
    let reading ← get
    match reading.rest with
    | first :: rest =>
      if flags.verbose && first.isOneOf skippedBlanks then
        set { reading with rest := rest }
        leadingFlags fuel flags
      else if flags.verbose && first.is '#' then
        skipLine
        leadingFlags fuel flags
      else
        match first.is '(', rest with
        | true, second :: third :: rest' =>
          if second.is '?' && third.is '#' then
            set { reading with rest := rest' }
            skipComment
            leadingFlags fuel flags
          else if second.is '?' then
            match flagGroup.run { reading with rest := third :: rest' } with
            | .ok (.everywhere on, reading) =>
              set reading
              leadingFlags fuel (flags.update on [])
            | _ => pure flags
          else pure flags
        | _, _ => pure flags
    | [] => pure flags

/-- A whole pattern. -/
def wholePattern : ReadM Pattern := do
  let size := (← get).rest.length
  let flags ← leadingFlags size .none
  let pattern ← alternatives (4 * size + 4) flags
  let reading ← get
  if !reading.rest.isEmpty then malformed
  else if reading.conditions.any (reading.groups.length < ·) then malformed
  else if reading.variableBehind then throw .variableLookBehind
  else return pattern

end ReadM

namespace PatternFault

/-- The position as a message tells it; in a text of several lines also the line and the column. -/
def place (text : List Char) (pos : Nat) : String :=
  let before := text.take pos
  let line := before.count '\n' + 1
  let column := (before.reverse.takeWhile (· != '\n')).length + 1
  " at position " ++ toString pos
    ++ (if text.contains '\n' then
      " (line " ++ toString line ++ ", column " ++ toString column ++ ")" else "")

/-- The message about a fault of a pattern with the given text. -/
def message (text : List Char) : PatternFault → String
  | malformed => "malformed pattern"
  | misplacedFlags pos => "global flags not at the start of the expression" ++ place text pos
  | openGroup pos => "cannot refer to an open group" ++ place text pos
  | redefinedGroup name index earlier pos =>
    "redefinition of group name " ++ quoted name ++ " as group " ++ toString index
      ++ "; was group " ++ toString earlier ++ place text pos
  | variableLookBehind => "look-behind requires fixed-width pattern"
  | repeatTooLarge => "the repetition number is too large"
  | repeatTooLong digits =>
    "Exceeds the limit (4300 digits) for integer string conversion: value has "
      ++ toString digits ++ " digits; use sys.set_int_max_str_digits() to increase the limit"

end PatternFault

/-- The pattern of a text, with the names of its groups. -/
def Regex.read (text : List Char) : Except PatternFault Regex := do
  match PatternToken.ofChars? 0 text with
  | none => throw .malformed
  | some tokens =>
    let start : Reading := ⟨tokens, text.length, [], [], none, [], false⟩
    let (pattern, reading) ← ReadM.wholePattern.run start
    return ⟨pattern, reading.names⟩

end Precedence
