import Precedence.Text.Printable

/-!
# Quoted texts

A quoted text stands between apostrophes, or between double quotes if it holds an apostrophe and no
double quote. The backslash, the chosen mark and the characters that are not printable are escaped.

## Main definitions

- `hexDigits` — the last digits of a number in base sixteen
- `quoteMark` — the mark that a text is put between
- `escapeChar` — one character as it stands between two marks
- `quoted` — the quoted text
-/

namespace Precedence

/-- The digit of value `n` in base sixteen, in lower case. -/
def hexDigit (n : Nat) : Char :=
  if n < 10 then Char.ofNat (0x30 + n) else Char.ofNat (0x57 + n)

/-- The last `width` digits of `n` in base sixteen, the most significant first. -/
def hexDigits : Nat → Nat → List Char
  | 0, _ => []
  | width + 1, n => hexDigits width (n / 16) ++ [hexDigit (n % 16)]

/-- The mark around a text: double quotes only for a text that holds an apostrophe and no double
quote, and apostrophes for every other. -/
def quoteMark (text : List Char) : Char :=
  if text.contains '\x27' && !text.contains '\x22' then '\x22' else '\x27'

/-- A character as it stands between two marks. -/
def escapeChar (mark c : Char) : List Char :=
  if c = mark || c = '\\' then ['\\', c]
  else if c = '\n' then ['\\', 'n']
  else if c = '\r' then ['\\', 'r']
  else if c = '\t' then ['\\', 't']
  else if isPrintable c then [c]
  else if c.toNat < 0x100 then '\\' :: 'x' :: hexDigits 2 c.toNat
  else if c.toNat < 0x10000 then '\\' :: 'u' :: hexDigits 4 c.toNat
  else '\\' :: 'U' :: hexDigits 8 c.toNat

/-- The text between two marks, with escapes. -/
def quotedChars (text : List Char) : List Char :=
  let mark := quoteMark text
  mark :: text.flatMap (escapeChar mark) ++ [mark]

/-- The text between two marks, with escapes. -/
def quoted (text : String) : String :=
  String.ofList (quotedChars text.toList)

end Precedence
