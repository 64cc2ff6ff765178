import Precedence.Text.CodeRanges

/-!
# Blank characters

The characters that separate tokens and may surround a number: the Unicode spaces, the line and
paragraph separators, and the controls from tab to carriage return and from U+001C to U+001F.

## Main definitions

- `isBlank` — the property
- `isBlankText` — a text of blanks only
-/

namespace Precedence

/-- The ranges of blank characters. -/
def blankRanges : CodeRanges :=
  [(0x9, 0xd), (0x1c, 0x20), (0x85, 0x85), (0xa0, 0xa0), (0x1680, 0x1680), (0x2000, 0x200a),
   (0x2028, 0x2029), (0x202f, 0x202f), (0x205f, 0x205f), (0x3000, 0x3000)]

/-- Whether a character counts as white space. -/
def isBlank (c : Char) : Bool :=
  blankRanges.holds c.toNat

/-- Whether a text holds nothing but blanks; the empty text is blank. -/
def isBlankText (text : List Char) : Bool :=
  text.all isBlank

end Precedence
