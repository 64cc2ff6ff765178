import Precedence.Text.Blank
import Precedence.Text.Casing
import Precedence.Text.Digit
import Precedence.Text.Word

/-!
# Character sets of patterns

A pattern matches single characters through sets, which list characters, ranges and categories, and
may be negated. A set that ignores case looks at the lower-case form of a character.

## Main definitions

- `Category` — digits, blanks and word characters, of all scripts or of ASCII alone
- `CharItem` — an item of a set
- `CharSet` — a set
- `CharSet.contains` — whether a set contains a character
- `CharSet.ofItems`, `CharSet.ofLiteral` — sets under the flags of a pattern

## Design notes

Case matters only for a set with an item that has another case; every other set is compared as it
stands. Code points above U+FFFF that stand alone in a set are compared with the lower-case form as
they are.
-/

namespace Precedence

/-- Whether case matters, and if not, for the letters of which scripts. -/
inductive Folding where
  | none
  | ascii
  | unicode
deriving Repr, DecidableEq

/-- The lower-case form of a code point under a folding. -/
def Folding.lower : Folding → Nat → Nat
  | none, n => n
  | ascii, n => asciiLowerCase n
  | unicode, n => lowerCase n

/-- Whether a code point has another case under a folding. -/
def Folding.isCased : Folding → Nat → Bool
  | none, _ => false
  | ascii, n => isAsciiCased n
  | unicode, n => Precedence.isCased n

/-- The code points that count as equal to a lower-case form. -/
def Folding.sources : Folding → Nat → List Nat
  | none, n => [n]
  | ascii, n => if 0x61 ≤ n && n ≤ 0x7a then [n, n - 0x20] else [n]
  | unicode, n => (n :: caseVariants n).flatMap lowerCaseSources

/-- The categories of characters. -/
inductive CategoryKind where
  | digit
  | blank
  | word
deriving Repr, DecidableEq

/-- A category, of all scripts or of ASCII alone, or the characters outside it. -/
structure Category where
  kind : CategoryKind
  ascii : Bool
  negated : Bool
deriving Repr, DecidableEq

/-- Whether a character is an ASCII blank. -/
def isAsciiBlank (c : Char) : Bool :=
  c = ' ' || (0x9 ≤ c.toNat && c.toNat ≤ 0xd)

/-- Whether a category contains a character. -/
def Category.contains (category : Category) (c : Char) : Bool :=
  let inside := match category.kind, category.ascii with
    | .digit, false => isDigit c
    | .digit, true => c.isDigit
    | .blank, false => isBlank c
    | .blank, true => isAsciiBlank c
    | .word, false => isWord c
    | .word, true => isAsciiWord c
  inside != category.negated

/-- An item of a set: a code point, a range of code points, or a category. -/
inductive CharItem where
  | single (code : Nat)
  | range (first last : Nat)
  | category (category : Category)
deriving Repr, DecidableEq

namespace CharItem

/-- Whether an item contains a character as it stands. -/
def contains (item : CharItem) (c : Char) : Bool :=
  match item with
  | single code => c.toNat == code
  | range first last => first ≤ c.toNat && c.toNat ≤ last
  | category k => k.contains c

/-- Whether an item contains a lower-case form, or a code point that counts as equal to it. -/
def containsFolded (folding : Folding) (item : CharItem) (lower : Nat) : Bool :=
  match item with
  | single code =>
    if 0xffff < code then lower == code else (folding.sources lower).contains code
  | range first last => (folding.sources lower).any fun n => first ≤ n && n ≤ last
  | category k => k.contains (Char.ofNat lower)

/-- Whether case matters for an item. -/
def isCased (folding : Folding) : CharItem → Bool
  | single code => 0xffff < code || folding.isCased code
  | range first last =>
    0xffff < last || match folding with
      | .none => false
      | .ascii => CodeRanges.meets [(0x41, 0x5a), (0x61, 0x7a)] first last
      | .unicode => casedRanges.meets first last
  | category _ => false

end CharItem

/-- A set of characters. Case is folded only in a set for which it matters. -/
structure CharSet where
  negated : Bool
  items : List CharItem
  folding : Folding
deriving Repr, DecidableEq

namespace CharSet

/-- Whether a set contains a character. -/
def contains (set : CharSet) (c : Char) : Bool :=
  let inside := match set.folding with
    | .none => set.items.any (·.contains c)
    | folding => set.items.any (·.containsFolded folding (folding.lower c.toNat))
  inside != set.negated

/-- The set of the given items. -/
def ofItems (folding : Folding) (negated : Bool) (items : List CharItem) : CharSet :=
  let cased := folding != .none && items.any (·.isCased folding)
  ⟨negated, items, if cased then folding else .none⟩

/-- The set of one code point, or of all others. -/
def ofLiteral (folding : Folding) (negated : Bool) (code : Nat) : CharSet :=
  if folding.isCased code then ⟨negated, [.single (folding.lower code)], folding⟩
  else ⟨negated, [.single code], .none⟩

/-- The set of a category. -/
def ofCategory (category : Category) : CharSet :=
  ⟨false, [.category category], .none⟩

/-- The set of one character, exactly. -/
def ofChar (c : Char) : CharSet :=
  ⟨false, [.single c.toNat], .none⟩

/-- The set of all characters. -/
def all : CharSet :=
  ⟨true, [], .none⟩

/-- The set of all characters but the newline. -/
def allButNewline : CharSet :=
  ⟨true, [.single 0xa], .none⟩

@[simp] theorem contains_all (c : Char) : all.contains c = true := rfl

@[simp] theorem contains_ofChar (c d : Char) : (ofChar c).contains d = (d == c) := by
  simp only [contains, ofChar, List.any_cons, List.any_nil, Bool.or_false, CharItem.contains,
    Bool.bne_false]
  rw [Bool.eq_iff_iff, beq_iff_eq, beq_iff_eq, Char.toNat_inj]

end CharSet

end Precedence
