/-!
# Tables of code points

Character properties are stored as ascending lists of closed ranges of code points.

## Main definitions

- `CodeRanges` — such a list
- `CodeRanges.holds` — whether a code point lies in one of the ranges
- `CodeRanges.meets` — whether an interval of code points overlaps one of the ranges
-/

namespace Precedence

/-- An ascending list of closed ranges of code points. -/
abbrev CodeRanges := List (Nat × Nat)

namespace CodeRanges

/-- Whether `n` lies in a range. The list is ascending, so the search stops at the first range
that begins after `n`. -/
def holds : CodeRanges → Nat → Bool
  | [], _ => false
  | (lo, hi) :: rest, n => if n < lo then false else n ≤ hi || holds rest n

/-- Whether the interval from `first` to `last` overlaps a range. -/
def meets (ranges : CodeRanges) (first last : Nat) : Bool :=
  ranges.any fun range => first ≤ range.2 && range.1 ≤ last

end CodeRanges

end Precedence
