import Precedence.Pair
import Precedence.Pattern.Matching

/-!
# Lexers

A lexer divides a text into pairs. It searches for the leftmost match of a pattern, whose last closed
group tells the kind of the pair; the text before a match becomes a pair of the invalid kind.

## Main definitions

- `Lexer` — a pattern, and the kinds of its groups
- `Lexer.ofKinds` — the lexer that tries a list of patterns in order, each of a kind of its own
- `Lexer.next` — the pair at a position
- `Lexer.lex` — the pairs of a range of the text
- `Lexer.lexDropping` — those of them whose kind is not dropped
- `LexFault` — why lexing stops before the end of the range

## Design notes

Every pair ends after its start, so the length of the range bounds the number of pairs. A range may
reach beyond the text; only the search is confined to it.
-/

namespace Precedence

/-- A lexer: a pattern, the kind of each of its groups, and the kind of text that nothing matches. -/
structure Lexer (κ : Type) where
  pattern : Pattern
  kindOf : Nat → Option κ
  invalid : κ

/-- Why lexing stops: a match is empty, or its last group has no kind. -/
inductive LexFault (κ : Type) where
  | emptyMatch (kind : Option κ) (pos : Nat)
  | noKind
deriving Repr

/-- A fault of lexing, with other kinds. -/
def LexFault.map {κ κ' : Type} (f : κ → κ') : LexFault κ → LexFault κ'
  | emptyMatch kind pos => emptyMatch (kind.map f) pos
  | noKind => noKind

/-- The pairs up to the end of a range or up to a fault. -/
structure Lexing (κ : Type) where
  pairs : List (Pair κ Int)
  fault : Option (LexFault κ)
deriving Repr

namespace Lexer

variable {κ : Type}

/-- The patterns of a list as groups, numbered from `index` on. -/
def groupsFrom (index : Nat) : List Pattern → List Pattern
  | [] => []
  | p :: rest => .group index p :: groupsFrom (index + 1) rest

/-- The lexer that tries patterns without groups in order. -/
def ofKinds (invalid : κ) (kinds : List (κ × Pattern)) : Lexer κ where
  pattern := .choice (groupsFrom 1 (kinds.map (·.2)))
  kindOf index := (kinds[index - 1]?).map (·.1)
  invalid := invalid

/-- The pair at `pos` in a range that ends at `stop`. -/
def next (lexer : Lexer κ) (text : Array Char) (pos stop : Int) :
    Except (LexFault κ) (Pair κ Int) :=
  match lexer.pattern.search? text pos stop with
  | none => .ok (.leaf lexer.invalid pos stop)
  | some found =>
    let kind := found.lastClosed.bind lexer.kindOf
    if pos < found.start then .ok (.leaf lexer.invalid pos found.start)
    else if found.start = found.stop then .error (.emptyMatch kind found.start)
    else
      match kind with
      | some kind => .ok (.leaf kind found.start found.stop)
      | none => .error .noKind

/-- The pairs from `pos` on whose kind is not dropped; the lexer makes at most `fuel` pairs. -/
def lexFrom (lexer : Lexer κ) (text : Array Char) (stop : Int) (drop : κ → Bool) :
    (fuel : Nat) → Int → Lexing κ
  | 0, _ => ⟨[], none⟩
  | fuel + 1, pos =>
    if pos < stop then
      match lexer.next text pos stop with
      | .error fault => ⟨[], some fault⟩
      | .ok pair =>
        let rest := lexer.lexFrom text stop drop fuel pair.stop
        if drop pair.rule then rest else ⟨pair :: rest.pairs, rest.fault⟩
    else ⟨[], none⟩

/-- The pairs of the text from `pos` up to `stop` whose kind is not dropped. -/
def lexDropping (lexer : Lexer κ) (drop : κ → Bool) (text : Array Char) (pos stop : Int) :
    Lexing κ :=
  lexer.lexFrom text stop drop (stop - pos).toNat pos

/-- The pairs of the text from `pos` up to `stop`. -/
def lex (lexer : Lexer κ) (text : Array Char) (pos stop : Int) : Lexing κ :=
  lexer.lexDropping (fun _ => false) text pos stop

end Lexer

/-- The pairs whose kind is not dropped. -/
def Lexing.without {κ : Type} (lexing : Lexing κ) (drop : κ → Bool) : Lexing κ :=
  { lexing with pairs := lexing.pairs.filter fun pair => !drop pair.rule }

namespace Lexer

variable {κ : Type} {lexer : Lexer κ} {text : Array Char} {pos stop : Int}

theorem lexFrom_of_le {drop : κ → Bool} {fuel : Nat} (h : stop ≤ pos) :
    lexer.lexFrom text stop drop fuel pos = ⟨[], none⟩ := by
  cases fuel with
  | zero => rfl
  | succ fuel => rw [lexFrom, if_neg (by omega)]

theorem lexFrom_of_error {drop : κ → Bool} {fuel : Nat} {fault : LexFault κ} (hlt : pos < stop)
    (h : lexer.next text pos stop = .error fault) :
    lexer.lexFrom text stop drop (fuel + 1) pos = ⟨[], some fault⟩ := by
  rw [lexFrom, if_pos hlt, h]

theorem lexFrom_of_ok {fuel : Nat} {pair : Pair κ Int} (hlt : pos < stop)
    (h : lexer.next text pos stop = .ok pair) :
    lexer.lexFrom text stop (fun _ => false) (fuel + 1) pos =
      ⟨pair :: (lexer.lexFrom text stop (fun _ => false) fuel pair.stop).pairs,
        (lexer.lexFrom text stop (fun _ => false) fuel pair.stop).fault⟩ := by
  rw [lexFrom, if_pos hlt, h]
  rfl

/-- Whether a pair is dropped does not change which pairs follow it. -/
theorem lexFrom_eq_without (drop : κ → Bool) (fuel : Nat) :
    lexer.lexFrom text stop drop fuel pos =
      (lexer.lexFrom text stop (fun _ => false) fuel pos).without drop := by
  induction fuel generalizing pos with
  | zero => rfl
  | succ fuel ih =>
    by_cases hlt : pos < stop
    · cases hnext : lexer.next text pos stop with
      | error fault =>
        rw [lexFrom_of_error hlt hnext, lexFrom_of_error hlt hnext]
        rfl
      | ok pair =>
        rw [lexFrom_of_ok hlt hnext, lexFrom, if_pos hlt, hnext]
        dsimp only
        rw [ih]
        cases hdrop : drop pair.rule <;> simp [Lexing.without, hdrop]
    · rw [lexFrom_of_le (by omega), lexFrom_of_le (by omega)]
      rfl

/-- The pairs that are not dropped are those of the whole stream whose kind is not dropped. -/
theorem lexDropping_eq_without (drop : κ → Bool) :
    lexer.lexDropping drop text pos stop = (lexer.lex text pos stop).without drop :=
  lexFrom_eq_without drop _

end Lexer

end Precedence
