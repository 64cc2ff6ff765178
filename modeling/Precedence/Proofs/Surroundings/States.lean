import Mathlib
import Precedence.Pattern.Reading
import Precedence.Proofs.Renumbering

/-!
# Readings side by side

A pattern that is one of several alternatives is read as it is read by itself, but for the numbers of
its groups, as long as it refers to groups by name only. The two readings are compared through their
states: what one of them has still to read is what the other one has, with more text after it.

## Main definitions

- `refersByName` — tokens that refer to groups by name only
- `Surroundings` — what has been read before a pattern, and what comes after it
- `Reading.Ahead` — one reading has the tokens of another one to come, and then others
- `Reading.Beside` — the states of two readings, one of a pattern by itself and one among others
- `Pattern.Beside` — the same pattern with other numbers for its groups

## Main statements

- `takeWhile_moved`, `dropWhile_moved` — what stretches of tokens have before more tokens
- `Reading.Ahead.nextIs` — which character is next
-/

namespace Precedence

/-! ### Tokens -/

/-- Whether a token refers to a group by its number: a digit other than zero after a backslash. -/
def PatternToken.isNumbered (token : PatternToken) : Bool :=
  token.escaped && token.char.isDigit && token.char != '0'

/-- If a condition starts some tokens, then it asks about a group by its name. -/
def namesCondition : List PatternToken → Bool
  | [] => true
  | inner :: asked =>
    !inner.is '(' || isName ((asked.takeWhile (!·.is ')')).flatMap PatternToken.chars)

/-- If a token and those after it ask about a group, then by its name. -/
def asksByName (token : PatternToken) : List PatternToken → Bool
  | [] => true
  | mark :: rest => !(token.is '(' && mark.is '?') || namesCondition rest

/-- Tokens that refer to groups by name only. -/
def refersByName : List PatternToken → Bool
  | [] => true
  | token :: rest => !token.isNumbered && asksByName token rest && refersByName rest

theorem refersByName_cons_iff {token : PatternToken} {rest : List PatternToken} :
    refersByName (token :: rest) ↔
      token.isNumbered = false ∧ asksByName token rest ∧ refersByName rest := by
  rw [refersByName, Bool.and_eq_true, Bool.and_eq_true, Bool.not_eq_true', and_assoc]

theorem refersByName_of_suffix {tokens rest : List PatternToken} (h : rest <:+ tokens)
    (hnamed : refersByName tokens) : refersByName rest := by
  induction tokens with
  | nil =>
    rw [List.suffix_nil.1 h]
    rfl
  | cons token tokens ih =>
    rcases List.suffix_cons_iff.1 h with rfl | h
    · exact hnamed
    · exact ih h (refersByName_cons_iff.1 hnamed).2.2

namespace PatternToken

/-- The token at a later position. -/
def moved (offset : Nat) (token : PatternToken) : PatternToken :=
  { token with pos := token.pos + offset }

variable (offset : Nat) (token : PatternToken)

@[simp] theorem char_moved : (token.moved offset).char = token.char := rfl

@[simp] theorem escaped_moved : (token.moved offset).escaped = token.escaped := rfl

@[simp] theorem is_moved (c : Char) : (token.moved offset).is c = token.is c := rfl

@[simp] theorem isOneOf_moved (cs : List Char) :
    (token.moved offset).isOneOf cs = token.isOneOf cs := rfl

@[simp] theorem chars_moved : (token.moved offset).chars = token.chars := rfl

/-- Whether a token is a digit, not escaped. -/
def isDigit : Bool :=
  !token.escaped && token.char.isDigit

variable {token}

theorem is_iff {c : Char} : token.is c ↔ token.escaped = false ∧ token.char = c := by
  rw [is, Bool.and_eq_true, Bool.not_eq_true', beq_iff_eq]

theorem is_eq_false_of_bar {c : Char} (hbar : token.is '|') (hc : c ≠ '|') : token.is c = false := by
  rw [Bool.eq_false_iff, Ne, is_iff, (is_iff.1 hbar).2]
  exact fun h => hc h.2.symm

theorem isOneOf_of_bar (hbar : token.is '|') : token.isOneOf ['|', ')'] := by
  rw [isOneOf, (is_iff.1 hbar).1, (is_iff.1 hbar).2]
  rfl

end PatternToken

section

variable {offset : Nat} {p : PatternToken → Bool} {tokens after : List PatternToken}

/-- A stretch of tokens ends where it ended before other tokens came after it, if it ended before the
last token or cannot go on. -/
theorem takeWhile_moved (hp : ∀ token, p (token.moved offset) = p token)
    (hend : (∃ token ∈ tokens, p token = false) ∨ ∀ token ∈ after.head?, p token = false) :
    (tokens.map (·.moved offset) ++ after).takeWhile p =
      (tokens.takeWhile p).map (·.moved offset) := by
  induction tokens with
  | nil =>
    cases after with
    | nil => rfl
    | cons token after =>
      have hstop := hend.resolve_left (by rintro ⟨_, ⟨⟩, -⟩) token rfl
      rw [List.map_nil, List.nil_append, List.takeWhile_cons_of_neg (Bool.eq_false_iff.1 hstop)]
      rfl
  | cons token tokens ih =>
    rw [List.map_cons, List.cons_append, List.takeWhile_cons, List.takeWhile_cons, hp]
    cases htoken : p token with
    | false => rfl
    | true =>
      rw [if_pos rfl, if_pos rfl, ih, List.map_cons]
      refine hend.imp_left ?_
      rintro ⟨other, hmem, hother⟩
      rcases List.mem_cons.1 hmem with rfl | hmem
      · rw [htoken] at hother
        cases hother
      · exact ⟨other, hmem, hother⟩

theorem dropWhile_moved (hp : ∀ token, p (token.moved offset) = p token)
    (hend : (∃ token ∈ tokens, p token = false) ∨ ∀ token ∈ after.head?, p token = false) :
    (tokens.map (·.moved offset) ++ after).dropWhile p =
      (tokens.dropWhile p).map (·.moved offset) ++ after := by
  have hlist := tokens.takeWhile_append_dropWhile (p := p)
  have hmoved := (tokens.map (·.moved offset) ++ after).takeWhile_append_dropWhile (p := p)
  rw [takeWhile_moved hp hend] at hmoved
  refine List.append_cancel_left (hmoved.trans ?_)
  rw [← List.append_assoc, ← List.map_append, hlist]

end

/-! ### States -/

/-- What surrounds a pattern among others: how far its text is from the start, the groups and names
before it, the tokens after it, which start with a bar if there are any, and the names that the
pattern itself has had so far. -/
structure Surroundings where
  offset : Nat
  groups : List (Option Width)
  names : List (String × Nat)
  after : List PatternToken
  known : List (String × Nat)
  bar : ∀ token ∈ after.head?, token.is '|'

namespace Reading

/-- What a reading among others has to read is what a reading by itself has to read, and what comes
after it. -/
def Ahead (around : Surroundings) (s s' : Reading) : Prop :=
  s'.rest = s.rest.map (·.moved around.offset) ++ around.after

/-- A reading among others that goes on with the tokens of a reading by itself. -/
def among (around : Surroundings) (s : Reading) (rest : List PatternToken) : Reading :=
  { s with rest := rest.map (·.moved around.offset) ++ around.after }

namespace Ahead

variable {around : Surroundings} {s s' : Reading} (h : Ahead around s s')
include h

theorem length_le : s.rest.length ≤ s'.rest.length := by
  rw [h, List.length_append, List.length_map]
  exact Nat.le_add_right _ _

theorem among_drop {count : Nat} (hcount : count ≤ s.rest.length) :
    { s' with rest := s'.rest.drop count } = s'.among around (s.rest.drop count) := by
  rw [among, List.map_drop, ← List.drop_append_of_le_length (by rwa [List.length_map]), ← h]

/-- A character is next in both readings, or in neither, unless it is a bar and the first reading has
come to the end. -/
theorem nextIs {c : Char} (hc : c ≠ '|' ∨ s.rest ≠ []) :
    (s'.rest.head?.map (·.is c)).getD false = (s.rest.head?.map (·.is c)).getD false := by
  rw [h]
  cases hrest : s.rest with
  | cons token rest => rfl
  | nil =>
    rw [List.map_nil, List.nil_append]
    cases hafter : around.after.head? with
    | none => rfl
    | some token =>
      exact PatternToken.is_eq_false_of_bar (around.bar token hafter)
        (hc.resolve_right fun hne => hne hrest)

end Ahead

end Reading

/-- The states of two readings: one reads a pattern by itself, and the other one reads it among
others. -/
structure Reading.Beside (around : Surroundings) (s s' : Reading) : Prop where
  rest : s'.rest = s.rest.map (·.moved around.offset) ++ around.after
  byName : refersByName s.rest
  groups : s'.groups = around.groups ++ s.groups
  names : s'.names =
    around.names ++ s.names.map fun entry => (entry.1, entry.2 + around.groups.length)
  known : around.known <+: s.names
  fresh : ∀ entry ∈ s.names, around.names.lookup entry.1 = none
  indices : ∀ entry ∈ s.names, 0 < entry.2 ∧ entry.2 ≤ s.groups.length

/-- The same pattern with other numbers for its groups. It is as wide if the groups are. -/
structure Pattern.Beside (around : Surroundings) (p p' : Pattern) : Prop where
  eq : p' = p.renumber (· + around.groups.length)
  width : ∀ groups groups' : Nat → Width,
    (∀ i, 0 < i → groups' (i + around.groups.length) = groups i) → p'.width groups' = p.width groups

/-- The same item with other numbers for the groups. -/
structure PatternItem.Beside (around : Surroundings) (item item' : PatternItem) : Prop where
  pattern : Pattern.Beside around item.pattern item'.pattern
  kind : item'.kind = item.kind

variable {around : Surroundings}

namespace Reading.Beside

variable {s s' : Reading} (h : Reading.Beside around s s')
include h

/-- Both readings go on with some of the tokens. -/
theorem withRest {rest : List PatternToken} (hrest : rest <:+ s.rest) :
    Reading.Beside around { s with rest := rest } (s'.among around rest) :=
  { h with
    rest := rfl
    byName := refersByName_of_suffix hrest h.byName }

theorem tail {token : PatternToken} {rest : List PatternToken} (hrest : s.rest = token :: rest) :
    s'.rest.head? = some (token.moved around.offset) ∧
      Reading.Beside around { s with rest := s.rest.tail } { s' with rest := s'.rest.tail } := by
  rw [h.rest, hrest]
  exact ⟨rfl, h.withRest (by rw [hrest]; exact List.suffix_cons token rest)⟩

end Reading.Beside

/-! ### Patterns -/

namespace Pattern.Beside

variable {p p' q q' : Pattern}

theorem empty : Pattern.Beside around .empty .empty :=
  ⟨rfl, fun _ _ _ => rfl⟩

theorem char (set : CharSet) : Pattern.Beside around (.char set) (.char set) :=
  ⟨rfl, fun _ _ _ => rfl⟩

theorem anchor (place : Anchor) : Pattern.Beside around (.anchor place) (.anchor place) :=
  ⟨rfl, fun _ _ _ => rfl⟩

theorem backref (folding : Folding) {index : Nat} (hindex : 0 < index) :
    Pattern.Beside around (.backref folding index) (.backref folding (index + around.groups.length)) :=
  ⟨rfl, fun _ _ h => h index hindex⟩

theorem seq (hp : Pattern.Beside around p p') (hq : Pattern.Beside around q q') :
    Pattern.Beside around (.seq p q) (.seq p' q') := by
  refine ⟨?_, fun groups groups' h => ?_⟩
  · rw [hp.eq, hq.eq, renumber]
  · rw [Pattern.width, Pattern.width, hp.width groups groups' h, hq.width groups groups' h]

theorem alt (hp : Pattern.Beside around p p') (hq : Pattern.Beside around q q') :
    Pattern.Beside around (.alt p q) (.alt p' q') := by
  refine ⟨?_, fun groups groups' h => ?_⟩
  · rw [hp.eq, hq.eq, renumber]
  · rw [Pattern.width, Pattern.width, hp.width groups groups' h, hq.width groups groups' h]

theorem «repeat» (hp : Pattern.Beside around p p') (greed : Greed) (least : Nat) (most : Option Nat) :
    Pattern.Beside around (.repeat greed least most p) (.repeat greed least most p') := by
  refine ⟨?_, fun groups groups' h => ?_⟩
  · rw [hp.eq, renumber]
  · rw [Pattern.width, Pattern.width, hp.width groups groups' h]

theorem group (hp : Pattern.Beside around p p') (index : Nat) :
    Pattern.Beside around (.group index p) (.group (index + around.groups.length) p') := by
  refine ⟨?_, fun groups groups' h => ?_⟩
  · rw [hp.eq, renumber]
  · rw [Pattern.width, Pattern.width, hp.width groups groups' h]

theorem lookAhead (hp : Pattern.Beside around p p') (negated : Bool) :
    Pattern.Beside around (.lookAhead negated p) (.lookAhead negated p') :=
  ⟨by rw [hp.eq, renumber], fun _ _ _ => rfl⟩

theorem lookBehind (hp : Pattern.Beside around p p') (negated : Bool) (width : Nat) :
    Pattern.Beside around (.lookBehind negated width p) (.lookBehind negated width p') :=
  ⟨by rw [hp.eq, renumber], fun _ _ _ => rfl⟩

theorem atomic (hp : Pattern.Beside around p p') :
    Pattern.Beside around (.atomic p) (.atomic p') := by
  refine ⟨?_, fun groups groups' h => ?_⟩
  · rw [hp.eq, renumber]
  · rw [Pattern.width, Pattern.width, hp.width groups groups' h]

theorem ifGroup (hp : Pattern.Beside around p p') (hq : Pattern.Beside around q q') (index : Nat) :
    Pattern.Beside around (.ifGroup index p q) (.ifGroup (index + around.groups.length) p' q') := by
  refine ⟨?_, fun groups groups' h => ?_⟩
  · rw [hp.eq, hq.eq, renumber]
  · rw [Pattern.width, Pattern.width, hp.width groups groups' h, hq.width groups groups' h]

theorem sequence {ps ps' : List Pattern} (h : List.Forall₂ (Pattern.Beside around) ps ps') :
    Pattern.Beside around (.sequence ps) (.sequence ps') := by
  induction h with
  | nil => exact empty
  | cons hp hps ih =>
    cases hps with
    | nil => exact hp
    | cons hq hps => exact hp.seq ih

/-- A sequence of the items that have been read. -/
theorem ofItems {done done' : List PatternItem}
    (h : List.Forall₂ (PatternItem.Beside around) done done') :
    Pattern.Beside around (.sequence (done.reverse.map PatternItem.pattern))
      (.sequence (done'.reverse.map PatternItem.pattern)) := by
  refine .sequence (List.forall₂_map_left_iff.2 (List.forall₂_map_right_iff.2 ?_))
  exact (List.rel_reverse h).imp fun _ _ => PatternItem.Beside.pattern

end Pattern.Beside

end Precedence
