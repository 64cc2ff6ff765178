import Mathlib
import Precedence.Lexer

/-!
# What patterns match

A match of a regular pattern, which is built from sets of characters by sequence, alternation and
greedy repetition, is a text that the pattern accepts. A lexer's pair of a kind covers a text that the
pattern of the kind accepts.

## Main definitions

- `Pattern.isRegular` — the regular patterns
- `Pattern.Accepts` — the texts that a pattern accepts
- `Subject.Has` — a text that stands at a position
- `Lexer.Delivers` — a pair that covers a text of its kind

## Main statements

- `attempt_sound` — a match of a regular pattern is accepted by it
- `delivers_of_mem_lex` — the pairs that a lexer delivers
- `fault_lex_eq_none` — which lexers never stop early
-/

namespace Precedence

namespace Pattern

/-- The patterns built from sets of characters by sequence, alternation and greedy repetition. -/
def isRegular : Pattern → Bool
  | empty => true
  | char _ => true
  | seq a b => a.isRegular && b.isRegular
  | alt a b => a.isRegular && b.isRegular
  | .repeat .greedy _ _ body => body.isRegular
  | _ => false

/-- The texts that a regular pattern accepts. -/
inductive Accepts : Pattern → List Char → Prop
  | empty : Accepts .empty []
  | char {set c} (h : set.contains c) : Accepts (.char set) [c]
  | seq {a b xs ys} (ha : Accepts a xs) (hb : Accepts b ys) : Accepts (.seq a b) (xs ++ ys)
  | altLeft {a b xs} (h : Accepts a xs) : Accepts (.alt a b) xs
  | altRight {a b xs} (h : Accepts b xs) : Accepts (.alt a b) xs
  | repeat {greed least most body} {pieces : List (List Char)} (hleast : least ≤ pieces.length)
      (hmost : ∀ m ∈ most, pieces.length ≤ max least m) (h : ∀ piece ∈ pieces, Accepts body piece) :
      Accepts (.repeat greed least most body) pieces.flatten

end Pattern

theorem Subject.get?_lt {subject : Subject} {pos : Nat} {c : Char}
    (h : subject.get? pos = some c) : pos < subject.stop := by
  rw [get?] at h
  split at h
  next hpos => exact hpos
  · cases h

/-- A text stands at a position of the subject. -/
def Subject.Has (subject : Subject) : Nat → List Char → Prop
  | _, [] => True
  | pos, c :: rest => subject.get? pos = some c ∧ subject.Has (pos + 1) rest

theorem Subject.Has.append {subject : Subject} {pos : Nat} {xs ys : List Char}
    (hxs : subject.Has pos xs) (hys : subject.Has (pos + xs.length) ys) :
    subject.Has pos (xs ++ ys) := by
  induction xs generalizing pos with
  | nil => exact hys
  | cons c xs ih =>
    refine ⟨hxs.1, ih hxs.2 ?_⟩
    rwa [List.length_cons, Nat.add_comm xs.length, ← Nat.add_assoc] at hys

/-! ### Matches of regular patterns -/

/-- One of two alternatives has succeeded. -/
theorem eq_some_of_orElse {α : Type} {x : Option α} {y : Unit → Option α} {a : α}
    (h : x.orElse y = some a) : x = some a ∨ y () = some a := by
  cases x with
  | none => exact Or.inr h
  | some b => exact Or.inl h

/-- The progress at a later position. -/
def Progress.advance (progress : Progress) (n : Nat) : Progress :=
  { progress with pos := progress.pos + n }

@[simp] theorem Progress.pos_advance (progress : Progress) (n : Nat) :
    (progress.advance n).pos = progress.pos + n := rfl

@[simp] theorem Progress.advance_advance (progress : Progress) (m n : Nat) :
    (progress.advance m).advance n = progress.advance (m + n) := by
  simp only [advance, Nat.add_assoc]

/-- Whatever a matcher matches satisfies a condition, and the rest of the match goes on after it. -/
def Matcher.Sound (subject : Subject) (accepts : List Char → Prop) (m : Matcher) : Prop :=
  ∀ {progress next final}, m progress next = some final →
    ∃ xs, accepts xs ∧ subject.Has progress.pos xs ∧ next (progress.advance xs.length) = some final

variable {subject : Subject} {accepts : List Char → Prop} {body : Matcher}

/-- The rounds of a repetition match pieces that the body matches, as many as required and no more
than allowed. -/
theorem rounds_sound (hbody : body.Sound subject accepts) (next : Continuation)
    {fuel required : Nat} {allowed last : Option Nat} {progress final : Progress}
    (hfuel : required ≤ fuel)
    (h : rounds false body next fuel required allowed last progress = some final) :
    ∃ pieces : List (List Char), required ≤ pieces.length ∧
      (∀ m ∈ allowed, pieces.length ≤ required + m) ∧ (∀ piece ∈ pieces, accepts piece) ∧
        subject.Has progress.pos pieces.flatten ∧
          next (progress.advance pieces.flatten.length) = some final := by
  induction fuel generalizing required allowed last progress with
  | zero =>
    obtain rfl : required = 0 := by omega
    exact ⟨[], by simp, by simp, by simp, trivial, h⟩
  | succ fuel ih =>
    cases required with
    | succ required =>
      obtain ⟨xs, hxs, hhas, hrest⟩ := hbody h
      obtain ⟨pieces, hleast, hmost, hpieces, hhas', hnext⟩ := ih (by omega) hrest
      refine ⟨xs :: pieces, by simpa using hleast, fun m hm => ?_, ?_, hhas.append hhas', ?_⟩
      · have := hmost m hm
        rw [List.length_cons]
        omega
      · exact List.forall_mem_cons.2 ⟨hxs, hpieces⟩
      · rwa [List.flatten_cons, List.length_append, ← Progress.advance_advance]
    | zero =>
      simp only [rounds, Bool.false_eq_true, if_false] at h
      split at h
      · exact ⟨[], by simp, by simp, by simp, trivial, h⟩
      -- One more round is tried first, and if nothing comes of it the repetition ends here.
      next hmore =>
        rcases eq_some_of_orElse h with hround | hstop
        · obtain ⟨xs, hxs, hhas, hrest⟩ := hbody hround
          obtain ⟨pieces, hleast, hmost, hpieces, hhas', hnext⟩ := ih (Nat.zero_le _) hrest
          refine ⟨xs :: pieces, by simp, fun m hm => ?_, ?_, hhas.append hhas', ?_⟩
          · obtain rfl : allowed = some m := hm
            have := hmost (m - 1) rfl
            have : m ≠ 0 := by rintro rfl; simp at hmore
            rw [List.length_cons]
            omega
          · exact List.forall_mem_cons.2 ⟨hxs, hpieces⟩
          · rwa [List.flatten_cons, List.length_append, ← Progress.advance_advance]
        · exact ⟨[], by simp, by simp, by simp, trivial, hstop⟩

/-- A match of a regular pattern is accepted by it. -/
theorem attempt_sound {pattern : Pattern} (hregular : pattern.isRegular) :
    Matcher.Sound subject pattern.Accepts (pattern.attempt subject) := by
  induction pattern with
  | empty =>
    intro progress next final h
    exact ⟨[], .empty, trivial, h⟩
  | char set =>
    intro progress next final h
    rw [Pattern.attempt] at h
    split at h
    next c hc =>
      split at h
      next hset => exact ⟨[c], .char hset, ⟨hc, trivial⟩, h⟩
      · cases h
    · cases h
  | seq a b iha ihb =>
    rw [Pattern.isRegular, Bool.and_eq_true] at hregular
    intro progress next final h
    obtain ⟨xs, hxs, hhas, hrest⟩ := iha hregular.1 h
    obtain ⟨ys, hys, hhas', hnext⟩ := ihb hregular.2 hrest
    refine ⟨xs ++ ys, .seq hxs hys, hhas.append hhas', ?_⟩
    rwa [List.length_append, ← Progress.advance_advance]
  | alt a b iha ihb =>
    rw [Pattern.isRegular, Bool.and_eq_true] at hregular
    intro progress next final h
    rcases eq_some_of_orElse h with h | h
    · obtain ⟨xs, hxs, hrest⟩ := iha hregular.1 h
      exact ⟨xs, .altLeft hxs, hrest⟩
    · obtain ⟨xs, hxs, hrest⟩ := ihb hregular.2 h
      exact ⟨xs, .altRight hxs, hrest⟩
  | «repeat» greed least most body ih =>
    intro progress next final h
    cases greed with
    | greedy =>
      obtain ⟨pieces, hleast, hmost, hpieces, hhas, hnext⟩ :=
        rounds_sound (ih hregular) next (by omega) h
      refine ⟨pieces.flatten, .repeat hleast (fun m hm => ?_) hpieces, hhas, hnext⟩
      have := hmost (m - least) (by rw [hm, Option.map_some]; rfl)
      omega
    | _ => exact nomatch hregular
  | _ => exact nomatch hregular

/-! ### Matches of a lexer -/

/-- A match of one of several regular patterns, each in a group of its own, is accepted by one of
them, whose group is closed last. -/
theorem attempt_choice_sound {index : Nat} {patterns : List Pattern} (hne : patterns ≠ [])
    (hregular : ∀ p ∈ patterns, p.isRegular) {progress final : Progress}
    (h : (Pattern.choice (Lexer.groupsFrom index patterns)).attempt subject progress some =
      some final) :
    ∃ i p xs, patterns[i]? = some p ∧ p.Accepts xs ∧ subject.Has progress.pos xs ∧
      final.pos = progress.pos + xs.length ∧ final.lastClosed = some (index + i) := by
  induction patterns generalizing index with
  | nil => exact absurd rfl hne
  | cons p rest ih =>
    have hgroup : (Pattern.group index p).attempt subject progress some = some final →
        ∃ i q xs, (p :: rest)[i]? = some q ∧ q.Accepts xs ∧ subject.Has progress.pos xs ∧
          final.pos = progress.pos + xs.length ∧ final.lastClosed = some (index + i) := by
      intro hmatch
      -- Nothing is matched after the group, so closing it is the last step.
      obtain ⟨xs, hxs, hhas, hclose⟩ := attempt_sound (hregular p List.mem_cons_self) hmatch
      cases hclose
      exact ⟨0, p, xs, rfl, hxs, hhas, rfl, rfl⟩
    cases rest with
    | nil => exact hgroup h
    | cons q rest =>
      rcases eq_some_of_orElse h with h | h
      · exact hgroup h
      · obtain ⟨i, p', xs, hi, hxs, hhas, hpos, hlast⟩ :=
          ih (by simp) (fun p hp => hregular p (List.mem_cons_of_mem _ hp)) h
        refine ⟨i + 1, p', xs, hi, hxs, hhas, hpos, ?_⟩
        rw [hlast, Nat.add_assoc, Nat.add_comm 1]

theorem exists_matchAt?_of_searchFrom? {pattern : Pattern} {count pos : Nat} {found : Match}
    (h : pattern.searchFrom? subject count pos = some found) :
    ∃ pos, pattern.matchAt? subject pos = some found := by
  induction count generalizing pos with
  | zero => exact ⟨pos, h⟩
  | succ count ih =>
    rcases eq_some_of_orElse h with h | h
    · exact ⟨pos, h⟩
    · exact ih h

section Lexer

variable {κ : Type} {invalid : κ} {kinds : List (κ × Pattern)} {text : Array Char} {pos stop : Int}

/-- What a lexer of regular patterns finds is of some kind, and covers a text that the pattern of the
kind accepts. -/
theorem exists_kind_of_search? (hne : kinds ≠ []) (hregular : ∀ entry ∈ kinds, entry.2.isRegular)
    {found : Match} (h : (Lexer.ofKinds invalid kinds).pattern.search? text pos stop = some found) :
    ∃ kind pattern xs last, (kind, pattern) ∈ kinds ∧ pattern.Accepts xs ∧
      Subject.Has ⟨text, last⟩ found.start xs ∧ found.stop = found.start + xs.length ∧
        found.lastClosed.bind (Lexer.ofKinds invalid kinds).kindOf = some kind := by
  rw [Pattern.search?] at h
  split at h
  · cases h
  obtain ⟨start, hmatch⟩ := exists_matchAt?_of_searchFrom? h
  obtain ⟨final, hattempt, rfl⟩ := Option.map_eq_some_iff.1 hmatch
  obtain ⟨i, p, xs, hi, hxs, hhas, hpos, hlast⟩ :=
    attempt_choice_sound (by simpa using hne) (List.forall_mem_map.2 hregular) hattempt
  rw [List.getElem?_map] at hi
  obtain ⟨⟨kind, p'⟩, hentry, rfl⟩ := Option.map_eq_some_iff.1 hi
  refine ⟨kind, p', xs, _, List.mem_of_getElem? hentry, hxs, hhas, hpos, ?_⟩
  simp only [hlast, Option.bind_some, Lexer.ofKinds, Nat.add_sub_cancel_left, hentry,
    Option.map_some]

/-- The pairs of a lexer of regular patterns: each is of the invalid kind, or covers a text that the
pattern of its kind accepts. -/
def Lexer.Delivers (invalid : κ) (kinds : List (κ × Pattern)) (text : Array Char)
    (pair : Pair κ Int) : Prop :=
  (∃ start stop, pair = .leaf invalid start stop) ∨
    ∃ (kind : κ) (pattern : Pattern) (xs : List Char) (last start : Nat),
      (kind, pattern) ∈ kinds ∧ pattern.Accepts xs ∧ Subject.Has ⟨text, last⟩ start xs ∧
        pair = .leaf kind start ((start + xs.length : Nat) : Int)

theorem delivers_of_next (hne : kinds ≠ []) (hregular : ∀ entry ∈ kinds, entry.2.isRegular)
    {pair : Pair κ Int} (h : (Lexer.ofKinds invalid kinds).next text pos stop = .ok pair) :
    Lexer.Delivers invalid kinds text pair := by
  rw [Lexer.next] at h
  split at h
  · cases h
    exact Or.inl ⟨_, _, rfl⟩
  next found hsearch =>
    obtain ⟨kind, pattern, xs, last, hentry, hxs, hhas, hstop, hkind⟩ :=
      exists_kind_of_search? hne hregular hsearch
    simp only [hkind] at h
    split at h
    · cases h
      exact Or.inl ⟨_, _, rfl⟩
    split at h
    · cases h
    cases h
    exact Or.inr ⟨kind, pattern, xs, last, found.start, hentry, hxs, hhas, by rw [hstop]⟩

/-- Every pair that a lexer of regular patterns delivers covers what it should. -/
theorem delivers_of_mem_lex (hne : kinds ≠ []) (hregular : ∀ entry ∈ kinds, entry.2.isRegular)
    {pair : Pair κ Int} (h : pair ∈ ((Lexer.ofKinds invalid kinds).lex text pos stop).pairs) :
    Lexer.Delivers invalid kinds text pair := by
  rw [Lexer.lex, Lexer.lexDropping] at h
  revert h
  generalize (stop - pos).toNat = fuel
  intro h
  induction fuel generalizing pos with
  | zero => exact absurd h List.not_mem_nil
  | succ fuel ih =>
    by_cases hlt : pos < stop
    · cases hnext : (Lexer.ofKinds invalid kinds).next text pos stop with
      | error fault =>
        rw [Lexer.lexFrom_of_error hlt hnext] at h
        exact absurd h List.not_mem_nil
      | ok first =>
        rw [Lexer.lexFrom_of_ok hlt hnext] at h
        rcases List.mem_cons.1 h with rfl | hmem
        · exact delivers_of_next hne hregular hnext
        · exact ih hmem
    · rw [Lexer.lexFrom_of_le (not_lt.1 hlt)] at h
      exact absurd h List.not_mem_nil

/-- A lexer of regular patterns that accept no empty text never stops early. -/
theorem fault_lex_eq_none (hne : kinds ≠ []) (hregular : ∀ entry ∈ kinds, entry.2.isRegular)
    (hempty : ∀ entry ∈ kinds, ¬ entry.2.Accepts []) (text : Array Char) (pos stop : Int) :
    ((Lexer.ofKinds invalid kinds).lex text pos stop).fault = none := by
  rw [Lexer.lex, Lexer.lexDropping]
  generalize (stop - pos).toNat = fuel
  induction fuel generalizing pos with
  | zero => rfl
  | succ fuel ih =>
    rw [Lexer.lexFrom]
    split
    · split
      next fault hfault =>
        rw [Lexer.next] at hfault
        split at hfault
        · cases hfault
        next found hsearch =>
          obtain ⟨kind, pattern, xs, last, hentry, hxs, -, hstop, hkind⟩ :=
            exists_kind_of_search? hne hregular hsearch
          simp only [hkind] at hfault
          split at hfault
          · cases hfault
          split at hfault
          next hstart =>
            obtain rfl : xs = [] := List.eq_nil_of_length_eq_zero (by omega)
            exact absurd hxs (hempty _ hentry)
          · cases hfault
      next pair hpair => exact ih _
    · rfl

end Lexer

end Precedence
