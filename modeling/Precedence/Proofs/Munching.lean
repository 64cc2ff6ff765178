import Mathlib
import Precedence.Proofs.Matching

/-!
# Matches that are made

A greedy run of characters of a set takes as many of them as there are, and an optional part is taken
if it can be. The pair that a lexer makes is of the first kind whose pattern takes a text.

## Main definitions

- `Pattern.Munches` — a pattern takes a text wherever the rest of the match succeeds after it
- `Pattern.Refuses` — a pattern takes nothing
- `Pattern.first?` — the set of the first characters of a pattern

## Main statements

- `munches_run` — a run is taken as a whole
- `refuses_of_first?` — a pattern refuses a text with another first character
- `next_ofKinds` — the pair that a lexer makes

## Design notes

Nothing is said about a match whose rest fails: there a repetition gives characters back.
-/

namespace Precedence

variable {subject : Subject} {pos : Nat} {xs ys : List Char}

/-- A text that is not empty ends where the subject does, or before. -/
theorem Subject.Has.length_le (h : subject.Has pos xs) (hne : xs ≠ []) :
    pos + xs.length ≤ subject.stop := by
  induction xs generalizing pos with
  | nil => exact absurd rfl hne
  | cons c xs ih =>
    have hpos := Subject.get?_lt h.1
    rw [List.length_cons]
    by_cases hxs : xs = []
    · rw [hxs, List.length_nil]
      omega
    · have := ih h.2 hxs
      omega

theorem Subject.Has.of_append (h : subject.Has pos (xs ++ ys)) :
    subject.Has pos xs ∧ subject.Has (pos + xs.length) ys := by
  induction xs generalizing pos with
  | nil => exact ⟨trivial, h⟩
  | cons c xs ih =>
    obtain ⟨hxs, hys⟩ := ih h.2
    refine ⟨⟨h.1, hxs⟩, ?_⟩
    rwa [List.length_cons, Nat.add_comm xs.length, ← Nat.add_assoc]

namespace Pattern

/-- At a position a pattern takes a text, if the rest of the match succeeds after it. -/
def Munches (subject : Subject) (p : Pattern) (pos : Nat) (xs : List Char) : Prop :=
  ∀ (progress : Progress) (next : Continuation) (final : Progress), progress.pos = pos →
    next (progress.advance xs.length) = some final → p.attempt subject progress next = some final

/-- At a position a pattern takes nothing. -/
def Refuses (subject : Subject) (p : Pattern) (pos : Nat) : Prop :=
  ∀ (progress : Progress) (next : Continuation), progress.pos = pos →
    p.attempt subject progress next = none

/-- The set that the first character of every match is of, if the pattern tells. -/
def first? : Pattern → Option CharSet
  | char set => some set
  | seq a _ => a.first?
  | .repeat .greedy (_ + 1) _ body => body.first?
  | _ => none

end Pattern

open Pattern

/-! ### Rounds -/

theorem attempt_greedy (least : Nat) (most : Option Nat) (body : Pattern) (progress : Progress)
    (next : Continuation) :
    (Pattern.repeat .greedy least most body).attempt subject progress next =
      rounds false (body.attempt subject) next (least + (subject.stop - progress.pos) + 2) least
        (most.map (· - least)) none progress := rfl

theorem rounds_succ_succ (body : Matcher) (next : Continuation) (fuel required : Nat)
    (allowed last : Option Nat) (progress : Progress) :
    rounds false body next (fuel + 1) (required + 1) allowed last progress =
      body progress (rounds false body next fuel required allowed last) := rfl

theorem rounds_succ_zero (body : Matcher) (next : Continuation) (fuel : Nat)
    (allowed last : Option Nat) (progress : Progress) :
    rounds false body next (fuel + 1) 0 allowed last progress =
      (if allowed = some 0 || last = some progress.pos then none
        else body progress
          (rounds false body next fuel 0 (allowed.map (· - 1)) (some progress.pos))).orElse
        fun _ => next progress := rfl

/-- If no more rounds are allowed, the rest of the match follows. -/
theorem rounds_zero (body : Matcher) (next : Continuation) (fuel : Nat) (last : Option Nat) :
    rounds false body next fuel 0 (some 0) last = next := by
  funext progress
  cases fuel with
  | zero => rfl
  | succ fuel => rfl

/-! ### Refusals -/

theorem refuses_char {set : CharSet} (h : ∀ c ∈ subject.get? pos, set.contains c = false) :
    (char set).Refuses subject pos := by
  rintro progress next rfl
  rw [attempt]
  cases hget : subject.get? progress.pos with
  | none => rfl
  | some c => simp only [h c hget, Bool.false_eq_true, if_false]

/-- A pattern refuses a text whose first character is not of its set. -/
theorem refuses_of_first? {p : Pattern} {set : CharSet} (hp : p.first? = some set)
    (h : ∀ c ∈ subject.get? pos, set.contains c = false) : p.Refuses subject pos := by
  induction p with
  | char other =>
    cases hp
    exact refuses_char h
  | seq a b iha _ =>
    intro progress next hpos
    rw [attempt]
    exact iha hp progress _ hpos
  | «repeat» greed least most body ih =>
    cases greed with
    | greedy =>
      cases least with
      | zero => cases hp
      | succ least =>
        intro progress next hpos
        have hfuel : least + 1 + (subject.stop - progress.pos) + 2 =
            (least + (subject.stop - progress.pos) + 2) + 1 := by omega
        rw [attempt_greedy, hfuel, rounds_succ_succ]
        exact ih hp progress _ hpos
    | _ => cases hp
  | _ => cases hp

/-! ### Matches -/

theorem munches_char {set : CharSet} {c : Char} (hget : subject.get? pos = some c)
    (hset : set.contains c) : (char set).Munches subject pos [c] := by
  rintro progress next final rfl h
  rw [attempt, hget]
  simp only [hset, if_true]
  exact h

theorem munches_seq {a b : Pattern} (ha : a.Munches subject pos xs)
    (hb : b.Munches subject (pos + xs.length) ys) : (seq a b).Munches subject pos (xs ++ ys) := by
  rintro progress next final hpos h
  rw [attempt]
  refine ha _ _ _ hpos (hb _ _ _ (by rw [Progress.pos_advance, hpos]) ?_)
  rwa [Progress.advance_advance, ← List.length_append]

/-- An optional part is tried first, and then left out. -/
theorem attempt_optional (p : Pattern) (progress : Progress) (next : Continuation) :
    (Pattern.repeat .greedy 0 (some 1) p).attempt subject progress next =
      (p.attempt subject progress next).orElse fun _ => next progress := by
  have hfuel : 0 + (subject.stop - progress.pos) + 2 = (subject.stop - progress.pos + 1) + 1 := by
    omega
  have hmore : ¬ ((some 1 : Option Nat).map (· - 0) = some 0 ||
      (none : Option Nat) = some progress.pos) := by
    simp
  rw [attempt_greedy, hfuel, rounds_succ_zero, if_neg hmore]
  exact congrArg (fun k => (p.attempt subject progress k).orElse fun _ => next progress)
    (rounds_zero (p.attempt subject) next _ _)

theorem munches_optional {p : Pattern} (h : p.Munches subject pos xs) :
    (Pattern.repeat .greedy 0 (some 1) p).Munches subject pos xs := by
  rintro progress next final hpos hnext
  rw [attempt_optional, h progress next final hpos hnext]
  rfl

theorem munches_optional_nil {p : Pattern} (h : p.Refuses subject pos) :
    (Pattern.repeat .greedy 0 (some 1) p).Munches subject pos [] := by
  rintro progress next final hpos hnext
  rw [attempt_optional, h progress next hpos]
  exact hnext

/-- Rounds that each take a character of a set go on to the last one in a row. -/
theorem rounds_run {set : CharSet} {next : Continuation} {progress final : Progress} {fuel : Nat}
    {last : Option Nat} (hhas : subject.Has progress.pos xs) (hall : ∀ c ∈ xs, set.contains c)
    (hstop : ∀ c ∈ subject.get? (progress.pos + xs.length), set.contains c = false)
    (hlast : ∀ p ∈ last, p < progress.pos) (hfuel : xs.length < fuel)
    (hnext : next (progress.advance xs.length) = some final) :
    rounds false ((char set).attempt subject) next fuel 0 none last progress = some final := by
  induction xs generalizing progress fuel last with
  | nil =>
    obtain ⟨fuel, rfl⟩ : ∃ n, fuel = n + 1 := ⟨fuel - 1, by simp at hfuel; omega⟩
    have hrefuses : ∀ k, (char set).attempt subject progress k = none :=
      fun k => refuses_char hstop progress k rfl
    rw [rounds_succ_zero, hrefuses, ite_self]
    exact hnext
  | cons c xs ih =>
    obtain ⟨fuel, rfl⟩ : ∃ n, fuel = n + 1 := ⟨fuel - 1, by omega⟩
    have hnew : ¬ ((none : Option Nat) = some 0 || last = some progress.pos) := by
      simp only [reduceCtorEq, decide_false, Bool.false_or, decide_eq_true_eq]
      exact fun h => absurd (hlast _ h) (lt_irrefl _)
    rw [List.length_cons, Nat.add_comm xs.length] at hstop hnext
    have hrest : rounds false ((char set).attempt subject) next fuel 0 none (some progress.pos)
        (progress.advance 1) = some final := by
      refine ih hhas.2 (fun d hd => hall d (List.mem_cons_of_mem _ hd)) ?_ ?_ ?_ ?_
      · rwa [Progress.pos_advance, Nat.add_assoc]
      · rintro p ⟨⟩
        exact Nat.lt_succ_self _
      · simpa using hfuel
      · rwa [Progress.advance_advance]
    have hround := munches_char hhas.1 (hall c List.mem_cons_self) progress _ _ rfl hrest
    rw [rounds_succ_zero, if_neg hnew, Option.map_none, hround]
    rfl

/-- A run of characters of a set is taken as a whole. -/
theorem munches_run {set : CharSet} (hne : xs ≠ []) (hhas : subject.Has pos xs)
    (hall : ∀ c ∈ xs, set.contains c)
    (hstop : ∀ c ∈ subject.get? (pos + xs.length), set.contains c = false) :
    (Pattern.repeat .greedy 1 none (char set)).Munches subject pos xs := by
  rintro progress next final rfl hnext
  have hlength := hhas.length_le hne
  obtain ⟨c, xs, rfl⟩ := List.exists_cons_of_ne_nil hne
  rw [List.length_cons, Nat.add_comm xs.length] at hstop hnext hlength
  have hfuel : 1 + (subject.stop - progress.pos) + 2 = (subject.stop - progress.pos + 2) + 1 := by
    omega
  rw [attempt_greedy, hfuel, rounds_succ_succ]
  refine munches_char hhas.1 (hall c List.mem_cons_self) progress _ _ rfl ?_
  refine rounds_run hhas.2 (fun d hd => hall d (List.mem_cons_of_mem _ hd)) ?_ (by simp) ?_ ?_
  · rwa [List.length_singleton, Progress.pos_advance, Nat.add_assoc]
  · omega
  · rwa [List.length_singleton, Progress.advance_advance]

/-! ### The pairs of a lexer -/

/-- The first pattern of a choice that does not refuse is the one that takes a text. -/
theorem attempt_choice (index : Nat) (progress : Progress) {before : List Pattern} {p : Pattern}
    (after : List Pattern) (hbefore : ∀ q ∈ before, q.Refuses subject progress.pos)
    (hp : p.Munches subject progress.pos xs) :
    (choice (Lexer.groupsFrom index (before ++ p :: after))).attempt subject progress some =
      some ((progress.advance xs.length).close (index + before.length) progress.pos) := by
  induction before generalizing index with
  | nil =>
    have hgroup : (group index p).attempt subject progress some =
        some ((progress.advance xs.length).close index progress.pos) := hp _ _ _ rfl rfl
    cases after with
    | nil => exact hgroup
    | cons q after =>
      change ((group index p).attempt subject progress some).orElse _ = _
      rw [hgroup]
      rfl
  | cons q before ih =>
    have hrefuses : (group index q).attempt subject progress some = none :=
      hbefore q List.mem_cons_self progress _ rfl
    have hrest := ih (index + 1) fun r hr => hbefore r (List.mem_cons_of_mem _ hr)
    obtain ⟨r, rest, heq⟩ : ∃ r rest, before ++ p :: after = r :: rest :=
      List.exists_cons_of_ne_nil (by simp)
    rw [heq] at hrest
    rw [List.cons_append, heq]
    change ((group index q).attempt subject progress some).orElse
      (fun _ => (choice (Lexer.groupsFrom (index + 1) (r :: rest))).attempt subject progress some) = _
    rw [hrefuses]
    refine hrest.trans ?_
    rw [List.length_cons, Nat.add_assoc, Nat.add_comm 1]

theorem searchFrom?_of_matchAt? {p : Pattern} {found : Match}
    (h : p.matchAt? subject pos = some found) (count : Nat) :
    p.searchFrom? subject count pos = some found := by
  cases count with
  | zero => exact h
  | succ count =>
    rw [searchFrom?, h]
    rfl

/-- The match of a lexer's pattern is that of the first kind whose pattern does not refuse, if that
pattern takes a text. -/
theorem matchAt?_ofKinds {κ : Type} (invalid kind : κ) (before after : List (κ × Pattern))
    {p : Pattern} (hbefore : ∀ entry ∈ before, entry.2.Refuses subject pos)
    (hp : p.Munches subject pos xs) :
    (Lexer.ofKinds invalid (before ++ (kind, p) :: after)).pattern.matchAt? subject pos =
      some ⟨pos, pos + xs.length, some (1 + before.length)⟩ := by
  have hmatch := attempt_choice 1 ⟨pos, [], none⟩ (after.map (·.2)) (List.forall_mem_map.2 hbefore)
    hp
  rw [matchAt?, Lexer.ofKinds, List.map_append, List.map_cons, hmatch, List.length_map]
  rfl

/-- The pair that a lexer makes is of the first kind whose pattern does not refuse, if that pattern
takes a text. -/
theorem next_ofKinds {κ : Type} (invalid kind : κ) (before after : List (κ × Pattern)) {p : Pattern}
    {text : Array Char} {stop : Nat} (hstop : stop ≤ text.size)
    (hbefore : ∀ entry ∈ before, entry.2.Refuses ⟨text, stop⟩ pos)
    (hp : p.Munches ⟨text, stop⟩ pos xs) (hne : xs ≠ [])
    (hhas : Subject.Has ⟨text, stop⟩ pos xs) :
    (Lexer.ofKinds invalid (before ++ (kind, p) :: after)).next text pos stop =
      .ok (.leaf kind pos ((pos + xs.length : Nat) : Int)) := by
  have hlength := hhas.length_le hne
  have hpositive := List.length_pos_iff.2 hne
  have hsearch : (Lexer.ofKinds invalid (before ++ (kind, p) :: after)).pattern.search? text pos
      stop = some ⟨pos, pos + xs.length, some (1 + before.length)⟩ := by
    have hfirst : min (pos : Int).toNat text.size = pos := by
      rw [Int.toNat_natCast]
      dsimp only at hlength
      omega
    have hlast : min (stop : Int).toNat text.size = stop := by
      rw [Int.toNat_natCast]
      omega
    rw [search?, hfirst, hlast, if_neg (by dsimp only at hlength; omega)]
    exact searchFrom?_of_matchAt? (matchAt?_ofKinds invalid kind before after hbefore hp) _
  rw [Lexer.next, hsearch]
  have hkind : (some (1 + before.length)).bind
      (Lexer.ofKinds invalid (before ++ (kind, p) :: after)).kindOf = some kind := by
    change ((before ++ (kind, p) :: after)[1 + before.length - 1]?).map (·.1) = some kind
    rw [Nat.add_sub_cancel_left, List.getElem?_append_right le_rfl, Nat.sub_self]
    rfl
  simp only [hkind]
  rw [if_neg (lt_irrefl _), if_neg (by omega)]

end Precedence
