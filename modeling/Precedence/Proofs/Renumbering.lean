import Mathlib
import Precedence.Proofs.Matching

/-!
# The numbers of groups

What a pattern matches does not depend on how its groups are numbered, as long as the groups and the
references to them are renumbered together and no two numbers become one.

## Main definitions

- `Pattern.renumber`, `Progress.renumber` — other numbers for the groups
- `Matcher.Renumbers` — a matcher that does the same as another one under the other numbers
- `Matcher.Answers` — a matcher that succeeds only if the rest of the match does

## Main statements

- `attempt_renumber` — a pattern whose groups are renumbered does the same
- `attempt_answers` — a pattern succeeds only if the rest of the match does
- `lastClosed_of_matchAt?_group` — a pattern that is one group closes that group last
-/

namespace Precedence

variable {subject : Subject} {f : Nat → Nat}

/-- The pattern with other numbers for its groups. -/
def Pattern.renumber (f : Nat → Nat) : Pattern → Pattern
  | empty => empty
  | char set => char set
  | anchor place => anchor place
  | seq a b => seq (a.renumber f) (b.renumber f)
  | alt a b => alt (a.renumber f) (b.renumber f)
  | .repeat greed least most body => .repeat greed least most (body.renumber f)
  | group index body => group (f index) (body.renumber f)
  | backref folding index => backref folding (f index)
  | lookAhead negated body => lookAhead negated (body.renumber f)
  | lookBehind negated width body => lookBehind negated width (body.renumber f)
  | atomic body => atomic (body.renumber f)
  | ifGroup index a b => ifGroup (f index) (a.renumber f) (b.renumber f)

namespace Progress

/-- The progress with other numbers for the groups. -/
def renumber (f : Nat → Nat) (progress : Progress) : Progress :=
  { progress with
    groups := progress.groups.map fun entry => (f entry.1, entry.2)
    lastClosed := progress.lastClosed.map f }

@[simp] theorem pos_renumber (progress : Progress) : (progress.renumber f).pos = progress.pos := rfl

theorem group?_renumber (hf : f.Injective) (progress : Progress) (index : Nat) :
    (progress.renumber f).group? (f index) = progress.group? index := by
  obtain ⟨pos, groups, lastClosed⟩ := progress
  change (groups.map fun entry => (f entry.1, entry.2)).lookup (f index) = groups.lookup index
  induction groups with
  | nil => rfl
  | cons entry groups ih =>
    obtain ⟨other, span⟩ := entry
    have hsame : (f index == f other) = (index == other) := by
      rw [Bool.eq_iff_iff, beq_iff_eq, beq_iff_eq, hf.eq_iff]
    rw [List.map_cons, List.lookup_cons, List.lookup_cons, hsame, ih]

end Progress

/-- A continuation does the same as another one under the other numbers. -/
def Continuation.Renumbers (f : Nat → Nat) (next next' : Continuation) : Prop :=
  ∀ progress, next' (progress.renumber f) = (next progress).map (Progress.renumber f)

/-- A matcher does the same as another one under the other numbers, if the rest of the match does. -/
def Matcher.Renumbers (f : Nat → Nat) (m m' : Matcher) : Prop :=
  ∀ progress next next', Continuation.Renumbers f next next' →
    m' (progress.renumber f) next' = (m progress next).map (Progress.renumber f)

theorem some_renumbers : Continuation.Renumbers f some some := fun _ => rfl

section

variable {m m' : Matcher} {next next' : Continuation}

theorem map_orElse {α β : Type} (g : α → β) (x : Option α) (y : Unit → Option α) :
    (x.orElse y).map g = (x.map g).orElse fun _ => (y ()).map g := by
  cases x <;> rfl

theorem ite_none_map {α β : Type} (g : α → β) {c : Prop} [Decidable c] {x : Option α}
    {y : Option β} (h : y = x.map g) : (if c then y else none) = (if c then x else none).map g := by
  split
  · exact h
  · rfl

theorem Continuation.Renumbers.bind (hnext : Continuation.Renumbers f next next')
    (x : Option Progress) :
    (x.map (Progress.renumber f)).bind next' = (x.bind next).map (Progress.renumber f) := by
  cases x with
  | none => rfl
  | some after => exact hnext after

theorem rounds_renumbers {lazy : Bool} (hm : Matcher.Renumbers f m m')
    (hnext : Continuation.Renumbers f next next') (fuel required : Nat)
    (allowed last : Option Nat) :
    Continuation.Renumbers f (rounds lazy m next fuel required allowed last)
      (rounds lazy m' next' fuel required allowed last) := by
  induction fuel generalizing required allowed last with
  | zero => exact hnext
  | succ fuel ih =>
    intro progress
    cases required with
    | succ required => exact hm progress _ _ (ih required allowed last)
    | zero =>
      have hround := hm progress _ _ (ih 0 (allowed.map (· - 1)) (some progress.pos))
      have hanother : (if allowed = some 0 || last = some (progress.renumber f).pos then none
            else m' (progress.renumber f) (rounds lazy m' next' fuel 0 (allowed.map (· - 1))
              (some (progress.renumber f).pos))) =
          (if allowed = some 0 || last = some progress.pos then none
            else m progress (rounds lazy m next fuel 0 (allowed.map (· - 1))
              (some progress.pos))).map (Progress.renumber f) := by
        rw [apply_ite (Option.map (Progress.renumber f))]
        exact congrArg (ite _ none) hround
      -- One more round is tried before the rest of the match or after it.
      cases lazy with
      | true =>
        change (next' (progress.renumber f)).orElse (fun _ => ite _ _ _) =
          ((next progress).orElse fun _ => ite _ _ _).map (Progress.renumber f)
        rw [map_orElse, hnext progress, hanother]
      | false =>
        change (ite _ _ _ : Option Progress).orElse (fun _ => next' (progress.renumber f)) =
          ((ite _ _ _ : Option Progress).orElse fun _ => next progress).map (Progress.renumber f)
        rw [map_orElse, hnext progress, hanother]

theorem allRounds_renumber (hm : Matcher.Renumbers f m m') (fuel required : Nat)
    (allowed : Option Nat) (progress : Progress) :
    allRounds m' fuel required allowed (progress.renumber f) =
      (allRounds m fuel required allowed progress).map (Progress.renumber f) := by
  induction fuel generalizing required allowed progress with
  | zero => rfl
  | succ fuel ih =>
    have hround := hm progress some some some_renumbers
    cases required with
    | succ required =>
      rw [allRounds, allRounds, hround]
      cases m progress some with
      | none => rfl
      | some after => exact ih required allowed after
    | zero =>
      rw [allRounds, allRounds, hround]
      by_cases hdone : allowed = some 0
      · rw [if_pos hdone, if_pos hdone, Option.map_some]
      · rw [if_neg hdone, if_neg hdone]
        cases m progress some with
        | none => rfl
        | some after =>
          change ite (after.pos = progress.pos) _ _ =
            Option.map _ (ite (after.pos = progress.pos) _ _)
          by_cases hsame : after.pos = progress.pos
          · rw [if_pos hsame, if_pos hsame, Option.map_some]
          · rw [if_neg hsame, if_neg hsame]
            exact ih 0 _ after

theorem afterLook_renumber (hnext : Continuation.Renumbers f next next') (negated : Bool)
    (progress : Progress) (seen : Option Progress) :
    afterLook negated (progress.renumber f) next' (seen.map (Progress.renumber f)) =
      (afterLook negated progress next seen).map (Progress.renumber f) := by
  cases seen with
  | none =>
    rw [Option.map_none, afterLook, afterLook]
    split
    · exact hnext progress
    · rfl
  | some seen =>
    rw [Option.map_some, afterLook, afterLook]
    split
    · rfl
    · exact hnext { seen with pos := progress.pos }

end

/-- A pattern whose groups are renumbered does the same under the other numbers. -/
theorem attempt_renumber (subject : Subject) (hf : f.Injective) (p : Pattern) :
    Matcher.Renumbers f (p.attempt subject) ((p.renumber f).attempt subject) := by
  induction p with
  | empty =>
    intro progress next next' hnext
    exact hnext progress
  | char set =>
    intro progress next next' hnext
    simp only [Pattern.renumber, Pattern.attempt, Progress.pos_renumber]
    cases subject.get? progress.pos with
    | none => rfl
    | some c => exact ite_none_map _ (hnext { progress with pos := progress.pos + 1 })
  | anchor place =>
    intro progress next next' hnext
    simp only [Pattern.renumber, Pattern.attempt, Progress.pos_renumber]
    exact ite_none_map _ (hnext progress)
  | seq a b iha ihb =>
    intro progress next next' hnext
    exact iha progress _ _ fun after => ihb after next next' hnext
  | alt a b iha ihb =>
    intro progress next next' hnext
    rw [Pattern.renumber, Pattern.attempt, Pattern.attempt, map_orElse,
      iha progress next next' hnext, ihb progress next next' hnext]
  | «repeat» greed least most body ih =>
    intro progress next next' hnext
    cases greed with
    | possessive =>
      simp only [Pattern.renumber, Pattern.attempt, Progress.pos_renumber]
      rw [allRounds_renumber ih]
      exact hnext.bind _
    | _ => exact rounds_renumbers ih hnext _ _ _ _ progress
  | group index body ih =>
    intro progress next next' hnext
    exact ih progress _ _ fun after => hnext (after.close index progress.pos)
  | backref folding index =>
    intro progress next next' hnext
    simp only [Pattern.renumber, Pattern.attempt, Progress.group?_renumber hf,
      Progress.pos_renumber]
    cases progress.group? index with
    | none => rfl
    | some span =>
      exact ite_none_map _ (hnext { progress with pos := progress.pos + (span.2 - span.1) })
  | lookAhead negated body ih =>
    intro progress next next' hnext
    rw [Pattern.renumber, Pattern.attempt, Pattern.attempt, ih progress some some some_renumbers,
      afterLook_renumber hnext]
  | lookBehind negated width body ih =>
    intro progress next next' hnext
    have hbehind := ih { progress with pos := progress.pos - width } some some some_renumbers
    rw [Pattern.renumber, Pattern.attempt, Pattern.attempt, ← afterLook_renumber hnext]
    exact congrArg (afterLook negated (progress.renumber f) next') (ite_none_map _ hbehind)
  | atomic body ih =>
    intro progress next next' hnext
    rw [Pattern.renumber, Pattern.attempt, Pattern.attempt, ih progress some some some_renumbers]
    exact hnext.bind _
  | ifGroup index a b iha ihb =>
    intro progress next next' hnext
    rw [Pattern.renumber, Pattern.attempt, Pattern.attempt, Progress.group?_renumber hf]
    by_cases hset : (progress.group? index).isSome
    · rw [if_pos hset, if_pos hset]
      exact iha progress next next' hnext
    · rw [if_neg hset, if_neg hset]
      exact ihb progress next next' hnext

/-- The match of a pattern whose groups are renumbered is the same, but for the number of the group
that is closed last. -/
theorem matchAt?_renumber (hf : f.Injective) (p : Pattern) (pos : Nat) :
    (p.renumber f).matchAt? subject pos =
      (p.matchAt? subject pos).map fun found =>
        { found with lastClosed := found.lastClosed.map f } := by
  have hattempt := attempt_renumber subject hf p ⟨pos, [], none⟩ some some
    some_renumbers
  rw [Pattern.matchAt?, Pattern.matchAt?]
  change (Option.map _ ((p.renumber f).attempt subject (Progress.renumber f ⟨pos, [], none⟩) some))
    = _
  rw [hattempt, Option.map_map, Option.map_map]
  rfl

/-! ### The rest of a match -/

/-- A progress comes after another one, and not beyond the end of the text. -/
structure Progress.Advances (subject : Subject) (progress after : Progress) : Prop where
  le : progress.pos ≤ after.pos
  stop : after.pos ≤ max progress.pos subject.stop

namespace Progress.Advances

variable {progress after final : Progress}

theorem of_pos_eq (h : after.pos = progress.pos) : progress.Advances subject after :=
  ⟨h.ge, h.le.trans (le_max_left _ _)⟩

theorem refl (progress : Progress) : progress.Advances subject progress :=
  of_pos_eq rfl

theorem trans (h : progress.Advances subject after) (h' : after.Advances subject final) :
    progress.Advances subject final :=
  ⟨h.le.trans h'.le, h'.stop.trans (max_le h.stop (le_max_right _ _))⟩

end Progress.Advances

/-- A matcher succeeds only if the rest of the match succeeds at a later progress, and then with
that. -/
def Matcher.Answers (subject : Subject) (m : Matcher) : Prop :=
  ∀ progress next final, m progress next = some final →
    ∃ after, progress.Advances subject after ∧ next after = some final

theorem Matcher.Answers.advances {m : Matcher} (hm : m.Answers subject) {progress final : Progress}
    (h : m progress some = some final) : progress.Advances subject final := by
  obtain ⟨after, hafter, ⟨⟩⟩ := hm _ _ _ h
  exact hafter

theorem rounds_answers {m : Matcher} (hm : m.Answers subject) {lazy : Bool} {next : Continuation}
    {fuel required : Nat} {allowed last : Option Nat} {progress final : Progress}
    (h : rounds lazy m next fuel required allowed last progress = some final) :
    ∃ after, progress.Advances subject after ∧ next after = some final := by
  induction fuel generalizing required allowed last progress with
  | zero => exact ⟨progress, .refl _, h⟩
  | succ fuel ih =>
    cases required with
    | succ required =>
      obtain ⟨round, hround, hrest⟩ := hm _ _ _ h
      obtain ⟨after, hafter, hnext⟩ := ih hrest
      exact ⟨after, hround.trans hafter, hnext⟩
    | zero =>
      have hanother : (if allowed = some 0 || last = some progress.pos then none
          else m progress (rounds lazy m next fuel 0 (allowed.map (· - 1)) (some progress.pos))) =
            some final → ∃ after, progress.Advances subject after ∧ next after = some final := by
        intro h
        split at h
        · cases h
        · obtain ⟨round, hround, hrest⟩ := hm _ _ _ h
          obtain ⟨after, hafter, hnext⟩ := ih hrest
          exact ⟨after, hround.trans hafter, hnext⟩
      cases lazy with
      | true => exact (eq_some_of_orElse h).elim (fun h => ⟨progress, .refl _, h⟩) hanother
      | false => exact (eq_some_of_orElse h).elim hanother fun h => ⟨progress, .refl _, h⟩

theorem allRounds_advances {m : Matcher} (hm : m.Answers subject) {fuel required : Nat}
    {allowed : Option Nat} {progress final : Progress}
    (h : allRounds m fuel required allowed progress = some final) :
    progress.Advances subject final := by
  induction fuel generalizing required allowed progress with
  | zero =>
    cases h
    exact .refl _
  | succ fuel ih =>
    cases required with
    | succ required =>
      obtain ⟨round, hround, hrest⟩ := Option.bind_eq_some_iff.1 h
      exact (hm.advances hround).trans (ih hrest)
    | zero =>
      rw [allRounds] at h
      split at h
      · cases h
        exact .refl _
      · split at h
        · cases h
          exact .refl _
        next round hround =>
          split at h
          · cases h
            exact hm.advances hround
          · exact (hm.advances hround).trans (ih h)

theorem afterLook_answers {next : Continuation} {negated : Bool} {progress final : Progress}
    {seen : Option Progress} (h : afterLook negated progress next seen = some final) :
    ∃ after, progress.Advances subject after ∧ next after = some final := by
  cases seen with
  | none =>
    rw [afterLook] at h
    split at h
    · exact ⟨progress, .refl _, h⟩
    · cases h
  | some seen =>
    rw [afterLook] at h
    split at h
    · cases h
    · exact ⟨{ seen with pos := progress.pos }, .of_pos_eq rfl, h⟩

/-- A stretch that is the same as another one ends within the text. -/
theorem le_stop_of_sameStretch {folding : Folding} {a b length : Nat}
    (h : sameStretch subject folding a b length) : b + length ≤ max b subject.stop := by
  induction length generalizing a b with
  | zero => exact le_max_left _ _
  | succ length ih =>
    rw [sameStretch] at h
    split at h
    next c d _ hd =>
      have hrest := ih (Bool.and_eq_true_iff.1 h).2
      have hlt := Subject.get?_lt hd
      omega
    · cases h

/-- A pattern succeeds only if the rest of the match does. -/
theorem attempt_answers (p : Pattern) : Matcher.Answers subject (p.attempt subject) := by
  induction p with
  | empty => exact fun progress next final h => ⟨progress, .refl _, h⟩
  | char set =>
    intro progress next final h
    rw [Pattern.attempt] at h
    split at h
    next c hc =>
      split at h
      · exact ⟨_, ⟨Nat.le_succ _, (Nat.succ_le_of_lt (Subject.get?_lt hc)).trans (le_max_right _ _)⟩, h⟩
      · cases h
    · cases h
  | anchor place =>
    intro progress next final h
    rw [Pattern.attempt] at h
    split at h
    · exact ⟨progress, .refl _, h⟩
    · cases h
  | seq a b iha ihb =>
    intro progress next final h
    obtain ⟨middle, hmiddle, hrest⟩ := iha _ _ _ h
    obtain ⟨after, hafter, hnext⟩ := ihb _ _ _ hrest
    exact ⟨after, hmiddle.trans hafter, hnext⟩
  | alt a b iha ihb =>
    intro progress next final h
    exact (eq_some_of_orElse h).elim (iha progress next final) (ihb progress next final)
  | «repeat» greed least most body ih =>
    intro progress next final h
    cases greed with
    | possessive =>
      obtain ⟨after, hrounds, hafter⟩ := Option.bind_eq_some_iff.1 h
      exact ⟨after, allRounds_advances ih hrounds, hafter⟩
    | _ => exact rounds_answers ih h
  | group index body ih =>
    intro progress next final h
    obtain ⟨after, hafter, hnext⟩ := ih _ _ _ h
    exact ⟨after.close index progress.pos, ⟨hafter.le, hafter.stop⟩, hnext⟩
  | backref folding index =>
    intro progress next final h
    rw [Pattern.attempt] at h
    split at h
    · cases h
    · split at h
      next hsame => exact ⟨_, ⟨Nat.le_add_right _ _, le_stop_of_sameStretch hsame⟩, h⟩
      · cases h
  | lookAhead negated body =>
    exact fun progress next final h => afterLook_answers h
  | lookBehind negated width body =>
    exact fun progress next final h => afterLook_answers h
  | atomic body ih =>
    intro progress next final h
    obtain ⟨after, hbody, hafter⟩ := Option.bind_eq_some_iff.1 h
    exact ⟨after, ih.advances hbody, hafter⟩
  | ifGroup index a b iha ihb =>
    intro progress next final h
    rw [Pattern.attempt] at h
    split at h
    · exact iha progress next final h
    · exact ihb progress next final h

/-- A match ends after its start, and not beyond the end of the text. -/
theorem le_stop_of_matchAt? {p : Pattern} {pos : Nat} {found : Match}
    (h : p.matchAt? subject pos = some found) :
    pos ≤ found.stop ∧ found.stop ≤ max pos subject.stop := by
  obtain ⟨final, hattempt, rfl⟩ := Option.map_eq_some_iff.1 h
  obtain ⟨hle, hstop⟩ := (attempt_answers p).advances hattempt
  exact ⟨hle, hstop⟩

/-- A pattern that is one group closes that group last. -/
theorem lastClosed_of_matchAt?_group {index pos : Nat} {body : Pattern} {found : Match}
    (h : (Pattern.group index body).matchAt? subject pos = some found) :
    found.start = pos ∧ found.lastClosed = some index := by
  obtain ⟨final, hattempt, rfl⟩ := Option.map_eq_some_iff.1 h
  obtain ⟨after, -, hafter⟩ := attempt_answers body _ _ _ hattempt
  cases hafter
  exact ⟨rfl, rfl⟩

end Precedence
