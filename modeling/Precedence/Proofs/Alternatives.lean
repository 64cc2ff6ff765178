import Mathlib
import Precedence.Lexer.Definition
import Precedence.Proofs.Munching
import Precedence.Proofs.Renumbering

/-!
# The patterns of a lexer one by one

The pattern of a lexer joins the patterns that it is defined by, each of which has been read by
itself before. If the joined pattern still holds each of them as it was read, but for the numbers of
groups, then the lexer makes the pairs that the patterns make one by one.

## Main definitions

- `matchAlone?`, `firstAlone?` — the matches of patterns that are read by themselves
- `HoldsAmong` — a pattern is that of a named text, but for the numbers of groups
- `NamedLexer.Keeps` — the joined pattern holds the patterns as they were read

## Main statements

- `matchAt?_choice` — the match of a choice is that of the first pattern that matches
- `matchAt?_of_keeps` — the match of the joined pattern is that of the first pattern that matches
- `next_of_firstAlone?` — the pair of a lexer where some pattern matches
- `next_of_firstAlone?_eq_none` — the pair of a lexer where no pattern matches

## Design notes

The kind of a pair is the name of the group that is closed last, and this is the group around a whole
pattern, unless the text of the pattern closes that group early.
-/

namespace Precedence

/-- The match that a pattern with the given text makes at a position, when it is read by itself. -/
def matchAlone? (text : String) (subject : Subject) (pos : Nat) : Option Match :=
  match Regex.read text.toList with
  | .ok regex => regex.pattern.matchAt? subject pos
  | .error _ => none

/-- The first of some named patterns that matches at a position, when it is read by itself, and its
match. -/
def firstAlone? (patterns : List (String × String)) (subject : Subject) (pos : Nat) :
    Option (String × Match) :=
  patterns.findSome? fun entry => (matchAlone? entry.2 subject pos).map (entry.1, ·)

/-- A pattern is that of a named text when it is read by itself, which is one group, with other
numbers for the groups; under its new number the group has the name. -/
def HoldsAmong (nameOf : Nat → Option String) (entry : String × String) (p : Pattern) : Prop :=
  ∃ regex body offset, Regex.read entry.2.toList = .ok regex ∧ regex.pattern = .group 1 body ∧
    p = regex.pattern.renumber (· + offset) ∧ nameOf (1 + offset) = some entry.1

/-- The joined pattern of a lexer holds the patterns that it is defined by as they are by
themselves. -/
def NamedLexer.Keeps (lexer : NamedLexer) : Prop :=
  ∃ ps, ps ≠ [] ∧ lexer.lexer.pattern = .choice ps ∧
    List.Forall₂ (HoldsAmong lexer.lexer.kindOf) lexer.patterns ps

/-! ### Matches -/

section

variable {subject : Subject}

theorem start_of_matchAt? {p : Pattern} {pos : Nat} {found : Match}
    (h : p.matchAt? subject pos = some found) : found.start = pos := by
  obtain ⟨final, -, rfl⟩ := Option.map_eq_some_iff.1 h
  rfl

theorem matchAt?_alt (p q : Pattern) (pos : Nat) :
    (Pattern.alt p q).matchAt? subject pos =
      (p.matchAt? subject pos).orElse fun _ => q.matchAt? subject pos :=
  map_orElse _ _ _

/-- The match of a choice is that of the first pattern that matches. -/
theorem matchAt?_choice {ps : List Pattern} (hne : ps ≠ []) (pos : Nat) :
    (Pattern.choice ps).matchAt? subject pos = ps.findSome? fun p => p.matchAt? subject pos := by
  induction ps with
  | nil => exact absurd rfl hne
  | cons p ps ih =>
    rw [List.findSome?_cons]
    cases ps with
    | nil =>
      rw [Pattern.choice, List.findSome?_nil]
      cases p.matchAt? subject pos <;> rfl
    | cons q ps =>
      rw [Pattern.choice, matchAt?_alt, ih (List.cons_ne_nil q ps)]
      · cases p.matchAt? subject pos <;> rfl
      · exact List.cons_ne_nil q ps

theorem mem_groupsFrom {p : Pattern} {index : Nat} {ps : List Pattern}
    (h : p ∈ Lexer.groupsFrom index ps) : ∃ i, ∃ q ∈ ps, p = .group i q := by
  induction ps generalizing index with
  | nil => cases h
  | cons q ps ih =>
    rcases List.mem_cons.1 h with rfl | h
    · exact ⟨index, q, List.mem_cons_self, rfl⟩
    · obtain ⟨i, r, hr, heq⟩ := ih h
      exact ⟨i, r, List.mem_cons_of_mem q hr, heq⟩

/-- Where every pattern of a lexer takes nothing, there is no match. -/
theorem matchAt?_ofKinds_eq_none {κ : Type} (invalid : κ) {kinds : List (κ × Pattern)} {pos : Nat}
    (hne : kinds ≠ []) (h : ∀ entry ∈ kinds, entry.2.Refuses subject pos) :
    (Lexer.ofKinds invalid kinds).pattern.matchAt? subject pos = none := by
  have hgroups : Lexer.groupsFrom 1 (kinds.map (·.2)) ≠ [] := by
    obtain ⟨entry, kinds, rfl⟩ := List.exists_cons_of_ne_nil hne
    exact List.cons_ne_nil _ _
  change (Pattern.choice (Lexer.groupsFrom 1 (kinds.map (·.2)))).matchAt? subject pos = none
  rw [matchAt?_choice hgroups, List.findSome?_eq_none_iff]
  intro p hp
  obtain ⟨i, q, hq, rfl⟩ := mem_groupsFrom hp
  obtain ⟨entry, hentry, rfl⟩ := List.mem_map.1 hq
  have hnone : (Pattern.group i entry.2).attempt subject ⟨pos, [], none⟩ some = none :=
    h entry hentry _ _ rfl
  rw [Pattern.matchAt?, hnone]
  rfl

/-- The match of a pattern that is held among others is the one that it makes by itself, and its kind is the
name of the pattern. -/
theorem matchAt?_of_holds (subject : Subject) {nameOf : Nat → Option String}
    {entry : String × String} {p : Pattern} (h : HoldsAmong nameOf entry p) (pos : Nat) :
    (p.matchAt? subject pos).map (fun found => (found.lastClosed.bind nameOf, found.start,
        found.stop)) =
      (matchAlone? entry.2 subject pos).map fun found => (some entry.1, pos, found.stop) := by
  obtain ⟨regex, body, offset, hread, hgroup, rfl, hkind⟩ := h
  rw [matchAt?_renumber (add_left_injective offset), matchAlone?, hread, Option.map_map]
  refine Option.map_congr fun found hfound => ?_
  rw [hgroup] at hfound
  obtain ⟨hstart, hlast⟩ := lastClosed_of_matchAt?_group hfound
  simp only [Function.comp_apply, hlast, hstart, Option.map_some, Option.bind_some, hkind]

/-- The match of the joined pattern is that of the first pattern that matches by itself, and its kind
is the name of that pattern. -/
theorem matchAt?_of_keeps (subject : Subject) {lexer : NamedLexer} (h : lexer.Keeps) (pos : Nat) :
    (lexer.lexer.pattern.matchAt? subject pos).map (fun found =>
        (found.lastClosed.bind lexer.lexer.kindOf, found.start, found.stop)) =
      (firstAlone? lexer.patterns subject pos).map fun first =>
        (some first.1, pos, first.2.stop) := by
  obtain ⟨ps, hne, hpattern, hholds⟩ := h
  rw [hpattern, matchAt?_choice hne, firstAlone?]
  generalize lexer.patterns = entries at hholds ⊢
  clear hne hpattern
  induction hholds with
  | nil => rfl
  | @cons entry p entries ps hp hholds ih =>
    have hfirst := matchAt?_of_holds subject hp pos
    rw [List.findSome?_cons, List.findSome?_cons]
    cases halone : matchAlone? entry.2 subject pos with
    | none =>
      rw [halone, Option.map_none, Option.map_eq_none_iff] at hfirst
      rw [hfirst]
      exact ih
    | some found =>
      rw [halone] at hfirst
      obtain ⟨joined, hjoined, hsame⟩ := Option.map_eq_some_iff.1 hfirst
      rw [hjoined]
      exact congrArg some hsame

/-! ### Searches -/

theorem searchFrom?_of_first {p : Pattern} {found : Match} {before count pos : Nat}
    (hnone : ∀ k < before, p.matchAt? subject (pos + k) = none)
    (hfound : p.matchAt? subject (pos + before) = some found) (hcount : before ≤ count) :
    p.searchFrom? subject count pos = some found := by
  induction before generalizing count pos with
  | zero => exact searchFrom?_of_matchAt? hfound count
  | succ before ih =>
    obtain ⟨count, rfl⟩ : ∃ n, count = n + 1 := ⟨count - 1, by omega⟩
    have hhere : p.matchAt? subject pos = none := hnone 0 (Nat.succ_pos _)
    rw [Pattern.searchFrom?, hhere]
    refine ih (fun k hk => ?_) ?_ (Nat.le_of_succ_le_succ hcount)
    · rw [Nat.add_assoc, Nat.add_comm 1]
      exact hnone (k + 1) (by omega)
    · rwa [Nat.add_assoc, Nat.add_comm 1]

theorem searchFrom?_eq_none {p : Pattern} {count pos : Nat}
    (hnone : ∀ k ≤ count, p.matchAt? subject (pos + k) = none) :
    p.searchFrom? subject count pos = none := by
  induction count generalizing pos with
  | zero => exact hnone 0 le_rfl
  | succ count ih =>
    have hhere : p.matchAt? subject pos = none := hnone 0 (Nat.zero_le _)
    rw [Pattern.searchFrom?, hhere]
    refine ih fun k hk => ?_
    rw [Nat.add_assoc, Nat.add_comm 1]
    exact hnone (k + 1) (by omega)

/-- Either there is a first place within some distance where a condition holds, or it holds nowhere
there. -/
theorem exists_first_or (P : Nat → Prop) (count : Nat) :
    (∃ n ≤ count, P n ∧ ∀ k < n, ¬ P k) ∨ ∀ k ≤ count, ¬ P k := by
  classical
  by_cases h : ∃ n, n ≤ count ∧ P n
  · obtain ⟨hle, hfirst⟩ := Nat.find_spec h
    exact Or.inl ⟨Nat.find h, hle, hfirst, fun k hk hP =>
      Nat.find_min h hk ⟨(hk.trans_le hle).le, hP⟩⟩
  · exact Or.inr fun k hk hP => h ⟨k, hk, hP⟩

end

/-! ### Pairs -/

section

variable {lexer : NamedLexer} {text : Array Char} {pos stop : Nat}

/-- The range of the text in which a lexer searches. -/
def seen (text : Array Char) (stop : Nat) : Subject :=
  ⟨text, min stop text.size⟩

theorem search?_eq_searchFrom? (p : Pattern) (hpos : pos ≤ stop) (hsize : pos ≤ text.size) :
    p.search? text pos stop = p.searchFrom? (seen text stop) (min stop text.size - pos) pos := by
  have hfirst : min (pos : Int).toNat text.size = pos := by
    rw [Int.toNat_natCast]
    exact min_eq_left hsize
  have hlast : min (stop : Int).toNat text.size = min stop text.size := by rw [Int.toNat_natCast]
  rw [Pattern.search?, hfirst, hlast, if_neg (not_lt.2 (le_min hpos hsize))]
  rfl

/-- The pair of a lexer at a position where some pattern matches by itself: it is that of the first
such pattern. -/
theorem next_of_firstAlone? (h : lexer.Keeps) (hpos : pos ≤ stop) (hsize : pos ≤ text.size)
    {name : String} {found : Match}
    (hfirst : firstAlone? lexer.patterns (seen text stop) pos = some (name, found)) :
    lexer.lexer.next text pos stop =
      if found.stop = pos then .error (.emptyMatch (some name) pos)
      else .ok (.leaf name pos found.stop) := by
  have hjoined := matchAt?_of_keeps (seen text stop) h pos
  rw [hfirst] at hjoined
  obtain ⟨joined, hmatch, hsame⟩ := Option.map_eq_some_iff.1 hjoined
  obtain ⟨start, stop', lastClosed⟩ := joined
  obtain ⟨hkind, hstart, hstop⟩ : lastClosed.bind lexer.lexer.kindOf = some name ∧ start = pos ∧
      stop' = found.stop := by
    simpa using hsame
  subst hstart hstop
  rw [Lexer.next, search?_eq_searchFrom? _ hpos hsize, searchFrom?_of_matchAt? hmatch]
  simp only [hkind, lt_irrefl, if_false]
  by_cases hempty : found.stop = start
  · rw [if_pos hempty.symm, if_pos hempty]
  · rw [if_neg (Ne.symm hempty), if_neg hempty]

/-- The pair of a lexer at a position where no pattern matches by itself: it is invalid, and reaches
to the first later position where one does, or to the end. -/
theorem next_of_firstAlone?_eq_none (h : lexer.Keeps) (hpos : pos ≤ stop) (hsize : pos ≤ text.size)
    (hnone : firstAlone? lexer.patterns (seen text stop) pos = none) :
    (∃ start, pos < start ∧ start ≤ min stop text.size ∧
      (firstAlone? lexer.patterns (seen text stop) start).isSome ∧
      (∀ p, pos ≤ p → p < start → firstAlone? lexer.patterns (seen text stop) p = none) ∧
      lexer.lexer.next text pos stop = .ok (.leaf lexer.lexer.invalid pos start)) ∨
    (∀ p, pos ≤ p → p ≤ min stop text.size →
      firstAlone? lexer.patterns (seen text stop) p = none) ∧
      lexer.lexer.next text pos stop = .ok (.leaf lexer.lexer.invalid pos stop) := by
  have hjoined : ∀ p, lexer.lexer.pattern.matchAt? (seen text stop) p = none ↔
      firstAlone? lexer.patterns (seen text stop) p = none := by
    intro p
    have := matchAt?_of_keeps (seen text stop) h p
    rw [← Option.map_eq_none_iff, this, Option.map_eq_none_iff]
  rw [Lexer.next, search?_eq_searchFrom? _ hpos hsize]
  rcases exists_first_or (fun k => lexer.lexer.pattern.matchAt? (seen text stop) (pos + k) ≠ none)
    (min stop text.size - pos) with ⟨k, hk, hmatch, hbefore⟩ | hnowhere
  · obtain ⟨found, hfound⟩ := Option.ne_none_iff_exists'.1 hmatch
    have hstart : found.start = pos + k := start_of_matchAt? hfound
    have hlater : pos < pos + k := by
      refine Nat.lt_add_of_pos_right (Nat.pos_of_ne_zero ?_)
      rintro rfl
      exact hmatch ((hjoined pos).2 hnone)
    refine Or.inl ⟨pos + k, hlater, by omega, ?_, fun p hp hlt => ?_, ?_⟩
    · exact Option.isSome_iff_ne_none.2 fun h => hmatch ((hjoined _).2 h)
    · refine (hjoined p).1 ?_
      have := not_not.1 (hbefore (p - pos) (by omega))
      rwa [Nat.add_sub_cancel' hp] at this
    · rw [searchFrom?_of_first (fun j hj => not_not.1 (hbefore j hj)) hfound hk]
      simp only [hstart]
      rw [if_pos (by exact_mod_cast hlater)]
  · refine Or.inr ⟨fun p hp hle => (hjoined p).1 ?_, ?_⟩
    · have := not_not.1 (hnowhere (p - pos) (by omega))
      rwa [Nat.add_sub_cancel' hp] at this
    · rw [searchFrom?_eq_none fun k hk => not_not.1 (hnowhere k hk)]

end

end Precedence
