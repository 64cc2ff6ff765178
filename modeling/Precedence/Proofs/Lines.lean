import Mathlib
import Precedence.Source

/-!
# Lines of a source

The newlines that a source has found are those before some position. This is enough to tell the line
of any position up to there, except that a newline that has been found counts as starting the next
line.

## Main definitions

- `StartsLine` — where the line with the character at a position starts
- `Source.anchor` — the position whose character tells which line a position is on
- `Source.lineNumber` — the index of the first line, and the newlines before the line of a position

## Main statements

- `scanTo_newlinesBetween` — looking for newlines up to a position finds all of them
- `startsLine_lineStart` — the start of the line that a position is on
- `foundLineIndex_newlinesBetween` — the index of the line, once some newlines have been found

## Design notes

Two lists of newlines are compared by their elements, as both are in ascending order.
-/

namespace Precedence

/-! ### Spans -/

theorem clamp_natCast (length pos : Nat) : Source.clamp length pos = min pos length := by
  rw [Source.clamp, if_neg (by omega), Int.toNat_natCast]

theorem slice_append (source : Source) {first middle last : Nat} (hfirst : first ≤ middle)
    (hlast : middle ≤ last) :
    source.slice (.index first) (.index middle) ++ source.slice (.index middle) (.index last) =
      source.slice (.index first) (.index last) := by
  simp only [Source.slice, Bound.index?, Option.getD_some, clamp_natCast, Source.extract,
    ← Array.toList_append, Array.extract_append_extract]
  rw [min_eq_left (by omega), max_eq_right (by omega)]

/-! ### Newlines -/

namespace Source

variable {text : Array Char} {first pos i : Nat}

theorem mem_newlinesBetween :
    i ∈ newlinesBetween text first pos ↔ first ≤ i ∧ i < pos ∧ text[i]? = some '\n' := by
  rw [newlinesBetween, List.mem_filter, List.mem_range'_1, beq_iff_eq]
  constructor
  · rintro ⟨⟨hle, hlt⟩, hnewline⟩
    exact ⟨hle, by omega, hnewline⟩
  · rintro ⟨hle, hlt, hnewline⟩
    exact ⟨⟨hle, by omega⟩, hnewline⟩

theorem pairwise_newlinesBetween (text : Array Char) (first pos : Nat) :
    (newlinesBetween text first pos).Pairwise (· < ·) :=
  List.Pairwise.filter _ List.pairwise_lt_range'

theorem newlinesBetween_append {middle : Nat} (hfirst : first ≤ middle) (hpos : middle ≤ pos) :
    newlinesBetween text first middle ++ newlinesBetween text middle pos =
      newlinesBetween text first pos := by
  have hrange : List.range' first (middle - first) ++ List.range' middle (pos - middle) =
      List.range' first (pos - first) := by
    have happend := @List.range'_append_1 first (middle - first) (pos - middle)
    rwa [Nat.add_sub_cancel' hfirst, show middle - first + (pos - middle) = pos - first by omega]
      at happend
  rw [newlinesBetween, newlinesBetween, ← List.filter_append, hrange]
  rfl

theorem newlinesBetween_eq_nil (h : ∀ i, first ≤ i → i < pos → text[i]? ≠ some '\n') :
    newlinesBetween text first pos = [] := by
  refine List.eq_nil_iff_forall_not_mem.2 fun i hi => ?_
  obtain ⟨hle, hlt, hnewline⟩ := mem_newlinesBetween.1 hi
  exact h i hle hlt hnewline

theorem newlinesBetween_succ (text : Array Char) (pos : Nat) :
    newlinesBetween text pos (pos + 1) = if text[pos]? = some '\n' then [pos] else [] := by
  rw [newlinesBetween, Nat.add_sub_cancel_left]
  by_cases hnewline : text[pos]? = some '\n' <;> simp [hnewline]

/-- The newlines before a position are as many as there are in the text up to there. -/
theorem length_newlinesBetween (text : Array Char) (pos : Nat) :
    (newlinesBetween text 0 pos).length = (text.toList.take pos).count '\n' := by
  induction pos with
  | zero => rfl
  | succ pos ih =>
    have hsplit : newlinesBetween text 0 pos ++ newlinesBetween text pos (pos + 1) =
        newlinesBetween text 0 (pos + 1) :=
      newlinesBetween_append (Nat.zero_le pos) (Nat.le_succ pos)
    rw [← hsplit, List.length_append, ih, newlinesBetween_succ, List.take_add_one,
      List.count_append, Array.getElem?_toList]
    congr 1
    cases text[pos]? with
    | none => rfl
    | some c => by_cases hc : c = '\n' <;> simp [hc]

/-! ### Looking for newlines -/

variable {source : Source} {reached : Nat}

/-- Newlines are looked for from a position on that is after all of those found so far; from there to
where they have been looked for, there are none. -/
theorem exists_scanTo_eq (h : source.newlines = newlinesBetween source.text 0 reached) (pos : Nat) :
    ∃ start ≤ reached, (∀ i ∈ source.newlines, i < start) ∧
      (∀ i, start ≤ i → i < reached → source.text[i]? ≠ some '\n') ∧
      source.scanTo pos = { source with
        newlines := source.newlines ++ newlinesBetween source.text start pos } := by
  have hmem : ∀ i < reached, source.text[i]? = some '\n' → i ∈ source.newlines := by
    intro i hlt hnewline
    rw [h]
    exact mem_newlinesBetween.2 ⟨Nat.zero_le i, hlt, hnewline⟩
  rw [scanTo]
  cases hlast : source.newlines.getLast? with
  | none =>
    have hnil : source.newlines = [] := List.getLast?_eq_none_iff.1 hlast
    refine ⟨0, Nat.zero_le reached, by simp [hnil], fun i _ hlt hnewline => ?_, rfl⟩
    have hfound := hmem i hlt hnewline
    rw [hnil] at hfound
    exact List.not_mem_nil hfound
  | some last =>
    obtain ⟨front, hfront⟩ := List.getLast?_eq_some_iff.1 hlast
    have hsorted := pairwise_newlinesBetween source.text 0 reached
    rw [← h, hfront, List.pairwise_append] at hsorted
    have hle : ∀ i ∈ source.newlines, i ≤ last := by
      intro i hi
      rw [hfront] at hi
      rcases List.mem_append.1 hi with hi | hi
      · exact (hsorted.2.2 i hi last (List.mem_singleton_self last)).le
      · exact (List.mem_singleton.1 hi).le
    have hreached : last < reached := by
      have hfound : last ∈ source.newlines := List.mem_of_getLast? hlast
      rw [h] at hfound
      exact (mem_newlinesBetween.1 hfound).2.1
    refine ⟨last + 1, hreached, fun i hi => Nat.lt_succ_of_le (hle i hi),
      fun i hlt hreached hnewline => ?_, rfl⟩
    have := hle i (hmem i hreached hnewline)
    omega

/-- If all newlines before a position have been found, then looking for newlines up to another one
finds those before the later of the two. -/
theorem scanTo_newlinesBetween (h : source.newlines = newlinesBetween source.text 0 reached)
    (pos : Nat) :
    source.scanTo pos =
      { source with newlines := newlinesBetween source.text 0 (max reached pos) } := by
  obtain ⟨start, hstart, hbefore, hnone, hscan⟩ := exists_scanTo_eq h pos
  rw [hscan]
  congr 1
  refine List.Pairwise.eq_of_mem_iff ?_ (pairwise_newlinesBetween _ _ _) fun i => ?_
  · refine List.pairwise_append.2 ⟨?_, pairwise_newlinesBetween _ _ _, fun i hi j hj => ?_⟩
    · rw [h]
      exact pairwise_newlinesBetween _ _ _
    · have hle := (mem_newlinesBetween.1 hj).1
      have hlt := hbefore i hi
      omega
  · rw [h, List.mem_append, mem_newlinesBetween, mem_newlinesBetween, mem_newlinesBetween]
    constructor
    · rintro (⟨-, hlt, hnewline⟩ | ⟨-, hlt, hnewline⟩)
      · exact ⟨Nat.zero_le i, lt_max_of_lt_left hlt, hnewline⟩
      · exact ⟨Nat.zero_le i, lt_max_of_lt_right hlt, hnewline⟩
    · rintro ⟨-, hlt, hnewline⟩
      by_cases hreached : i < reached
      · exact Or.inl ⟨Nat.zero_le i, hreached, hnewline⟩
      · have hpos : i < pos := (lt_max_iff.1 hlt).resolve_left hreached
        exact Or.inr ⟨by omega, hpos, hnewline⟩

/-- The newlines before a position that are found and at most `pos`. -/
theorem filter_le_newlinesBetween (text : Array Char) (pos reached : Nat) :
    (newlinesBetween text 0 reached).filter (· ≤ pos) =
      newlinesBetween text 0 (min (pos + 1) reached) := by
  refine List.Pairwise.eq_of_mem_iff ((pairwise_newlinesBetween _ _ _).filter _)
    (pairwise_newlinesBetween _ _ _) fun i => ?_
  rw [List.mem_filter, mem_newlinesBetween, mem_newlinesBetween, decide_eq_true_iff]
  constructor
  · rintro ⟨⟨hle, hlt, hnewline⟩, hpos⟩
    exact ⟨hle, by omega, hnewline⟩
  · rintro ⟨hle, hlt, hnewline⟩
    exact ⟨⟨hle, by omega, hnewline⟩, by omega⟩

end Source

/-! ### The lines of positions -/

/-- The line with the character at `pos` starts at `first`. -/
structure StartsLine (text : Array Char) (first pos : Nat) : Prop where
  le : first ≤ pos
  start : first = 0 ∨ text[first - 1]? = some '\n'
  within : ∀ i, first ≤ i → i < pos → text[i]? ≠ some '\n'

/-- There are no newlines between the start of a line and a position on it. -/
theorem StartsLine.newlinesBetween_eq {text : Array Char} {first pos : Nat}
    (h : StartsLine text first pos) :
    Source.newlinesBetween text 0 first = Source.newlinesBetween text 0 pos := by
  have hnone := Source.newlinesBetween_eq_nil h.within
  rw [← Source.newlinesBetween_append (Nat.zero_le first) h.le, hnone, List.append_nil]

theorem startsLine_afterLastNewline (text : Array Char) (pos : Nat) :
    StartsLine text (Source.afterLastNewline text pos) pos := by
  induction pos with
  | zero => exact ⟨le_rfl, Or.inl rfl, fun i _ hlt => absurd hlt (Nat.not_lt_zero i)⟩
  | succ pos ih =>
    rw [Source.afterLastNewline]
    by_cases hnewline : text[pos]? = some '\n'
    · rw [if_pos (beq_iff_eq.2 hnewline)]
      exact ⟨le_rfl, Or.inr hnewline, fun i hle hlt => by omega⟩
    · rw [if_neg (mt beq_iff_eq.1 hnewline)]
      refine ⟨ih.le.trans (Nat.le_succ pos), ih.start, fun i hle hlt => ?_⟩
      rcases Nat.lt_succ_iff_lt_or_eq.1 hlt with hlt | rfl
      · exact ih.within i hle hlt
      · exact hnewline

namespace Source

variable {source : Source} {pos reached : Nat}

/-- The position of the character that tells which line a position is on. This is the position itself,
but for the end of a text that ends with a newline. -/
def anchor (source : Source) (pos : Nat) : Nat :=
  if pos = source.length ∧ source.endsWithNewline then pos - 1 else pos

/-- The index of the first line, and the number of newlines before the line that a position is on. -/
def lineNumber (source : Source) (pos : Nat) : Int :=
  source.firstLine + (source.text.toList.take (source.lineStart pos)).count '\n'

theorem lineStart_natCast (hpos : pos ≤ source.length) :
    source.lineStart pos = afterLastNewline source.text (source.anchor pos) := by
  rw [lineStart, anchor]
  by_cases hend : pos = source.length ∧ source.endsWithNewline
  · have hpositive : 0 < pos := by
      refine Nat.pos_of_ne_zero fun hzero => ?_
      obtain ⟨hlength, hnewline⟩ := hend
      rw [endsWithNewline, Array.back?_eq_getElem?, beq_iff_eq] at hnewline
      have := (Array.getElem?_eq_some_iff.1 hnewline).1
      rw [length] at hlength
      omega
    have hcast : (pos : Int) - 1 = ((pos - 1 : Nat) : Int) := by omega
    rw [if_pos (by simpa using hend), if_pos hend, hcast, clamp_natCast, min_eq_left (by omega)]
  · rw [if_neg (by simpa using hend), if_neg hend, clamp_natCast, min_eq_left hpos]

/-- The start of the line that a position is on. -/
theorem startsLine_lineStart (hpos : pos ≤ source.length) :
    StartsLine source.text (source.lineStart pos) (source.anchor pos) := by
  rw [lineStart_natCast hpos]
  exact startsLine_afterLastNewline _ _

theorem lineNumber_eq (hpos : pos ≤ source.length) :
    source.lineNumber pos =
      source.firstLine + (newlinesBetween source.text 0 (source.anchor pos)).length := by
  rw [lineNumber, ← length_newlinesBetween, (startsLine_lineStart hpos).newlinesBetween_eq]

/-- The index that is told for a position is that of its line, unless there is a newline at the position
and newlines beyond it have been looked for. Then it is one more. -/
theorem foundLineIndex_newlinesBetween
    (h : source.newlines = newlinesBetween source.text 0 reached) (hpos : pos ≤ reached)
    (hreached : reached ≤ source.length) :
    source.foundLineIndex pos = source.lineNumber pos +
      if source.text[pos]? = some '\n' ∧ pos < reached then 1 else 0 := by
  rw [foundLineIndex, lineNumber_eq (hpos.trans hreached), anchor, h]
  by_cases hend : pos = source.length
  · have hlast : reached = pos := by omega
    have hquiet : ¬ (source.text[pos]? = some '\n' ∧ pos < reached) :=
      fun hboth => absurd hboth.2 (by omega)
    rw [if_pos hend, if_neg hquiet, hlast]
    by_cases hnewline : source.endsWithNewline
    · -- The newline at the end belongs to the last line.
      have hsucc : pos = pos - 1 + 1 ∧ source.text[pos - 1]? = some '\n' := by
        rw [endsWithNewline, Array.back?_eq_getElem?, beq_iff_eq] at hnewline
        rw [length] at hend
        have := (Array.getElem?_eq_some_iff.1 hnewline).1
        exact ⟨by omega, by rw [hend, hnewline]⟩
      have hcount : (newlinesBetween source.text 0 pos).length =
          (newlinesBetween source.text 0 (pos - 1)).length + 1 := by
        rw [hsucc.1, ← newlinesBetween_append (Nat.zero_le (pos - 1)) (Nat.le_succ (pos - 1)),
          newlinesBetween_succ, if_pos hsucc.2, List.length_append]
        rfl
      rw [if_pos hnewline, if_pos ⟨hend, hnewline⟩, hcount]
      omega
    · rw [if_neg hnewline, if_neg fun hboth => hnewline hboth.2]
      omega
  · rw [if_neg hend, if_neg fun hboth => hend hboth.1, filter_le_newlinesBetween]
    by_cases hlt : pos < reached
    · rw [min_eq_left (by omega),
        ← newlinesBetween_append (Nat.zero_le pos) (Nat.le_succ pos), newlinesBetween_succ,
        List.length_append]
      by_cases hnewline : source.text[pos]? = some '\n'
      · rw [if_pos hnewline, if_pos ⟨hnewline, hlt⟩, List.length_singleton]
        omega
      · rw [if_neg hnewline, if_neg fun hboth => hnewline hboth.1, List.length_nil]
        omega
    · rw [if_neg fun hboth => hlt hboth.2, min_eq_right (by omega), show reached = pos by omega]
      omega

end Source

end Precedence
