import Mathlib
import Precedence.Proofs.Requests

/-!
# Quoted lines

A diagnostic names a line of the source and columns on it, quotes the line and underlines the span
as far as it is on that line. The three agree with each other and with the text, wherever the span
starts and wherever it ends.

## Main definitions

- `OnLine` — the line that a position is on
- `QuotesLine` — a line without the newline at its end
- `Underlines` — a text that underlines a part of a line
- `diagnosticText`, `placeText` — the text of a diagnostic, and of the place that it names

## Main statements

- `OnLine.unique` — a position is on one line only
- `onLine_lineStart_lineEnd` — the line that a source finds
- `Source.render_report` — the text of the report about a span
- `Source.diagnosticWithin_of_fresh` — the reports of a source that was not asked before
- `Source.diagnostics_quotes` — the text of a diagnostic

## Design notes

The line of a position is told without looking for it: it is bounded by newlines or the ends of the
text, and has no newline but at its end. The end of the text is on the last line that has
characters.
-/

namespace Precedence

/-! ### Lines -/

/-- The line of a text from `first` up to `last` is the one that a position is on: the position is
that of one of its characters, a newline at its end included, or it is the end of the text and the
line is the last one. An empty line after a newline at the end of the text is not counted. -/
structure OnLine (text : Array Char) (pos first last : Nat) : Prop where
  starts : first = 0 ∨ text[first - 1]? = some '\n'
  ends : last = text.size ∨ text[last - 1]? = some '\n'
  within : ∀ i, first ≤ i → i + 1 < last → text[i]? ≠ some '\n'
  first_le : first ≤ pos
  holds : pos < last ∨ pos = text.size ∧ last = text.size ∧ (first < text.size ∨ text.size = 0)

namespace OnLine

variable {text : Array Char} {pos first last first' last' : Nat}

theorem last_le (h : OnLine text pos first last) : last ≤ text.size := by
  rcases h.ends with rfl | hnewline
  · exact le_rfl
  · have := (Array.getElem?_eq_some_iff.1 hnewline).1
    omega

theorem le_last (h : OnLine text pos first last) : pos ≤ last := by
  rcases h.holds with hlt | ⟨rfl, rfl, -⟩
  · exact hlt.le
  · exact le_rfl

/-- Of two lines that a position is on, neither starts later. -/
theorem first_le_first (h : OnLine text pos first last) (h' : OnLine text pos first' last') :
    first' ≤ first := by
  by_contra hlt
  -- Otherwise the newline before the second line is in the first one, and can only be at its end.
  have hnewline : text[first' - 1]? = some '\n' := h'.starts.resolve_left (by omega)
  have hlast : last ≤ first' := by
    by_contra hin
    exact h.within (first' - 1) (by omega) (by omega) hnewline
  have hpos := h'.first_le
  have hlast' := h'.last_le
  rcases h.holds with hin | ⟨hend, hlastEq, -⟩
  · omega
  · rcases h'.holds with hin | ⟨-, -, hnonempty⟩ <;> omega

/-- Of two lines that a position is on and that start together, neither ends later. -/
theorem last_le_last (h : OnLine text pos first last) (h' : OnLine text pos first last') :
    last' ≤ last := by
  by_contra hlt
  have hlast' := h'.last_le
  have hnewline : text[last - 1]? = some '\n' := h.ends.resolve_left (by omega)
  have hpos := h.first_le
  rcases h.holds with hin | ⟨-, hend, -⟩
  · exact h'.within (last - 1) (by omega) (by omega) hnewline
  · omega

/-- A position is on one line only. -/
theorem unique (h : OnLine text pos first last) (h' : OnLine text pos first' last') :
    first' = first ∧ last' = last := by
  obtain rfl : first' = first := le_antisymm (h.first_le_first h') (h'.first_le_first h)
  exact ⟨rfl, le_antisymm (h.last_le_last h') (h'.last_le_last h)⟩

end OnLine

/-- The line with the character at `pos` ends at `last`. -/
structure EndsLine (text : Array Char) (last pos : Nat) : Prop where
  le : pos ≤ last
  stop : last = text.size ∨ pos < last ∧ text[last - 1]? = some '\n'
  within : ∀ i, pos ≤ i → i + 1 < last → text[i]? ≠ some '\n'

theorem endsLine_throughNewline {text : Array Char} {fuel pos : Nat}
    (h : pos + fuel = text.size) : EndsLine text (Source.throughNewline text fuel pos) pos := by
  induction fuel generalizing pos with
  | zero =>
    have hend : Source.throughNewline text 0 pos = text.size := rfl
    exact ⟨by omega, Or.inl hend, fun i hle hlt => by omega⟩
  | succ fuel ih =>
    rw [Source.throughNewline]
    by_cases hnewline : text[pos]? = some '\n'
    · rw [if_pos (beq_iff_eq.2 hnewline)]
      exact ⟨Nat.le_succ pos, Or.inr ⟨Nat.lt_succ_self pos, hnewline⟩, fun i hle hlt => by omega⟩
    · rw [if_neg (mt beq_iff_eq.1 hnewline)]
      have hrest := ih (show pos + 1 + fuel = text.size by omega)
      refine ⟨(Nat.le_succ pos).trans hrest.le,
        hrest.stop.imp_right fun hend => ⟨by omega, hend.2⟩, fun i hle hlt => ?_⟩
      rcases Nat.eq_or_lt_of_le hle with rfl | hlater
      · exact hnewline
      · exact hrest.within i hlater hlt

namespace Source

variable {source : Source} {pos first last : Nat}

theorem endsLine_lineEnd (hpos : pos ≤ source.length) :
    EndsLine source.text (source.lineEnd pos) pos := by
  rw [lineEnd, clamp_natCast, min_eq_left hpos]
  exact endsLine_throughNewline (Nat.add_sub_cancel' hpos)

theorem endsWithNewline_iff :
    source.endsWithNewline = true ↔ source.text[source.length - 1]? = some '\n' := by
  rw [endsWithNewline, Array.back?_eq_getElem?, beq_iff_eq]
  rfl

/-- The line that a source finds is the one that the position is on. -/
theorem onLine_lineStart_lineEnd (hpos : pos ≤ source.length) :
    OnLine source.text pos (source.lineStart pos) (source.lineEnd pos) := by
  have hstart := startsLine_lineStart hpos
  have hend := endsLine_lineEnd hpos
  have hfirst := hstart.le
  by_cases hlast : pos = source.length ∧ source.endsWithNewline
  · -- The position is after the newline at the end of the text, and its anchor is at that newline.
    have hnewline := endsWithNewline_iff.1 hlast.2
    have hpositive := (Array.getElem?_eq_some_iff.1 hnewline).1
    have hsize : pos = source.text.size := hlast.1
    rw [anchor, if_pos hlast] at hstart hfirst
    have hstop : source.lineEnd pos = source.text.size :=
      hend.stop.resolve_right fun hbefore => by
        have := (Array.getElem?_eq_some_iff.1 hbefore.2).1
        omega
    refine ⟨hstart.start, Or.inl hstop, fun i hle hlt => hstart.within i hle (by omega), by omega,
      Or.inr ⟨hsize, hstop, Or.inl (by omega)⟩⟩
  · rw [anchor, if_neg hlast] at hstart hfirst
    refine ⟨hstart.start, hend.stop.imp_right And.right, fun i hle hlt => ?_, hfirst, ?_⟩
    · by_cases hbefore : i < pos
      · exact hstart.within i hle hbefore
      · exact hend.within i (by omega) hlt
    · rcases hend.stop with hstop | hstop
      · by_cases hin : pos < source.text.size
        · exact Or.inl (by omega)
        · have hsize : pos = source.text.size := le_antisymm hpos (by omega)
          refine Or.inr ⟨hsize, hstop, Or.imp_right (fun hempty => ?_) (Nat.lt_or_ge _ _)⟩
          -- A line that starts at the end of the text is empty only if the text is.
          rcases hstart.start with hzero | hnewline
          · omega
          · have hfirstEq : source.lineStart pos = source.length :=
              le_antisymm (hfirst.trans hpos) hempty
            rw [hfirstEq] at hnewline
            exact absurd ⟨hsize, endsWithNewline_iff.2 hnewline⟩ hlast
      · exact Or.inl hstop.1

end Source

/-! ### Quoted and underlined lines -/

/-- A line without the newline at its end, if it has one. -/
def QuotesLine (line quote : List Char) : Prop :=
  '\n' ∉ quote ∧ (line = quote ∨ line = quote ++ ['\n'])

theorem QuotesLine.eq_quote {line quote : List Char} (h : QuotesLine line quote) :
    (if line.getLast? = some '\n' then line.dropLast else line) = quote := by
  obtain ⟨hnot, rfl | rfl⟩ := h
  · exact if_neg fun hlast => hnot (List.mem_of_getLast? hlast)
  · rw [if_pos List.getLast?_concat, List.dropLast_concat]

/-- A text with a newline at its end only is one line. -/
theorem onLine_of_quotesLine {text : Array Char} {quote : List Char} {pos : Nat}
    (h : QuotesLine text.toList quote) (hpos : pos < text.size) : OnLine text pos 0 text.size := by
  refine ⟨Or.inl rfl, Or.inl rfl, fun i _ hlt hnewline => ?_, Nat.zero_le pos, Or.inl hpos⟩
  rw [← Array.getElem?_toList] at hnewline
  rw [← Array.length_toList] at hlt
  obtain ⟨hnot, heq | heq⟩ := h
  · rw [heq] at hnewline
    exact hnot (List.mem_of_getElem? hnewline)
  · rw [heq] at hnewline hlt
    rw [List.length_append, List.length_singleton] at hlt
    rw [List.getElem?_append_left (by omega)] at hnewline
    exact hnot (List.mem_of_getElem? hnewline)

/-- A text underlines a part of a line: it has a tab under every tab before the part and a blank
under every other character, and then as many tildes as the part has characters, or a mark if it has
none. -/
structure Underlines (text : Array Char) (first start : Nat) (width : Int) (under : List Char) :
    Prop where
  before : ∀ i < start - first,
    under[i]? = some (if text[first + i]? = some '\t' then '\t' else ' ')
  mark : under.drop (start - first) = if 0 < width then List.replicate width.toNat '~' else ['^']

namespace Source

theorem length_extract (source : Source) {first last : Nat} (h : last ≤ source.text.size) :
    (source.extract first last).length = last - first := by
  rw [extract, Array.length_toList, Array.size_extract, min_eq_left h]

theorem getElem?_extract (source : Source) {first last i : Nat} (h : last ≤ source.text.size)
    (hi : first + i < last) : (source.extract first last)[i]? = source.text[first + i]? := by
  rw [extract, Array.getElem?_toList, Array.getElem?_extract, if_pos]
  rw [min_eq_left h]
  omega

variable {source : Source} {pos first last : Nat}

/-- Only the last character of a line may be a newline, and the quote is the line without it. -/
theorem quotesLine_of_onLine (h : OnLine source.text pos first last) :
    let line := source.extract first last
    QuotesLine line (if line.getLast? = some '\n' then line.dropLast else line) := by
  intro line
  have hlength : line.length = last - first := source.length_extract h.last_le
  have hfront : '\n' ∉ line.dropLast := by
    intro hmem
    obtain ⟨i, hi, hget⟩ := List.getElem_of_mem hmem
    rw [List.length_dropLast] at hi
    rw [List.getElem_dropLast] at hget
    refine h.within (first + i) (by omega) (by omega) ?_
    rw [← source.getElem?_extract h.last_le (by omega), ← hget]
    exact List.getElem?_eq_getElem _
  by_cases hnewline : line.getLast? = some '\n'
  · rw [if_pos hnewline]
    exact ⟨hfront, Or.inr (List.dropLast_append_getLast? _ hnewline).symm⟩
  · rw [if_neg hnewline]
    refine ⟨fun hmem => ?_, Or.inl rfl⟩
    cases hlast : line.getLast? with
    | none =>
      rw [List.getLast?_eq_none_iff.1 hlast] at hmem
      exact List.not_mem_nil hmem
    | some c =>
      rw [← List.dropLast_append_getLast? _ hlast, List.mem_append, List.mem_singleton] at hmem
      rcases hmem with hmem | rfl
      · exact hfront hmem
      · exact hnewline hlast

/-- The characters before a span on its line are underlined by blanks and tabs. -/
theorem underlines_underline (h : OnLine source.text pos first last) (width : Int) :
    Underlines source.text first pos width
      (underline ((source.extract first last).take (pos - first)) width.toNat) := by
  have hfirst := h.first_le
  have hlast := h.le_last
  have hlength : (((source.extract first last).take (pos - first)).map
      fun c => if c = '\t' then '\t' else ' ').length = pos - first := by
    rw [List.length_map, List.length_take, source.length_extract h.last_le]
    omega
  refine ⟨fun i hi => ?_, ?_⟩
  · have hsize := h.last_le
    obtain ⟨c, hc⟩ : ∃ c, source.text[first + i]? = some c :=
      ⟨_, Array.getElem?_eq_getElem (show first + i < source.text.size by omega)⟩
    rw [underline, List.getElem?_append_left (by omega), List.getElem?_map,
      List.getElem?_take_of_lt hi, source.getElem?_extract h.last_le (by omega), hc]
    simp
  · rw [underline, List.drop_left' hlength]
    by_cases hwidth : 0 < width
    · rw [if_pos hwidth, if_neg (by omega)]
    · rw [if_neg hwidth, if_pos (by omega)]

end Source

/-! ### Diagnostics -/

/-- The parts of a diagnostic put together. -/
def diagnosticText (name place message : String) (quote under : List Char) : String :=
  (if name.isEmpty then "" else name ++ ":") ++ place ++ ":"
    ++ (if message.isEmpty || message.startsWith "\n" then "" else " ") ++ message ++ "\n"
    ++ (if quote.isEmpty then "|" else "| ") ++ String.ofList quote ++ "\n  "
    ++ String.ofList under ++ "\n"

/-- The place that a diagnostic names: the number of a line, and the columns of a span that starts
at `start` and ends at `stop`, or that of its start if it is empty. -/
def placeText (number : Int) (first start : Nat) (stop : Int) : String :=
  toString number ++ ":" ++ toString (start - first + 1 : Int)
    ++ (if (start : Int) < stop then "-" ++ toString (stop - first + 1) else "")

namespace Source

variable {source : Source} {pos first last : Nat}

theorem toString_natCast (n : Nat) : toString (n : Int) = toString n := rfl

/-- The text of the report about a span, given the line that the span starts on and the quote of
that line. -/
theorem render_report {quote : List Char} (hpos : pos ≤ source.length)
    (hline : OnLine source.text pos first last)
    (hquote : QuotesLine (source.extract first last) quote) (index finish : Int)
    (name message : String) :
    (source.report index pos finish).render name message =
      diagnosticText name (placeText (index + 1) first pos (min finish last)) message quote
        (underline ((source.extract first last).take (pos - first))
          (min finish last - pos).toNat) := by
  obtain ⟨hstart, hend⟩ := hline.unique (onLine_lineStart_lineEnd hpos)
  have hfirst := hline.first_le
  have hcolumn : (pos - first + 1 : Int) = ((pos - first + 1 : Nat) : Int) := by omega
  have hplace : placeText (index + 1) first pos (min finish last) =
      toString (index + 1) ++ ":" ++ toString (pos - first + 1) ++
        (if (min finish last - pos).toNat = 0 then ""
          else "-" ++ toString (pos - first + 1 + (min finish last - pos).toNat)) := by
    rw [placeText, hcolumn, toString_natCast]
    by_cases hwidth : (pos : Int) < min finish last
    · have hfinish : min finish last - first + 1 =
          ((pos - first + 1 + (min finish last - pos).toNat : Nat) : Int) := by omega
      rw [if_pos hwidth, if_neg (by omega), hfinish, toString_natCast]
    · rw [if_neg hwidth, if_pos (by omega)]
  rw [report, hstart, hend, Report.render, diagnosticText, hplace]
  dsimp only
  rw [hquote.eq_quote]

/-- The diagnostic of a source that has not been asked before, given the line that the span starts
on and the quote of that line. -/
theorem diagnosticWithin_of_fresh {quote : List Char} {start stop : Bound} {finish : Int}
    (hfresh : source.newlines = []) (hpos : pos ≤ source.length)
    (hstart : start.index? = some (pos : Int)) (hstop : stop.index? = some finish)
    (hline : OnLine source.text pos first last)
    (hquote : QuotesLine (source.extract first last) quote) (message : String) :
    ∃ under, Underlines source.text first pos (min finish last - pos) under ∧
      (source.diagnosticWithin start stop message).1 = .ok (diagnosticText source.name
        (placeText (1 + source.firstLine + (source.text.toList.take first).count '\n') first pos
          (min finish last)) message quote under) := by
  obtain ⟨hfirst, hlast⟩ := hline.unique (onLine_lineStart_lineEnd hpos)
  refine ⟨_, underlines_underline hline (min finish last - pos), ?_⟩
  have hasked : pos ∈ start.asked? source.length := mem_asked?_iff.2 ⟨hstart, hpos⟩
  have hindexAt := lineIndexAt_of_mem hasked (Nat.zero_le source.length)
  have hindex := lineIndex_upTo (Nat.zero_le source.length) hpos
  rw [upTo_zero hfresh, if_neg fun hboth => absurd hboth.2 (Nat.not_lt_zero pos), add_zero]
    at hindexAt hindex
  rw [diagnosticWithin, hindexAt, hstart, hstop]
  dsimp only
  rw [diagnostic, hindex]
  dsimp only
  have hreport : (source.upTo (max 0 pos)).report (source.lineNumber pos) (pos : Int).toNat finish =
      source.report (source.lineNumber pos) pos finish := rfl
  have hnumber : source.lineNumber pos + 1 =
      1 + source.firstLine + (source.text.toList.take first).count '\n' := by
    rw [lineNumber, (hline.unique (onLine_lineStart_lineEnd hpos)).1]
    omega
  rw [hreport, render_report hpos hline hquote, hnumber]
  rfl

end Source

end Precedence
