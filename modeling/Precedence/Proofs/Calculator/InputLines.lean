import Mathlib
import Precedence.Proofs.Calculator.Batch
import Precedence.Proofs.Calculator.Pointing

/-!
# Lines of the input

Without expressions on the command line, every line of the input that is not blank is handled as a
source of its own. What becomes of it does not depend on the other lines, and a diagnostic about it
names the number that the line has in the input, the blank lines counted.

## Main definitions

- `SplitsIntoLines` — a text and its lines
- `lineSource` — the source of a line of the input
- `LineVerdict` — what a line adds to a run

## Main statements

- `splitsIntoLines_splitLines` — the lines that a text is split into
- `resultText_congr` — a result depends on nothing but the text
- `lineVerdict_of_hasVerdict` — the verdict on the source of a line
- `runCalculator_inputLines` — a run over the lines of the input
-/

namespace Precedence

/-! ### Splitting a text -/

/-- The lines of a text. Each ends with its only newline, but for the last one, which may lack it
and is not empty. -/
inductive SplitsIntoLines : List Char → List (List Char) → Prop
  | nil : SplitsIntoLines [] []
  | last {quote} (hne : quote ≠ []) (hquote : '\n' ∉ quote) : SplitsIntoLines quote [quote]
  | line {quote rest lines} (hquote : '\n' ∉ quote) (hrest : SplitsIntoLines rest lines) :
      SplitsIntoLines (quote ++ '\n' :: rest) ((quote ++ ['\n']) :: lines)

variable {asTree verbose : Bool} {line quote text : List Char} {lines : List (List Char)}

namespace SplitsIntoLines

/-- A character that is no newline lengthens the first line. -/
theorem cons {c : Char} (h : SplitsIntoLines text (line :: lines)) (hc : c ≠ '\n') :
    SplitsIntoLines (c :: text) ((c :: line) :: lines) := by
  cases h with
  | last hne hquote => exact .last (List.cons_ne_nil _ _) (by simp [hc.symm, hquote])
  | @line quote rest _ hquote hrest =>
    exact .line (List.not_mem_cons_of_ne_of_not_mem hc.symm hquote) hrest

/-- Every line can be quoted. -/
theorem exists_quote (h : SplitsIntoLines text lines) :
    ∀ line ∈ lines, ∃ quote, QuotesLine line quote := by
  induction h with
  | nil => exact nofun
  | last hne hquote =>
    exact List.forall_mem_singleton.2 ⟨_, hquote, Or.inl rfl⟩
  | line hquote _ ih =>
    exact List.forall_mem_cons.2 ⟨⟨_, hquote, Or.inr rfl⟩, ih⟩

end SplitsIntoLines

theorem splitsIntoLines_splitLines (text : List Char) : SplitsIntoLines text (splitLines text) := by
  induction text with
  | nil => exact .nil
  | cons c text ih =>
    rw [splitLines]
    by_cases hc : c = '\n'
    · subst hc
      rw [if_pos rfl]
      exact .line List.not_mem_nil ih
    · rw [if_neg hc]
      cases hlines : splitLines text with
      | nil =>
        rw [hlines] at ih
        cases ih
        exact .last (List.cons_ne_nil _ _) (by simp [Ne.symm hc])
      | cons line lines =>
        rw [hlines] at ih
        exact ih.cons hc

/-! ### Sources of the same text -/

section

variable {a b : Source}

theorem tokenText_congr (h : a.text = b.text) : a.tokenText = b.tokenText := by
  funext token
  simp only [Source.tokenText, Source.slice, Source.extract, Source.length, h]

theorem lexing_congr (h : a.text = b.text) : a.lexing = b.lexing := by
  simp only [Source.lexing, Source.length, h]

theorem readTokens_congr (h : a.text = b.text) (verbose : Bool) (frames : List Frame)
    (tokens : List Token) :
    a.readTokens verbose frames tokens = b.readTokens verbose frames tokens := by
  induction tokens generalizing frames with
  | nil => rfl
  | cons token tokens ih =>
    simp only [Source.readTokens, Source.tokenLine, tokenText_congr h, ih]

theorem expression_congr (h : a.text = b.text) (verbose : Bool) :
    a.expression verbose = b.expression verbose := by
  simp only [Source.expression, tokens, readTokens_congr h, lexing_congr h, Source.length, h]

/-- The result of a source depends on its text only, not on its name nor on the index of its first
line. -/
theorem resultText_congr (h : a.text = b.text) (asTree verbose : Bool) :
    a.resultText asTree verbose = b.resultText asTree verbose := by
  have hnode : a.treeNode = b.treeNode := by
    funext op left right
    rw [Source.treeNode, Source.treeNode, tokenText_congr h]
  have hnumber : a.numberOf = b.numberOf := by
    funext token
    rw [Source.numberOf, Source.numberOf, tokenText_congr h]
  simp only [Source.resultText, Source.tree, Source.evaluate, expression_congr h, tokenText_congr h,
    hnode, hnumber]

end

/-! ### Verdicts on lines -/

/-- The source of a line of the input, given with its index. -/
def lineSource (numbered : List Char × Nat) : Source :=
  Source.ofString "<stdin>" (String.ofList numbered.1) numbered.2

/-- What a line of the input with some index adds to a run. Its result is the one that its text has
as a source of any name and with any first line. A diagnostic names the number of the line in the
input and columns of the line, and quotes the line. -/
inductive LineVerdict (asTree verbose : Bool) (line : List Char) (index : Nat) : Verdict → Prop
  | result {text log}
      (hresult : ∀ name firstLine, (Source.ofString name (String.ofList line) firstLine).resultText
        asTree verbose = (.ok (.ok text), log)) :
      LineVerdict asTree verbose line index ⟨text ++ "\n", written log, true⟩
  | complaint {fault log quote under} {start stop : Nat}
      (hresult : ∀ name firstLine, (Source.ofString name (String.ofList line) firstLine).resultText
        asTree verbose = (.error fault, log))
      (hclass : isClimbErrorClass fault.className) (hquote : QuotesLine line quote)
      (hlt : start < stop) (hstop : stop ≤ quote.length)
      (hunder : Underlines line.toArray 0 start (stop - start) under) :
      LineVerdict asTree verbose line index ⟨"", written log ++
        diagnosticText "<stdin>" (placeText (1 + index) 0 start stop)
          (complaint fault.className fault.reason) quote under, false⟩

theorem text_ofString (name : String) (line : List Char) (firstLine : Int) :
    (Source.ofString name (String.ofList line) firstLine).text = line.toArray := by
  rw [Source.ofString, String.toList_ofList]

/-- What follows the quote of a line is blank. -/
theorem QuotesLine.exists_ending (h : QuotesLine line quote) :
    ∃ ending, line = quote ++ ending ∧ ∀ c ∈ ending, isBlank c := by
  obtain ⟨-, rfl | rfl⟩ := h
  · exact ⟨[], (List.append_nil _).symm, nofun⟩
  · exact ⟨['\n'], rfl, List.forall_mem_singleton.2 rfl⟩

/-- The verdict on the source of a line that is not blank. -/
theorem lineVerdict_of_hasVerdict {index : Nat} {verdict : Verdict}
    (hblank : isBlankText line = false) (hquote : QuotesLine line quote)
    (h : (lineSource (line, index)).HasVerdict asTree verbose verdict) :
    LineVerdict asTree verbose line index verdict := by
  have hsame (name : String) (firstLine : Int) :
      (Source.ofString name (String.ofList line) firstLine).resultText asTree verbose =
        (lineSource (line, index)).resultText asTree verbose := by
    refine resultText_congr ?_ asTree verbose
    rw [lineSource, text_ofString, text_ofString]
  cases h with
  | @tree t log htree hrun _ _ =>
    refine .result fun name firstLine => ?_
    rw [hsame]
    simp [Source.resultText, htree, hrun, Except.map]
  | @value n text log htree hrun htext _ _ =>
    refine .result fun name firstLine => ?_
    rw [hsame]
    simp [Source.resultText, htree, hrun, htext, Except.map]
  | @complaint fault log text hrun hclass htext _ =>
    have hchars : (lineSource (line, index)).text.toList = line := by
      rw [lineSource, text_ofString]
    obtain ⟨ending, hline, hending⟩ := hquote.exists_ending
    obtain ⟨c, hc, hnot⟩ := List.all_eq_false.1 hblank
    have hbody : ∃ c ∈ quote, isBlank c = false := by
      refine ⟨c, ?_, by simpa using hnot⟩
      rw [hline] at hc
      exact (List.mem_append.1 hc).resolve_right fun hmem => hnot (hending c hmem)
    -- The complaint is about a pair that stands before the newline.
    have hpervades := pervades_stands (hchars.trans hline) hending hbody
    have hnames : fault.Names ((lineSource (line, index)).Stands quote.length) := by
      split at hrun
      · exact names_of_tree hpervades (congrArg Prod.fst hrun)
      · exact names_of_evaluate hpervades (congrArg Prod.fst hrun)
    have hquoted : QuotesLine (lineSource (line, index)).text.toList quote := hchars.symm ▸ hquote
    obtain ⟨start, stop, under, hlt, hstop, hunder, hshown⟩ :=
      faultText_of_names rfl hquoted hnames
    rw [lineSource, text_ofString] at hunder
    obtain rfl := Except.ok.inj (htext.symm.trans hshown)
    refine .complaint (fun name firstLine => ?_) hclass hquote hlt hstop hunder
    rw [hsame]
    cases asTree with
    | true => simp_all [Source.resultText, Except.map]
    | false => simp_all [Source.resultText, Except.map]

/-! ### A run over the lines of the input -/

/-- The lines that are not blank, with their indexes among all lines. -/
def handledLines (lines : List (List Char)) : List (List Char × Nat) :=
  lines.zipIdx.filter fun numbered => !isBlankText numbered.1

theorem inputSources_eq (input : String) :
    inputSources input =
      (handledLines (splitLines (universalNewlines input.toList))).map lineSource := by
  rw [inputSources, handledLines]
  induction (splitLines (universalNewlines input.toList)).zipIdx with
  | nil => rfl
  | cons numbered rest ih =>
    cases hblank : isBlankText numbered.1 with
    | true => simp [hblank, ih]
    | false => simp [hblank, ih, lineSource]

/-- The verdicts on the sources of lines are the verdicts on the lines. -/
theorem lineVerdicts_of_hasVerdict {numbered : List (List Char × Nat)} {verdicts : List Verdict}
    (hlines : SplitsIntoLines text lines)
    (hnumbered : ∀ entry ∈ numbered, entry ∈ handledLines lines)
    (h : List.Forall₂ (fun source => source.HasVerdict asTree verbose) (numbered.map lineSource)
      verdicts) :
    List.Forall₂ (fun entry => LineVerdict asTree verbose entry.1 entry.2) numbered verdicts := by
  rw [List.forall₂_map_left_iff] at h
  have hall := (List.forall₂_and_left numbered verdicts).2 ⟨hnumbered, h⟩
  refine hall.imp fun entry verdict ⟨hentry, hverdict⟩ => ?_
  obtain ⟨hmem, hblank⟩ := List.mem_filter.1 hentry
  obtain ⟨quote, hquote⟩ := hlines.exists_quote entry.1 (List.fst_mem_of_mem_zipIdx hmem)
  exact lineVerdict_of_hasVerdict (by simpa using hblank) hquote hverdict

/-- Without expressions on the command line, a run handles the lines of the input that are not blank
one after the other. Only an integer with too many digits to be written ends it early, with the
verdicts on all lines up to there. -/
theorem runCalculator_inputLines {args : List String} {options : List OptionSpec}
    (hread : readOptions calculator.options args = .ok (.run options [])) (input : String) :
    let asTree := options.contains treeOption
    let verbose := options.contains verboseOption
    ∃ lines, SplitsIntoLines (universalNewlines input.toList) lines ∧
      ((∀ entry ∈ handledLines lines, (lineSource entry).Printable asTree verbose) →
        ∃ verdicts,
          List.Forall₂ (fun entry => LineVerdict asTree verbose entry.1 entry.2)
            (handledLines lines) verdicts ∧
          runCalculator args input =
            ⟨⟨String.join (verdicts.map Verdict.out), String.join (verdicts.map Verdict.err)⟩,
              .ok (if verdicts.all Verdict.accepted then 0 else 1)⟩) ∧
      ∀ front entry back, handledLines lines = front ++ entry :: back →
        (∀ other ∈ front, (lineSource other).Printable asTree verbose) →
        ¬ (lineSource entry).Printable asTree verbose →
        ∃ verdicts,
          List.Forall₂ (fun entry => LineVerdict asTree verbose entry.1 entry.2) front verdicts ∧
          runCalculator args input =
            ⟨⟨String.join (verdicts.map Verdict.out), String.join (verdicts.map Verdict.err)
              ++ written (((lineSource entry).evaluate verbose).run.run []).2⟩,
              .error tooManyDigits⟩ := by
  intro asTree verbose
  have hlines := splitsIntoLines_splitLines (universalNewlines input.toList)
  have hsources : sourcesOf [] input = inputSources input := rfl
  rw [inputSources_eq] at hsources
  have hfresh : ∀ entry : List Char × Nat, (lineSource entry).newlines = [] := fun _ => rfl
  refine ⟨_, hlines, fun hprintable => ?_, fun front entry back heq hfront hentry => ?_⟩
  · obtain ⟨verdicts, hverdicts, hall⟩ := Session.runAll_of_printable ⟨.empty, true⟩
      (List.forall_mem_map.2 fun entry _ => hfresh entry) (List.forall_mem_map.2 hprintable)
    rw [← hsources] at hall
    refine ⟨verdicts, lineVerdicts_of_hasVerdict hlines (fun _ => id) hverdicts, ?_⟩
    rw [runCalculator_of_ok hread hall, foldl_add]
    simp [Session.finish, Console.empty]
  · rw [heq, List.map_append, List.map_cons] at hsources
    obtain ⟨verdicts, hverdicts, hstop⟩ := Session.runAll_of_not_printable ⟨.empty, true⟩
      (back.map lineSource) (List.forall_mem_map.2 fun entry _ => hfresh entry)
      (List.forall_mem_map.2 hfront) hentry
    rw [← hsources] at hstop
    refine ⟨verdicts, lineVerdicts_of_hasVerdict hlines (fun other hother => ?_) hverdicts, ?_⟩
    · rw [heq]
      exact List.mem_append_left _ hother
    · rw [runCalculator_of_error hread hstop, foldl_add]
      simp [Console.empty]

/-- Two lines that are not blank among four. The complaint about the first of them names the second
line of the input. -/
theorem runCalculator_inputLines_blanks :
    let args := ["-tree"]
    let input := " \n1+\n\n2*3"
    let lines := [[' ', '\n'], ['1', '+', '\n'], ['\n'], ['2', '*', '3']]
    readOptions calculator.options args = .ok (.run [treeOption] []) ∧
      handledLines lines = [(['1', '+', '\n'], 1), (['2', '*', '3'], 3)] ∧
      (∀ entry ∈ handledLines lines, (lineSource entry).Printable true false) ∧
      (∃ lines, SplitsIntoLines (universalNewlines input.toList) lines ∧
        ∃ verdicts,
          List.Forall₂ (fun entry => LineVerdict true false entry.1 entry.2) (handledLines lines)
            verdicts ∧
          runCalculator args input =
            ⟨⟨String.join (verdicts.map Verdict.out), String.join (verdicts.map Verdict.err)⟩,
              .ok (if verdicts.all Verdict.accepted then 0 else 1)⟩) ∧
      (runCalculator args input).console =
        ⟨"('*', '2', '3')\n",
          "<stdin>:2:2-3: climb error: infix operator must be followed by a primary expression.\n"
            ++ "| 1+\n   ~\n"⟩ := by
  intro args input lines
  have hread : readOptions calculator.options args = .ok (.run [treeOption] []) := by
    rfl
  refine ⟨hread, by decide +kernel, fun _ _ => Or.inl rfl, ?_, by decide +kernel⟩
  obtain ⟨lines, hlines, hall, -⟩ := runCalculator_inputLines hread input
  exact ⟨lines, hlines, hall fun _ _ => Or.inl rfl⟩

/-- The second line has a value that could be written if it were a source of its own, but the value
of the first one has too many digits. Nothing is written for the second line. -/
theorem runCalculator_line_unreached :
    let line := ['1', '+', '1', '\n']
    let text := ['1', '0', '^', '5', '0', '0', '0', '\n'] ++ line
    let input := String.ofList text
    SplitsIntoLines (universalNewlines input.toList) (splitLines text) ∧
      (line, 1) ∈ handledLines (splitLines text) ∧
      (runCalculator [] (String.ofList line)).console = ⟨"2\n", ""⟩ ∧
      (runCalculator [] input).console = ⟨"", ""⟩ ∧
      ∀ status, (runCalculator [] input).status ≠ .ok status := by
  intro line text input
  refine ⟨?_, by decide +kernel, by decide +kernel, by decide +kernel, ?_⟩
  · have hsame : universalNewlines input.toList = text := by
      decide +kernel
    rw [hsame]
    exact splitsIntoLines_splitLines text
  · have hended : (runCalculator [] input).status.toOption = none := by
      decide +kernel
    intro status hstatus
    rw [hstatus] at hended
    cases hended

end Precedence
