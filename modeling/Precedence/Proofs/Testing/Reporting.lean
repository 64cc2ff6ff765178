import Mathlib
import Precedence.Proofs.Coupling
import Precedence.Testing.Assertion

/-!
# Reports of failures

The report of a failure names the place and the tested function on its first line, then the arguments, what
was expected and what was found instead, in two columns. An exception is followed by its arguments and its
traceback. A report ends with an empty line.

## Main definitions

- `Assertion` — the assertions about what a function does
- `Assertion.Expects`, `Assertion.Finds` — what the report of an assertion says
- `IsReport` — how a report says it
- `Assertion.Reports` — the report of an assertion about a function that ends in some way

## Main statements

- `Assertion.Reports.unique` — an assertion has one report at most
- `isReport_failureText` — what is written about a failure is its report
- `run_fail` — a failure is counted and reported
- `run_fail_of_unformatted` — a report stops where a traceback cannot be formatted
-/

namespace Precedence

/-- The assertions about what a function does. -/
inductive Assertion where
  | value
  | exception
  | sequence

variable {V E : Type} [Testable V E]

/-! ### What a report says -/

namespace Assertion

/-- What the report of an assertion says was expected: a label and a notation. -/
inductive Expects : Assertion → V → String → String → Prop
  | value (v : V) : Expects value v "expected value:" (Testable.shown v)
  | exception (v : V) : Expects exception v "expected exception:" (Testable.shown v)
  | sequence (v : V) (items : List V) (h : Testable.items v = .ok items) :
      Expects sequence v "expected sequence:" ("[" ++ ", ".intercalate (items.map Testable.shown) ++ "]")

/-- What the report of an assertion says was found once the function has ended: a label and a notation,
with the exception if there is one. The items of a sequence may raise it when they are listed. -/
inductive Finds : Assertion → Except E V → String → String → Option E → Prop
  | value (v : V) : Finds value (.ok v) "returned value:" (Testable.shown v) none
  | exception (v : V) : Finds exception (.ok v) "returned value:" (Testable.shown v) none
  | sequence (v : V) (items : List V) (h : Testable.items v = .ok items) :
      Finds sequence (.ok v) "returned sequence:"
        ("[" ++ ", ".intercalate (items.map Testable.shown) ++ "]") none
  | raised (kind : Assertion) (e : E) :
      Finds kind (.error e) "raised exception:" (Testable.shown (Testable.ofException e : V)) (some e)
  | raisedLate (v : V) (e : E) (h : Testable.items v = .error e) :
      Finds sequence (.ok v) "raised exception:" (Testable.shown (Testable.ofException e : V)) (some e)

end Assertion

/-! ### How a report says it -/

/-- A place is shown as its path from the directory of its site, with a dot before a bare name, and its
line. -/
inductive Site.Shows (site : Site) : String → Prop
  | nested (path : String) (hpath : path = relativePath site.workDir site.file site.fromDir)
      (hslash : path.contains '/' = true) : Shows site (path ++ ":" ++ toString site.line)
  | bare (path : String) (hpath : path = relativePath site.workDir site.file site.fromDir)
      (hslash : path.contains '/' = false) : Shows site ("./" ++ path ++ ":" ++ toString site.line)

/-- Blanks after two labels such that what follows them stands in one column, one blank after the longer
label. -/
def Aligned (label label' gap gap' : String) : Prop :=
  ∃ n n', gap = String.ofList (List.replicate n ' ') ∧ gap' = String.ofList (List.replicate n' ' ') ∧
    label.length + n = label'.length + n' ∧ min n n' = 1

/-- Lines, each with a newline. -/
def linesText (lines : List String) : String :=
  String.join (lines.map (· ++ "\n"))

/-- The first lines of a report: an empty one, the place and the function, the arguments by position and
by name, what was expected, and what was found. -/
def headLines (test : Test V E) (place expected found : String) : List String :=
  ["", place ++ ": utest failure: " ++ test.name] ++
    test.args.mapIdx (fun i arg => "  arg " ++ toString i ++ " = " ++ Testable.shown arg) ++
    test.named.map (fun (name, arg) => "  arg " ++ name ++ " = " ++ Testable.shown arg) ++
    ["  " ++ expected, "  " ++ found]

/-- The lines about the arguments of an exception. -/
def argumentLines (e : E) : List String :=
  (Testable.exceptionArgs e : List V).mapIdx fun i arg =>
    "    exc arg " ++ toString i ++ ": " ++ Testable.shown arg

/-- The report about a test in which one thing was expected and another one found. The messages of the
traceback follow an empty line, with paths below the directory of the site or below the home directory
shortened. -/
inductive IsReport (test : Test V E) (label expected label' found : String) :
    Option E → String → Prop
  | returned (place gap gap' : String) (hplace : test.site.Shows place)
      (hgaps : Aligned label label' gap gap') :
      IsReport test label expected label' found none
        (linesText (headLines test place (label ++ gap ++ expected) (label' ++ gap' ++ found) ++ [""]))
  | raised (place gap gap' : String) (e : E) (messages : List String)
      (hplace : test.site.Shows place) (hgaps : Aligned label label' gap gap')
      (hformat : test.format e = .ok messages) :
      IsReport test label expected label' found (some e)
        (linesText (headLines test place (label ++ gap ++ expected) (label' ++ gap' ++ found) ++
            argumentLines (V := V) e ++ [""]) ++
          String.join (messages.map
            (shortenMessage (slashed test.site.fromDir) (slashed test.site.home))) ++ "\n")

/-- The report of an assertion about a function that ends in some way. -/
def Assertion.Reports (kind : Assertion) (test : Test V E) (expected : V) (ends : Except E V)
    (report : String) : Prop :=
  ∃ label shown label' shown' exc?, kind.Expects expected label shown ∧
    kind.Finds ends label' shown' exc? ∧ IsReport test label shown label' shown' exc? report

/-! ### Reports are unique -/

theorem Assertion.Expects.unique {kind : Assertion} {v : V} {label shown label' shown' : String}
    (h : kind.Expects v label shown) (h' : kind.Expects v label' shown') :
    label = label' ∧ shown = shown' := by
  cases h with
  | value | exception => cases h'; exact ⟨rfl, rfl⟩
  | sequence _ items h =>
    cases h' with
    | sequence _ items' h' =>
      obtain rfl : items = items' := Except.ok.inj (h.symm.trans h')
      exact ⟨rfl, rfl⟩

theorem Assertion.Finds.unique {kind : Assertion} {ends : Except E V}
    {label shown label' shown' : String} {exc? exc?' : Option E}
    (h : kind.Finds ends label shown exc?) (h' : kind.Finds ends label' shown' exc?') :
    label = label' ∧ shown = shown' ∧ exc? = exc?' := by
  cases h with
  | value | exception | raised => cases h'; exact ⟨rfl, rfl, rfl⟩
  | sequence _ items h =>
    cases h' with
    | sequence _ items' h' =>
      obtain rfl : items = items' := Except.ok.inj (h.symm.trans h')
      exact ⟨rfl, rfl, rfl⟩
    | raisedLate _ e h' => cases h.symm.trans h'
  | raisedLate _ e h =>
    cases h' with
    | sequence _ items h' => cases h.symm.trans h'
    | raisedLate _ e' h' =>
      obtain rfl : e = e' := Except.error.inj (h.symm.trans h')
      exact ⟨rfl, rfl, rfl⟩

theorem Site.Shows.unique {site : Site} {place place' : String} (h : site.Shows place)
    (h' : site.Shows place') : place = place' := by
  cases h with
  | nested path hpath hslash =>
    cases h' with
    | nested path' hpath' => rw [hpath, hpath']
    | bare path' hpath' hbare =>
      rw [hpath', ← hpath, hslash] at hbare
      cases hbare
  | bare path hpath hbare =>
    cases h' with
    | nested path' hpath' hslash =>
      rw [hpath', ← hpath, hbare] at hslash
      cases hslash
    | bare path' hpath' => rw [hpath, hpath']

theorem Aligned.unique {label label' gap gap' other other' : String}
    (h : Aligned label label' gap gap') (h' : Aligned label label' other other') :
    gap = other ∧ gap' = other' := by
  obtain ⟨n, n', rfl, rfl, hcolumn, hmin⟩ := h
  obtain ⟨m, m', rfl, rfl, hcolumn', hmin'⟩ := h'
  obtain rfl : n = m := by omega
  obtain rfl : n' = m' := by omega
  exact ⟨rfl, rfl⟩

theorem IsReport.unique {test : Test V E} {label shown label' shown' report report' : String}
    {exc? : Option E} (h : IsReport test label shown label' shown' exc? report)
    (h' : IsReport test label shown label' shown' exc? report') : report = report' := by
  cases h with
  | returned place gap gap' hplace hgaps =>
    cases h' with
    | returned _ _ _ hplace' hgaps' =>
      obtain ⟨rfl, rfl⟩ := hgaps.unique hgaps'
      rw [hplace.unique hplace']
  | raised place gap gap' e messages hplace hgaps hformat =>
    cases h' with
    | raised _ _ _ _ messages' hplace' hgaps' hformat' =>
      obtain ⟨rfl, rfl⟩ := hgaps.unique hgaps'
      obtain rfl : messages = messages' := Except.ok.inj (hformat.symm.trans hformat')
      rw [hplace.unique hplace']

/-- An assertion about a function that ends in some way has one report at most. -/
theorem Assertion.Reports.unique {kind : Assertion} {test : Test V E} {expected : V}
    {ends : Except E V} {report report' : String} (h : kind.Reports test expected ends report)
    (h' : kind.Reports test expected ends report') : report = report' := by
  obtain ⟨_, _, _, _, _, hexpects, hfinds, hreport⟩ := h
  obtain ⟨_, _, _, _, _, hexpects', hfinds', hreport'⟩ := h'
  obtain ⟨rfl, rfl⟩ := hexpects.unique hexpects'
  obtain ⟨rfl, rfl, rfl⟩ := hfinds.unique hfinds'
  exact hreport.unique hreport'

/-! ### What is written about a failure -/

theorem Site.shows_shown (site : Site) : site.Shows site.shown := by
  rw [Site.shown]
  generalize hpath : relativePath site.workDir site.file site.fromDir = path
  cases hslash : path.contains '/' with
  | true =>
    rw [if_pos rfl]
    exact .nested path hpath.symm hslash
  | false =>
    rw [if_neg Bool.false_ne_true]
    exact .bare path hpath.symm hslash

theorem linesText_append (front back : List String) :
    linesText (front ++ back) = linesText front ++ linesText back := by
  rw [linesText, List.map_append, String.join_append, linesText, linesText]

theorem linesText_cons (line : String) (rest : List String) :
    linesText (line :: rest) = line ++ "\n" ++ linesText rest := by
  rw [linesText, List.map_cons, String.join_cons, linesText]

@[simp] theorem linesText_nil : linesText [] = "" := rfl

theorem linesText_map {α : Type} (f : α → String) (items : List α) :
    linesText (items.map f) = String.join (items.map fun a => f a ++ "\n") := by
  rw [linesText, List.map_map]
  rfl

theorem linesText_mapIdx {α : Type} (f : Nat → α → String) (items : List α) :
    linesText (items.mapIdx f) = String.join (items.zipIdx.map fun (a, i) => f i a ++ "\n") := by
  rw [List.mapIdx_eq_zipIdx_map, linesText_map]

/-- A label that is filled up to a width no smaller than its own is followed by a blank. -/
theorem columnLine_eq (width : Nat) (label shown : String) :
    columnLine width label shown =
      "  " ++ (label ++ String.ofList (List.replicate (width - label.length + 1) ' ') ++ shown) ++
        "\n" := by
  rw [columnLine, padded, List.replicate_succ', String.ofList_append]
  simp only [String.append_assoc]

/-- The blanks that fill two labels up to a common width, with one more blank each. -/
theorem aligned_replicate (label label' : String) :
    Aligned label label'
      (String.ofList (List.replicate (max label.length label'.length - label.length + 1) ' '))
      (String.ofList (List.replicate (max label.length label'.length - label'.length + 1) ' ')) :=
  ⟨_, _, rfl, rfl, by omega, by omega⟩

/-- What is written about a failure before the details is its first lines. -/
theorem failureText_eq (test : Test V E) (expectation : Expectation V) (finding : Finding V E) :
    ∃ gap gap', Aligned expectation.label finding.label gap gap' ∧
      test.failureText expectation finding =
        linesText (headLines test test.site.shown (expectation.label ++ gap ++ expectation.shown)
          (finding.label ++ gap' ++ finding.shown)) ++ finding.details := by
  refine ⟨_, _, aligned_replicate expectation.label finding.label, ?_⟩
  simp only [Test.failureText, Test.heading, Test.argumentText, argumentLine, columnLine_eq, headLines,
    linesText_append, linesText_cons, linesText_nil, linesText_map, linesText_mapIdx,
    String.append_assoc, String.append_empty, String.empty_append]

/-- The exception of a finding. -/
def Finding.exception? : Finding V E → Option E
  | raised e => some e
  | _ => none

/-- The traceback that follows the report of a finding. -/
def Finding.traceback (test : Test V E) : Finding V E → Except E String
  | raised e => (test.format e).map test.site.tracebackText
  | _ => .ok ""

theorem details_raised (e : E) :
    (Finding.raised e : Finding V E).details = linesText (argumentLines (V := V) e ++ [""]) := by
  rw [linesText_append, argumentLines, linesText_mapIdx, linesText_cons, linesText_nil]
  rfl

theorem linesText_newline (lines : List String) :
    linesText lines ++ "\n" = linesText (lines ++ [""]) := by
  rw [linesText_append, linesText_cons, linesText_nil, String.append_empty, String.empty_append]

/-- What is written about a failure, with the traceback and an empty line after it, is its report. -/
theorem isReport_failureText {test : Test V E} (expectation : Expectation V) {finding : Finding V E}
    {trace : String} (h : finding.traceback test = .ok trace) :
    IsReport test expectation.label expectation.shown finding.label finding.shown finding.exception?
      (test.failureText expectation finding ++ trace ++ "\n") := by
  obtain ⟨gap, gap', hgaps, htext⟩ := failureText_eq test expectation finding
  rw [htext]
  cases finding with
  | value | sequence =>
    cases h
    rw [Finding.details, String.append_empty, String.append_empty, linesText_newline]
    exact .returned _ gap gap' test.site.shows_shown hgaps
  | raised e =>
    rw [Finding.traceback] at h
    cases hformat : test.format e with
    | error complaint => rw [hformat] at h; cases h
    | ok messages =>
      rw [hformat] at h
      cases h
      rw [details_raised, ← linesText_append, ← List.append_assoc]
      exact .raised _ gap gap' e messages test.site.shows_shown hgaps hformat

/-! ### What a failure does -/

/-- A failure is counted, and its report is written. -/
theorem run_fail {test : Test V E} (expectation : Expectation V) {finding : Finding V E}
    {trace : String} (h : finding.traceback test = .ok trace) (tally : Tally) :
    (fail test expectation finding).run.run tally = (.ok (), { tally with
      failures := tally.failures + 1
      report := tally.report ++ (test.failureText expectation finding ++ trace ++ "\n") }) := by
  have hrun : (fail test expectation finding).run.run tally = (.ok (), { tally with
      failures := tally.failures + 1
      report := tally.report ++ test.failureText expectation finding ++ trace ++ "\n" }) := by
    cases finding with
    | value | sequence =>
      cases h
      rw [String.append_empty]
      rfl
    | raised e =>
      rw [Finding.traceback] at h
      cases hformat : test.format e with
      | error complaint => rw [hformat] at h; cases h
      | ok messages =>
        rw [hformat] at h
        cases h
        simp only [fail, reportTraceback, hformat]
        rfl
  simp only [hrun, String.append_assoc]

/-- Where a traceback cannot be formatted, the failure has been counted and the report has been written up
to the traceback. The complaint goes on. -/
theorem run_fail_of_unformatted {test : Test V E} (expectation : Expectation V) {e complaint : E}
    (h : test.format e = .error complaint) (tally : Tally) :
    (fail test expectation (.raised e)).run.run tally = (.error complaint, { tally with
      failures := tally.failures + 1
      report := tally.report ++ test.failureText expectation (.raised e) }) := by
  simp only [fail, reportTraceback, h]
  rfl

end Precedence
