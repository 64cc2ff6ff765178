import Mathlib
import Precedence.Proofs.Testing.Reporting

/-!
# Counts of assertions

Whatever the tested functions do, every call of an assertion is counted once. Those that fail are
counted once more and reported once each, and no exception of a tested function ends the tests.

## Main definitions

- `Assertion.Call` — a call of an assertion, whose function may call assertions in turn
- `Assertion.Call.run`, `Assertion.runAll` — what calls do
- `LawfulTestable` — exceptions have arguments
- `Assertion.Call.fails` — whether a call fails
- `Assertion.Breaks` — an exception of the tested code makes an assertion fail
- `Assertion.Call.WellPosed` — a call whose expectation can be listed and whose exception can be formatted
- `Assertion.Call.Reports` — the report of a call
- `Assertion.madeAll` — the calls that have been made, in the order in which they end
- `Assertion.Gains` — what calls add to the counts and reports

## Main statements

- `Assertion.run_check` — what an assertion does once its function has ended
- `Assertion.Call.WellPosed.settles` — a call adds to the counts what it and the calls of its function
  add
- `Assertion.runAll_tally` — the counts, the reports and the end after any calls

## Design notes

A tested function does something to the counts only by calling assertions. It is thus given by the
calls that it makes and by how it ends. Values, exceptions and their classes may be of any kind.
-/

namespace Precedence

/-- The arguments of an exception are found on it as on any value, and a value of the same class has
arguments too. -/
class LawfulTestable (V : Type) {E : outParam Type} [Testable V E] : Prop where
  args_ofException (e : E) :
    Testable.args (Testable.ofException e : V) = .ok (Testable.exceptionArgs e)
  args_of_sameClass {v : V} {e : E} (h : Testable.sameClass v (Testable.ofException e) = true) :
    ∃ vs, Testable.args v = .ok vs

instance : LawfulTestable Yield where
  args_ofException _ := rfl
  args_of_sameClass {v fault} h := by
    cases v with
    | value v =>
      cases v with
      | fault cls args identity => exact ⟨_, rfl⟩
      | _ => cases h
    | iterator => cases h

variable {V E : Type} [Testable V E]

/-! ### Calls of assertions -/

/-- A call of an assertion: about a function, which makes some calls and then returns or raises, or
about a value. -/
inductive Assertion.Call (V E : Type) where
  | about (kind : Assertion) (test : Test V E) (expected : V) (inside : List (Call V E))
      (ends : Except E V)
  | equal (site : Site) (description expected actual : V)

namespace Assertion

/-- What an assertion does that lets no exception through. -/
def check (kind : Assertion) (test : Test V E) (expected : V) (outcome : TestM E V) :
    TestM E Unit :=
  match kind with
  | value => assertValue test false expected outcome
  | exception => assertException test false expected outcome
  | sequence => assertSequence test false expected outcome

mutual

/-- What a call does. -/
def Call.run : Call V E → TestM E Unit
  | .about kind test expected inside ends => kind.check test expected do
    runAll inside
    MonadExcept.ofExcept ends
  | .equal site description expected actual => assertEqual site description expected actual
termination_by structural call => call

/-- What some calls do, one after the other. -/
def runAll : List (Call V E) → TestM E Unit
  | [] => pure ()
  | call :: rest => do
    call.run
    runAll rest
termination_by structural calls => calls

end

mutual

/-- The calls that a call makes, and the call itself once they have ended. -/
def Call.made : Call V E → List (Call V E)
  | .about kind test expected inside ends =>
    madeAll inside ++ [.about kind test expected inside ends]
  | .equal site description expected actual => [.equal site description expected actual]
termination_by structural call => call

/-- The calls that some calls make, with the calls themselves. -/
def madeAll : List (Call V E) → List (Call V E)
  | [] => []
  | call :: rest => call.made ++ madeAll rest
termination_by structural calls => calls

end

/-- Every call is made, whatever the calls before it do. -/
theorem runAll_append (front back : List (Call V E)) :
    runAll (front ++ back) = runAll front >>= fun _ => runAll back := by
  induction front with
  | nil => rfl
  | cons call front ih =>
    rw [List.cons_append, runAll, runAll, ih, bind_assoc]

/-! ### Calls that fail -/

/-- An exception is the expected one if the expected value is a text and its notation, or a class and one of
its classes, or else of the same class and with equal arguments. -/
def fits (e : E) (expected : V) : Bool :=
  match Testable.text? expected with
  | some text => text == Testable.shown (Testable.ofException e : V)
  | none =>
    if Testable.isClass expected then Testable.isInstance (Testable.ofException e) expected
    else Testable.sameClass expected (Testable.ofException e) &&
      (Testable.args expected).toOption.any (Testable.sameItems · (Testable.exceptionArgs e))

/-- Whether an assertion about a function fails, given how the function ends. -/
def rejects (expected : V) : Assertion → Except E V → Bool
  | .value, .error _ => true
  | .value, .ok v => Testable.differs expected v
  | .exception, .ok _ => true
  | .exception, .error e => !fits e expected
  | .sequence, .error _ => true
  | .sequence, .ok v =>
    match Testable.items expected, Testable.items v with
    | .ok items, .ok actual => !Testable.sameItems items actual
    | _, _ => true

/-- Whether a call fails. -/
def Call.fails : Call V E → Bool
  | .about kind _ expected _ ends => kind.rejects expected ends
  | .equal _ _ expected actual => Testable.differs expected actual

/-- An exception of the tested code makes an assertion fail: the function raises it, or what the function
returns does so when an assertion about a sequence lists its items. An assertion about an exception fails
only if it is not the expected one. -/
inductive Breaks (expected : V) : Assertion → Except E V → E → Prop
  | value (e : E) : Breaks expected value (.error e) e
  | exception (e : E) (h : fits e expected = false) : Breaks expected exception (.error e) e
  | sequence (e : E) : Breaks expected sequence (.error e) e
  | listing (v : V) (e : E) (h : Testable.items v = .error e) : Breaks expected sequence (.ok v) e

/-- An assertion can be decided and reported: the items of an expected sequence can be listed, and the
traceback of an exception that makes the assertion fail can be formatted. -/
structure Admits (kind : Assertion) (test : Test V E) (expected : V) (ends : Except E V) : Prop where
  items (h : kind = sequence) : ∃ items, Testable.items expected = .ok items
  format {e : E} (h : Breaks expected kind ends e) : ∃ messages, test.format e = .ok messages

/-- A call, and the calls that its function makes, can be decided and reported. -/
inductive Call.WellPosed : Call V E → Prop
  | about {kind test expected inside ends} (hends : kind.Admits test expected ends)
      (hinside : ∀ call ∈ inside, Call.WellPosed call) :
      WellPosed (.about kind test expected inside ends)
  | equal {site description expected actual} : WellPosed (.equal site description expected actual)

/-- What is compared with an exception fits it or does not. -/
theorem matchesException_eq [LawfulTestable V] (e : E) (expected : V) :
    matchesException expected (Testable.ofException e) = .ok (fits e expected) := by
  rw [matchesException, fits]
  cases Testable.text? expected with
  | some text => rfl
  | none =>
    dsimp only
    split_ifs with hclass hsame
    · rfl
    · obtain ⟨vs, hargs⟩ := LawfulTestable.args_of_sameClass hsame
      rw [hsame, hargs, LawfulTestable.args_ofException]
      rfl
    · rw [Bool.not_eq_true] at hsame
      rw [hsame, Bool.false_and]

/-! ### What an assertion does -/

/-- What is left of a tally by an assertion about a function that ends in some way: its report, if it
fails, or nothing new. -/
inductive Verdict (kind : Assertion) (test : Test V E) (expected : V) (ends : Except E V)
    (tally : Tally) : Bool → Tally → Prop
  | passed : Verdict kind test expected ends tally false tally
  | failed (report : String) (h : kind.Reports test expected ends report) :
      Verdict kind test expected ends tally true
        { tally with failures := tally.failures + 1, report := tally.report ++ report }

/-- The tally once another assertion has been counted. -/
def counted (tally : Tally) : Tally :=
  { tally with tests := tally.tests + 1 }

theorem run_countTest (tally : Tally) :
    (countTest : TestM E Unit).run.run tally = (.ok (), counted tally) := rfl

omit [Testable V E] in
/-- A function that is observed may raise, and nothing gets through. -/
theorem run_observing {outcome : TestM E V} {ends : Except E V} {tally later : Tally}
    (h : outcome.run.run tally = (ends, later)) :
    (observing outcome).run.run tally = (.ok ends, later) := by
  have hcaught : (observing outcome).run.run tally =
      (.ok (outcome.run.run tally).1, (outcome.run.run tally).2) := rfl
  rw [hcaught, h]

/-- A failure about a function is reported as that of the assertion, if the expectation and the finding say
what its report has to say. -/
theorem verdict_of_fail {kind : Assertion} {test : Test V E} {expected : V} {ends : Except E V}
    (expectation : Expectation V) (finding : Finding V E)
    (hexpects : kind.Expects expected expectation.label expectation.shown)
    (hfinds : kind.Finds ends finding.label finding.shown finding.exception?)
    (hformat : ∀ e, finding = .raised e → ∃ messages, test.format e = .ok messages) (tally : Tally) :
    ∃ after, (fail test expectation finding).run.run tally = (.ok (), after) ∧
      Verdict kind test expected ends tally true after := by
  have htrace : ∃ trace, finding.traceback test = .ok trace := by
    cases finding with
    | value | sequence => exact ⟨"", rfl⟩
    | raised e =>
      obtain ⟨messages, hmessages⟩ := hformat e rfl
      exact ⟨_, by rw [Finding.traceback, hmessages]; rfl⟩
  obtain ⟨trace, htrace⟩ := htrace
  exact ⟨_, run_fail expectation htrace tally,
    .failed _ ⟨_, _, _, _, _, hexpects, hfinds, isReport_failureText expectation htrace⟩⟩

/-- An assertion counts itself, lets the function end, and reports a failure or nothing. -/
theorem run_check [LawfulTestable V] {kind : Assertion} {test : Test V E} {expected : V}
    {outcome : TestM E V} {ends : Except E V} {tally later : Tally}
    (h : kind.Admits test expected ends) (houtcome : outcome.run.run (counted tally) = (ends, later)) :
    ∃ after, (kind.check test expected outcome).run.run tally = (.ok (), after) ∧
      Verdict kind test expected ends later (kind.rejects expected ends) after := by
  have hobserving := run_observing houtcome
  cases kind with
  | value =>
    rw [Assertion.check, assertValue, run_bind_ok (run_countTest tally), run_bind_ok hobserving]
    cases ends with
    | error e =>
      obtain ⟨after, hfail, hverdict⟩ := verdict_of_fail (.value expected) (.raised e)
        (.value expected) (.raised value e) (fun _ he => by cases he; exact h.format (.value e)) later
      exact ⟨after, run_bind_ok hfail, hverdict⟩
    | ok v =>
      dsimp only [Assertion.rejects]
      cases hdiffers : Testable.differs expected v with
      | false => exact ⟨_, rfl, .passed⟩
      | true =>
        exact verdict_of_fail (.value expected) (.value v) (.value expected) (.value v) nofun later
  | exception =>
    rw [Assertion.check, assertException, run_bind_ok (run_countTest tally), run_bind_ok hobserving]
    cases ends with
    | ok v =>
      exact verdict_of_fail (.exception expected) (.value v) (.exception expected) (.exception v) nofun
        later
    | error e =>
      dsimp only [Assertion.rejects]
      rw [matchesException_eq]
      cases hfits : fits e expected with
      | true => exact ⟨_, rfl, .passed⟩
      | false =>
        obtain ⟨after, hfail, hverdict⟩ := verdict_of_fail (.exception expected) (.raised e)
          (.exception expected) (.raised exception e)
          (fun _ he => by cases he; exact h.format (.exception e hfits)) later
        exact ⟨after, run_bind_ok hfail, hverdict⟩
  | sequence =>
    obtain ⟨items, hitems⟩ := h.items rfl
    rw [Assertion.check, assertSequence, run_bind_ok (run_countTest tally), hitems]
    dsimp only
    rw [run_bind_ok hobserving]
    cases ends with
    | error e =>
      obtain ⟨after, hfail, hverdict⟩ := verdict_of_fail (.sequence items) (.raised e)
        (.sequence expected items hitems) (.raised sequence e)
        (fun _ he => by cases he; exact h.format (.sequence e)) later
      exact ⟨after, run_bind_ok hfail, hverdict⟩
    | ok v =>
      dsimp only [Assertion.rejects]
      rw [hitems]
      cases hlisted : Testable.items v with
      | error e =>
        exact verdict_of_fail (.sequence items) (.raised e) (.sequence expected items hitems)
          (.raisedLate v e hlisted) (fun _ he => by cases he; exact h.format (.listing v e hlisted))
          later
      | ok actual =>
        dsimp only
        cases Testable.sameItems items actual with
        | true => exact ⟨_, rfl, .passed⟩
        | false =>
          exact verdict_of_fail (.sequence items) (.sequence actual) (.sequence expected items hitems)
            (.sequence v actual hlisted) nofun later

/-- An assertion about a value does the same as one about a function that returns it. -/
theorem run_assertEqual (site : Site) (description expected actual : V) (tally : Tally) :
    ∃ after, (assertEqual site description expected actual).run.run tally = (.ok (), after) ∧
      Verdict value (.ofValue site description) expected (.ok actual) (counted tally)
        (Testable.differs expected actual) after := by
  rw [assertEqual, run_bind_ok (run_countTest tally)]
  cases Testable.differs expected actual with
  | false => exact ⟨_, rfl, .passed⟩
  | true =>
    exact verdict_of_fail (.value expected) (.value actual) (.value expected) (.value actual) nofun
      (counted tally)

/-! ### What calls add up to -/

/-- A text is the report of a call. A value that no function has returned is reported like one that a
function named by the description has returned. -/
def Call.Reports : Call V E → String → Prop
  | .about kind test expected _ ends => kind.Reports test expected ends
  | .equal site description expected actual =>
    value.Reports (.ofValue site description) expected (.ok actual)

/-- What calls add to the counts and reports: all of them are counted, those that fail are counted as
failures, and each of these is reported once. -/
structure Gains (before after : Tally) (calls : List (Call V E)) : Prop where
  tests : after.tests = before.tests + calls.length
  failures : after.failures = before.failures + (calls.filter Call.fails).length
  report : ∃ reports, List.Forall₂ Call.Reports (calls.filter Call.fails) reports ∧
    after.report = before.report ++ String.join reports

namespace Gains

variable {before middle after : Tally} {calls more : List (Call V E)}

theorem nil (tally : Tally) : Gains tally tally ([] : List (Call V E)) :=
  ⟨rfl, rfl, [], .nil, by simp [String.join]⟩

theorem append (h : Gains before middle calls) (hmore : Gains middle after more) :
    Gains before after (calls ++ more) := by
  obtain ⟨reports, hreports, htext⟩ := h.report
  obtain ⟨others, hothers, hmoreText⟩ := hmore.report
  constructor
  · rw [hmore.tests, h.tests, List.length_append, Nat.add_assoc]
  · rw [hmore.failures, h.failures, List.filter_append, List.length_append, Nat.add_assoc]
  · refine ⟨reports ++ others, ?_, ?_⟩
    · rw [List.filter_append]
      exact List.rel_append hreports hothers
    · rw [hmoreText, htext, String.join_append, String.append_assoc]

end Gains

/-- A call that has been counted at first is passed over at last, after the calls that its function
makes. -/
theorem gains_of_passed {call : Call V E} {tally later : Tally} {calls : List (Call V E)}
    (h : Gains (counted tally) later calls) (hpassed : call.fails = false) :
    Gains tally later (calls ++ [call]) := by
  have htests : later.tests = tally.tests + 1 + calls.length := h.tests
  have hfilter : (calls ++ [call]).filter Call.fails = calls.filter Call.fails := by
    simp [hpassed]
  constructor
  · rw [List.length_append, List.length_singleton]
    omega
  · rw [hfilter]
    exact h.failures
  · rw [hfilter]
    exact h.report

/-- A call that has been counted at first is reported at last, after the calls that its function makes. -/
theorem gains_of_failed {call : Call V E} {tally later : Tally} {calls : List (Call V E)}
    {report : String} (h : Gains (counted tally) later calls) (hfailed : call.fails = true)
    (hreport : call.Reports report) :
    Gains tally { later with failures := later.failures + 1, report := later.report ++ report }
      (calls ++ [call]) := by
  obtain ⟨reports, hreports, htext⟩ := h.report
  have htests : later.tests = tally.tests + 1 + calls.length := h.tests
  have hfailures : later.failures = tally.failures + (calls.filter Call.fails).length := h.failures
  have hfilter : (calls ++ [call]).filter Call.fails = calls.filter Call.fails ++ [call] := by
    simp [hfailed]
  constructor
  · show later.tests = _
    rw [List.length_append, List.length_singleton]
    omega
  · show later.failures + 1 = _
    rw [hfilter, List.length_append, List.length_singleton, hfailures, Nat.add_assoc]
  · refine ⟨reports ++ [report], ?_, ?_⟩
    · rw [hfilter]
      exact List.rel_append hreports (.cons hreport .nil)
    · show later.report ++ report = tally.report ++ String.join (reports ++ [report])
      rw [htext, String.join_append, String.append_assoc]
      simp [counted]

/-- The verdict about a call that has been counted at first is added at last, after the calls that its
function makes. -/
theorem gains_of_verdict {call : Call V E} {kind : Assertion} {test : Test V E} {expected : V}
    {ends : Except E V} {tally later after : Tally} {calls : List (Call V E)}
    (h : Gains (counted tally) later calls)
    (hreports : ∀ report, kind.Reports test expected ends report → call.Reports report)
    (hverdict : Verdict kind test expected ends later call.fails after) :
    Gains tally after (calls ++ [call]) := by
  generalize hfails : call.fails = fails at hverdict
  cases hverdict with
  | passed => exact gains_of_passed h hfails
  | failed report hreport => exact gains_of_failed h hfails (hreports report hreport)

/-- A call lets no exception through, and adds to the counts and reports what it and the calls of its
function do. -/
def Call.Settles (call : Call V E) : Prop :=
  ∀ tally, ∃ after, call.run.run.run tally = (.ok (), after) ∧ Gains tally after call.made

theorem runAll_gains {calls : List (Call V E)} (h : ∀ call ∈ calls, call.Settles) (tally : Tally) :
    ∃ after, (runAll calls).run.run tally = (.ok (), after) ∧
      Gains tally after (madeAll calls) := by
  induction calls generalizing tally with
  | nil => exact ⟨tally, rfl, .nil tally⟩
  | cons call calls ih =>
    obtain ⟨hcall, hcalls⟩ := List.forall_mem_cons.1 h
    obtain ⟨middle, hrun, hgains⟩ := hcall tally
    obtain ⟨after, hrest, hmore⟩ := ih hcalls middle
    refine ⟨after, ?_, hgains.append hmore⟩
    rw [runAll, run_bind_ok hrun, hrest]

/-- Calls settle, however deep the calls of their functions are nested. -/
theorem Call.WellPosed.settles [LawfulTestable V] {call : Call V E} (h : call.WellPosed) :
    call.Settles := by
  induction h with
  | @about kind test expected inside ends hends _ ih =>
    intro tally
    -- The function sees the count of its own assertion, and the counts of the calls that it makes.
    obtain ⟨later, hrun, hgains⟩ := runAll_gains ih (counted tally)
    have houtcome : (runAll inside >>= fun _ => MonadExcept.ofExcept ends : TestM E V).run.run
        (counted tally) = (ends, later) := by
      rw [run_bind_ok hrun]
      cases ends <;> rfl
    obtain ⟨after, hcheck, hverdict⟩ := run_check hends houtcome
    exact ⟨after, hcheck, gains_of_verdict hgains (fun _ => id) hverdict⟩
  | @equal site description expected actual =>
    intro tally
    obtain ⟨after, hrun, hverdict⟩ := run_assertEqual site description expected actual tally
    exact ⟨after, hrun, gains_of_verdict (.nil (counted tally)) (fun _ => id) hverdict⟩

/-- The tally after some calls that settle. -/
theorem runAll_zero [LawfulTestable V] {calls : List (Call V E)} (h : ∀ call ∈ calls, call.WellPosed) :
    ∃ reports, List.Forall₂ Call.Reports ((madeAll calls).filter Call.fails) reports ∧
      (runAll calls).run.run .zero = (.ok (), ⟨(madeAll calls).length,
        ((madeAll calls).filter Call.fails).length, String.join reports⟩) := by
  obtain ⟨⟨tests, failures, text⟩, hrun, htests, hfailures, reports, hreports, htext⟩ :=
    runAll_gains (fun call hcall => (h call hcall).settles) .zero
  obtain rfl : tests = (madeAll calls).length := by simpa [Tally.zero] using htests
  obtain rfl : failures = ((madeAll calls).filter Call.fails).length := by
    simpa [Tally.zero] using hfailures
  obtain rfl : text = String.join reports := by simpa [Tally.zero] using htext
  exact ⟨reports, hreports, hrun⟩

/-- After each of some calls, all calls made so far have been counted, and those of them that failed
have been counted as failures and reported once each; no exception gets through. At the end the status
is forced to one, with a summary of both counts, just in case a call has failed. -/
theorem runAll_tally [LawfulTestable V] (calls : List (Call V E))
    (h : ∀ call ∈ calls, call.WellPosed) :
    (∀ front back, calls = front ++ back → ∃ reports,
      let tally : Tally :=
        ⟨(madeAll front).length, ((madeAll front).filter Call.fails).length, String.join reports⟩
      (runAll front).run.run .zero = (.ok (), tally) ∧
      (runAll calls).run.run .zero = (runAll back).run.run tally ∧
      List.Forall₂ Call.Reports ((madeAll front).filter Call.fails) reports) ∧
    ((runAll calls).run.run .zero).2.summary =
      if ∃ call ∈ madeAll calls, call.fails then
        some ("\nutest ran: " ++ toString (madeAll calls).length ++ "; failed: " ++
          toString ((madeAll calls).filter Call.fails).length ++ "\n", 1)
      else none := by
  constructor
  · rintro front back rfl
    obtain ⟨reports, hreports, hfront⟩ := runAll_zero (List.forall_mem_append.1 h).1
    refine ⟨reports, hfront, ?_, hreports⟩
    rw [runAll_append, run_bind_ok hfront]
  · obtain ⟨reports, -, hcalls⟩ := runAll_zero h
    rw [hcalls]
    dsimp only [Tally.summary]
    by_cases hfails : ∃ call ∈ madeAll calls, call.fails
    · rw [if_pos hfails, if_neg]
      simpa using hfails
    · rw [if_neg hfails, if_pos]
      simpa using hfails

/-- A function that calls a failing assertion may itself return what is expected. Of the exceptions that
are raised, one is of an expected class and the other one is not, and both are caught. -/
theorem runAll_tally_nested :
    let test : Test Yield Fault :=
      ⟨"f", [], [], ⟨"/w/t.py", 1, "/w", "/w", "/home"⟩, fun _ => .ok ["ValueError\n"]⟩
    let calls : List (Call Yield Fault) :=
      [.about .value test (.value (.int 1))
          [.equal test.site (.value (.text "g")) (.value (.int 2)) (.value (.int 3))]
          (.ok (.value (.int 1))),
        .about .exception test (.value (.classOf "LookupError")) [] (.error ⟨"ValueError", []⟩),
        .about .exception test (.value (.classOf "Exception")) []
          (.error ⟨"PrecClimber.DefinitionError", []⟩)]
    (∀ call ∈ calls, call.WellPosed) ∧
      ((runAll calls).run.run .zero).2.summary =
        some ("\nutest ran: 4; failed: 2\n", 1) := by
  intro test calls
  have hadmits (kind : Assertion) (hkind : kind ≠ sequence) (expected : Yield)
      (ends : Except Fault Yield) : kind.Admits test expected ends :=
    ⟨fun h => absurd h hkind, fun _ => ⟨_, rfl⟩⟩
  have hposed : ∀ call ∈ calls, call.WellPosed := by
    simp only [calls, List.forall_mem_cons]
    refine ⟨.about (hadmits value nofun _ _) ?_, .about (hadmits exception nofun _ _) nofun,
      .about (hadmits exception nofun _ _) nofun, nofun⟩
    simp only [List.forall_mem_cons]
    exact ⟨.equal, nofun⟩
  have hfails : ((madeAll calls).filter Call.fails).length = 2 := by
    decide +kernel
  have hfailed : ∃ call ∈ madeAll calls, call.fails := by
    decide +kernel
  refine ⟨hposed, ?_⟩
  rw [(runAll_tally calls hposed).2, if_pos hfailed, hfails]
  decide +kernel

end Assertion

end Precedence
