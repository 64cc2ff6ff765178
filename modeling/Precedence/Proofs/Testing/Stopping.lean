import Mathlib
import Precedence.Proofs.Testing.Counting

/-!
# Assertions that stop the tests

An assertion can be told to let an exception through that makes it fail. The failure is counted and
reported all the same, once, before the exception goes on. An exception that is raised when an assertion
about a sequence lists the items of what the function has returned is never let through.

## Main definitions

- `Assertion.stopping` — an assertion that lets exceptions through
- `Assertion.RaisesLate` — an exception is raised only when items are listed

## Main statements

- `Assertion.Breaks.rejects` — an assertion that is broken by an exception fails
- `Assertion.run_stopping_of_breaks` — the exception that is let through
- `Assertion.run_stopping_of_not_breaks` — an assertion that returns
- `Assertion.stopping_ends` — how an assertion ends
-/

namespace Precedence.Assertion

variable {V E : Type} [Testable V E] {kind : Assertion} {test : Test V E} {expected : V}
  {outcome : TestM E V} {ends : Except E V} {tally later : Tally} {e : E}

/-- What an assertion does that lets exceptions through. -/
def stopping (kind : Assertion) (test : Test V E) (expected : V) (outcome : TestM E V) :
    TestM E Unit :=
  match kind with
  | value => assertValue test true expected outcome
  | exception => assertException test true expected outcome
  | sequence => assertSequence test true expected outcome

/-- The function has returned, and an exception is raised when an assertion about a sequence lists the items
of what it has returned. -/
inductive RaisesLate : Assertion → Except E V → Prop
  | listing (v : V) (e : E) (h : Testable.items v = .error e) : RaisesLate sequence (.ok v)

theorem Breaks.rejects (h : Breaks expected kind ends e) : kind.rejects expected ends = true := by
  cases h with
  | value => rfl
  | exception _ h => exact congrArg Bool.not h
  | sequence => rfl
  | listing v _ h =>
    cases hitems : Testable.items expected <;> simp [Assertion.rejects, hitems, h]

/-- An assertion that is broken by an exception that the function raised lets it through. It counts
and reports as if it did not. -/
theorem run_stopping_of_breaks [LawfulTestable V] (h : kind.Admits test expected ends)
    (houtcome : outcome.run.run (counted tally) = (ends, later))
    (hbreaks : Breaks expected kind ends e) (hearly : ¬ RaisesLate kind ends) :
    (kind.stopping test expected outcome).run.run tally =
      (.error e, ((kind.check test expected outcome).run.run tally).2) := by
  have hobserving := run_observing houtcome
  obtain ⟨messages, hformat⟩ := h.format hbreaks
  have htrace : (Finding.raised e : Finding V E).traceback test =
      .ok (test.site.tracebackText messages) := by
    rw [Finding.traceback, hformat]
    rfl
  cases hbreaks with
  | value =>
    simp only [stopping, check, assertValue, run_bind_ok (run_countTest tally),
      run_bind_ok hobserving, run_bind_ok (run_fail _ htrace later)]
    rfl
  | exception _ hfits =>
    simp only [stopping, check, assertException, run_bind_ok (run_countTest tally),
      run_bind_ok hobserving, matchesException_eq, hfits, run_bind_ok (run_fail _ htrace later)]
    rfl
  | sequence =>
    obtain ⟨items, hitems⟩ := h.items rfl
    simp only [stopping, check, assertSequence, run_bind_ok (run_countTest tally), hitems,
      run_bind_ok hobserving, run_bind_ok (run_fail _ htrace later)]
    rfl
  | listing v _ hlisted => exact absurd (.listing v e hlisted) hearly

/-- An assertion lets nothing through that the function has not raised or that it expects. -/
theorem run_stopping_of_not_breaks [LawfulTestable V] (h : kind.Admits test expected ends)
    (houtcome : outcome.run.run (counted tally) = (ends, later))
    (hbreaks : ∀ e, Breaks expected kind ends e → RaisesLate kind ends) :
    (kind.stopping test expected outcome).run.run tally =
      (kind.check test expected outcome).run.run tally := by
  have hobserving := run_observing houtcome
  cases kind with
  | value =>
    simp only [stopping, check, assertValue, run_bind_ok (run_countTest tally),
      run_bind_ok hobserving]
    cases ends with
    | error e => cases hbreaks e (.value e)
    | ok v => rfl
  | exception =>
    simp only [stopping, check, assertException, run_bind_ok (run_countTest tally),
      run_bind_ok hobserving]
    cases ends with
    | error e =>
      dsimp only
      rw [matchesException_eq]
      cases hfits : fits e expected with
      | true => rfl
      | false => cases hbreaks e (.exception e hfits)
    | ok v => rfl
  | sequence =>
    obtain ⟨items, hitems⟩ := h.items rfl
    simp only [stopping, check, assertSequence, run_bind_ok (run_countTest tally), hitems,
      run_bind_ok hobserving]
    cases ends with
    | error e => cases hbreaks e (.sequence e)
    | ok v => rfl

/-- However the function ends, an assertion that lets exceptions through counts itself once. If an
exception of the function breaks it, the failure is reported once and the exception goes on.
Otherwise it returns, and the failure is reported if it fails. An exception that is raised when items are
listed is reported, but it does not go on. -/
theorem stopping_ends [LawfulTestable V] (h : kind.Admits test expected ends)
    (houtcome : outcome.run.run (counted tally) = (ends, later)) :
    ∃ after,
      (¬ RaisesLate kind ends →
        (∀ e, Breaks expected kind ends e →
          (kind.stopping test expected outcome).run.run tally = (.error e, after) ∧
            Verdict kind test expected ends later true after) ∧
        ((∀ e, ¬ Breaks expected kind ends e) →
          (kind.stopping test expected outcome).run.run tally = (.ok (), after) ∧
            Verdict kind test expected ends later (kind.rejects expected ends) after)) ∧
      (RaisesLate kind ends →
        (kind.stopping test expected outcome).run.run tally = (.ok (), after) ∧
          Verdict kind test expected ends later true after) := by
  obtain ⟨after, hcheck, hverdict⟩ := run_check h houtcome
  refine ⟨after, fun hearly => ⟨fun e hbreaks => ?_, fun hbreaks => ?_⟩, fun hlate => ?_⟩
  · rw [run_stopping_of_breaks h houtcome hbreaks hearly, hcheck]
    exact ⟨rfl, hbreaks.rejects ▸ hverdict⟩
  · rw [run_stopping_of_not_breaks h houtcome fun e he => absurd he (hbreaks e)]
    exact ⟨hcheck, hverdict⟩
  · rw [run_stopping_of_not_breaks h houtcome fun _ _ => hlate]
    cases hlate with
    | listing v e hlisted =>
      have hbreaks : Breaks expected sequence (.ok v) e := .listing v e hlisted
      exact ⟨hcheck, hbreaks.rejects ▸ hverdict⟩

/-- A function raises another exception than the expected one. It is counted once and goes on. -/
theorem stopping_ends_unexpected :
    let test : Test Yield Fault :=
      ⟨"f", [], [], ⟨"/w/t.py", 1, "/w", "/w", "/home"⟩, fun _ => .ok ["ValueError\n"]⟩
    let expected : Yield := .value (.classOf "LookupError")
    let fault : Fault := ⟨"ValueError", []⟩
    let outcome : TestM Fault Yield := throw fault
    exception.Admits test expected (.error fault) ∧
      outcome.run.run (counted .zero) = (.error fault, counted .zero) ∧
      ¬ RaisesLate exception (.error fault : Except Fault Yield) ∧
      Breaks expected exception (.error fault) fault ∧
      ∃ after, (exception.stopping test expected outcome).run.run .zero = (.error fault, after) ∧
        Verdict exception test expected (.error fault) (counted .zero) true after := by
  intro test expected fault outcome
  have hadmits : exception.Admits test expected (.error fault) :=
    ⟨nofun, fun _ => ⟨_, rfl⟩⟩
  have houtcome : outcome.run.run (counted .zero) = (.error fault, counted .zero) := rfl
  have hearly : ¬ RaisesLate exception (.error fault : Except Fault Yield) := nofun
  have hbreaks : Breaks expected exception (.error fault) fault :=
    .exception fault (by decide +kernel)
  obtain ⟨after, hends, -⟩ := stopping_ends hadmits houtcome
  exact ⟨hadmits, houtcome, hearly, hbreaks, after, (hends hearly).1 fault hbreaks⟩

/-- An iterator raises an exception after two items. The assertion fails, but it returns. -/
theorem stopping_returns_late :
    let test : Test Yield Fault :=
      ⟨"gen_fail", [], [], ⟨"/w/t.py", 1, "/w", "/w", "/home"⟩, fun _ => .ok ["ValueError: 2\n"]⟩
    let expected : Yield := .value (.list [.int 0, .int 1])
    let fault : Fault := ⟨"ValueError", [.int 2]⟩
    let ends : Except Fault Yield := .ok (.iterator [.int 0, .int 1] (some fault) 0)
    let run := (sequence.stopping test expected (MonadExcept.ofExcept ends)).run.run .zero
    Breaks expected sequence ends fault ∧ run.2.failures = 1 ∧ run.1 = .ok () := by
  intro test expected fault ends run
  exact ⟨.listing _ fault rfl, rfl, rfl⟩

end Precedence.Assertion
