import Mathlib
import Precedence.Proofs.Calculator.Complaints
import Precedence.Proofs.Calculator.Results

/-!
# Runs of the calculator

A run handles its expressions one after the other, whatever became of the earlier ones. It writes
one line for a result, and the diagnostic for a complaint, and its status tells whether all
expressions were accepted. Only an integer with too many digits to be written ends it early.

## Main definitions

- `Verdict` — what an expression adds to a run
- `Source.HasVerdict` — the verdict on a source
- `Source.Printable` — the result of a source can be written

## Main statements

- `Session.run_of_printable`, `Session.run_of_not_printable` — one expression
- `Session.runAll_of_printable` — expressions in order
- `runCalculator_verdicts` — a whole run
-/

namespace Precedence

variable {source : Source} {asTree verbose : Bool}

/-! ### Verdicts -/

/-- What an expression adds to what a run writes, and whether it was accepted. -/
structure Verdict where
  out : String
  err : String
  accepted : Bool

/-- Lines as they are written. -/
def written (log : Log) : String :=
  String.join (log.map (· ++ "\n"))

/-- The verdict on a source: the tree or the value on a line of its own, or the diagnostic of the
complaint, after the lines that are written on the way if the run is verbose. -/
inductive Source.HasVerdict (source : Source) (asTree verbose : Bool) : Verdict → Prop
  | tree {t log} (htree : asTree = true) (hrun : (source.tree verbose).run.run [] = (.ok t, log))
      (hline : OneLine t.plain) (hquiet : verbose = false → log = []) :
      source.HasVerdict asTree verbose ⟨t.plain ++ "\n", written log, true⟩
  | value {n text log} (htree : asTree = false)
      (hrun : (source.evaluate verbose).run.run [] = (.ok n, log)) (htext : n.text? = some text)
      (hline : OneLine text) (hquiet : verbose = false → log = []) :
      source.HasVerdict asTree verbose ⟨text ++ "\n", written log, true⟩
  | complaint {fault log text}
      (hrun : if asTree then (source.tree verbose).run.run [] = (.error fault, log)
        else (source.evaluate verbose).run.run [] = (.error fault, log))
      (hclass : isClimbErrorClass fault.className) (htext : source.faultText fault = .ok text)
      (hquiet : verbose = false → log = []) :
      source.HasVerdict asTree verbose ⟨"", written log ++ text, false⟩

/-- The result of a source can be written: it is a tree, or no integer with too many digits. -/
def Source.Printable (source : Source) (asTree verbose : Bool) : Prop :=
  asTree = true ∨ ∀ i : Int, ((source.evaluate verbose).run.run []).1 = .ok (.int i) →
    i.natAbs < 10 ^ maxIntegerDigits

/-- A session that a verdict has been added to. -/
def Session.add (session : Session) (verdict : Verdict) : Session :=
  ⟨⟨session.console.out ++ verdict.out, session.console.err ++ verdict.err⟩,
    session.ok && verdict.accepted⟩

theorem foldl_errLine (log : Log) (console : Console) :
    log.foldl Console.errLine console = ⟨console.out, console.err ++ written log⟩ := by
  induction log generalizing console with
  | nil => simp [written]
  | cons line log ih =>
    rw [List.foldl_cons, ih]
    simp [Console.errLine, Console.write, written, String.append_assoc]

theorem foldl_add (verdicts : List Verdict) (session : Session) :
    verdicts.foldl Session.add session =
      ⟨⟨session.console.out ++ String.join (verdicts.map Verdict.out),
        session.console.err ++ String.join (verdicts.map Verdict.err)⟩,
        session.ok && verdicts.all Verdict.accepted⟩ := by
  induction verdicts generalizing session with
  | nil => simp
  | cons verdict verdicts ih =>
    rw [List.foldl_cons, ih]
    simp [Session.add, String.append_assoc, Bool.and_assoc]

/-! ### One expression -/

theorem text?_int (i : Int) :
    (Number.int i).text? = if i.natAbs < 10 ^ maxIntegerDigits then some (toString i) else none := by
  simp only [Number.text?, Number.exceedsDigits, decide_eq_true_eq, Nat.pow_eq]
  by_cases h : i.natAbs < 10 ^ maxIntegerDigits
  · rw [if_pos h, if_neg (Nat.not_le.2 h)]
  · rw [if_neg h, if_pos (Nat.not_lt.1 h)]

/-- A complaint about a source is one about a misplaced pair, and can be shown. -/
theorem Source.Blames.complaint {fault : CalcFault Token} (h : source.Blames fault)
    (hfresh : source.newlines = []) :
    isClimbErrorClass fault.className ∧ ∃ text, source.faultText fault = .ok text := by
  have hclasses : ∀ name ∈ ["CalcError", "ExcessPair", "MissingOperand"],
      isClimbErrorClass name := by
    decide +kernel
  exact ⟨hclasses _ h.className, exists_faultText hfresh h⟩

namespace Session

/-- A refused source adds its diagnostic. -/
theorem run_of_error (session : Session) {fault : CalcFault Token} {log : Log}
    (hfresh : source.newlines = [])
    (hrun : if asTree then (source.tree verbose).run.run [] = (.error fault, log)
      else (source.evaluate verbose).run.run [] = (.error fault, log))
    (hquiet : verbose = false → log = []) :
    ∃ verdict, source.HasVerdict asTree verbose verdict ∧
      session.run asTree verbose source = .ok (session.add verdict) := by
  have hresult : source.resultText asTree verbose = (.error fault, log) := by
    cases asTree with
    | true => simp_all [Source.resultText, Except.map]
    | false => simp_all [Source.resultText, Except.map]
  have hblames : source.Blames fault := by
    split at hrun
    · exact blames_of_tree (congrArg Prod.fst hrun)
    · exact blames_of_evaluate (congrArg Prod.fst hrun)
  obtain ⟨hclass, text, htext⟩ := hblames.complaint hfresh
  refine ⟨_, .complaint hrun hclass htext hquiet, ?_⟩
  simp only [run, hresult, hclass, htext, foldl_errLine, if_true, add, Console.write,
    Bool.and_false, String.append_assoc, String.append_empty]

/-- A text is added on a line of its own. -/
theorem run_of_ok (session : Session) {log : Log} {text : String}
    (h : source.resultText asTree verbose = (.ok (.ok text), log)) :
    session.run asTree verbose source = .ok (session.add ⟨text ++ "\n", written log, true⟩) := by
  simp only [run, h, foldl_errLine, add, Console.outLine, Console.write, Bool.and_true]

/-- A source whose result can be written adds its verdict to the session. -/
theorem run_of_printable (session : Session) (hfresh : source.newlines = [])
    (h : source.Printable asTree verbose) :
    ∃ verdict, source.HasVerdict asTree verbose verdict ∧
      session.run asTree verbose source = .ok (session.add verdict) := by
  cases asTree with
  | true =>
    have hquiet : verbose = false → ((source.tree verbose).run.run []).2 = [] := by
      rintro rfl
      exact quiet_tree source []
    rcases hrun : (source.tree verbose).run.run [] with ⟨result, log⟩
    rw [hrun] at hquiet
    cases result with
    | error fault => exact run_of_error session hfresh hrun hquiet
    | ok t =>
      have hline := oneLine_plain_tree (congrArg Prod.fst hrun)
      refine ⟨_, .tree rfl hrun hline hquiet, run_of_ok session ?_⟩
      simp [Source.resultText, hrun, Except.map]
  | false =>
    have hquiet : verbose = false → ((source.evaluate verbose).run.run []).2 = [] := by
      rintro rfl
      exact quiet_evaluate source []
    have hdigits := h.resolve_left Bool.false_ne_true
    rcases hrun : (source.evaluate verbose).run.run [] with ⟨result, log⟩
    rw [hrun] at hquiet hdigits
    cases result with
    | error fault => exact run_of_error session hfresh hrun hquiet
    | ok n =>
      obtain ⟨text, htext⟩ : ∃ text, n.text? = some text := by
        cases n with
        | real x => exact ⟨_, rfl⟩
        | int i => exact ⟨_, (text?_int i).trans (if_pos (hdigits i rfl))⟩
      refine ⟨_, .value rfl hrun htext (oneLine_text? htext) hquiet, run_of_ok session ?_⟩
      simp [Source.resultText, hrun, Except.map, htext]

/-- A source whose result cannot be written ends the run. -/
theorem run_of_not_printable (session : Session) (h : ¬ source.Printable asTree verbose) :
    ∃ i : Int, asTree = false ∧ ((source.evaluate verbose).run.run []).1 = .ok (.int i) ∧
      10 ^ maxIntegerDigits ≤ i.natAbs ∧
      session.run asTree verbose source = .error ⟨⟨session.console.out,
        session.console.err ++ written ((source.evaluate verbose).run.run []).2⟩,
        .error tooManyDigits⟩ := by
  obtain ⟨htree, hdigits⟩ := not_or.1 h
  obtain rfl : asTree = false := Bool.not_eq_true _ ▸ htree
  push Not at hdigits
  obtain ⟨i, hvalue, hlarge⟩ := hdigits
  refine ⟨i, rfl, hvalue, hlarge, ?_⟩
  rcases hrun : (source.evaluate verbose).run.run [] with ⟨result, log⟩
  rw [hrun] at hvalue
  obtain rfl : result = .ok (.int i) := hvalue
  have htext : (Number.int i).text? = none := (text?_int i).trans (if_neg (Nat.not_lt.2 hlarge))
  have hresult : source.resultText false verbose = (.ok (.error tooManyDigits), log) := by
    simp [Source.resultText, hrun, Except.map, htext]
  simp only [run, hresult, foldl_errLine]

/-! ### Expressions in order -/

theorem runAll_append (session : Session) (front back : List Source) :
    session.runAll asTree verbose (front ++ back) =
      session.runAll asTree verbose front >>= fun session => session.runAll asTree verbose back := by
  induction front generalizing session with
  | nil => rfl
  | cons source front ih =>
    rw [List.cons_append, runAll, runAll, bind_assoc]
    exact congrArg _ (funext fun session => ih session)

/-- Sources whose results can all be written add their verdicts in order. -/
theorem runAll_of_printable (session : Session) {sources : List Source}
    (hfresh : ∀ source ∈ sources, source.newlines = [])
    (h : ∀ source ∈ sources, source.Printable asTree verbose) :
    ∃ verdicts, List.Forall₂ (fun source => source.HasVerdict asTree verbose) sources verdicts ∧
      session.runAll asTree verbose sources = .ok (verdicts.foldl Session.add session) := by
  induction sources generalizing session with
  | nil => exact ⟨[], .nil, rfl⟩
  | cons source sources ih =>
    obtain ⟨hfirst, hrest⟩ := List.forall_mem_cons.1 h
    obtain ⟨hnew, hfresh⟩ := List.forall_mem_cons.1 hfresh
    obtain ⟨verdict, hverdict, hrun⟩ := run_of_printable session hnew hfirst
    obtain ⟨verdicts, hverdicts, hall⟩ := ih (session.add verdict) hfresh hrest
    refine ⟨verdict :: verdicts, .cons hverdict hverdicts, ?_⟩
    rw [runAll, hrun]
    exact hall

/-- A source whose result cannot be written ends the run, with the verdicts up to there. -/
theorem runAll_of_not_printable (session : Session) {front : List Source} (back : List Source)
    (hfresh : ∀ other ∈ front, other.newlines = [])
    (hfront : ∀ other ∈ front, other.Printable asTree verbose)
    (h : ¬ source.Printable asTree verbose) :
    ∃ verdicts, List.Forall₂ (fun source => source.HasVerdict asTree verbose) front verdicts ∧
      session.runAll asTree verbose (front ++ source :: back) =
        .error ⟨⟨(verdicts.foldl Session.add session).console.out,
          (verdicts.foldl Session.add session).console.err
            ++ written ((source.evaluate verbose).run.run []).2⟩, .error tooManyDigits⟩ := by
  obtain ⟨verdicts, hverdicts, hall⟩ := runAll_of_printable session hfresh hfront
  obtain ⟨i, -, -, -, hstop⟩ := run_of_not_printable
    (verdicts.foldl Session.add session) h
  refine ⟨verdicts, hverdicts, ?_⟩
  rw [runAll_append, hall]
  show runAll _ _ _ (source :: back) = _
  rw [runAll, hstop]
  rfl

end Session

/-! ### A whole run -/

theorem newlines_of_mem_inputSources {input : String} (h : source ∈ inputSources input) :
    source.newlines = [] := by
  obtain ⟨⟨line, index⟩, -, hsome⟩ := List.mem_filterMap.1 h
  simp only [Option.ite_none_left_eq_some, Option.some.injEq] at hsome
  rw [← hsome.2]
  rfl

theorem newlines_of_mem_argumentSources {exprs : List String} (h : source ∈ argumentSources exprs) :
    source.newlines = [] := by
  obtain ⟨⟨expr, index⟩, -, rfl⟩ := List.mem_map.1 h
  rfl

section

variable {args : List String} {options : List OptionSpec} {exprs : List String} {input : String}

/-- The sources of a run: the expressions on the command line, or else the lines of the input. -/
def sourcesOf (exprs : List String) (input : String) : List Source :=
  if exprs.isEmpty then inputSources input else argumentSources exprs

theorem newlines_of_mem_sourcesOf (h : source ∈ sourcesOf exprs input) : source.newlines = [] := by
  rw [sourcesOf] at h
  split at h
  · exact newlines_of_mem_inputSources h
  · exact newlines_of_mem_argumentSources h

theorem runCalculator_of_ok {session : Session}
    (hread : readOptions calculator.options args = .ok (.run options exprs))
    (h : (⟨.empty, true⟩ : Session).runAll (options.contains treeOption)
      (options.contains verboseOption) (sourcesOf exprs input) = .ok session) :
    runCalculator args input = session.finish := by
  rw [sourcesOf] at h
  simp only [runCalculator, hread, h]

theorem runCalculator_of_error {outcome : Outcome}
    (hread : readOptions calculator.options args = .ok (.run options exprs))
    (h : (⟨.empty, true⟩ : Session).runAll (options.contains treeOption)
      (options.contains verboseOption) (sourcesOf exprs input) = .error outcome) :
    runCalculator args input = outcome := by
  rw [sourcesOf] at h
  simp only [runCalculator, hread, h]

/-- A run handles its expressions one after the other, whatever became of the earlier ones: it writes
a line for every result and the diagnostic for every complaint, and ends with status 0 if all
expressions were accepted, and with status 1 otherwise. Only an integer with too many digits to be
written ends it early, with all verdicts up to there. -/
theorem runCalculator_verdicts
    (hread : readOptions calculator.options args = .ok (.run options exprs)) (input : String) :
    let asTree := options.contains treeOption
    let verbose := options.contains verboseOption
    ((∀ source ∈ sourcesOf exprs input, source.Printable asTree verbose) →
      ∃ verdicts,
        List.Forall₂ (fun source => source.HasVerdict asTree verbose) (sourcesOf exprs input)
          verdicts ∧
        runCalculator args input =
          ⟨⟨String.join (verdicts.map Verdict.out), String.join (verdicts.map Verdict.err)⟩,
            .ok (if verdicts.all Verdict.accepted then 0 else 1)⟩) ∧
    ∀ front source back, sourcesOf exprs input = front ++ source :: back →
      (∀ other ∈ front, other.Printable asTree verbose) → ¬ source.Printable asTree verbose →
      ∃ verdicts, List.Forall₂ (fun source => source.HasVerdict asTree verbose) front verdicts ∧
        runCalculator args input =
          ⟨⟨String.join (verdicts.map Verdict.out), String.join (verdicts.map Verdict.err)
            ++ written ((source.evaluate verbose).run.run []).2⟩, .error tooManyDigits⟩ := by
  intro asTree verbose
  refine ⟨fun hprintable => ?_, fun front source back hsources hfront hsource => ?_⟩
  · obtain ⟨verdicts, hverdicts, hall⟩ := Session.runAll_of_printable ⟨.empty, true⟩
      (fun source => newlines_of_mem_sourcesOf) hprintable
    refine ⟨verdicts, hverdicts, ?_⟩
    rw [runCalculator_of_ok hread hall, foldl_add]
    simp [Session.finish, Console.empty]
  · have hfresh : ∀ other ∈ front, other.newlines = [] := fun other hother =>
      newlines_of_mem_sourcesOf (hsources ▸ List.mem_append_left _ hother)
    obtain ⟨verdicts, hverdicts, hstop⟩ :=
      Session.runAll_of_not_printable ⟨.empty, true⟩ back hfresh hfront hsource
    refine ⟨verdicts, hverdicts, ?_⟩
    rw [← hsources] at hstop
    rw [runCalculator_of_error hread hstop, foldl_add]
    simp [Console.empty]

end

/-- Two trees, with a complaint about a missing operand between them. -/
theorem runCalculator_verdicts_trees :
    let args := ["-tree", "1+2", "1+", "3"]
    let exprs := ["1+2", "1+", "3"]
    readOptions calculator.options args = .ok (.run [treeOption] exprs) ∧
      (∀ source ∈ sourcesOf exprs "", source.Printable true false) ∧
      (∃ verdicts,
        List.Forall₂ (fun source => source.HasVerdict true false) (sourcesOf exprs "") verdicts ∧
        runCalculator args "" =
          ⟨⟨String.join (verdicts.map Verdict.out), String.join (verdicts.map Verdict.err)⟩,
            .ok (if verdicts.all Verdict.accepted then 0 else 1)⟩) ∧
      (runCalculator args "").console.out = "('+', '1', '2')\n3\n" := by
  intro args exprs
  have hread : readOptions calculator.options args = .ok (.run [treeOption] exprs) := by
    rfl
  have hprintable : ∀ source ∈ sourcesOf exprs "", source.Printable true false :=
    fun _ _ => Or.inl rfl
  exact ⟨hread, hprintable, (runCalculator_verdicts hread "").1 hprintable, by decide +kernel⟩

/-- Both expressions have a value, but the first has too many digits to be written. Neither value is
written, and the run ends with an exception instead of a status. -/
theorem runCalculator_not_verdicts_power :
    let args := ["10^5000", "1+1"]
    readOptions calculator.options args = .ok (.run [] args) ∧
      (∀ source ∈ sourcesOf args "", ∃ n, ((source.evaluate false).run.run []).1 = .ok n) ∧
      (runCalculator args "").console = ⟨"", ""⟩ ∧
      ∀ status, (runCalculator args "").status ≠ .ok status := by
  intro args
  refine ⟨rfl, ?_, by decide +kernel, ?_⟩
  · have hvalues : ∀ source ∈ sourcesOf args "",
        ((source.evaluate false).run.run []).1.toOption.isSome = true := by
      decide +kernel
    intro source hsource
    cases hresult : ((source.evaluate false).run.run []).1 with
    | ok n => exact ⟨n, rfl⟩
    | error fault =>
      have hvalue := hvalues source hsource
      rw [hresult] at hvalue
      cases hvalue
  · have hended : (runCalculator args "").status.toOption = none := by
      decide +kernel
    intro status hstatus
    rw [hstatus] at hended
    cases hended

end Precedence
