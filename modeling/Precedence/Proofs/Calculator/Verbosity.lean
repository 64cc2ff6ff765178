import Mathlib
import Precedence.Proofs.Calculator.Agreement
import Precedence.Proofs.Calculator.Results
import Precedence.Proofs.Calculator.Unmatched
import Precedence.Proofs.Observers

/-!
# What a verbose run writes

The calculator makes the same calls and comes to the same result whether it is verbose or not. If it
is, it writes a line about each token that is read, up to and with the first that is refused, and after
that the lines of the climbs.

## Main definitions

- `Source.ReadUpTo` — the tokens of a source that are read
- `Source.TellsTokens` — what is written while the expression of a source is read
- `Source.TellsCalls` — what is written while a result is computed from it
- `Nesting.Writes` — callbacks that write nothing, with an observer that writes a line about every note

## Main statements

- `tellsTokens` — the lines about tokens
- `Nesting.Writes.lines_reduceInner` — the lines of nested climbs
- `verbose_only_writes` — runs that are observed beside runs that are not
-/

namespace Precedence

variable {σ ε τ ρ β α : Type}

/-! ### Lines about tokens -/

/-- Tokens are read one list after the other. -/
theorem readTokens_append (source : Source) (verbose : Bool) (frames : List Frame)
    (tokens more : List Token) :
    source.readTokens verbose frames (tokens ++ more) = (do
      let frames ← source.readTokens verbose frames tokens
      source.readTokens verbose frames more) := by
  induction tokens generalizing frames with
  | nil => rw [List.nil_append, Source.readTokens, pure_bind]
  | cons token tokens ih =>
    rw [List.cons_append, Source.readTokens, Source.readTokens, bind_assoc]
    refine bind_congr fun _ => ?_
    cases Frame.push frames token with
    | error fault => rfl
    | ok frames => exact ih frames

section

variable {source : Source} {expr last : OpenExpr} {tokens : List Token} {token : Token}

/-- A line is written about each of the tokens that can be read. -/
theorem run_readTokens_of_ok (h : tokens.foldlM OpenExpr.push expr = .ok last) (log : Log) :
    (source.readTokens true expr.frames tokens).run.run log =
      (.ok last.frames, log ++ tokens.map source.tokenLine) := by
  induction tokens generalizing expr log with
  | nil =>
    cases h
    rw [List.map_nil, List.append_nil]
    rfl
  | cons token tokens ih =>
    rw [List.foldlM_cons] at h
    obtain ⟨next, hnext, hrest⟩ := bind_eq_ok.1 h
    have hlog : ((say true (source.tokenLine token)).run log).2 = log ++ [source.tokenLine token] :=
      rfl
    rw [Source.readTokens, run_bind_ok (run_lift _ log), expr.push_frames, hnext, hlog]
    show (source.readTokens true next.frames tokens).run.run _ = _
    rw [ih hrest, List.append_assoc]
    rfl

/-- A token that is refused is the last that a line is written about. -/
theorem lines_readTokens_of_error {fault : CalcFault Token} (h : expr.push token = .error fault)
    (after : List Token) (log : Log) :
    ((source.readTokens true expr.frames (token :: after)).run.run log).2 =
      log ++ [source.tokenLine token] := by
  rw [Source.readTokens, run_bind_ok (run_lift _ log), expr.push_frames, h]
  rfl

end

/-- The tokens of a source that are read: all of them, or those before the first that is refused and
that one. -/
inductive Source.ReadUpTo (source : Source) : List Token → Prop
  | all (h : Readable (tokens source)) : ReadUpTo source (tokens source)
  | refused {before token after reason} (htokens : tokens source = before ++ token :: after)
      (hbefore : Readable before) (hrefused : Refused before token reason) :
      ReadUpTo source (before ++ [token])

/-- The lines that are written about the tokens of a source. -/
theorem exists_readUpTo (source : Source) (log : Log) :
    ∃ read, source.ReadUpTo read ∧
      ((source.readTokens true Frame.initial (tokens source)).run.run log).2 =
        log ++ read.map source.tokenLine := by
  have hrules : ∀ token ∈ tokens source, token.rule ≠ .expr := fun _ => rule_ne_expr_of_mem_tokens
  show ∃ read, source.ReadUpTo read ∧
    ((source.readTokens true OpenExpr.empty.frames (tokens source)).run.run log).2 = _
  by_cases h : Readable (tokens source)
  · obtain ⟨expr, hexpr, -⟩ := exists_foldlM_push_of_readable h hrules
    exact ⟨_, .all h, by rw [run_readTokens_of_ok hexpr]⟩
  · -- The tokens before the first that is refused can all be read.
    obtain ⟨before, token, after, reason, htokens, hbefore, hrefused⟩ := exists_first_refused h
    rw [htokens] at hrules
    obtain ⟨expr, hexpr, fault, hfault, -⟩ :=
      exists_foldlM_push_of_refused hbefore (List.forall_mem_append.1 hrules).1 hrefused
    refine ⟨_, .refused htokens hbefore hrefused, ?_⟩
    rw [htokens, readTokens_append, run_bind_ok (run_readTokens_of_ok hexpr log),
      lines_readTokens_of_error hfault, List.map_append, List.append_assoc]
    rfl

/-- Nothing is written about an expression once its tokens have been read. -/
theorem lines_expression (source : Source) (verbose : Bool) (log : Log) :
    ((source.expression verbose).run.run log).2 =
      ((source.readTokens verbose Frame.initial (tokens source)).run.run log).2 := by
  rw [Source.expression, fault_lexing, run_bind]
  rcases (source.readTokens verbose Frame.initial (tokens source)).run.run log with ⟨result, log'⟩
  cases result with
  | error fault => rfl
  | ok frames =>
    dsimp only
    cases Frame.close source.length frames <;> rfl

/-- The expression of a source is the same, or is refused with the same complaint, whether lines are
written or not. If they are, there is one about each token that is read, in their order. -/
structure Source.TellsTokens (source : Source) (log : Log) : Prop where
  result : ((source.expression true).run.run log).1 = ((source.expression false).run.run log).1
  silent : ((source.expression false).run.run log).2 = log
  lines : ∃ read, source.ReadUpTo read ∧
    ((source.expression true).run.run log).2 = log ++ read.map source.tokenLine

theorem tellsTokens (source : Source) (log : Log) : source.TellsTokens log where
  result := by rw [run_expression, run_expression]
  silent := quiet_expression source log
  lines := by
    rw [lines_expression]
    exact exists_readUpTo source log

/-! ### Lines about calls -/

/-- Callbacks that neither depend on what has been written nor write anything, with an observer that
writes a line about every note. -/
structure Nesting.Writes (nesting : Nesting Log ε ρ β α) (showItem : Pair ρ β → String) : Prop where
  stateless : nesting.Stateless
  visit : ∀ pair, (nesting.visit pair).Quiet
  combine : ∀ left op right, (nesting.combine left op right).Quiet
  observe : ∀ note log, ((nesting.observe note).run log).2 = log ++ [note.line showItem]

namespace Nesting.Writes

variable {nesting : Nesting Log ε ρ β α} {showItem : Pair ρ β → String}

/-- A run that records its calls goes along with one that is watched. -/
theorem watched_like (h : nesting.Writes showItem) (log : Log) :
    Nesting.Like Eq
      (fun (s : Log × List (Event ρ β α)) (t : Watched Log (Event ρ β α)) =>
        s.1 = log ++ t.lines ∧ s.2 = t.calls)
      nesting.recorded (nesting.watched true showItem) where
  level? := rfl
  visit pair := by
    refine Act.Like.of_fst_eq option_rel_refl ?_
    rintro s t ⟨hlines, hcalls⟩
    rw [run_recorded_visit, Nesting.watched, run_watched, h.visit pair s.1, hcalls]
    exact ⟨h.stateless.visit pair s.1 t.user, hlines, rfl⟩
  combine op a b v w ha hb := by
    rw [ha, hb]
    refine Act.Like.of_fst_eq (fun _ => rfl) ?_
    rintro s t ⟨hlines, hcalls⟩
    rw [run_recorded_combine, Nesting.watched, run_watched, h.combine v op w s.1, hcalls]
    exact ⟨h.stateless.combine v op w s.1 t.user, hlines, rfl⟩
  observe note s t hs := by
    obtain ⟨hlines, hcalls⟩ := hs
    refine ⟨?_, hcalls⟩
    show ((nesting.observe note).run s.1).2 = log ++ (t.lines ++ [note.line showItem])
    rw [h.observe, hlines, List.append_assoc]
  emptyInner := rfl
  emptyInput := rfl
  missingOperand := rfl
  excess := rfl

/-- The lines that are written while pairs are reduced announce the calls for operators, however deep
the climbs are nested. -/
theorem lines_reduceInner (h : nesting.Writes showItem) (pair : Pair ρ β) (log : Log) :
    ∃ notes, ((nesting.reduceInner pair).run.run log).2 = log ++ notes.map (Note.line showItem) ∧
      Announces nesting.level? notes ((nesting.trace pair log).2.filterMap Event.operator?) := by
  -- The lines are those of the run that is watched, and the calls those of the run that is recorded.
  have hstart : log = log ++ (Watched.start log : Watched Log (Event ρ β α)).lines :=
    (List.append_nil log).symm
  obtain ⟨-, hlines, hcalls⟩ := ((h.watched_like log).reduceInner pair).fst_eq
    (s := (log, [])) (t := .start log) ⟨hstart, rfl⟩
  obtain ⟨-, hsame⟩ := ((recorded_like nesting).reduceInner pair).fst_eq
    (s := (log, [])) (t := log) rfl
  obtain ⟨notes, hnotes, hannounces⟩ := (reduceInner_told nesting showItem pair log).2.lines
  refine ⟨notes, ?_, ?_⟩
  · rw [← hsame, hlines, hnotes]
  · show Announces _ _
      (((nesting.recorded.reduceInner pair).run.run (log, [])).2.2.filterMap Event.operator?)
    rwa [hcalls]

end Nesting.Writes

/-- What is computed from the expression of a source is the same, or is refused with the same
complaint, after the same calls, whether lines are written or not. If they are, then those about the
tokens are followed by those of the climbs, which announce the calls for operators. -/
structure Source.TellsCalls (source : Source) (compute : Bool → CalcM α)
    (nesting : Bool → Nesting Log (CalcFault Token) Kind Int α) (log : Log) : Prop where
  result : ((compute true).run.run log).1 = ((compute false).run.run log).1
  calls : source.trace true (nesting true) log = source.trace false (nesting false) log
  silent : ((compute false).run.run log).2 = log
  lines : ∃ notes, ((compute true).run.run log).2 =
      ((source.expression true).run.run log).2 ++ notes.map (Note.line Token.plain) ∧
    Announces (nesting true).level? notes
      ((source.trace true (nesting true) log).2.filterMap Event.operator?)

section

variable (source : Source) {leaf : Token → CalcM α}
  (node : Token → α → α → Except (CalcFault Token) α)

theorem reduction_writes (hleaf : ∀ token, (leaf token).Quiet)
    (hsame : ∀ token s t, ((leaf token).run.run s).1 = ((leaf token).run.run t).1) :
    (reduction true leaf node).Writes Token.plain where
  stateless := reduction_stateless true node hsame
  visit := quiet_visitOperand hleaf
  combine _ _ _ := quiet_ofExcept _
  observe _ _ := rfl

/-- The calls that are made do not depend on whether lines are written. -/
theorem trace_reduction (hsame : ∀ token s t, ((leaf token).run.run s).1 = ((leaf token).run.run t).1)
    (log : Log) :
    source.trace true (reduction true leaf node) log =
      source.trace false (reduction false leaf node) log := by
  -- The two reductions differ in their observers only, which callbacks without a state do not have.
  have hfresh : (reduction true leaf node).fresh [] = (reduction false leaf node).fresh [] := rfl
  have hparse := run_expression source true log
  rw [← run_expression source false log] at hparse
  rw [Source.trace, Source.trace]
  revert hparse
  rcases (source.expression true).run.run log with ⟨result, log₁⟩
  rcases (source.expression false).run.run log with ⟨result', log₂⟩
  rintro ⟨⟩
  cases result with
  | error fault => rfl
  | ok expr =>
    show (reduction true leaf node).trace expr log₁ = (reduction false leaf node).trace expr log₂
    rw [(reduction_stateless true node hsame).trace_eq expr log₁ [], hfresh,
      ← (reduction_stateless false node hsame).trace_eq expr log₂ []]

/-- How pairs are reduced tells what is written about the climbs. -/
theorem tellsCalls (hleaf : ∀ token, (leaf token).Quiet)
    (hsame : ∀ token s t, ((leaf token).run.run s).1 = ((leaf token).run.run t).1) (log : Log) :
    source.TellsCalls
      (fun verbose => source.expression verbose >>= (reduction verbose leaf node).reduceInner)
      (fun verbose => reduction verbose leaf node) log where
  result := by
    rw [← source.fst_trace, ← source.fst_trace, trace_reduction source node hsame]
  calls := trace_reduction source node hsame log
  silent := (quiet_expression source).bind (fun expr => quiet_reduction hleaf node expr) log
  lines := by
    rw [run_bind, Source.trace]
    rcases (source.expression true).run.run log with ⟨result, log'⟩
    cases result with
    | error fault => exact ⟨[], (List.append_nil log').symm, .nil⟩
    | ok expr => exact (reduction_writes node hleaf hsame).lines_reduceInner expr log'

end

/-- The sum is the first operator of the text, and the last that is reduced. -/
example : (((Source.ofString "" "1+2*3" 0).tree true).run.run []).2 =
    ["calc: 0-1:num: '1'", "calc: 1-2:plus: '+'", "calc: 2-3:num: '2'", "calc: 3-4:times: '*'",
      "calc: 4-5:num: '3'", "climb: 3-4:times: absorbing into right side at precedence 2.",
      "climb: 3-4:times: reducing at precedence 2.", "climb: 1-2:plus: reducing at precedence 1."] := by
  decide +kernel

end Precedence
