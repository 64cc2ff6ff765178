import Mathlib
import Precedence.Calculator.Session
import Precedence.Proofs.Calculator.Agreement
import Precedence.Proofs.Calculator.Placement
import Precedence.Proofs.Requests

/-!
# Complaints about a source

Whatever the text of a source, its expression, its tree and its value are either found or refused
with a complaint about a pair that lies within the text. The complaint can be shown with the line
that the pair is on.

## Main definitions

- `CalcFault.Names` — a complaint about a pair that satisfies a condition
- `Source.Pervades` — a condition on all pairs of a source
- `Source.Blames` — a complaint about a pair that lies within the text
- `Source.Sound` — a pair that is spelled and placed as the pairs of a source are
- `Source.Explains` — a result, or a complaint that can be shown

## Main statements

- `className_of_about` — the classes of complaints about pairs
- `reduction_complains` — reducing the pairs of a source complains about pairs of the source only
- `names_of_tree`, `names_of_evaluate` — every complaint about a source names one of its pairs
- `exists_faultText` — such a complaint can be shown
- `explains_results` — every source is explained
-/

namespace Precedence

variable {α : Type} {source : Source} {verbose : Bool} {Good : Token → Prop}

/-- A complaint is about a pair that satisfies a condition. -/
def CalcFault.Names (Good : Token → Prop) (fault : CalcFault Token) : Prop :=
  ∃ pair, fault.about? = some pair ∧ Good pair

/-- A complaint is about a pair whose span lies within the text. -/
def Source.Blames (source : Source) (fault : CalcFault Token) : Prop :=
  fault.Names source.Holds

/-- The classes of complaints about pairs. The faults of other classes name no pair. -/
theorem className_of_about {τ : Type} {fault : CalcFault τ} (h : fault.about?.isSome) :
    fault.className ∈ ["CalcError", "ExcessPair", "MissingOperand"] := by
  cases fault with
  | notANumber _ | notAnOperator _ | emptyInput | lexing _ | notOpened | noFrame => exact nomatch h
  | _ => simp [CalcFault.className]

namespace CalcFault.Names

variable {fault : CalcFault Token}

theorem className (h : fault.Names Good) :
    fault.className ∈ ["CalcError", "ExcessPair", "MissingOperand"] := by
  obtain ⟨pair, habout, -⟩ := h
  exact className_of_about (Option.isSome_iff_exists.2 ⟨pair, habout⟩)

theorem mono {Better : Token → Prop} (h : fault.Names Better)
    (hgood : ∀ pair, Better pair → Good pair) : fault.Names Good := by
  obtain ⟨pair, habout, hbetter⟩ := h
  exact ⟨pair, habout, hgood pair hbetter⟩

end CalcFault.Names

/-! ### The pairs of a source -/

/-- A condition holds of the tokens of a source, of its expression and of all pairs inside of pairs
that it holds of. Such pairs are spelled as those of the source are. -/
structure Source.Pervades (source : Source) (Good : Token → Prop) : Prop where
  token : ∀ token ∈ tokens source, Good token
  expr : ∀ expr, source.parse = .ok expr → Good expr
  inner : ∀ {pair}, Good pair → ∀ inner ∈ pair.inner, Good inner
  spelled : ∀ {pair}, Good pair → source.Spelled pair

/-- A pair whose texts fit its kinds, and which lies within the text with all pairs inside it. -/
structure Source.Sound (source : Source) (pair : Token) : Prop where
  spelled : source.Spelled pair
  holds : source.Holds pair
  laid : Laid 0 source.length pair.inner

theorem Source.Sound.inner {pair : Token} (h : source.Sound pair) :
    ∀ inner ∈ pair.inner, source.Sound inner := by
  intro inner hinner
  have hholds := h.laid.holds inner hinner
  exact ⟨h.spelled.inner inner hinner, hholds,
    (h.laid.inner inner hinner).mono hholds.start hholds.stop⟩

theorem pervades_sound (source : Source) : source.Pervades source.Sound where
  token token htoken := by
    have hlexed := lexed_of_mem_tokens htoken
    refine ⟨.token hlexed, (laid_tokens source).holds token htoken, ?_⟩
    rw [hlexed.inner]
    exact .nil (Int.natCast_nonneg _)
  expr expr h :=
    ⟨.expr (rule_of_parse h) (Source.spelled_of_parse h), holds_of_parse h, laid_of_parse h⟩
  inner h := h.inner
  spelled h := h.spelled

/-- If every number has a value, and combining two values fails with a complaint about the operator
only, then reducing the pairs of a source complains about such pairs only. -/
theorem reduction_complains (hgood : source.Pervades Good) {leaf : Token → CalcM α}
    {node : Token → α → α → Except (CalcFault Token) α}
    (hleaf : ∀ {token}, Good token → token.rule = .num →
      ∃ a, ((leaf token).run.run []).1 = .ok a)
    (hnode : ∀ {op o}, op.rule = .op o → ∀ a b {e}, node op a b = .error e → e.about? = some op) :
    ((reduction verbose leaf node).fresh []).Complains (CalcFault.Names Good) Good where
  silent _ _ := rfl
  readable _ _ := nofun
  inner h := hgood.inner h
  emptyInner {pair} h := ⟨pair, rfl, h⟩
  missingOperand {op} h := ⟨op, rfl, h⟩
  excess {pair _} h he := by
    cases he
    exact ⟨pair, rfl, h⟩
  visit {pair} h e he := by
    rw [outcome_visit_reduction] at he
    -- A number has a value, and any pair that is no expression is refused by name.
    split at he
    next hrule =>
      obtain ⟨a, ha⟩ := hleaf h hrule
      rw [ha] at he
      cases he
    · cases he
    · cases he
      exact ⟨pair, rfl, h⟩
  combine {op _} h hlevel a b e he := by
    rw [outcome_combine_reduction] at he
    -- What the table gives a level to is an operator.
    obtain ⟨o, hop, -⟩ := find?_table_eq_some_iff.1 (Except.ok.inj hlevel)
    exact ⟨op, hnode hop a b he, h⟩

theorem treeReduction_complains (hgood : source.Pervades Good) :
    ((source.treeReduction verbose).fresh []).Complains (CalcFault.Names Good) Good :=
  reduction_complains hgood (fun _ _ => ⟨_, rfl⟩) fun _ _ _ _ => nofun

theorem valueReduction_complains (hgood : source.Pervades Good) :
    ((source.valueReduction verbose).fresh []).Complains (CalcFault.Names Good) Good := by
  refine reduction_complains hgood (fun h hrule => ?_) fun {op o} hop a b e he => ?_
  · obtain ⟨n, hn⟩ := ((hgood.spelled h).lexed (by rw [hrule]; nofun)).num hrule
    refine ⟨n, ?_⟩
    rw [Source.numberOf, hn]
    rfl
  · rw [Source.applyToken_eq hop] at he
    cases happly : o.apply a b with
    | ok n =>
      rw [happly] at he
      cases he
    | error f =>
      rw [happly] at he
      cases he
      rfl

/-! ### Results and complaints -/

theorem names_of_parse (hgood : source.Pervades Good) {fault : CalcFault Token}
    (h : source.parse = .error fault) : fault.Names Good := by
  obtain ⟨token, htoken, habout⟩ := exists_mem_of_parse h
  exact ⟨token, habout, hgood.token token htoken⟩

/-- What is computed from the expression of a source fails with a complaint about a pair of the
source only. -/
theorem names_of_reduceInner (hgood : source.Pervades Good)
    {nesting : Nesting Log (CalcFault Token) Kind Int α} (hstateless : nesting.Stateless)
    (hcomplains : (nesting.fresh []).Complains (CalcFault.Names Good) Good) {log : Log}
    {fault : CalcFault Token}
    (h : ((source.expression verbose >>= nesting.reduceInner).run.run log).1 = .error fault) :
    fault.Names Good := by
  rw [run_expression_bind source verbose
    fun expr log => hstateless.outcome_reduceInner [] log expr] at h
  cases hparse : source.parse with
  | error e =>
    rw [hparse] at h
    obtain rfl : e = fault := Except.error.inj h
    exact names_of_parse hgood hparse
  | ok expr =>
    rw [hparse] at h
    exact hcomplains.raises_reduceInner (hgood.expr expr hparse) fault h

theorem names_of_tree (hgood : source.Pervades Good) {log : Log} {fault : CalcFault Token}
    (h : ((source.tree verbose).run.run log).1 = .error fault) : fault.Names Good :=
  names_of_reduceInner hgood (source.treeReduction_stateless verbose)
    (treeReduction_complains hgood) h

theorem names_of_evaluate (hgood : source.Pervades Good) {log : Log} {fault : CalcFault Token}
    (h : ((source.evaluate verbose).run.run log).1 = .error fault) : fault.Names Good :=
  names_of_reduceInner hgood (source.valueReduction_stateless verbose)
    (valueReduction_complains hgood) h

theorem blames_of_parse {fault : CalcFault Token} (h : source.parse = .error fault) :
    source.Blames fault :=
  (names_of_parse (pervades_sound source) h).mono fun _ => Source.Sound.holds

theorem blames_of_tree {log : Log} {fault : CalcFault Token}
    (h : ((source.tree verbose).run.run log).1 = .error fault) : source.Blames fault :=
  (names_of_tree (pervades_sound source) h).mono fun _ => Source.Sound.holds

theorem blames_of_evaluate {log : Log} {fault : CalcFault Token}
    (h : ((source.evaluate verbose).run.run log).1 = .error fault) : source.Blames fault :=
  (names_of_evaluate (pervades_sound source) h).mono fun _ => Source.Sound.holds

/-- A complaint about a pair within the text can be shown. -/
theorem exists_faultText {fault : CalcFault Token} (hfresh : source.newlines = [])
    (h : source.Blames fault) : ∃ text, source.faultText fault = .ok text := by
  obtain ⟨⟨kind, start, stop, inner⟩, habout, hholds⟩ := h
  have hstart : 0 ≤ start := hholds.start
  have hle : start ≤ source.length := hholds.le.trans hholds.stop
  -- The span starts within the text, so that the line of its start can be told.
  have hasked : start.toNat ∈ (Bound.index start).asked? source.length := by
    refine Source.mem_asked?_iff.2 ⟨?_, by omega⟩
    rw [Int.toNat_of_nonneg hstart]
    rfl
  have hshown := (Source.exists_diagnosticWithin_iff (.index start) (.index stop)
    (complaint fault.className fault.reason) (Nat.zero_le source.length)).2
      ⟨⟨start.toNat, hasked⟩, stop, rfl⟩
  rw [Source.upTo_zero hfresh] at hshown
  rw [Source.faultText, habout]
  exact hshown

/-- A result, or a complaint of one of three classes about a pair whose span lies within the text,
which can be shown. -/
def Source.Explains (source : Source) : Except (CalcFault Token) α → Prop
  | .ok _ => True
  | .error fault =>
    fault.className ∈ ["CalcError", "ExcessPair", "MissingOperand"] ∧ source.Blames fault ∧
      ∃ text, source.faultText fault = .ok text

theorem explains_of_blames {result : Except (CalcFault Token) α} (hfresh : source.newlines = [])
    (h : ∀ fault, result = .error fault → source.Blames fault) : source.Explains result := by
  cases result with
  | ok a => trivial
  | error fault =>
    have hblames := h fault rfl
    exact ⟨hblames.className, hblames, exists_faultText hfresh hblames⟩

/-- Whatever the text of a source, its expression, its tree and its value are each either found or
refused with a complaint about a pair within the text, which can be shown. There are no other
faults. -/
theorem explains_results (name text : String) (firstLine : Int) (verbose : Bool) (log : Log) :
    let source := Source.ofString name text firstLine
    source.Explains ((source.expression verbose).run.run log).1 ∧
      source.Explains ((source.tree verbose).run.run log).1 ∧
      source.Explains ((source.evaluate verbose).run.run log).1 := by
  intro source
  refine ⟨explains_of_blames rfl fun fault h => ?_, explains_of_blames rfl fun fault h => ?_,
    explains_of_blames rfl fun fault h => ?_⟩
  · rw [run_expression] at h
    exact blames_of_parse h
  · exact blames_of_tree h
  · exact blames_of_evaluate h

end Precedence
