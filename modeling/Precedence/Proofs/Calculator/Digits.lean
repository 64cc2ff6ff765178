import Mathlib
import Precedence.Proofs.Calculator.Scanning
import Precedence.Proofs.Calculator.Syntax

/-!
# Runs of digits

A run of digits, of whatever script, is one number. It is read as the integer that it stands for, but
not if it has too many digits to be read as an integer: then it becomes the nearest float.

## Main definitions

- `decimalValue` — the number that digits stand for

## Main statements

- `readInteger?_of_isDigits`, `readFloat?_of_isDigits` — digits as an integer and as a float
- `parse_of_isDigits` — digits as a number
- `evaluate_digits` — the value of a source that is a run of digits

## Design notes

Leading zeros count as digits. A run of more than `maxIntegerDigits` digits is thus read as a float
even if it stands for a small number.
-/

namespace Precedence

variable {xs : List Char}

/-! ### Digits and their values -/

/-- The number that a run of digits stands for in decimal. -/
def decimalValue (xs : List Char) : Nat :=
  Nat.ofDigits 10 (xs.reverse.map fun c => (digitValue? c).getD 0)

theorem ofDigits_eq (digits : List Nat) : ofDigits digits = Nat.ofDigits 10 digits.reverse := by
  induction digits using List.reverseRecOn with
  | nil => rfl
  | append_singleton digits d ih =>
    rw [List.reverse_concat, Nat.ofDigits_cons, ← ih, ofDigits, List.foldl_concat, Nat.add_comm]
    rfl

/-- The digits of a text that has nothing else. -/
theorem takeDigits_of_isDigit (h : ∀ c ∈ xs, isDigit c) :
    takeDigits xs = (xs.map fun c => (digitValue? c).getD 0, []) := by
  induction xs with
  | nil => rfl
  | cons c xs ih =>
    obtain ⟨hc, hxs⟩ := List.forall_mem_cons.1 h
    obtain ⟨d, hd⟩ := digitValue?_of_isDigit hc
    rw [takeDigits, hd, ih hxs]
    simp only [List.map_cons, hd, Option.getD_some]

theorem ofDigits_values (xs : List Char) :
    ofDigits (xs.map fun c => (digitValue? c).getD 0) = decimalValue xs := by
  rw [ofDigits_eq, decimalValue, List.map_reverse]

theorem isNumeral_of_isDigits (h : IsDigits xs) : IsNumeral xs :=
  ⟨xs, [], [], h, Or.inl rfl, Or.inl rfl, by simp⟩

/-! ### Reading digits -/

/-- A run of digits has no blanks and no underscores that would be left out, and no sign. -/
theorem plain_of_isDigits (h : IsDigits xs) :
    dropUnderscores? false (trimNumeral xs) = some xs ∧ splitSign xs = (false, xs) := by
  have hchars := isNumeralChar_of_mem (isNumeral_of_isDigits h)
  rw [trimNumeral_eq_self fun c hc => isNumeralBlank_eq_false (hchars c hc)]
  refine ⟨dropUnderscores?_eq_self (fun c hc => ne_underscore (hchars c hc)) false, ?_⟩
  simpa using splitSign_of_isDigits [] h

/-- A run of digits as an integer, which it is unless it is too long. -/
theorem readInteger?_of_isDigits (h : IsDigits xs) :
    readInteger? xs = if xs.length ≤ maxIntegerDigits then some (decimalValue xs : Int) else none := by
  obtain ⟨hplain, hsign⟩ := plain_of_isDigits h
  have hne : (xs.map fun c => (digitValue? c).getD 0).isEmpty = false := by
    simpa using h.1
  simp only [readInteger?, hplain, Option.bind_eq_bind, Option.bind_some, hsign,
    takeDigits_of_isDigit h.2, hne, ofDigits_values, List.isEmpty_nil, Bool.not_false,
    Bool.true_and, List.length_map]
  by_cases hlength : xs.length ≤ maxIntegerDigits
  · simp [hlength]
  · simp [hlength]

/-- No digit is an upper-case letter. -/
theorem toLower_of_isDigit {c : Char} (h : isDigit c) : c.toLower = c := by
  have hzeros : ∀ start ∈ digitZeros, start = 0x30 ∨ 0x5b ≤ start := by decide
  obtain ⟨d, hd⟩ := digitValue?_of_isDigit h
  obtain ⟨start, hfind, -⟩ := Option.map_eq_some_iff.1 hd
  have hrange := List.find?_some hfind
  have hstart := hzeros start (List.mem_of_find?_eq_some hfind)
  simp only [Bool.and_eq_true, decide_eq_true_eq] at hrange
  refine Char.toLower_eq_of_not_isUpper fun hupper => ?_
  rw [Char.isUpper, decide_eq_true_eq, ge_iff_le, UInt32.le_iff_toNat_le,
    UInt32.le_iff_toNat_le] at hupper
  have hletter : 65 ≤ c.toNat ∧ c.toNat ≤ 90 := hupper
  omega

/-- A run of digits is no word. -/
theorem readSpecial?_of_isDigits (negative : Bool) (h : IsDigits xs) :
    readSpecial? negative xs = none := by
  obtain ⟨c, xs, rfl⟩ := List.exists_cons_of_ne_nil h.1
  have hc := h.2 c List.mem_cons_self
  have hword : ∀ (d : Char) (word : List Char), isDigit d = false →
      String.ofList ((c :: xs).map Char.toLower) ≠ String.ofList (d :: word) := by
    intro d word hd heq
    have hchars := String.ofList_injective heq
    rw [List.map_cons, toLower_of_isDigit hc] at hchars
    rw [(List.cons.inj hchars).1, hd] at hc
    cases hc
  have hinf : String.ofList ((c :: xs).map Char.toLower) ≠ "inf" :=
    hword 'i' ['n', 'f'] (by decide)
  have hinfinity : String.ofList ((c :: xs).map Char.toLower) ≠ "infinity" :=
    hword 'i' ['n', 'f', 'i', 'n', 'i', 't', 'y'] (by decide)
  have hnan : String.ofList ((c :: xs).map Char.toLower) ≠ "nan" :=
    hword 'n' ['a', 'n'] (by decide)
  simp only [readSpecial?, hinf, hinfinity, hnan, decide_false, Bool.or_self, Bool.false_eq_true,
    if_false]

/-- A run of digits as a float. -/
theorem readFloat?_of_isDigits (h : IsDigits xs) :
    readFloat? xs = some (floatOfDecimal false (decimalValue xs) xs.length 0) := by
  obtain ⟨hplain, hsign⟩ := plain_of_isDigits h
  have hne : (xs.map fun c => (digitValue? c).getD 0).isEmpty = false := by
    simpa using h.1
  simp only [readFloat?, hplain, Option.bind_eq_bind, Option.bind_some, hsign,
    readSpecial?_of_isDigits false h, readDecimal?, takeDigits_of_isDigit h.2]
  simp [takeExponent, ofDigits_values, h.1]

/-- A run of digits as a number: the integer that it stands for, or the nearest float if it is too
long for an integer. -/
theorem parse_of_isDigits (h : IsDigits xs) :
    Number.parse (String.ofList xs) =
      .ok (if xs.length ≤ maxIntegerDigits then .int (decimalValue xs)
        else .real (floatOfDecimal false (decimalValue xs) xs.length 0)) := by
  rw [Number.parse, Number.read?, String.toList_ofList, readInteger?_of_isDigits h,
    readFloat?_of_isDigits h]
  by_cases hlength : xs.length ≤ maxIntegerDigits
  · simp only [hlength, if_true]
  · simp only [hlength, if_false, Option.map_some]

/-! ### A source that is a run of digits -/

variable {source : Source}

/-- A source that is a run of digits has one token, which is a number. -/
theorem tokens_of_isDigits (h : IsDigits source.text.toList) :
    tokens source = [.leaf .num 0 source.length] := by
  have hlongest : LongestNumeral source.text.toList [] :=
    ⟨isNumeral_of_isDigits h, fun ys hprefix _ => by simpa using hprefix.length_le⟩
  have hscans : Scans 0 (source.text.toList ++ []) _ := .cons (.num hlongest) (.nil _)
  rw [List.append_nil, Nat.zero_add, Array.length_toList] at hscans
  have hlex := lex_of_scans hscans
  rw [tokens, Source.lexing, Lexer.lexDropping_eq_without]
  change ((Kind.lexer.lex source.text 0 source.text.size).without (· == .spaces)).pairs = _
  rw [hlex]
  rfl

/-- The tree of a source with one token, which is a number. -/
theorem syntaxTree_of_tokens {verbose : Bool} {log : Log} {token : Token}
    (htokens : tokens source = [token]) (hrule : token.rule = .num) :
    ((source.syntaxTree verbose).run.run log).1 = .ok (.leaf token) := by
  have hnests : Nests (tokens source) [token] := by
    rw [htokens]
    exact .single (by rw [hrule]; rfl)
  obtain ⟨expr, hparse, hinner⟩ := exists_parse_eq_ok_iff.2 hnests
  rw [Source.syntaxTree, run_reduction source verbose (syntaxReduction_stateless verbose), hparse]
  refine ((syntaxReduction_simple verbose).reduceInner_eq_ok_iff expr (.leaf token)).2
    ⟨(token, .leaf token), [], hinner, by simp, ?_, by simp, bracket_nil _ _⟩
  rw [Nesting.reduce_eq, outcome_bind, outcome_visit_syntaxReduction, hrule]
  rfl

/-- The value of a source that is a run of digits is the number that the whole text is read as. -/
theorem run_evaluate_of_isDigits (verbose : Bool) (log : Log) (h : IsDigits source.text.toList) :
    ((source.evaluate verbose).run.run log).1 =
      Number.parse (String.ofList source.text.toList) := by
  have hhas : Subject.Has ⟨source.text, source.text.size⟩ 0 source.text.toList :=
    has_of_toList_eq [] rfl
  have hslice := slice_of_has hhas
  rw [Nat.zero_add, Array.length_toList] at hslice
  have htext : source.tokenText (.leaf .num 0 source.length) = String.ofList source.text.toList :=
    congrArg String.ofList hslice
  rw [run_evaluate_of_syntaxTree (syntaxTree_of_tokens (tokens_of_isDigits h) rfl), Tree.compute,
    htext]

/-- A source that is a run of digits has one token, which is a number. With `maxIntegerDigits` digits
or fewer, it is read as the integer that the digits stand for, and this is its value; with more, it
is read as the float nearest to that integer. -/
theorem evaluate_digits (source : Source) (verbose : Bool) (log : Log)
    (h : IsDigits source.text.toList) :
    tokens source = [.leaf .num 0 source.length] ∧
    (source.length ≤ maxIntegerDigits →
      Number.parse (String.ofList source.text.toList) =
        .ok (.int (decimalValue source.text.toList)) ∧
      ((source.evaluate verbose).run.run log).1 = .ok (.int (decimalValue source.text.toList))) ∧
    (maxIntegerDigits < source.length →
      Number.parse (String.ofList source.text.toList) =
        .ok (.real (floatOfDecimal false (decimalValue source.text.toList) source.length 0)) ∧
      ((source.evaluate verbose).run.run log).1 =
        .ok (.real (floatOfDecimal false (decimalValue source.text.toList) source.length 0))) := by
  have hlength : source.text.toList.length = source.length := Array.length_toList
  have hparse := parse_of_isDigits h
  rw [hlength] at hparse
  have hvalue := run_evaluate_of_isDigits verbose log h
  refine ⟨tokens_of_isDigits h, fun hle => ?_, fun hlt => ?_⟩
  · rw [if_pos hle] at hparse
    exact ⟨hparse, hvalue.trans hparse⟩
  · rw [if_neg (not_le.2 hlt)] at hparse
    exact ⟨hparse, hvalue.trans hparse⟩

/-- Digits of two scripts, after a leading zero. -/
theorem evaluate_digits_scripts :
    let source : Source := ⟨"", #['0', '٤', '2'], 0, []⟩
    IsDigits source.text.toList ∧ source.length ≤ maxIntegerDigits ∧
      ((source.evaluate false).run.run []).1 = .ok (.int 42) := by
  have hdigits : IsDigits ['0', '٤', '2'] := ⟨by decide, List.all_eq_true.1 (by decide)⟩
  have hlength : (3 : Nat) ≤ maxIntegerDigits := by decide
  have hvalue : decimalValue ['0', '٤', '2'] = 42 := by decide
  have hresult := ((evaluate_digits ⟨"", #['0', '٤', '2'], 0, []⟩ false [] hdigits).2.1 hlength).2
  rw [hvalue] at hresult
  exact ⟨hdigits, hlength, hresult⟩

section

variable {c : Char} (count : Nat)

theorem isDigits_zeros (hc : isDigit c) : IsDigits (List.replicate count '0' ++ [c]) := by
  refine ⟨List.append_ne_nil_of_right_ne_nil _ (List.cons_ne_nil c []),
    List.forall_mem_append.2 ⟨fun d hd => ?_, by simpa using hc⟩⟩
  rw [List.eq_of_mem_replicate hd]
  decide

/-- Zeros before a digit do not count for the number that digits stand for. -/
theorem decimalValue_zeros (c : Char) :
    decimalValue (List.replicate count '0' ++ [c]) = (digitValue? c).getD 0 := by
  have hzero : (digitValue? '0').getD 0 = 0 := by decide
  rw [decimalValue, List.reverse_append, List.reverse_replicate, List.map_append,
    List.map_replicate, hzero, Nat.ofDigits_append, Nat.ofDigits_replicate_zero]
  simp

/-- A digit after so many zeros that they are too many digits for an integer is read as a float. -/
theorem evaluate_zeros (hc : isDigit c) (hcount : maxIntegerDigits ≤ count) :
    ∃ x, Number.parse (String.ofList (List.replicate count '0' ++ [c])) = .ok (.real x) ∧
      (((⟨"", (List.replicate count '0' ++ [c]).toArray, 0, []⟩ : Source).evaluate
        false).run.run []).1 = .ok (.real x) := by
  have hdigits := isDigits_zeros count hc
  have hlength : ¬ (List.replicate count '0' ++ [c]).length ≤ maxIntegerDigits := by
    rw [List.length_append, List.length_replicate, List.length_singleton]
    omega
  have hparse := parse_of_isDigits hdigits
  rw [if_neg hlength] at hparse
  have hvalue := run_evaluate_of_isDigits
    false []
    (show IsDigits (⟨"", (List.replicate count '0' ++ [c]).toArray, 0, []⟩ : Source).text.toList
      from hdigits)
  exact ⟨_, hparse, hvalue.trans hparse⟩

end

/-- Seven, written with 4301 digits, is read as a float. -/
theorem evaluate_not_exact_zeros :
    IsDigits (List.replicate 4300 '0' ++ ['7']) ∧
      decimalValue (List.replicate 4300 '0' ++ ['7']) = 7 ∧
      ∃ x, Number.parse (String.ofList (List.replicate 4300 '0' ++ ['7'])) = .ok (.real x) ∧
        (((⟨"", (List.replicate 4300 '0' ++ ['7']).toArray, 0, []⟩ : Source).evaluate
          false).run.run []).1 = .ok (.real x) :=
  ⟨isDigits_zeros 4300 (by decide), decimalValue_zeros 4300 '7',
    evaluate_zeros 4300 (by decide) le_rfl⟩

end Precedence
