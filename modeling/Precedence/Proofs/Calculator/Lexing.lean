import Mathlib
import Precedence.Proofs.Calculator.Lexemes
import Precedence.Proofs.Munching

/-!
# Lexing written expressions

Numbers, operators and parentheses that are written one after the other, with or without blanks
between them, are told apart again, unless a number follows a number.

## Main definitions

- `Lexeme` — a number, an operator or a parenthesis, as it is written
- `Spaced` — the texts in which lexemes are written one after the other, with blanks or without
- `Source.Shows` — a token that covers a lexeme

## Main statements

- `munches_parts` — the pattern of numbers takes the parts of a numeral that are there
- `munches_number` — the pattern of numbers takes a whole numeral
- `shows_tokens` — the tokens of a text in which lexemes are written

## Design notes

The sign of an exponent is a part of the numeral, and a sign after a numeral without an exponent is an
operator. This is why what may follow a numeral is told by `ExtendsNumeral`, which has no signs.
-/

namespace Precedence

/-! ### Numerals -/

section

variable {subject : Subject} {pos : Nat} {xs ys : List Char}

/-- A condition that holds of the first character of a text that stands at a position, or of the
character after it if it is empty, holds of the character at the position. -/
theorem forall_get?_of_has {P : Char → Prop} (hhas : subject.Has pos xs)
    (hhead : ∀ c ∈ xs.head?, P c) (hstop : ∀ c ∈ subject.get? (pos + xs.length), P c) :
    ∀ c ∈ subject.get? pos, P c := by
  cases xs with
  | nil => exact hstop
  | cons d xs =>
    intro c hc
    obtain rfl : d = c := Option.some.inj (hhas.1.symm.trans hc)
    exact hhead d rfl

theorem contains_digit (c : Char) :
    (CharSet.ofCategory ⟨.digit, false, false⟩).contains c = isDigit c := by
  simp [CharSet.contains, CharSet.ofCategory, CharItem.contains, Category.contains]

theorem contains_blank (c : Char) :
    (CharSet.ofCategory ⟨.blank, false, false⟩).contains c = isBlank c := by
  simp [CharSet.contains, CharSet.ofCategory, CharItem.contains, Category.contains]

/-- The characters that may go on with a numeral. -/
def ExtendsNumeral (c : Char) : Prop :=
  isDigit c ∨ c = '.' ∨ c = 'e' ∨ c = 'E'

instance (c : Char) : Decidable (ExtendsNumeral c) :=
  inferInstanceAs (Decidable (isDigit c ∨ c = '.' ∨ c = 'e' ∨ c = 'E'))

theorem munches_blanks (hne : xs ≠ []) (hall : ∀ c ∈ xs, isBlank c) (hhas : subject.Has pos xs)
    (hstop : ∀ c ∈ subject.get? (pos + xs.length), isBlank c = false) :
    (Pattern.repeat .greedy 1 none (.char (.ofCategory ⟨.blank, false, false⟩))).Munches subject pos
      xs := by
  refine munches_run hne hhas (fun c hc => ?_) fun c hc => ?_
  · rw [contains_blank]
    exact hall c hc
  · rw [contains_blank]
    exact hstop c hc

theorem munches_digits (h : IsDigits xs) (hhas : subject.Has pos xs)
    (hstop : ∀ c ∈ subject.get? (pos + xs.length), isDigit c = false) :
    Kind.digits.Munches subject pos xs := by
  refine munches_run h.1 hhas (fun c hc => ?_) fun c hc => ?_
  · rw [contains_digit]
    exact h.2 c hc
  · rw [contains_digit]
    exact hstop c hc

/-- The pattern of a fraction. -/
def Kind.fraction : Pattern :=
  .sequence [.char (.ofChar '.'), digits]

/-- The pattern of an exponent. -/
def Kind.exponent : Pattern :=
  .sequence
    [.char (.ofItems .none false [.single 0x65, .single 0x45]),
      .repeat .greedy 0 (some 1) (.char (.ofItems .none false [.single 0x2b, .single 0x2d])),
      digits]

/-- A fraction that may be missing is taken if no digit comes after it; if it is missing, then nothing
looks like one. -/
theorem munches_fraction (h : IsFraction xs) (hhas : subject.Has pos xs)
    (hstop : ∀ c ∈ subject.get? (pos + xs.length), isDigit c = false)
    (hnone : xs = [] → Kind.fraction.Refuses subject pos) :
    (Pattern.repeat .greedy 0 (some 1) Kind.fraction).Munches subject pos xs := by
  rcases h with rfl | ⟨digits, hdigits, rfl⟩
  · exact munches_optional_nil (hnone rfl)
  · rw [List.length_cons, Nat.add_comm digits.length, ← Nat.add_assoc] at hstop
    have hpoint : (Pattern.char (.ofChar '.')).Munches subject pos ['.'] :=
      munches_char hhas.1 (by simp)
    exact munches_optional (munches_seq hpoint (munches_digits hdigits hhas.2 hstop))

theorem contains_mark (c : Char) :
    (CharSet.ofItems .none false [.single 0x65, .single 0x45]).contains c =
      (c == 'e' || c == 'E') := by
  rw [Bool.eq_iff_iff]
  simp [CharSet.contains, CharSet.ofItems, CharItem.contains, ← Char.toNat_inj]

theorem contains_sign (c : Char) :
    (CharSet.ofItems .none false [.single 0x2b, .single 0x2d]).contains c =
      (c == '+' || c == '-') := by
  rw [Bool.eq_iff_iff]
  simp [CharSet.contains, CharSet.ofItems, CharItem.contains, ← Char.toNat_inj]

theorem munches_sign (h : xs = [] ∨ xs = ['+'] ∨ xs = ['-']) (hhas : subject.Has pos xs)
    (hstop : ∀ c ∈ subject.get? (pos + xs.length), isDigit c) :
    (Pattern.repeat .greedy 0 (some 1)
      (.char (.ofItems .none false [.single 0x2b, .single 0x2d]))).Munches subject pos xs := by
  rcases h with rfl | rfl | rfl
  · refine munches_optional_nil (refuses_char fun c hc => ?_)
    rw [contains_sign]
    have hplus : c ≠ '+' := by
      rintro rfl
      exact absurd (hstop _ hc) (by decide)
    have hminus : c ≠ '-' := by
      rintro rfl
      exact absurd (hstop _ hc) (by decide)
    rw [beq_false_of_ne hplus, beq_false_of_ne hminus, Bool.or_false]
  · exact munches_optional (munches_char hhas.1 (by rw [contains_sign]; rfl))
  · exact munches_optional (munches_char hhas.1 (by rw [contains_sign]; rfl))

/-- An exponent that may be missing is taken if no digit comes after it; if it is missing, then
nothing looks like one. -/
theorem munches_exponent (h : IsExponent xs) (hhas : subject.Has pos xs)
    (hstop : ∀ c ∈ subject.get? (pos + xs.length), isDigit c = false)
    (hnone : xs = [] → Kind.exponent.Refuses subject pos) :
    (Pattern.repeat .greedy 0 (some 1) Kind.exponent).Munches subject pos xs := by
  rcases h with rfl | ⟨mark, sign, digits, hmark, hsign, hdigits, rfl⟩
  · exact munches_optional_nil (hnone rfl)
  · obtain ⟨hhasSign, hhasDigits⟩ := hhas.2.of_append
    have hlength : pos + (mark :: (sign ++ digits)).length =
        pos + 1 + sign.length + digits.length := by
      simp only [List.length_cons, List.length_append]
      omega
    rw [hlength] at hstop
    have hmarkChar : (Pattern.char (.ofItems .none false [.single 0x65, .single 0x45])).Munches
        subject pos [mark] := by
      refine munches_char hhas.1 ?_
      rw [contains_mark]
      rcases hmark with rfl | rfl <;> rfl
    refine munches_optional (munches_seq hmarkChar
      (munches_seq (munches_sign hsign hhasSign ?_) (munches_digits hdigits hhasDigits hstop)))
    obtain ⟨d, digits, rfl⟩ := List.exists_cons_of_ne_nil hdigits.1
    intro c hc
    obtain rfl : d = c := Option.some.inj (hhasDigits.1.symm.trans hc)
    exact hdigits.2 d List.mem_cons_self

/-- The pattern of numbers takes the parts of a numeral if no digit comes after them, and if nothing
looks like a part that is missing. -/
theorem munches_parts {whole fraction exponent : List Char} (hwhole : IsDigits whole)
    (hfraction : IsFraction fraction) (hexponent : IsExponent exponent)
    (hhas : subject.Has pos (whole ++ (fraction ++ exponent)))
    (hstop : ∀ c ∈ subject.get? (pos + whole.length + fraction.length + exponent.length),
      isDigit c = false)
    (hnoFraction : fraction = [] → Kind.fraction.Refuses subject (pos + whole.length))
    (hnoExponent : exponent = [] →
      Kind.exponent.Refuses subject (pos + whole.length + fraction.length)) :
    Kind.number.Munches subject pos (whole ++ (fraction ++ exponent)) := by
  obtain ⟨hhasWhole, hhasRest⟩ := hhas.of_append
  obtain ⟨hhasFraction, hhasExponent⟩ := hhasRest.of_append
  -- Neither a fraction nor an exponent starts with a digit.
  have hexponentHead : ∀ c ∈ subject.get? (pos + whole.length + fraction.length),
      isDigit c = false :=
    forall_get?_of_has hhasExponent (fun c hc => (head_of_isExponent hexponent c hc).1) hstop
  have hfractionHead : ∀ c ∈ subject.get? (pos + whole.length), isDigit c = false := by
    refine forall_get?_of_has hhasFraction ?_ hexponentHead
    rcases hfraction with rfl | ⟨digits, -, rfl⟩
    · simp
    · rintro c ⟨⟩
      decide
  exact munches_seq (munches_digits hwhole hhasWhole hfractionHead)
    (munches_seq (munches_fraction hfraction hhasFraction hexponentHead hnoFraction)
      (munches_exponent hexponent hhasExponent hstop hnoExponent))

/-- The pattern of numbers takes a whole numeral, if no character after it may go on with it. -/
theorem munches_number (h : IsNumeral xs) (hhas : subject.Has pos xs)
    (hstop : ∀ c ∈ subject.get? (pos + xs.length), ¬ ExtendsNumeral c) :
    Kind.number.Munches subject pos xs := by
  obtain ⟨whole, fraction, exponent, hwhole, hfraction, hexponent, rfl⟩ := h
  have hlength : pos + (whole ++ (fraction ++ exponent)).length =
      pos + whole.length + fraction.length + exponent.length := by
    simp only [List.length_append]
    omega
  rw [hlength] at hstop
  refine munches_parts hwhole hfraction hexponent hhas (fun c hc => ?_) ?_ ?_
  · exact Bool.eq_false_iff.2 fun hdigit => hstop c hc (Or.inl hdigit)
  -- After the whole part comes an exponent, or a character that does not go on with a numeral.
  · rintro rfl
    have hhasExponent := hhas.of_append.2
    have hpoint : ∀ c ∈ subject.get? (pos + whole.length), c ≠ '.' := by
      refine forall_get?_of_has hhasExponent (fun c hc => (head_of_isExponent hexponent c hc).2) ?_
      exact fun c hc heq => hstop c hc (Or.inr (Or.inl heq))
    refine refuses_of_first? rfl fun c hc => ?_
    rw [CharSet.contains_ofChar]
    exact beq_false_of_ne (hpoint c hc)
  · rintro rfl
    refine refuses_of_first? rfl fun c hc => ?_
    have hnot := hstop c hc
    rw [contains_mark]
    simp only [ExtendsNumeral, not_or] at hnot
    simp [hnot]

/-! ### Lexemes -/

/-- A pattern takes nothing where a character stands that no match of it starts with. -/
theorem refuses_of_any {p : Pattern} {c : Char} (hget : subject.get? pos = some c)
    (h : p.first?.any fun set => !set.contains c) : p.Refuses subject pos := by
  obtain ⟨set, hp, hset⟩ := (Option.any_eq_true _ _).1 h
  refine refuses_of_first? hp fun d hd => ?_
  obtain rfl : c = d := Option.some.inj (hget.symm.trans hd)
  simpa using hset

/-- A number, an operator or a parenthesis, as it is written. -/
inductive Lexeme where
  | number (xs : List Char) (h : IsNumeral xs)
  | operator (o : Op)
  | opening
  | closing

namespace Lexeme

/-- The kind of a lexeme. -/
def kind : Lexeme → Kind
  | number _ _ => .num
  | operator o => .op o
  | opening => .parenOpen
  | closing => .parenClose

/-- The characters of a lexeme. -/
def chars : Lexeme → List Char
  | number xs _ => xs
  | operator o => [o.char]
  | opening => ['(']
  | closing => [')']

/-- Two lexemes can be told apart when they stand side by side: they are not both numbers. -/
def Apart (a b : Lexeme) : Prop :=
  a.kind ≠ .num ∨ b.kind ≠ .num

/-- A lexeme is a numeral, or a single character that no numeral goes on with. -/
theorem chars_cases (lexeme : Lexeme) :
    (lexeme.kind = .num ∧ IsNumeral lexeme.chars) ∨
      ∃ c, lexeme.chars = [c] ∧ isBlank c = false ∧ ¬ ExtendsNumeral c ∧
        ∃ before after, Kind.patterns = before ++ (lexeme.kind, .char (.ofChar c)) :: after ∧
          ∀ entry ∈ before, entry.2.first?.any fun set => !set.contains c := by
  cases lexeme with
  | number xs h => exact Or.inl ⟨rfl, h⟩
  | operator o =>
    refine Or.inr ⟨o.char, rfl, by cases o <;> decide, by cases o <;> decide, ?_⟩
    cases o with
    | plus => exact ⟨Kind.patterns.take 2, _, rfl, by decide⟩
    | minus => exact ⟨Kind.patterns.take 3, _, rfl, by decide⟩
    | times => exact ⟨Kind.patterns.take 4, _, rfl, by decide⟩
    | divide => exact ⟨Kind.patterns.take 5, _, rfl, by decide⟩
    | modulo => exact ⟨Kind.patterns.take 6, _, rfl, by decide⟩
    | power => exact ⟨Kind.patterns.take 7, _, rfl, by decide⟩
  | opening =>
    exact Or.inr ⟨'(', rfl, by decide, by decide, Kind.patterns.take 8, _, rfl, by decide⟩
  | closing =>
    exact Or.inr ⟨')', rfl, by decide, by decide, Kind.patterns.take 9, _, rfl, by decide⟩

theorem chars_ne_nil (lexeme : Lexeme) : lexeme.chars ≠ [] := by
  rcases lexeme.chars_cases with ⟨-, whole, fraction, exponent, hwhole, -, -, hchars⟩ | ⟨c, hc, -⟩
  · rw [hchars]
    exact fun hnil => hwhole.1 (List.append_eq_nil_iff.1 hnil).1
  · rw [hc]
    exact List.cons_ne_nil c []

end Lexeme

theorem head_of_isNumeral (h : IsNumeral xs) : ∀ c ∈ xs.head?, isDigit c := by
  obtain ⟨whole, fraction, exponent, hwhole, -, -, rfl⟩ := h
  obtain ⟨d, whole, rfl⟩ := List.exists_cons_of_ne_nil hwhole.1
  rintro c ⟨⟩
  exact hwhole.2 d List.mem_cons_self

/-- No lexeme starts with a blank. -/
theorem Lexeme.isBlank_head (lexeme : Lexeme) : ∀ c ∈ lexeme.chars.head?, isBlank c = false := by
  intro c hc
  rcases lexeme.chars_cases with ⟨-, hnumeral⟩ | ⟨d, hd, hblank, -⟩
  · exact isBlank_eq_false_of_isDigit (head_of_isNumeral hnumeral c hc)
  · rw [hd] at hc
    cases hc
    exact hblank

/-- Where a lexeme stands, the patterns before that of its kind take nothing, and that pattern takes
the lexeme, if the pattern of numbers takes it in case it is a number. -/
theorem Lexeme.exists_pattern (lexeme : Lexeme) (hhas : subject.Has pos lexeme.chars)
    (hnum : lexeme.kind = .num → Kind.number.Munches subject pos lexeme.chars) :
    ∃ before p after, Kind.patterns = before ++ (lexeme.kind, p) :: after ∧
      (∀ entry ∈ before, entry.2.Refuses subject pos) ∧ p.Munches subject pos lexeme.chars := by
  rcases lexeme.chars_cases with ⟨hkind, hnumeral⟩ | ⟨c, hc, -, -, before, after, heq, hbefore⟩
  · refine ⟨Kind.patterns.take 1, Kind.number, Kind.patterns.drop 2, by rw [hkind]; rfl, ?_,
      hnum hkind⟩
    simp only [Kind.patterns, List.take_succ_cons, List.take_zero, List.mem_singleton, forall_eq]
    refine refuses_of_first? rfl fun c hget => ?_
    rw [contains_blank]
    obtain ⟨d, chars, hchars⟩ := List.exists_cons_of_ne_nil lexeme.chars_ne_nil
    rw [hchars] at hhas hnumeral
    obtain rfl : d = c := Option.some.inj (hhas.1.symm.trans hget)
    exact isBlank_eq_false_of_isDigit (head_of_isNumeral hnumeral d rfl)
  · rw [hc] at hhas ⊢
    refine ⟨before, .char (.ofChar c), after, heq, fun entry hentry => ?_,
      munches_char hhas.1 (by simp)⟩
    exact refuses_of_any hhas.1 (hbefore entry hentry)

end

/-- The texts in which lexemes are written one after the other, with blanks before, between and after
them, or without. -/
inductive Spaced : List Lexeme → List Char → Prop
  | nil {blanks} (h : ∀ c ∈ blanks, isBlank c) : Spaced [] blanks
  | cons (blanks lexeme) {lexemes xs} (hblanks : ∀ c ∈ blanks, isBlank c) (h : Spaced lexemes xs) :
      Spaced (lexeme :: lexemes) (blanks ++ (lexeme.chars ++ xs))

/-! ### Tokens -/

section

variable {source : Source} {pos fuel : Nat} {blanks xs : List Char} {lexemes : List Lexeme}

/-- The tokens from a position on, of which there are at most `fuel`. -/
def Source.tokensFrom (source : Source) (fuel pos : Nat) : List Token :=
  (Kind.lexer.lexFrom source.text source.length (· == .spaces) fuel pos).pairs

/-- The token is of the kind of the lexeme, and its text is that of the lexeme. -/
def Source.Shows (source : Source) (token : Token) (lexeme : Lexeme) : Prop :=
  token.rule = lexeme.kind ∧ source.tokenText token = String.ofList lexeme.chars

theorem Source.tokensFrom_length (fuel : Nat) : source.tokensFrom fuel source.length = [] := by
  rw [tokensFrom, Lexer.lexFrom_of_le le_rfl]

/-- If the lexer makes a pair, then the tokens after it follow. -/
theorem Source.tokensFrom_succ {kind : Kind} {length : Nat}
    (hpos : pos < source.length)
    (hnext : Kind.lexer.next source.text pos source.length =
      .ok (.leaf kind pos ((pos + length : Nat) : Int))) :
    source.tokensFrom (fuel + 1) pos =
      (if kind = .spaces then [] else [.leaf kind pos ((pos + length : Nat) : Int)]) ++
        source.tokensFrom fuel (pos + length) := by
  rw [tokensFrom, Lexer.lexFrom, if_pos (by exact_mod_cast hpos), hnext]
  by_cases hkind : kind = .spaces
  · rw [if_pos hkind, hkind]
    rfl
  · rw [if_neg hkind]
    simp [Pair.leaf, hkind, tokensFrom, Pair.rule, Pair.stop]

/-- Blanks are passed over. -/
theorem exists_tokensFrom_blanks (least : Nat) (hblanks : ∀ c ∈ blanks, isBlank c)
    (hhas : Subject.Has ⟨source.text, source.length⟩ pos blanks)
    (hstop : ∀ c ∈ Subject.get? ⟨source.text, source.length⟩ (pos + blanks.length),
      isBlank c = false)
    (hfuel : blanks.length + least ≤ fuel) :
    ∃ fuel', least ≤ fuel' ∧
      source.tokensFrom fuel pos = source.tokensFrom fuel' (pos + blanks.length) := by
  by_cases hne : blanks = []
  · subst hne
    exact ⟨fuel, by simpa using hfuel, rfl⟩
  · have hlength := hhas.length_le hne
    have hpositive := List.length_pos_iff.2 hne
    dsimp only at hlength
    obtain ⟨fuel, rfl⟩ : ∃ n, fuel = n + 1 := ⟨fuel - 1, by omega⟩
    refine ⟨fuel, by omega, ?_⟩
    have hnext := next_ofKinds Kind.invalid Kind.spaces [] Kind.patterns.tail le_rfl (by simp)
      (munches_blanks hne hblanks hhas hstop) hne hhas
    rw [Source.tokensFrom_succ (by omega) hnext, if_pos rfl, List.nil_append]

/-- A lexeme gives a token. -/
theorem tokensFrom_lexeme (fuel : Nat) (lexeme : Lexeme)
    (hhas : Subject.Has ⟨source.text, source.length⟩ pos lexeme.chars)
    (hstop : lexeme.kind = .num →
      ∀ c ∈ Subject.get? ⟨source.text, source.length⟩ (pos + lexeme.chars.length),
        ¬ ExtendsNumeral c) :
    ∃ token, source.Shows token lexeme ∧ source.tokensFrom (fuel + 1) pos =
      token :: source.tokensFrom fuel (pos + lexeme.chars.length) := by
  have hnum : lexeme.kind = .num →
      Kind.number.Munches ⟨source.text, source.length⟩ pos lexeme.chars := by
    intro hkind
    cases lexeme with
    | number xs h => exact munches_number h hhas (hstop rfl)
    | _ => cases hkind
  obtain ⟨before, p, after, hpatterns, hbefore, hp⟩ := lexeme.exists_pattern hhas hnum
  have hlength := hhas.length_le lexeme.chars_ne_nil
  have hpositive := List.length_pos_iff.2 lexeme.chars_ne_nil
  dsimp only at hlength
  have hnext := next_ofKinds Kind.invalid lexeme.kind before after le_rfl hbefore hp
    lexeme.chars_ne_nil hhas
  rw [← hpatterns] at hnext
  refine ⟨.leaf lexeme.kind pos ((pos + lexeme.chars.length : Nat) : Int), ⟨rfl, ?_⟩, ?_⟩
  · exact congrArg String.ofList (slice_of_has hhas)
  · rw [Source.tokensFrom_succ (by omega) hnext, if_neg (by cases lexeme <;> exact nofun)]
    rfl

/-- What follows a number, if it is no number, does not go on with it. -/
theorem Spaced.not_extendsNumeral_head (h : Spaced lexemes xs)
    (hfirst : ∀ lexeme ∈ lexemes.head?, lexeme.kind ≠ .num) :
    ∀ c ∈ xs.head?, ¬ ExtendsNumeral c := by
  have hblank : ∀ c, isBlank c → ¬ ExtendsNumeral c := by
    rintro c hc (hdigit | rfl | rfl | rfl)
    · rw [isBlank_eq_false_of_isDigit hdigit] at hc
      cases hc
    all_goals exact absurd hc (by decide)
  cases h with
  | nil hblanks => exact fun c hc => hblank c (hblanks c (List.mem_of_mem_head? hc))
  | @cons blanks lexeme lexemes xs hblanks h =>
    cases blanks with
    | cons b blanks =>
      rintro c ⟨⟩
      exact hblank b (hblanks b List.mem_cons_self)
    | nil =>
      rcases lexeme.chars_cases with ⟨hkind, -⟩ | ⟨d, hd, -, hextends, -⟩
      · exact absurd hkind (hfirst lexeme rfl)
      · rw [hd]
        rintro c ⟨⟩
        exact hextends

/-- The tokens from a position on, if lexemes are written from there to the end. -/
theorem shows_tokensFrom (h : Spaced lexemes xs) (hchain : lexemes.IsChain Lexeme.Apart)
    (hhas : Subject.Has ⟨source.text, source.length⟩ pos xs) (hend : pos + xs.length = source.length)
    (hfuel : xs.length ≤ fuel) :
    List.Forall₂ source.Shows (source.tokensFrom fuel pos) lexemes := by
  have hlast : ∀ {P : Char → Prop},
      ∀ c ∈ Subject.get? ⟨source.text, source.length⟩ source.length, P c := by
    intro P c hc
    exact absurd (Subject.get?_lt hc) (lt_irrefl _)
  induction h generalizing pos fuel with
  | @nil blanks hblanks =>
    obtain ⟨fuel', -, heq⟩ := exists_tokensFrom_blanks 0 hblanks hhas
      (by rw [hend]; exact hlast) hfuel
    rw [heq, hend, Source.tokensFrom_length]
    exact .nil
  | @cons blanks lexeme lexemes xs hblanks h ih =>
    obtain ⟨hhasBlanks, hhasRest⟩ := hhas.of_append
    obtain ⟨hhasLexeme, hhasTail⟩ := hhasRest.of_append
    rw [List.length_append, List.length_append] at hend hfuel
    have hend' : pos + blanks.length + lexeme.chars.length + xs.length = source.length := by omega
    have hpositive := List.length_pos_iff.2 lexeme.chars_ne_nil
    have hafter : lexeme.kind = .num → ∀ c ∈ Subject.get? ⟨source.text, source.length⟩
        (pos + blanks.length + lexeme.chars.length), ¬ ExtendsNumeral c := by
      intro hkind
      refine forall_get?_of_has hhasTail (h.not_extendsNumeral_head fun next hnext => ?_)
        (by rw [hend']; exact hlast)
      exact (hchain.rel_head? hnext).resolve_left (absurd hkind)
    have hbefore : ∀ c ∈ Subject.get? ⟨source.text, source.length⟩ (pos + blanks.length),
        isBlank c = false := by
      obtain ⟨d, chars, hchars⟩ := List.exists_cons_of_ne_nil lexeme.chars_ne_nil
      intro c hc
      have hhead := lexeme.isBlank_head
      rw [hchars] at hhead hhasLexeme
      obtain rfl : d = c := Option.some.inj (hhasLexeme.1.symm.trans hc)
      exact hhead d rfl
    obtain ⟨fuel', hfuel', heq⟩ := exists_tokensFrom_blanks _ hblanks hhasBlanks hbefore hfuel
    obtain ⟨fuel', rfl⟩ : ∃ n, fuel' = n + 1 := ⟨fuel' - 1, by omega⟩
    obtain ⟨token, hshows, htokens⟩ := tokensFrom_lexeme fuel' lexeme hhasLexeme hafter
    rw [heq, htokens]
    exact .cons hshows (ih hchain.tail hhasTail hend' (by omega))

/-- The rest of a text stands at the position after what comes before it. -/
theorem has_of_toList_eq {text : Array Char} (front : List Char) {back : List Char}
    (h : text.toList = front ++ back) : Subject.Has ⟨text, text.size⟩ front.length back := by
  induction back generalizing front with
  | nil => trivial
  | cons c back ih =>
    have hlength := congrArg List.length h
    rw [Array.length_toList, List.length_append, List.length_cons] at hlength
    have hget : text[front.length]? = some c := by
      rw [← Array.getElem?_toList, h, List.getElem?_append_right le_rfl, Nat.sub_self]
      rfl
    have hrest := ih (front ++ [c]) (by simpa using h)
    rw [List.length_append] at hrest
    exact ⟨by rw [Subject.get?, if_pos (by dsimp only; omega), hget], hrest⟩

/-- The tokens of a text in which lexemes are written. -/
theorem shows_tokens (source : Source) (h : Spaced lexemes source.text.toList)
    (hchain : lexemes.IsChain Lexeme.Apart) :
    List.Forall₂ source.Shows (tokens source) lexemes := by
  have hlength : source.text.toList.length = source.length := Array.length_toList
  have htokens := shows_tokensFrom h hchain (has_of_toList_eq [] rfl)
    ((Nat.zero_add _).trans hlength) hlength.le
  rwa [Source.tokensFrom] at htokens

end

end Precedence
