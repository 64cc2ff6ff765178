import Mathlib
import Precedence.Proofs.Alternatives
import Precedence.Proofs.Calculator.Lexing

/-!
# The reference scanner

What the lexer of arithmetic expressions does to a text can be told without patterns. At a blank it
takes all blanks in a row, at a digit the longest numeral, and at an operator or a parenthesis that
one character. Everything else is invalid up to the next character that a token starts with.

## Main definitions

- `Kind.symbols` — the tokens of one character
- `LongestNumeral` — the longest numeral that a text starts with
- `Scanned` — what the scanner takes at the start of a text
- `Scans` — the pairs of a text that stands at some position

## Main statements

- `munches_longest` — the pattern of numbers takes the longest numeral
- `next_of_scanned` — the lexer makes the pair that the scanner makes
- `lexFrom_of_scans` — the lexer makes the pairs that the scanner makes
- `scans_lex` — the pairs of the lexer are those of the scanner, whatever the text

## Design notes

The pattern of numbers gives back half a fraction or half an exponent. That this leaves the longest
numeral is shown from the numeral's end: a digit there, or a part that is not taken, would make a
longer one.
-/

namespace Precedence

/-! ### The scanner -/

/-- The tokens of one character. -/
def Kind.symbols : List (Char × Kind) :=
  [('+', .op .plus), ('-', .op .minus), ('*', .op .times), ('/', .op .divide), ('%', .op .modulo),
   ('^', .op .power), ('(', .parenOpen), (')', .parenClose)]

/-- Whether a pair other than an invalid one starts with a character. -/
def startsToken (c : Char) : Bool :=
  isBlank c || isDigit c || Kind.symbols.any (·.1 == c)

/-- The longest prefix of a text that is a numeral, and what follows it. -/
def LongestNumeral (xs rest : List Char) : Prop :=
  IsNumeral xs ∧ ∀ ys, ys <+: xs ++ rest → IsNumeral ys → ys.length ≤ xs.length

/-- What the scanner takes at the start of a text: the kind of the pair, the characters that it
covers, and what follows them. -/
inductive Scanned : Kind → List Char → List Char → Prop
  | spaces {xs rest} (hne : xs ≠ []) (hall : ∀ c ∈ xs, isBlank c)
      (hrest : ∀ c ∈ rest.head?, isBlank c = false) : Scanned .spaces xs rest
  | num {xs rest} (h : LongestNumeral xs rest) : Scanned .num xs rest
  | symbol {c kind} (rest) (h : (c, kind) ∈ Kind.symbols) : Scanned kind [c] rest
  | invalid {xs rest} (hne : xs ≠ []) (hall : ∀ c ∈ xs, startsToken c = false)
      (hrest : ∀ c ∈ rest.head?, startsToken c) : Scanned .invalid xs rest

/-- The pairs that the scanner makes of a text that stands at some position. -/
inductive Scans : Nat → List Char → List (Pair Kind Int) → Prop
  | nil (pos) : Scans pos [] []
  | cons {pos kind xs rest pairs} (hfirst : Scanned kind xs rest)
      (h : Scans (pos + xs.length) rest pairs) :
      Scans pos (xs ++ rest) (.leaf kind pos ((pos + xs.length : Nat) : Int) :: pairs)

/-! ### Longest numerals -/

section

variable {subject : Subject} {pos : Nat} {xs ys rest : List Char}

/-- A text stands at a position, and the subject ends after it. -/
def Subject.Ends (subject : Subject) (pos : Nat) (xs : List Char) : Prop :=
  subject.Has pos xs ∧ pos + xs.length = subject.stop

theorem Subject.Ends.of_append (h : subject.Ends pos (xs ++ ys)) :
    subject.Ends (pos + xs.length) ys := by
  obtain ⟨hhas, hend⟩ := h
  rw [List.length_append, ← Nat.add_assoc] at hend
  exact ⟨hhas.of_append.2, hend⟩

theorem Subject.Ends.get? (h : subject.Ends pos xs) : subject.get? pos = xs.head? := by
  cases xs with
  | nil =>
    have hend : pos = subject.stop := h.2
    rw [Subject.get?, if_neg (by omega)]
    rfl
  | cons c xs => exact h.1.1

theorem Subject.Ends.tail {c : Char} (h : subject.Ends pos (c :: xs)) :
    subject.Ends (pos + 1) xs := by
  have happend : subject.Ends pos ([c] ++ xs) := h
  exact happend.of_append

/-- A character of a set and something after it are refused if nothing after such a character is
taken. -/
theorem refuses_seq_char {set : CharSet} {p : Pattern}
    (h : ∀ c ∈ subject.get? pos, set.contains c → p.Refuses subject (pos + 1)) :
    (Pattern.seq (.char set) p).Refuses subject pos := by
  rintro progress next rfl
  rw [Pattern.attempt, Pattern.attempt]
  cases hget : subject.get? progress.pos with
  | none => rfl
  | some c =>
    by_cases hset : set.contains c
    · simp only [hset, if_true]
      exact h c hget hset _ next rfl
    · simp only [hset, Bool.false_eq_true, if_false]

/-- If a part may be missing, and nothing after it is taken whether it is there or not, then both are
refused. -/
theorem refuses_seq_optional_char {set : CharSet} {p : Pattern} (hp : p.Refuses subject pos)
    (h : ∀ c ∈ subject.get? pos, set.contains c → p.Refuses subject (pos + 1)) :
    (Pattern.seq (.repeat .greedy 0 (some 1) (.char set)) p).Refuses subject pos := by
  intro progress next hpos
  have hthere : (Pattern.char set).attempt subject progress
      (fun after => p.attempt subject after next) = none := refuses_seq_char h progress next hpos
  rw [Pattern.attempt, attempt_optional, hthere]
  exact hp progress next hpos

theorem refuses_digits (h : subject.Ends pos xs) (hhead : ∀ c ∈ xs.head?, isDigit c = false) :
    Kind.digits.Refuses subject pos := by
  refine refuses_of_first? rfl fun c hc => ?_
  rw [contains_digit]
  exact hhead c (h.get? ▸ hc)

/-- No fraction is taken where none stands. -/
theorem refuses_fraction (h : subject.Ends pos xs)
    (hnone : ∀ d tail, xs = '.' :: d :: tail → isDigit d = false) :
    Kind.fraction.Refuses subject pos := by
  refine refuses_seq_char fun c hc hpoint => ?_
  rw [CharSet.contains_ofChar, beq_iff_eq] at hpoint
  rw [h.get?] at hc
  obtain ⟨tail, rfl⟩ : ∃ tail, xs = c :: tail := List.head?_eq_some_iff.1 hc
  subst hpoint
  refine refuses_digits h.tail fun d hd => ?_
  obtain ⟨tail, rfl⟩ := List.head?_eq_some_iff.1 hd
  exact hnone d tail rfl

/-- No exponent is taken where none stands. -/
theorem refuses_exponent (h : subject.Ends pos xs)
    (hnone : ∀ mark sign d tail, mark = 'e' ∨ mark = 'E' → sign = [] ∨ sign = ['+'] ∨ sign = ['-'] →
      xs = mark :: (sign ++ d :: tail) → isDigit d = false) :
    Kind.exponent.Refuses subject pos := by
  refine refuses_seq_char fun mark hc hmark => ?_
  rw [contains_mark, Bool.or_eq_true, beq_iff_eq, beq_iff_eq] at hmark
  rw [h.get?] at hc
  obtain ⟨tail, rfl⟩ := List.head?_eq_some_iff.1 hc
  refine refuses_seq_optional_char (refuses_digits h.tail fun d hd => ?_) fun sign hc hsign => ?_
  · obtain ⟨tail, rfl⟩ := List.head?_eq_some_iff.1 hd
    exact hnone mark [] d tail hmark (Or.inl rfl) rfl
  · rw [contains_sign, Bool.or_eq_true, beq_iff_eq, beq_iff_eq] at hsign
    rw [h.tail.get?] at hc
    obtain ⟨tail, rfl⟩ := List.head?_eq_some_iff.1 hc
    refine refuses_digits h.tail.tail fun d hd => ?_
    obtain ⟨tail, rfl⟩ := List.head?_eq_some_iff.1 hd
    refine hnone mark [sign] d tail hmark (Or.inr ?_) rfl
    rcases hsign with rfl | rfl <;> simp

/-- Digits with one more digit. -/
theorem IsDigits.concat {c : Char} (h : IsDigits xs) (hc : isDigit c) : IsDigits (xs ++ [c]) := by
  refine ⟨by simp, List.forall_mem_append.2 ⟨h.2, ?_⟩⟩
  simpa using hc

theorem isDigits_singleton {c : Char} (hc : isDigit c) : IsDigits [c] :=
  ⟨by simp, by simpa using hc⟩

/-- A numeral with one more digit at its end is a numeral. -/
theorem IsNumeral.concat {c : Char} (h : IsNumeral xs) (hc : isDigit c) : IsNumeral (xs ++ [c]) := by
  obtain ⟨whole, fraction, exponent, hwhole, hfraction, hexponent, rfl⟩ := h
  -- The digit belongs to the last part that is there.
  rcases hexponent with rfl | ⟨mark, sign, digits, hmark, hsign, hdigits, rfl⟩
  · rcases hfraction with rfl | ⟨digits, hdigits, rfl⟩
    · exact ⟨whole ++ [c], [], [], hwhole.concat hc, Or.inl rfl, Or.inl rfl, by simp⟩
    · exact ⟨whole, '.' :: (digits ++ [c]), [], hwhole, Or.inr ⟨_, hdigits.concat hc, rfl⟩,
        Or.inl rfl, by simp⟩
  · exact ⟨whole, fraction, mark :: (sign ++ (digits ++ [c])), hwhole, hfraction,
      Or.inr ⟨mark, sign, _, hmark, hsign, hdigits.concat hc, rfl⟩, by simp⟩

namespace LongestNumeral

/-- What follows the longest numeral does not make a longer one. -/
theorem not_isNumeral_append (h : LongestNumeral xs rest) (more after : List Char)
    (hrest : rest = more ++ after) (hne : more ≠ []) : ¬ IsNumeral (xs ++ more) := by
  intro hlonger
  have hprefix : xs ++ more <+: xs ++ rest := by
    rw [hrest, ← List.append_assoc]
    exact List.prefix_append _ _
  have hle := h.2 _ hprefix hlonger
  have hpositive := List.length_pos_iff.2 hne
  rw [List.length_append] at hle
  omega

/-- No digit follows the longest numeral. -/
theorem isDigit_head (h : LongestNumeral xs rest) : ∀ c ∈ rest.head?, isDigit c = false := by
  intro c hc
  obtain ⟨tail, rfl⟩ := List.head?_eq_some_iff.1 hc
  refine Bool.eq_false_iff.2 fun hdigit => ?_
  exact h.not_isNumeral_append [c] tail rfl (by simp) (h.1.concat hdigit)

end LongestNumeral

/-- The pattern of numbers takes the longest numeral. -/
theorem munches_longest (h : LongestNumeral xs rest) (hends : subject.Ends pos (xs ++ rest)) :
    Kind.number.Munches subject pos xs := by
  obtain ⟨whole, fraction, exponent, hwhole, hfraction, hexponent, rfl⟩ := h.1
  have hafter : subject.Ends (pos + whole.length + fraction.length + exponent.length) rest := by
    have hlength : pos + whole.length + fraction.length + exponent.length =
        pos + (whole ++ (fraction ++ exponent)).length := by
      simp only [List.length_append]
      omega
    rw [hlength]
    exact hends.of_append
  refine munches_parts hwhole hfraction hexponent hends.1.of_append.1 (fun c hc => ?_) ?_ ?_
  · exact h.isDigit_head c (hafter.get? ▸ hc)
  · rintro rfl
    have hends' : subject.Ends (pos + whole.length) (exponent ++ rest) := by
      rw [List.nil_append, List.append_assoc] at hends
      exact hends.of_append
    refine refuses_fraction hends' fun d tail heq => Bool.eq_false_iff.2 fun hdigit => ?_
    -- A point follows the whole part only if there is no exponent, and then the fraction is taken.
    rcases hexponent with rfl | ⟨mark, sign, digits, hmark, -, -, rfl⟩
    · refine h.not_isNumeral_append ['.', d] tail heq (by simp) ?_
      exact ⟨whole, ['.', d], [], hwhole, Or.inr ⟨[d], isDigits_singleton hdigit, rfl⟩, Or.inl rfl,
        by simp⟩
    · obtain rfl : mark = '.' := (List.cons.inj heq).1
      rcases hmark with hmark | hmark <;> exact absurd hmark (by decide)
  · rintro rfl
    refine refuses_exponent hafter fun mark sign d tail hmark hsign heq =>
      Bool.eq_false_iff.2 fun hdigit => ?_
    refine h.not_isNumeral_append (mark :: (sign ++ [d])) tail (by simp [heq]) (by simp) ?_
    exact ⟨whole, fraction, mark :: (sign ++ [d]), hwhole, hfraction,
      Or.inr ⟨mark, sign, [d], hmark, hsign, isDigits_singleton hdigit, rfl⟩, by simp⟩

/-- A text that starts with a digit starts with a longest numeral. -/
theorem exists_longestNumeral {c : Char} (xs : List Char) (hc : isDigit c) :
    ∃ numeral rest, c :: xs = numeral ++ rest ∧ LongestNumeral numeral rest := by
  classical
  let P : Nat → Prop := fun n => IsNumeral ((c :: xs).take n)
  have hone : P 1 := ⟨[c], [], [], isDigits_singleton hc, Or.inl rfl, Or.inl rfl, by simp⟩
  have hle : 1 ≤ (c :: xs).length := by simp
  refine ⟨(c :: xs).take (Nat.findGreatest P (c :: xs).length),
    (c :: xs).drop (Nat.findGreatest P (c :: xs).length), (List.take_append_drop _ _).symm,
    Nat.findGreatest_spec hle hone, fun ys hprefix hnumeral => ?_⟩
  rw [List.take_append_drop] at hprefix
  rw [List.length_take, Nat.min_eq_left (Nat.findGreatest_le _)]
  refine Nat.le_findGreatest hprefix.length_le ?_
  change IsNumeral ((c :: xs).take ys.length)
  rwa [← List.prefix_iff_eq_take.1 hprefix]

/-! ### One step of the scanner -/

/-- The patterns of the lexer: that of blanks, that of numbers, and the symbols. -/
theorem Kind.patterns_eq : Kind.patterns =
    (.spaces, .repeat .greedy 1 none (.char (.ofCategory ⟨.blank, false, false⟩))) ::
      (.num, Kind.number) :: Kind.symbols.map fun symbol => (symbol.2, .char (.ofChar symbol.1)) :=
  rfl

theorem startsToken_iff {c : Char} :
    startsToken c ↔ isBlank c ∨ isDigit c ∨ ∃ kind, (c, kind) ∈ Kind.symbols := by
  simp [startsToken, or_assoc]

/-- A character that a condition holds of starts a stretch of such characters. -/
theorem exists_stretch (p : Char → Bool) {c : Char} (xs : List Char) (hc : p c) :
    ∃ ys rest, c :: xs = ys ++ rest ∧ ys ≠ [] ∧ (∀ d ∈ ys, p d) ∧
      ∀ d ∈ rest.head?, p d = false := by
  refine ⟨(c :: xs).takeWhile p, (c :: xs).dropWhile p, List.takeWhile_append_dropWhile.symm, ?_,
    fun d hd => List.mem_takeWhile_imp hd, fun d hd => ?_⟩
  · rw [List.takeWhile_cons, if_pos hc]
    exact List.cons_ne_nil _ _
  · have hnot := List.head?_dropWhile_not p (c :: xs)
    rw [Option.mem_def.1 hd] at hnot
    simpa using hnot

/-- Something is taken at the start of every text that is not empty. -/
theorem exists_scanned (h : xs ≠ []) : ∃ kind ys rest, xs = ys ++ rest ∧ Scanned kind ys rest := by
  obtain ⟨c, tail, rfl⟩ := List.exists_cons_of_ne_nil h
  by_cases hstarts : startsToken c
  · rcases startsToken_iff.1 hstarts with hblank | hdigit | ⟨kind, hkind⟩
    · obtain ⟨ys, rest, heq, hne, hall, hrest⟩ := exists_stretch isBlank tail hblank
      exact ⟨.spaces, ys, rest, heq, .spaces hne hall hrest⟩
    · obtain ⟨numeral, rest, heq, hlongest⟩ := exists_longestNumeral tail hdigit
      exact ⟨.num, numeral, rest, heq, .num hlongest⟩
    · exact ⟨kind, [c], tail, rfl, .symbol tail hkind⟩
  · obtain ⟨ys, rest, heq, hne, hall, hrest⟩ :=
      exists_stretch (fun d => !startsToken d) tail (by simpa using hstarts)
    exact ⟨.invalid, ys, rest, heq, .invalid hne (by simpa using hall) (by simpa using hrest)⟩

namespace Scanned

variable {kind : Kind}

theorem ne_nil (h : Scanned kind xs rest) : xs ≠ [] := by
  cases h with
  | spaces hne _ _ => exact hne
  | num h => exact (Lexeme.number xs h.1).chars_ne_nil
  | symbol rest h => exact List.cons_ne_nil _ _
  | invalid hne _ _ => exact hne

/-- If a token starts with the first character, then what is taken is not invalid. -/
theorem kind_ne_invalid (h : Scanned kind xs rest) (hhead : ∀ c ∈ xs.head?, startsToken c) :
    kind ≠ .invalid := by
  rintro rfl
  cases h with
  | symbol rest h => exact absurd h (by simp [Kind.symbols])
  | invalid hne hall _ =>
    obtain ⟨c, tail, rfl⟩ := List.exists_cons_of_ne_nil hne
    exact absurd (hhead c rfl) (by simp [hall c List.mem_cons_self])

end Scanned

/-- A symbol as a lexeme. -/
theorem exists_lexeme_of_mem_symbols {c : Char} {kind : Kind} (h : (c, kind) ∈ Kind.symbols) :
    ∃ lexeme : Lexeme, lexeme.kind = kind ∧ lexeme.chars = [c] ∧ kind ≠ .num := by
  simp only [Kind.symbols, List.mem_cons, Prod.mk.injEq, List.not_mem_nil, or_false] at h
  rcases h with ⟨rfl, rfl⟩ | ⟨rfl, rfl⟩ | ⟨rfl, rfl⟩ | ⟨rfl, rfl⟩ | ⟨rfl, rfl⟩ | ⟨rfl, rfl⟩ |
    ⟨rfl, rfl⟩ | ⟨rfl, rfl⟩
  · exact ⟨.operator .plus, rfl, rfl, nofun⟩
  · exact ⟨.operator .minus, rfl, rfl, nofun⟩
  · exact ⟨.operator .times, rfl, rfl, nofun⟩
  · exact ⟨.operator .divide, rfl, rfl, nofun⟩
  · exact ⟨.operator .modulo, rfl, rfl, nofun⟩
  · exact ⟨.operator .power, rfl, rfl, nofun⟩
  · exact ⟨.opening, rfl, rfl, nofun⟩
  · exact ⟨.closing, rfl, rfl, nofun⟩

/-- What the scanner takes, if it is not invalid, is taken by the pattern of its kind, and no pattern
before that one takes anything. -/
theorem Scanned.exists_pattern {kind : Kind} (h : Scanned kind xs rest) (hkind : kind ≠ .invalid)
    (hends : subject.Ends pos (xs ++ rest)) :
    ∃ before p after, Kind.patterns = before ++ (kind, p) :: after ∧
      (∀ entry ∈ before, entry.2.Refuses subject pos) ∧ p.Munches subject pos xs := by
  have hhas := hends.1.of_append.1
  cases h with
  | spaces hne hall hrest =>
    refine ⟨[], _, Kind.patterns.tail, rfl, by simp, munches_blanks hne hall hhas fun c hc => ?_⟩
    exact hrest c (hends.of_append.get? ▸ hc)
  | num h =>
    exact (Lexeme.number xs h.1).exists_pattern hhas fun _ => munches_longest h hends
  | @symbol c _ _ h =>
    obtain ⟨lexeme, rfl, hchars, hnum⟩ := exists_lexeme_of_mem_symbols h
    rw [← hchars] at hhas ⊢
    exact lexeme.exists_pattern hhas fun hnum' => absurd hnum' hnum
  | invalid => exact absurd rfl hkind

/-- Where no token starts, every pattern takes nothing. -/
theorem refuses_of_startsToken (h : subject.Ends pos xs)
    (hhead : ∀ c ∈ xs.head?, startsToken c = false) :
    ∀ entry ∈ Kind.patterns, entry.2.Refuses subject pos := by
  have hnot : ∀ c ∈ subject.get? pos, isBlank c = false ∧ isDigit c = false ∧
      ∀ symbol ∈ Kind.symbols, c ≠ symbol.1 := by
    intro c hc
    have hc' := hhead c (h.get? ▸ hc)
    simpa [startsToken, Bool.or_eq_false_iff, and_assoc, eq_comm (a := c)] using hc'
  rw [Kind.patterns_eq, List.forall_mem_cons, List.forall_mem_cons, List.forall_mem_map]
  refine ⟨?_, ?_, fun symbol hsymbol => ?_⟩
  · refine refuses_of_first? rfl fun c hc => ?_
    rw [contains_blank]
    exact (hnot c hc).1
  · refine refuses_of_first? rfl fun c hc => ?_
    rw [contains_digit]
    exact (hnot c hc).2.1
  · refine refuses_char fun c hc => ?_
    rw [CharSet.contains_ofChar]
    exact beq_false_of_ne ((hnot c hc).2.2 symbol hsymbol)

/-! ### The pairs of the lexer -/

variable {text : Array Char} {kind : Kind}

/-- Where no token starts, the lexer finds no match. -/
theorem matchAt?_of_startsToken (h : subject.Ends pos xs)
    (hhead : ∀ c ∈ xs.head?, startsToken c = false) :
    Kind.lexer.pattern.matchAt? subject pos = none :=
  matchAt?_ofKinds_eq_none Kind.invalid (by decide) (refuses_of_startsToken h hhead)

/-- Within a stretch where no token starts, the lexer finds no match. -/
theorem matchAt?_of_stretch (hall : ∀ c ∈ xs, startsToken c = false)
    (hends : subject.Ends pos (xs ++ rest)) {k : Nat} (hk : k < xs.length) :
    Kind.lexer.pattern.matchAt? subject (pos + k) = none := by
  have hsplit : xs ++ rest = xs.take k ++ (xs.drop k ++ rest) := by
    rw [← List.append_assoc, List.take_append_drop]
  have hlater : subject.Ends (pos + k) (xs.drop k ++ rest) := by
    rw [hsplit] at hends
    have happend := hends.of_append
    rwa [List.length_take, Nat.min_eq_left hk.le] at happend
  refine matchAt?_of_startsToken hlater ?_
  rw [List.drop_eq_getElem_cons hk]
  rintro c ⟨⟩
  exact hall _ (List.getElem_mem hk)

/-- At a stretch where no token starts, the lexer makes an invalid pair up to its end. -/
theorem next_of_stretch (hne : xs ≠ []) (hall : ∀ c ∈ xs, startsToken c = false)
    (hrest : ∀ c ∈ rest.head?, startsToken c)
    (hends : Subject.Ends ⟨text, text.size⟩ pos (xs ++ rest)) :
    Kind.lexer.next text pos text.size =
      .ok (.leaf .invalid pos ((pos + xs.length : Nat) : Int)) := by
  have hend : pos + xs.length + rest.length = text.size := hends.of_append.2
  have hwithin : ∀ k < xs.length,
      Kind.lexer.pattern.matchAt? ⟨text, text.size⟩ (pos + k) = none :=
    fun k hk => matchAt?_of_stretch hall hends hk
  rw [Lexer.next, search?_eq_searchFrom? _ (by omega) (by omega), seen, min_self]
  by_cases hnil : rest = []
  · -- Nothing matches up to the end, where no character is left.
    subst hnil
    have hnone : ∀ k ≤ text.size - pos,
        Kind.lexer.pattern.matchAt? ⟨text, text.size⟩ (pos + k) = none := by
      intro k hk
      by_cases hlt : k < xs.length
      · exact hwithin k hlt
      · obtain rfl : k = xs.length := by
          rw [List.length_nil] at hend
          omega
        exact matchAt?_of_startsToken hends.of_append (by simp)
    rw [searchFrom?_eq_none hnone]
    rw [List.length_nil, Nat.add_zero] at hend
    rw [hend]
    rfl
  · -- The first match is that of the token that starts after the stretch.
    obtain ⟨kind, ys, after, rfl, hscanned⟩ := exists_scanned hnil
    have hkind : kind ≠ .invalid := by
      refine hscanned.kind_ne_invalid fun c hc => hrest c ?_
      obtain ⟨d, ys, rfl⟩ := List.exists_cons_of_ne_nil hscanned.ne_nil
      exact hc
    obtain ⟨before, p, others, hpatterns, hbefore, hp⟩ :=
      hscanned.exists_pattern hkind hends.of_append
    have hfound := matchAt?_ofKinds Kind.invalid kind before others hbefore hp
    rw [← hpatterns] at hfound
    rw [searchFrom?_of_first hwithin hfound (by rw [List.length_append] at hend; omega)]
    have hlater : (pos : Int) < ((pos + xs.length : Nat) : Int) := by
      have hpositive := List.length_pos_iff.2 hne
      omega
    simp only [if_pos hlater]
    rfl

/-- The lexer makes the pair that the scanner makes. -/
theorem next_of_scanned (h : Scanned kind xs rest)
    (hends : Subject.Ends ⟨text, text.size⟩ pos (xs ++ rest)) :
    Kind.lexer.next text pos text.size = .ok (.leaf kind pos ((pos + xs.length : Nat) : Int)) := by
  by_cases hkind : kind = .invalid
  · subst hkind
    cases h with
    | symbol rest h => exact absurd h (by simp [Kind.symbols])
    | invalid hne hall hrest => exact next_of_stretch hne hall hrest hends
  · obtain ⟨before, p, after, hpatterns, hbefore, hp⟩ := h.exists_pattern hkind hends
    have hnext := next_ofKinds Kind.invalid kind before after le_rfl hbefore hp h.ne_nil
      hends.1.of_append.1
    rwa [← hpatterns] at hnext

/-- The pairs of the lexer from a position on are those of the scanner. -/
theorem lexFrom_of_scans {pairs : List (Pair Kind Int)} {fuel : Nat} (h : Scans pos xs pairs)
    (hends : Subject.Ends ⟨text, text.size⟩ pos xs) (hfuel : xs.length ≤ fuel) :
    Kind.lexer.lexFrom text text.size (fun _ => false) fuel pos = ⟨pairs, none⟩ := by
  induction h generalizing fuel with
  | nil pos =>
    have hend : pos = text.size := hends.2
    rw [hend, Lexer.lexFrom_of_le le_rfl]
  | @cons pos kind xs rest pairs hfirst h ih =>
    have hpositive := List.length_pos_iff.2 hfirst.ne_nil
    have hend : pos + xs.length + rest.length = text.size := hends.of_append.2
    rw [List.length_append] at hfuel
    obtain ⟨fuel, rfl⟩ : ∃ n, fuel = n + 1 := ⟨fuel - 1, by omega⟩
    have hrest := ih hends.of_append (show rest.length ≤ fuel by omega)
    have hstop : (Pair.leaf kind (pos : Int) ((pos + xs.length : Nat) : Int)).stop =
        ((pos + xs.length : Nat) : Int) := rfl
    rw [Lexer.lexFrom_of_ok (by omega) (next_of_scanned hfirst hends), hstop, hrest]

/-- The scanner comes to the end of every text. -/
theorem exists_scans (pos : Nat) (xs : List Char) : ∃ pairs, Scans pos xs pairs := by
  induction hlength : xs.length using Nat.strong_induction_on generalizing pos xs with
  | _ n ih =>
    by_cases hnil : xs = []
    · subst hnil
      exact ⟨[], .nil pos⟩
    · obtain ⟨kind, ys, rest, rfl, hfirst⟩ := exists_scanned hnil
      have hpositive := List.length_pos_iff.2 hfirst.ne_nil
      rw [List.length_append] at hlength
      obtain ⟨pairs, hpairs⟩ := ih rest.length (by omega) (pos + ys.length) rest rfl
      exact ⟨_, .cons hfirst hpairs⟩

/-- The pairs of a text are those of the scanner. -/
theorem lex_of_scans {pairs : List (Pair Kind Int)} (h : Scans 0 text.toList pairs) :
    Kind.lexer.lex text 0 text.size = ⟨pairs, none⟩ := by
  have hends : Subject.Ends ⟨text, text.size⟩ 0 text.toList := ⟨has_of_toList_eq [] rfl, by simp⟩
  exact lexFrom_of_scans h hends (by simp)

/-- The lexer of arithmetic expressions makes the pairs of the scanner, which makes no others, and no
fault arises. -/
theorem scans_lex (text : Array Char) :
    ∃ pairs, Kind.lexer.lex text 0 text.size = ⟨pairs, none⟩ ∧
      ∀ scanned, Scans 0 text.toList scanned ↔ scanned = pairs := by
  obtain ⟨pairs, hpairs⟩ := exists_scans 0 text.toList
  refine ⟨pairs, lex_of_scans hpairs, fun scanned => ⟨fun h => ?_, ?_⟩⟩
  · have heq := (lex_of_scans h).symm.trans (lex_of_scans hpairs)
    exact congrArg Lexing.pairs heq
  · rintro rfl
    exact hpairs

end

end Precedence
