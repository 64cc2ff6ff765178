import Mathlib
import Precedence.Calculator.Fault
import Precedence.Calculator.Token
import Precedence.Proofs.Matching

/-!
# Numerals

Every text that the pattern of numbers accepts can be read as a number.

## Main definitions

- `IsDigits` — one or more digits
- `IsNumeral` — digits, with a fraction and an exponent that may both be missing

## Main statements

- `isNumeral_of_accepts` — what the pattern of numbers accepts is a numeral
- `exists_parse_of_isNumeral` — and can be read
-/

namespace Precedence

/-! ### The pattern of numbers -/

/-- One or more digits. -/
def IsDigits (xs : List Char) : Prop :=
  xs ≠ [] ∧ ∀ c ∈ xs, isDigit c

/-- A fraction, or nothing. -/
def IsFraction (xs : List Char) : Prop :=
  xs = [] ∨ ∃ digits, IsDigits digits ∧ xs = '.' :: digits

/-- An exponent, or nothing. -/
def IsExponent (xs : List Char) : Prop :=
  xs = [] ∨ ∃ mark sign digits, (mark = 'e' ∨ mark = 'E') ∧
    (sign = [] ∨ sign = ['+'] ∨ sign = ['-']) ∧ IsDigits digits ∧ xs = mark :: (sign ++ digits)

/-- Digits, with a fraction and an exponent that may both be missing. -/
def IsNumeral (xs : List Char) : Prop :=
  ∃ whole fraction exponent, IsDigits whole ∧ IsFraction fraction ∧ IsExponent exponent ∧
    xs = whole ++ (fraction ++ exponent)

open Pattern in
theorem accepts_seq {a b : Pattern} {xs : List Char} (h : Accepts (.seq a b) xs) :
    ∃ ys zs, Accepts a ys ∧ Accepts b zs ∧ xs = ys ++ zs := by
  cases h with
  | seq ha hb => exact ⟨_, _, ha, hb, rfl⟩

open Pattern in
theorem accepts_char {set : CharSet} {xs : List Char} (h : Accepts (.char set) xs) :
    ∃ c, set.contains c ∧ xs = [c] := by
  cases h with
  | char hc => exact ⟨_, hc, rfl⟩

open Pattern in
/-- What may be missing is missing or accepted. -/
theorem accepts_optional {greed : Greed} {body : Pattern} {xs : List Char}
    (h : Accepts (.repeat greed 0 (some 1) body) xs) : xs = [] ∨ Accepts body xs := by
  cases h with
  | @«repeat» _ _ _ _ pieces _ hmost hpieces =>
    have hlength := hmost 1 rfl
    match pieces with
    | [] => exact Or.inl rfl
    | [piece] =>
      rw [List.flatten_singleton]
      exact Or.inr (hpieces piece List.mem_cons_self)
    | _ :: _ :: _ => simp at hlength

theorem isDigits_of_accepts {xs : List Char} (h : Kind.digits.Accepts xs) : IsDigits xs := by
  cases h with
  | @«repeat» _ _ _ _ pieces hleast _ hpieces =>
    have hpiece : ∀ piece ∈ pieces, ∃ c, isDigit c ∧ piece = [c] := by
      intro piece hmem
      obtain ⟨c, hc, rfl⟩ := accepts_char (hpieces piece hmem)
      exact ⟨c, by simpa [CharSet.contains, CharSet.ofCategory, CharItem.contains,
        Category.contains] using hc, rfl⟩
    refine ⟨fun hnil => ?_, fun c hc => ?_⟩
    · obtain ⟨first, rest, rfl⟩ := List.exists_cons_of_length_pos hleast
      obtain ⟨c, -, rfl⟩ := hpiece first List.mem_cons_self
      simp at hnil
    · obtain ⟨piece, hmem, hc⟩ := List.mem_flatten.1 hc
      obtain ⟨d, hd, rfl⟩ := hpiece piece hmem
      rwa [List.mem_singleton.1 hc]

theorem isFraction_of_accepts {xs : List Char}
    (h : Pattern.Accepts (.repeat .greedy 0 (some 1)
      (.sequence [.char (.ofChar '.'), Kind.digits])) xs) : IsFraction xs := by
  rcases accepts_optional h with rfl | h
  · exact Or.inl rfl
  · obtain ⟨point, digits, hpoint, hdigits, rfl⟩ := accepts_seq h
    obtain ⟨c, hc, rfl⟩ := accepts_char hpoint
    rw [CharSet.contains_ofChar, beq_iff_eq] at hc
    exact Or.inr ⟨digits, isDigits_of_accepts hdigits, by rw [hc]; rfl⟩

theorem isExponent_of_accepts {xs : List Char}
    (h : Pattern.Accepts (.repeat .greedy 0 (some 1) (.sequence
      [.char (.ofItems .none false [.single 0x65, .single 0x45]),
        .repeat .greedy 0 (some 1) (.char (.ofItems .none false [.single 0x2b, .single 0x2d])),
        Kind.digits])) xs) : IsExponent xs := by
  rcases accepts_optional h with rfl | h
  · exact Or.inl rfl
  · obtain ⟨mark, rest, hmark, hrest, rfl⟩ := accepts_seq h
    obtain ⟨sign, digits, hsign, hdigits, rfl⟩ := accepts_seq hrest
    obtain ⟨c, hc, rfl⟩ := accepts_char hmark
    refine Or.inr ⟨c, sign, digits, ?_, ?_, isDigits_of_accepts hdigits, rfl⟩
    · simpa [CharSet.contains, CharSet.ofItems, CharItem.contains, ← Char.toNat_inj] using hc
    · rcases accepts_optional hsign with rfl | hsign
      · exact Or.inl rfl
      · obtain ⟨d, hd, rfl⟩ := accepts_char hsign
        refine Or.inr ?_
        simpa [CharSet.contains, CharSet.ofItems, CharItem.contains, ← Char.toNat_inj] using hd

/-- What the pattern of numbers accepts is a numeral. -/
theorem isNumeral_of_accepts {xs : List Char} (h : Kind.number.Accepts xs) : IsNumeral xs := by
  obtain ⟨whole, rest, hwhole, hrest, rfl⟩ := accepts_seq h
  obtain ⟨fraction, exponent, hfraction, hexponent, rfl⟩ := accepts_seq hrest
  exact ⟨whole, fraction, exponent, isDigits_of_accepts hwhole, isFraction_of_accepts hfraction,
    isExponent_of_accepts hexponent, rfl⟩

/-! ### Reading a numeral -/

theorem digitValue?_of_isDigit {c : Char} (h : isDigit c) : ∃ d, digitValue? c = some d :=
  Option.isSome_iff_exists.1 h

theorem takeDigits_of_not_isDigit {rest : List Char} (h : ∀ c ∈ rest.head?, isDigit c = false) :
    takeDigits rest = ([], rest) := by
  cases rest with
  | nil => rfl
  | cons c rest =>
    have hc : digitValue? c = none := by simpa [isDigit] using h c rfl
    rw [takeDigits, hc]

/-- The digits before something else are taken. -/
theorem takeDigits_append {digits rest : List Char} (hdigits : IsDigits digits)
    (h : ∀ c ∈ rest.head?, isDigit c = false) :
    ∃ d ds, takeDigits (digits ++ rest) = (d :: ds, rest) := by
  obtain ⟨hne, hall⟩ := hdigits
  induction digits with
  | nil => exact absurd rfl hne
  | cons c digits ih =>
    obtain ⟨d, hd⟩ := digitValue?_of_isDigit (hall c List.mem_cons_self)
    rw [List.cons_append, takeDigits, hd]
    cases digits with
    | nil =>
      rw [List.nil_append, takeDigits_of_not_isDigit h]
      exact ⟨d, [], rfl⟩
    | cons c' digits =>
      obtain ⟨d', ds, hrest⟩ := ih (by simp) fun x hx => hall x (List.mem_cons_of_mem _ hx)
      rw [hrest]
      exact ⟨d, d' :: ds, rfl⟩

theorem splitSign_of_isDigit {c : Char} (rest : List Char) (hc : isDigit c) :
    splitSign (c :: rest) = (false, c :: rest) := by
  unfold splitSign
  split
  next heq => cases heq; exact absurd hc (by decide)
  next heq => cases heq; exact absurd hc (by decide)
  · rfl

theorem splitSign_of_isDigits {digits : List Char} (rest : List Char) (h : IsDigits digits) :
    splitSign (digits ++ rest) = (false, digits ++ rest) := by
  obtain ⟨c, digits, rfl⟩ := List.exists_cons_of_ne_nil h.1
  exact splitSign_of_isDigit _ (h.2 c List.mem_cons_self)

theorem splitSign_append {sign digits : List Char} (hsign : sign = [] ∨ sign = ['+'] ∨ sign = ['-'])
    (h : IsDigits digits) : ∃ negative, splitSign (sign ++ digits) = (negative, digits) := by
  rcases hsign with rfl | rfl | rfl
  · exact ⟨false, by simpa using splitSign_of_isDigits [] h⟩
  · exact ⟨false, rfl⟩
  · exact ⟨true, rfl⟩

theorem takeExponent_of_isExponent {xs : List Char} (h : IsExponent xs) :
    ∃ exponent, takeExponent xs = (exponent, []) := by
  rcases h with rfl | ⟨mark, sign, digits, hmark, hsign, hdigits, rfl⟩
  · exact ⟨0, rfl⟩
  · obtain ⟨negative, hsplit⟩ := splitSign_append hsign hdigits
    have hnone : ∀ c ∈ ([] : List Char).head?, isDigit c = false := by simp
    obtain ⟨d, ds, htake⟩ := takeDigits_append hdigits hnone
    rw [List.append_nil] at htake
    have hmark' : (decide (mark = 'e') || decide (mark = 'E')) = true := by simpa using hmark
    simp only [takeExponent, hmark', if_true, hsplit, htake]
    exact ⟨_, rfl⟩

theorem head_of_isExponent {xs : List Char} (h : IsExponent xs) :
    ∀ c ∈ xs.head?, isDigit c = false ∧ c ≠ '.' := by
  rcases h with rfl | ⟨mark, sign, digits, rfl | rfl, -, -, rfl⟩
  · simp
  · simp only [List.head?_cons, Option.mem_def, Option.some.injEq, forall_eq']
    decide
  · simp only [List.head?_cons, Option.mem_def, Option.some.injEq, forall_eq']
    decide

theorem isSome_readDecimal?_of_isNumeral {xs : List Char} (h : IsNumeral xs) (negative : Bool) :
    (readDecimal? negative xs).isSome := by
  obtain ⟨whole, fraction, exponent, hwhole, hfraction, hexponent, rfl⟩ := h
  obtain ⟨e, htake⟩ := takeExponent_of_isExponent hexponent
  have hhead := head_of_isExponent hexponent
  rcases hfraction with rfl | ⟨digits, hdigits, rfl⟩
  -- Without a fraction, what follows the whole part must not look like one.
  · obtain ⟨d, ds, hd⟩ := takeDigits_append hwhole fun c hc => (hhead c hc).1
    have hpoint : ∀ tail, exponent ≠ '.' :: tail := by
      rintro tail rfl
      exact (hhead '.' rfl).2 rfl
    simp only [List.nil_append, readDecimal?, hd, htake]
    rfl
  · have hpoint : ∀ c ∈ ('.' :: (digits ++ exponent)).head?, isDigit c = false := by
      simp only [List.head?_cons, Option.mem_def, Option.some.injEq, forall_eq']
      decide
    obtain ⟨d, ds, hd⟩ := takeDigits_append hwhole hpoint
    obtain ⟨d', ds', hd'⟩ := takeDigits_append hdigits fun c hc => (hhead c hc).1
    simp only [readDecimal?, List.cons_append, hd, hd', htake]
    rfl

/-! ### The characters of a numeral -/

/-- The characters that numerals are made of. -/
def IsNumeralChar (c : Char) : Prop :=
  isDigit c ∨ c ∈ ['.', 'e', 'E', '+', '-']

theorem isNumeralChar_of_mem {xs : List Char} (h : IsNumeral xs) : ∀ c ∈ xs, IsNumeralChar c := by
  obtain ⟨whole, fraction, exponent, hwhole, hfraction, hexponent, rfl⟩ := h
  refine List.forall_mem_append.2 ⟨fun c hc => Or.inl (hwhole.2 c hc),
    List.forall_mem_append.2 ⟨?_, ?_⟩⟩
  · rcases hfraction with rfl | ⟨digits, hdigits, rfl⟩
    · simp
    · exact List.forall_mem_cons.2 ⟨Or.inr (by simp), fun c hc => Or.inl (hdigits.2 c hc)⟩
  · rcases hexponent with rfl | ⟨mark, sign, digits, hmark, hsign, hdigits, rfl⟩
    · simp
    · refine List.forall_mem_cons.2 ⟨Or.inr ?_, List.forall_mem_append.2
        ⟨fun c hc => Or.inr ?_, fun c hc => Or.inl (hdigits.2 c hc)⟩⟩
      · rcases hmark with rfl | rfl <;> simp
      · rcases hsign with rfl | rfl | rfl <;> simp at hc <;> simp [hc]

/-- No digit of any script is blank. -/
theorem holds_blankRanges_of_digit :
    ∀ start ∈ digitZeros, ∀ k < 10, blankRanges.holds (start + k) = false := by
  decide +kernel

theorem isBlank_eq_false_of_isDigit {c : Char} (h : isDigit c) : isBlank c = false := by
  obtain ⟨d, hd⟩ := digitValue?_of_isDigit h
  obtain ⟨start, hfind, rfl⟩ := Option.map_eq_some_iff.1 hd
  have hrange := List.find?_some hfind
  simp only [Bool.and_eq_true, decide_eq_true_eq] at hrange
  have hblank := holds_blankRanges_of_digit start (List.mem_of_find?_eq_some hfind)
    (c.toNat - start) (by omega)
  rwa [Nat.add_sub_cancel' hrange.1] at hblank

/-- No character of a numeral is blank. -/
theorem isBlank_eq_false_of_isNumeralChar {c : Char} (h : IsNumeralChar c) : isBlank c = false := by
  rcases h with h | h
  · exact isBlank_eq_false_of_isDigit h
  · simp only [List.mem_cons, List.not_mem_nil, or_false] at h
    rcases h with rfl | rfl | rfl | rfl | rfl <;> decide

theorem isNumeralBlank_eq_false {c : Char} (h : IsNumeralChar c) : isNumeralBlank c = false := by
  rw [isNumeralBlank, isBlank_eq_false_of_isNumeralChar h, Bool.false_and]

theorem ne_underscore {c : Char} (h : IsNumeralChar c) : c ≠ '_' := by
  rintro rfl
  rcases h with h | h
  · exact absurd h (by decide)
  · exact absurd h (by decide)

theorem trimNumeral_eq_self {xs : List Char} (h : ∀ c ∈ xs, isNumeralBlank c = false) :
    trimNumeral xs = xs := by
  have hdrop : ∀ ys : List Char, (∀ c ∈ ys, isNumeralBlank c = false) →
      ys.dropWhile isNumeralBlank = ys := by
    intro ys hys
    cases ys with
    | nil => rfl
    | cons c ys => rw [List.dropWhile_cons, hys c List.mem_cons_self]; rfl
  rw [trimNumeral, hdrop xs h, hdrop _ (by simpa using h), List.reverse_reverse]

theorem dropUnderscores?_eq_self {xs : List Char} (h : ∀ c ∈ xs, c ≠ '_') (afterDigit : Bool) :
    dropUnderscores? afterDigit xs = some xs := by
  induction xs generalizing afterDigit with
  | nil => rfl
  | cons c xs ih =>
    have hc := h c List.mem_cons_self
    have hrest := ih (fun d hd => h d (List.mem_cons_of_mem _ hd)) (isDigit c)
    unfold dropUnderscores?
    split
    next heq => cases heq
    next heq => cases heq; exact absurd rfl hc
    next heq => cases heq; rw [hrest]; rfl

/-- A numeral can be read as a number. -/
theorem exists_parse_of_isNumeral {xs : List Char} (h : IsNumeral xs) :
    ∃ n, Number.parse (String.ofList xs) = .ok n := by
  have hchars := isNumeralChar_of_mem h
  have htrim := trimNumeral_eq_self fun c hc => isNumeralBlank_eq_false (hchars c hc)
  have hplain := dropUnderscores?_eq_self (fun c hc => ne_underscore (hchars c hc)) false
  have hsign : splitSign xs = (false, xs) := by
    obtain ⟨whole, fraction, exponent, hwhole, -, -, rfl⟩ := h
    exact splitSign_of_isDigits _ hwhole
  obtain ⟨x, hx⟩ := Option.isSome_iff_exists.1 (isSome_readDecimal?_of_isNumeral h false)
  have hfloat : ∃ y, readFloat? xs = some y := by
    simp only [readFloat?, htrim, hplain, Option.bind_eq_bind, Option.bind_some, hsign, hx]
    cases readSpecial? false xs with
    | none => exact ⟨x, rfl⟩
    | some y => exact ⟨y, rfl⟩
  obtain ⟨y, hy⟩ := hfloat
  rw [Number.parse, Number.read?, String.toList_ofList, hy]
  cases readInteger? xs with
  | none => exact ⟨_, rfl⟩
  | some i => exact ⟨_, rfl⟩

end Precedence
