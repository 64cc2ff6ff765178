import Mathlib
import Precedence.Lexer.Definition
import Precedence.Proofs.Surroundings.Joining

/-!
# Patterns behind flags

Flags for the whole pattern stand at its start only. A text behind such flags is read as the text is
read under the flags, and it cannot stand after a bar.
-/

namespace Precedence

namespace ReadM

/-- The characters that set flags for the whole pattern. -/
def leadOf (letters : List Char) : List Char :=
  '(' :: '?' :: (letters ++ [')'])

section

variable {pos : Nat} {letters : List Char} {rest : List PatternToken} {s t : Reading}

/-- Letters of flags are followed by the parenthesis, or by one that is no flag of a pattern. -/
theorem exists_flagLetters (hletters : ∀ c ∈ letters, c ∈ LexerDefinition.flagLetters) (pos : Nat)
    (rest : List PatternToken) :
    ∃ on close rest', PatternToken.plain pos (letters ++ [')']) ++ rest =
        PatternToken.plain pos on ++ close :: rest' ∧
      (∀ c ∈ on, flagLetters.contains c) ∧
      (on = letters ∧ rest' = rest ∧ close.is ')' ∨ close.is 'L') := by
  induction letters generalizing pos with
  | nil => exact ⟨[], ⟨pos, ')', false⟩, rest, rfl, nofun, Or.inl ⟨rfl, rfl, rfl⟩⟩
  | cons c letters ih =>
    obtain ⟨hc, hletters⟩ := List.forall_mem_cons.1 hletters
    by_cases hflag : flagLetters.contains c
    · obtain ⟨on, close, rest', heq, hon, hclose⟩ := ih hletters (pos + 1)
      refine ⟨c :: on, close, rest', ?_, List.forall_mem_cons.2 ⟨hflag, hon⟩, hclose.imp_left ?_⟩
      · exact congrArg (⟨pos, c, false⟩ :: ·) heq
      · exact And.imp_left (congrArg (c :: ·))
    · refine ⟨[], ⟨pos, c, false⟩, _, rfl, nofun, Or.inr ?_⟩
      simp only [LexerDefinition.flagLetters, List.mem_cons, List.not_mem_nil, or_false] at hc
      rcases hc with rfl | rfl | rfl | rfl | rfl | rfl | rfl
      case inr.inr.inl => rfl
      all_goals exact absurd rfl hflag

theorem mem_plain {cs : List Char} {token : PatternToken} (h : token ∈ PatternToken.plain pos cs) :
    token.escaped = false ∧ token.char ∈ cs := by
  induction cs generalizing pos with
  | nil => cases h
  | cons c cs ih =>
    rcases List.mem_cons.1 h with rfl | h
    · exact ⟨rfl, List.mem_cons_self⟩
    · exact (ih h).imp_right (List.mem_cons_of_mem c)

theorem map_char_plain (pos : Nat) (cs : List Char) :
    (PatternToken.plain pos cs).map PatternToken.char = cs := by
  induction cs generalizing pos with
  | nil => rfl
  | cons c cs ih => rw [PatternToken.plain, List.map_cons, ih]

/-- Letters of flags before a closing parenthesis set flags for the whole pattern, or nothing. -/
theorem run_flagGroup_letters {g : FlagGroup} (hne : letters ≠ [])
    (hletters : ∀ c ∈ letters, c ∈ LexerDefinition.flagLetters)
    (hrest : s.rest = PatternToken.plain pos (letters ++ [')']) ++ rest)
    (h : flagGroup.run s = .ok (g, t)) : g = .everywhere letters ∧ t = { s with rest := rest } := by
  obtain ⟨on, close, rest', heq, hon, hclose⟩ := exists_flagLetters hletters pos rest
  rw [heq] at hrest
  have htaken : taken flagLetters.contains s.rest.length s.rest = PatternToken.plain pos on := by
    rw [taken, List.take_length, hrest, List.takeWhile_append_of_pos, List.takeWhile_cons_of_neg,
      List.append_nil]
    · rcases hclose with ⟨-, -, hclose⟩ | hclose
      · rw [(PatternToken.is_iff.1 hclose).2, (PatternToken.is_iff.1 hclose).1]
        decide
      · rw [(PatternToken.is_iff.1 hclose).2, (PatternToken.is_iff.1 hclose).1]
        decide
    · intro token htoken
      obtain ⟨hescaped, hchar⟩ := mem_plain htoken
      rw [hescaped, hon _ hchar]
      rfl
  obtain ⟨_, _, ⟨⟩, h⟩ := run_bind_eq_ok.1 h
  obtain ⟨found, u, hfound, h⟩ := run_bind_eq_ok.1 h
  rw [run_takeUpTo, htaken, hrest] at hfound
  dsimp only at hfound
  rw [List.drop_left, map_char_plain] at hfound
  cases hfound
  split at h
  · cases h
  · obtain ⟨_, v, ⟨⟩, h⟩ := run_bind_eq_ok.1 h
    obtain ⟨closePos, c, escaped⟩ := close
    rcases hclose with ⟨rfl, rfl, hclose⟩ | hclose
    · have hletters : (!on.isEmpty) = true := by
        rw [Bool.not_eq_true', List.isEmpty_eq_false_iff]
        exact hne
      rw [hclose, hletters, Bool.and_self, if_pos rfl] at h
      cases h
      exact ⟨rfl, rfl⟩
    · obtain ⟨rfl, rfl⟩ := PatternToken.is_iff.1 hclose
      cases h

/-- Flags for the whole pattern are refused within it. -/
theorem run_extended_letters {fuel start : Nat} {flags : Flags} {done : List PatternItem}
    {r : List PatternItem × Reading} (hne : letters ≠ [])
    (hletters : ∀ c ∈ letters, c ∈ LexerDefinition.flagLetters)
    (hrest : s.rest = PatternToken.plain pos (letters ++ [')']) ++ rest) :
    (extended fuel flags start done).run s ≠ .ok r := by
  intro h
  cases fuel with
  | zero => cases h
  | succ fuel =>
    have hflags : ∃ g t, flagGroup.run s = .ok (g, t) ∧ ∀ on, g ≠ .everywhere on := by
      obtain ⟨rest', size, groups, names, behind, conditions, variableBehind⟩ := s
      obtain rfl : rest' = _ := hrest
      cases letters with
      | nil => exact absurd rfl hne
      | cons c letters =>
        have hc := hletters c List.mem_cons_self
        simp only [LexerDefinition.flagLetters, List.mem_cons, List.not_mem_nil, or_false] at hc
        rw [extended] at h
        obtain ⟨_, u, ⟨⟩, h⟩ := run_bind_eq_ok.1 h
        rcases hc with rfl | rfl | rfl | rfl | rfl | rfl | rfl
        all_goals
          obtain ⟨_, u, ⟨⟩, h⟩ := run_bind_eq_ok.1 h
          obtain ⟨g, t, hg, h⟩ := run_bind_eq_ok.1 h
          refine ⟨g, t, hg, ?_⟩
          rintro on rfl
          cases h
    obtain ⟨g, t, hg, hnot⟩ := hflags
    exact hnot _ (run_flagGroup_letters hne hletters hrest hg).1

theorem run_sequence_letters {fuel : Nat} {flags : Flags} {r : Pattern × Reading}
    (hverbose : flags.verbose = false) (hne : letters ≠ [])
    (hletters : ∀ c ∈ letters, c ∈ LexerDefinition.flagLetters)
    (hrest : s.rest = PatternToken.plain pos (leadOf letters) ++ rest) :
    (sequence fuel flags []).run s ≠ .ok r := by
  intro h
  obtain ⟨_, _, _, _, hextended, -⟩ := run_sequence_extended hverbose hrest h
  exact run_extended_letters hne hletters rfl hextended

theorem verbose_update (flags : Flags) (hx : 'x' ∉ letters) :
    (flags.update letters []).verbose = flags.verbose := by
  induction letters generalizing flags with
  | nil => rfl
  | cons c letters ih =>
    obtain ⟨hc, hletters⟩ := not_or.1 (mt List.mem_cons.2 hx)
    refine (ih (flags.set true c) hletters).trans ?_
    unfold Flags.set
    split <;> first | rfl | exact absurd rfl hc

/-- Letters of flags at the start of a pattern set its flags, or they are not read as flags. -/
theorem run_leadingFlags_letters {fuel pos' : Nat} {name : String} {flags : Flags}
    (hx : 'x' ∉ letters) (hne : letters ≠ [])
    (hletters : ∀ c ∈ letters, c ∈ LexerDefinition.flagLetters)
    (hrest : s.rest = PatternToken.plain pos (leadOf letters) ++
      (PatternToken.plain pos' (openingOf name) ++ rest))
    (h : (leadingFlags fuel .none).run s = .ok (flags, t)) :
    flags = .none ∧ t = s ∨ flags = Flags.none.update letters [] ∧
      t = { s with rest := PatternToken.plain pos' (openingOf name) ++ rest } := by
  obtain ⟨rest', size, groups, names, behind, conditions, variableBehind⟩ := s
  obtain rfl : rest' = _ := hrest
  cases fuel with
  | zero =>
    cases h
    exact Or.inl ⟨rfl, rfl⟩
  | succ fuel =>
    cases letters with
    | nil => exact absurd rfl hne
    | cons c letters =>
      have hc : c ≠ '#' := by
        rintro rfl
        exact absurd (hletters '#' List.mem_cons_self) (by decide)
      have hcomment : (⟨pos + 1 + 1, c, false⟩ : PatternToken).is '#' = false := by
        simp [PatternToken.is, hc]
      have hopen : (⟨pos, '(', false⟩ : PatternToken).is '(' = true := rfl
      have hmark : (⟨pos + 1, '?', false⟩ : PatternToken).is '?' = true := rfl
      have hverbose : Flags.none.verbose = false := rfl
      rw [leadingFlags] at h
      obtain ⟨_, _, ⟨⟩, h⟩ := run_bind_eq_ok.1 h
      simp only [leadOf, List.cons_append, PatternToken.plain, hverbose, hopen, hmark, hcomment,
        Bool.false_and, Bool.and_false, Bool.false_eq_true, if_false, if_true] at h
      split at h
      next on reading hflags =>
        obtain ⟨hon, rfl⟩ := run_flagGroup_letters hne hletters rfl hflags
        cases hon
        obtain ⟨_, _, ⟨⟩, h⟩ := run_bind_eq_ok.1 h
        rw [run_leadingFlags_named (verbose_update Flags.none hx) rfl] at h
        cases h
        exact Or.inr ⟨rfl, rfl⟩
      next =>
        cases h
        exact Or.inl ⟨rfl, rfl⟩

/-- A whole pattern behind flags is read under the flags. -/
theorem run_wholePattern_letters {pos' : Nat} {name : String} {p : Pattern}
    (hx : 'x' ∉ letters) (hne : letters ≠ [])
    (hletters : ∀ c ∈ letters, c ∈ LexerDefinition.flagLetters)
    (hrest : s.rest = PatternToken.plain pos (leadOf letters) ++
      (PatternToken.plain pos' (openingOf name) ++ rest))
    (h : wholePattern.run s = .ok (p, t)) :
    t.rest = [] ∧ ∃ fuel, (alternatives fuel (Flags.none.update letters [])).run
      { s with rest := PatternToken.plain pos' (openingOf name) ++ rest } = .ok (p, t) := by
  obtain ⟨hend, flags, u, fuel, hflags, h⟩ := run_wholePattern h
  refine ⟨hend, fuel, ?_⟩
  rcases run_leadingFlags_letters hx hne hletters hrest hflags with ⟨rfl, rfl⟩ | ⟨rfl, rfl⟩
  · cases fuel with
    | zero => cases h
    | succ fuel =>
      rw [alternatives] at h
      obtain ⟨first, v, hfirst, -⟩ := run_bind_eq_ok.1 h
      exact absurd hfirst (run_sequence_letters rfl hne hletters hrest)
  · exact h

/-- A sequence that starts with a named group, and is all of a text by itself, is read in the same way
in front of a bar. -/
theorem run_sequence_before {size size' fuel fuel' : Nat} {name : String} {flags : Flags}
    {p p' : Pattern} {after : List PatternToken} (hname : '>' ∉ name.toList)
    (hverbose : flags.verbose = false) (hbyName : refersByName rest)
    (halone : (sequence fuel flags []).run
        ⟨PatternToken.plain pos (openingOf name) ++ rest, size, [], [], none, [], false⟩ = .ok (p, t))
    (hbar : ∀ token ∈ after.head?, token.is '|')
    (h : (sequence fuel' flags []).run
        ⟨PatternToken.plain pos (openingOf name) ++ (rest ++ after), size', [], [], none, [], false⟩ =
      .ok (p', s)) :
    Pattern.Beside ⟨0, [], [], after, [(name, 1)], hbar⟩ p p' ∧
      Reading.Beside ⟨0, [], [], after, [(name, 1)], hbar⟩ t s := by
  refine run_sequence_among _ hname hverbose hbyName halone ?_ rfl rfl rfl h
  have hmoved (tokens : List PatternToken) : tokens.map (·.moved 0) = tokens :=
    List.map_id'' (fun _ => rfl) tokens
  rw [hmoved, List.append_assoc]

/-- What stands behind flags by itself, and stands in front of a bar, is not followed by other flags. -/
theorem not_run_alternatives_letters {pos' size size' fuel fuel' : Nat} {name : String} {flags : Flags}
    {p p' : Pattern} {after : List PatternToken} (hname : '>' ∉ name.toList)
    (hverbose : flags.verbose = false) (hbyName : refersByName rest) (hne : letters ≠ [])
    (hletters : ∀ c ∈ letters, c ∈ LexerDefinition.flagLetters)
    (halone : (sequence fuel flags []).run
        ⟨PatternToken.plain pos (openingOf name) ++ rest, size, [], [], none, [], false⟩ = .ok (p, t))
    (hend : t.rest = []) :
    (alternatives fuel' flags).run ⟨PatternToken.plain pos (openingOf name) ++ (rest ++
        ⟨pos', '|', false⟩ :: (PatternToken.plain (pos' + 1) (leadOf letters) ++ after)), size', [], [],
        none, [], false⟩ ≠ .ok (p', s) := by
  intro h
  cases fuel' with
  | zero => cases h
  | succ fuel' =>
    rw [alternatives] at h
    obtain ⟨first, u, hfirst, h⟩ := run_bind_eq_ok.1 h
    obtain ⟨more, v, haccept, h⟩ := run_bind_eq_ok.1 h
    obtain ⟨-, hu⟩ :=
      run_sequence_before hname hverbose hbyName halone (by rintro _ ⟨⟩; rfl) hfirst
    have hrest : u.rest = ⟨pos', '|', false⟩ ::
        (PatternToken.plain (pos' + 1) (leadOf letters) ++ after) := by
      rw [hu.rest, hend]
      rfl
    rw [run_accept, hrest] at haccept
    cases haccept
    obtain ⟨q, w, hq, -⟩ := run_bind_eq_ok.1 h
    cases fuel' with
    | zero => cases hq
    | succ fuel' =>
      rw [alternatives] at hq
      obtain ⟨second, x, hsecond, -⟩ := run_bind_eq_ok.1 hq
      exact run_sequence_letters hverbose hne hletters rfl hsecond

theorem not_mem_leadOf (hletters : ∀ c ∈ letters, c ∈ LexerDefinition.flagLetters) :
    '\\' ∉ leadOf letters := by
  have hbackslash : '\\' ∉ letters := fun h => absurd (hletters '\\' h) (by decide)
  simp [leadOf, hbackslash]

theorem tokens_of_leadOf (hletters : ∀ c ∈ letters, c ∈ LexerDefinition.flagLetters) {name : String}
    {after : List Char} {tokens : List PatternToken} (hname : '\\' ∉ name.toList)
    (h : PatternToken.ofChars? 0 (leadOf letters ++ (openingOf name ++ after)) = some tokens) :
    ∃ pos rest, tokens =
      PatternToken.plain 0 (leadOf letters) ++ (PatternToken.plain pos (openingOf name) ++ rest) := by
  rw [PatternToken.ofChars?_append (PatternToken.ofChars?_plain (not_mem_leadOf hletters) 0),
    Option.map_eq_some_iff] at h
  obtain ⟨others, hothers, rfl⟩ := h
  obtain ⟨rest, rfl⟩ := tokens_of_openingOf hname hothers
  exact ⟨_, rest, rfl⟩

/-- A text that opens a named group behind flags, and that is one group when it is read by itself, is
read as one sequence. -/
theorem run_sequence_of_read_letters (hx : 'x' ∉ letters) (hne : letters ≠ [])
    (hletters : ∀ c ∈ letters, c ∈ LexerDefinition.flagLetters) {name : String} {after : List Char}
    {regex : Regex} {body : Pattern} (hname : '\\' ∉ name.toList)
    (hread : Regex.read (leadOf letters ++ (openingOf name ++ after)) = .ok regex)
    (hgroup : regex.pattern = .group 1 body) :
    ∃ pos rest size fuel t,
      PatternToken.ofChars? 0 (leadOf letters ++ (openingOf name ++ after)) =
        some (PatternToken.plain 0 (leadOf letters) ++
          (PatternToken.plain pos (openingOf name) ++ rest)) ∧
      (sequence fuel (Flags.none.update letters []) []).run
          ⟨PatternToken.plain pos (openingOf name) ++ rest, size, [], [], none, [], false⟩ =
        .ok (regex.pattern, t) ∧
      t.rest = [] ∧ regex.names = t.names := by
  obtain ⟨tokens, t, htokens, hwhole, hnames⟩ := run_of_read hread
  obtain ⟨pos, rest, rfl⟩ := tokens_of_leadOf hletters hname htokens
  obtain ⟨hend, fuel, h⟩ := run_wholePattern_letters hx hne hletters rfl hwhole
  obtain ⟨fuel', hsequence⟩ := run_sequence_of_alternatives hgroup h
  exact ⟨pos, rest, _, fuel', t, htokens, hsequence, hend, hnames⟩

end

end ReadM

end Precedence
