import Mathlib
import Precedence.Proofs.Alternatives
import Precedence.Proofs.Construction
import Precedence.Proofs.Surroundings.Leading

/-!
# Lexers pattern by pattern

A lexer is defined by texts, each of which must be a pattern by itself, and runs them joined. At every
position that it comes to, it makes the pair that the patterns make one by one, if each of them is one
group by itself and refers to groups by name only.

## Main definitions

- `Lexer.Reaches` — the positions that a lexer comes to
- `NamedLexer.AgreesAt` — the pair at a position is the one that the patterns make one by one

## Main statements

- `LexerDefinition.keeps_of_build` — the lexer holds its patterns as they are by themselves
- `build_agreesAt` — the pairs at all positions, and their rules
- `build_not_agreesAt_numbered` — a reference by number is to a group of another pattern
-/

namespace Precedence

/-! ### Lexers that hold their patterns -/

namespace LexerDefinition

variable {definition : LexerDefinition} {lexer : NamedLexer}

theorem toList_groupText_of_flags {flags : String} (hflags : flags ≠ "") (name text : String) :
    (groupText flags name text).toList =
      ReadM.leadOf flags.toList ++ (ReadM.openingOf name ++ (text.toList ++ [')'])) := by
  have hempty : flags.isEmpty = false := by
    rw [Bool.eq_false_iff, Ne, String.isEmpty_iff]
    exact hflags
  simp [groupText, ReadM.openingOf, ReadM.leadOf, hempty]

theorem standsAmong_of_build (hflags : definition.flags = "") (hbuild : definition.build = .ok lexer)
    (hself : ∀ entry ∈ lexer.patterns, SelfContained entry.2) :
    ∀ entry ∈ lexer.patterns, StandsAmong entry := by
  intro entry hentry
  obtain ⟨hname, text, htext⟩ := (build_eq_ok hbuild).2.2.1 entry hentry
  rw [hflags] at htext
  exact
    { hself entry hentry with
      opens := ⟨_, by rw [htext, toList_groupText]⟩
      name := not_mem_name hname }

/-- A lexer without flags holds its patterns as they are by themselves. -/
theorem keeps_of_build_plain (hflags : definition.flags = "") (hbuild : definition.build = .ok lexer)
    (hself : ∀ entry ∈ lexer.patterns, SelfContained entry.2) : lexer.Keeps := by
  have hamong := standsAmong_of_build hflags hbuild hself
  obtain ⟨hne, -, -, regex, hread, hlexer⟩ := build_eq_ok hbuild
  rw [← joinedText, joinedText_eq] at hread
  obtain ⟨tokens, t, htokens, hwhole, hnames⟩ := ReadM.run_of_read hread
  obtain ⟨-, flags, u, fuel, hleading, h⟩ := ReadM.run_wholePattern hwhole
  obtain ⟨entry, hentry, rest, hopens⟩ := exists_intercalate_eq hne
  obtain ⟨after, hafter⟩ := (hamong entry hentry).opens
  have hstart := htokens
  rw [hopens, hafter, List.append_assoc] at hstart
  obtain ⟨rest, rfl⟩ := ReadM.tokens_of_openingOf (hamong entry hentry).name.2 hstart
  rw [ReadM.run_leadingFlags_named rfl rfl] at hleading
  cases hleading
  obtain ⟨-, ps, hps, hpattern, hholds⟩ :=
    ReadM.run_alternatives_joined hne hamong htokens (by rintro _ ⟨⟩) h
  refine ⟨ps, hps, ?_, ?_⟩
  · rw [hlexer]
    exact hpattern
  · refine hholds.imp ?_
    rintro entry p ⟨alone, body, offset, hread, hgroup, hrenumber, hname⟩
    refine ⟨alone, body, offset, hread, hgroup, hrenumber, ?_⟩
    rw [hlexer, ← hname, ← hnames]
    rfl

section

variable {letters : List Char} {entry : String × String} {after : List Char}

/-- A named text behind flags is read by itself as a sequence that starts with its group. -/
theorem exists_sequence_of_flags (hx : 'x' ∉ letters) (hne : letters ≠ [])
    (hletters : ∀ c ∈ letters, c ∈ flagLetters) (hname : isPatternName entry.1.toList)
    (hself : SelfContained entry.2)
    (hopens : entry.2.toList = ReadM.leadOf letters ++ (ReadM.openingOf entry.1 ++ after)) :
    ∃ regex body pos rest size fuel t, Regex.read entry.2.toList = .ok regex ∧
      regex.pattern = .group 1 body ∧
      PatternToken.ofChars? 0 entry.2.toList = some (PatternToken.plain 0 (ReadM.leadOf letters) ++
        (PatternToken.plain pos (ReadM.openingOf entry.1) ++ rest)) ∧
      (ReadM.sequence fuel (Flags.none.update letters []) []).run
          ⟨PatternToken.plain pos (ReadM.openingOf entry.1) ++ rest, size, [], [], none, [], false⟩ =
        .ok (regex.pattern, t) ∧
      t.rest = [] ∧ regex.names = t.names ∧ refersByName rest := by
  obtain ⟨regex, body, hread, hgroup⟩ := hself.exists_read
  have hread' := hread
  rw [hopens] at hread'
  obtain ⟨pos, rest, size, fuel, t, htokens, hrun, hend, hnames⟩ :=
    ReadM.run_sequence_of_read_letters hx hne hletters (not_mem_name hname).2 hread' hgroup
  rw [← hopens] at htokens
  refine ⟨regex, body, pos, rest, size, fuel, t, hread, hgroup, htokens, hrun, hend, hnames, ?_⟩
  exact refersByName_of_suffix ((List.suffix_append _ _).trans (List.suffix_append _ _))
    (hself.byName _ htokens)

/-- A named text behind flags holds its pattern as it is by itself. -/
theorem holdsAmong_of_flags (hx : 'x' ∉ letters) (hne : letters ≠ [])
    (hletters : ∀ c ∈ letters, c ∈ flagLetters) (hname : isPatternName entry.1.toList)
    (hself : SelfContained entry.2)
    (hopens : entry.2.toList = ReadM.leadOf letters ++ (ReadM.openingOf entry.1 ++ after))
    {regex : Regex} (hread : Regex.read entry.2.toList = .ok regex) :
    HoldsAmong (nameAmong regex.names) entry regex.pattern := by
  obtain ⟨alone, body, pos, rest, size, fuel, t, halone, hgroup, -, hrun, -, hnames, hbyName⟩ :=
    exists_sequence_of_flags hx hne hletters hname hself hopens
  obtain rfl := Except.ok.inj (halone.symm.trans hread)
  have hsame : (ReadM.sequence fuel (Flags.none.update letters []) []).run
      ⟨PatternToken.plain pos (ReadM.openingOf entry.1) ++ (rest ++ []), size, [], [], none, [],
        false⟩ = .ok (alone.pattern, t) := by
    rw [List.append_nil]
    exact hrun
  obtain ⟨hp, ht⟩ := ReadM.run_sequence_before (not_mem_name hname).1
    (ReadM.verbose_update Flags.none hx) hbyName hrun (by rintro _ ⟨⟩) hsame
  refine ⟨alone, body, 0, halone, hgroup, hp.eq, ?_⟩
  have hstarts : [] ++ (entry.1, 1 + 0) :: [] <+: alone.names := by
    rw [hnames]
    exact ht.known
  rw [nameAmong, ReadM.find?_of_lt hstarts (List.forall_mem_nil _)]
  rfl

/-- A named text behind flags makes no pattern with another one after it, as flags stand only at the
start of a pattern. -/
theorem not_read_joined_of_flags (hx : 'x' ∉ letters) (hne : letters ≠ [])
    (hletters : ∀ c ∈ letters, c ∈ flagLetters) (hname : isPatternName entry.1.toList)
    (hself : SelfContained entry.2)
    (hopens : entry.2.toList = ReadM.leadOf letters ++ (ReadM.openingOf entry.1 ++ after))
    {more : List Char} {regex : Regex} :
    Regex.read (entry.2.toList ++ '|' :: (ReadM.leadOf letters ++ more)) ≠ .ok regex := by
  intro hread
  obtain ⟨alone, body, pos, rest, size, fuel, t, -, -, htokens, hrun, hend, -, hbyName⟩ :=
    exists_sequence_of_flags hx hne hletters hname hself hopens
  obtain ⟨tokens, t', htokens', hwhole, -⟩ := ReadM.run_of_read hread
  rw [PatternToken.ofChars?_append htokens, PatternToken.ofChars?_cons (by decide),
    PatternToken.ofChars?_append
      (PatternToken.ofChars?_plain (ReadM.not_mem_leadOf hletters) _)] at htokens'
  simp only [Option.map_map, Option.map_eq_some_iff] at htokens'
  obtain ⟨more, -, rfl⟩ := htokens'
  obtain ⟨-, fuel', h⟩ := ReadM.run_wholePattern_letters hx hne hletters
    (by simp only [Function.comp_apply, List.append_assoc]; rfl) hwhole
  exact ReadM.not_run_alternatives_letters (not_mem_name hname).1 (ReadM.verbose_update Flags.none hx)
    hbyName hne hletters hrun hend h

end

/-- A lexer with flags, of which none makes its patterns verbose, has one pattern only, and holds it as
it is by itself. -/
theorem keeps_of_build_flags (hflags : definition.flags ≠ "") (hx : 'x' ∉ definition.flags.toList)
    (hbuild : definition.build = .ok lexer)
    (hself : ∀ entry ∈ lexer.patterns, SelfContained entry.2) : lexer.Keeps := by
  obtain ⟨hne, hletters, hentries, regex, hread, hlexer⟩ := build_eq_ok hbuild
  have hletter : definition.flags.toList ≠ [] := mt String.toList_eq_nil_iff.1 hflags
  have hopens : ∀ entry ∈ lexer.patterns, ∃ after, entry.2.toList =
      ReadM.leadOf definition.flags.toList ++ (ReadM.openingOf entry.1 ++ after) := by
    intro entry hentry
    obtain ⟨-, text, htext⟩ := hentries entry hentry
    exact ⟨_, by rw [htext, toList_groupText_of_flags hflags]⟩
  rw [← joinedText] at hread
  cases hpatterns : lexer.patterns with
  | nil => exact absurd hpatterns hne
  | cons entry others =>
    rw [hpatterns] at hentries hself hread hopens
    obtain ⟨hname, -⟩ := hentries entry List.mem_cons_self
    have hfirst := hself entry List.mem_cons_self
    obtain ⟨text, htext⟩ := hopens entry List.mem_cons_self
    cases others with
    | nil =>
      rw [joinedText_singleton] at hread
      have hholds := holdsAmong_of_flags hx hletter hletters hname hfirst htext hread
      refine ⟨[regex.pattern], List.cons_ne_nil _ _, by rw [hlexer]; rfl, ?_⟩
      rw [hpatterns, hlexer]
      exact .cons hholds .nil
    | cons next others =>
      obtain ⟨second, hsecond, rest, hrest⟩ := exists_intercalate_eq (List.cons_ne_nil next others)
      obtain ⟨text', htext'⟩ := hopens second (List.mem_cons_of_mem _ hsecond)
      rw [htext', List.append_assoc] at hrest
      have hjoined : joinedText (entry :: next :: others) = entry.2.toList ++
          '|' :: (ReadM.leadOf definition.flags.toList ++
            (ReadM.openingOf second.1 ++ text' ++ rest)) := by
        rw [joinedText_eq, List.map_cons, List.map_cons, List.intercalate_cons_cons, ← hrest,
          List.append_assoc]
        rfl
      rw [hjoined] at hread
      exact absurd hread (not_read_joined_of_flags hx hletter hletters hname hfirst htext)

/-- The lexer of a definition that is not verbose and whose patterns are self-contained holds the
patterns as they are by themselves. -/
theorem keeps_of_build (hx : 'x' ∉ definition.flags.toList) (hbuild : definition.build = .ok lexer)
    (hself : ∀ entry ∈ lexer.patterns, SelfContained entry.2) : lexer.Keeps := by
  by_cases hflags : definition.flags = ""
  · exact keeps_of_build_plain hflags hbuild hself
  · exact keeps_of_build_flags hflags hx hbuild hself

end LexerDefinition

/-! ### Positions -/

/-- The positions that a lexer comes to in a range of a text. -/
inductive Lexer.Reaches {κ : Type} (lexer : Lexer κ) (text : Array Char) (start stop : Int) :
    Int → Prop
  | start : Reaches lexer text start stop start
  | next {pos : Int} {pair : Pair κ Int} (hpos : Reaches lexer text start stop pos)
      (hlt : pos < stop) (hpair : lexer.next text pos stop = .ok pair) :
      Reaches lexer text start stop pair.stop

/-- Every pair of a lexer is the pair at a position that the lexer comes to. -/
theorem exists_reaches_of_mem_lex {κ : Type} {lexer : Lexer κ} {text : Array Char} {start stop : Int}
    {pair : Pair κ Int} (h : pair ∈ (lexer.lex text start stop).pairs) :
    ∃ pos, lexer.Reaches text start stop pos ∧ pos < stop ∧ lexer.next text pos stop = .ok pair := by
  have hfrom : ∀ fuel pos, lexer.Reaches text start stop pos →
      pair ∈ (lexer.lexFrom text stop (fun _ => false) fuel pos).pairs →
      ∃ pos, lexer.Reaches text start stop pos ∧ pos < stop ∧ lexer.next text pos stop = .ok pair := by
    intro fuel
    induction fuel with
    | zero => exact fun _ _ h => absurd h List.not_mem_nil
    | succ fuel ih =>
      intro pos hpos h
      rw [Lexer.lexFrom] at h
      split at h
      next hlt =>
        cases hnext : lexer.next text pos stop with
        | error fault =>
          rw [hnext] at h
          exact absurd h List.not_mem_nil
        | ok first =>
          rw [hnext] at h
          rcases List.mem_cons.1 h with rfl | h
          · exact ⟨pos, hpos, hlt, hnext⟩
          · exact ih first.stop (.next hpos hlt hnext) h
      · exact absurd h List.not_mem_nil
  exact hfrom _ start .start h

namespace NamedLexer

variable {lexer : NamedLexer} {text : Array Char} {start stop pos : Nat}

/-- The pair of a lexer at a position is the one that its patterns make one by one: that of the first
pattern that matches there by itself, or an invalid one up to where some pattern does. -/
structure AgreesAt (lexer : NamedLexer) (text : Array Char) (stop pos : Nat) : Prop where
  found : ∀ name found, firstAlone? lexer.patterns (seen text stop) pos = some (name, found) →
    lexer.lexer.next text pos stop =
      if found.stop = pos then .error (.emptyMatch (some name) pos)
      else .ok (.leaf name pos found.stop)
  missing : firstAlone? lexer.patterns (seen text stop) pos = none →
    ∃ reach : Nat, pos < reach ∧
      (∀ p, pos ≤ p → p < reach → p ≤ text.size →
        firstAlone? lexer.patterns (seen text stop) p = none) ∧
      (reach = stop ∨ reach ≤ text.size ∧
        (firstAlone? lexer.patterns (seen text stop) reach).isSome) ∧
      lexer.lexer.next text pos stop = .ok (.leaf invalidKind pos reach)

theorem agreesAt_of_keeps (h : lexer.Keeps) (hinvalid : lexer.lexer.invalid = invalidKind)
    (hpos : pos < stop) (hsize : pos ≤ text.size) : lexer.AgreesAt text stop pos := by
  refine ⟨fun name found hfirst => next_of_firstAlone? h hpos.le hsize hfirst, fun hnone => ?_⟩
  rw [← hinvalid]
  rcases next_of_firstAlone?_eq_none h hpos.le hsize hnone with
    ⟨reach, hlt, hle, hsome, hbefore, hnext⟩ | ⟨hnowhere, hnext⟩
  · have hreach : reach ≤ text.size := hle.trans (min_le_right _ _)
    exact ⟨reach, hlt, fun p hp hp' _ => hbefore p hp hp', Or.inr ⟨hreach, hsome⟩, hnext⟩
  · exact ⟨stop, hpos, fun p hp hp' hsize => hnowhere p hp (le_min hp'.le hsize), Or.inl rfl, hnext⟩

theorem le_stop_of_firstAlone? {patterns : List (String × String)} {subject : Subject} {name : String}
    {found : Match} (h : firstAlone? patterns subject pos = some (name, found)) :
    name ∈ patterns.map (·.1) ∧ found.stop ≤ max pos subject.stop := by
  obtain ⟨entry, hentry, hfound⟩ := List.exists_of_findSome?_eq_some h
  obtain ⟨_, hmatch, ⟨⟩⟩ := Option.map_eq_some_iff.1 hfound
  refine ⟨List.mem_map_of_mem hentry, ?_⟩
  rw [matchAlone?] at hmatch
  split at hmatch
  · exact (le_stop_of_matchAt? hmatch).2
  · cases hmatch

/-- A pair at a position where the patterns make it one by one has the name of a pattern or is
invalid, and ends within the text unless it ends where the range does. -/
theorem AgreesAt.rule_and_stop (h : lexer.AgreesAt text stop pos) (hsize : pos ≤ text.size)
    {pair : Pair String Int} (hpair : lexer.lexer.next text pos stop = .ok pair) :
    (pair.rule ∈ lexer.patterns.map (·.1) ∨ pair.rule = invalidKind) ∧
      ∃ reach : Nat, pair.stop = reach ∧ (reach ≤ text.size ∨ stop ≤ reach) := by
  cases hfirst : firstAlone? lexer.patterns (seen text stop) pos with
  | some first =>
    obtain ⟨name, found⟩ := first
    obtain ⟨hname, hstop⟩ := le_stop_of_firstAlone? hfirst
    have hnext := h.found name found hfirst
    rw [hpair] at hnext
    split at hnext
    · cases hnext
    · cases hnext
      refine ⟨Or.inl hname, found.stop, rfl, Or.inl (hstop.trans ?_)⟩
      exact max_le hsize (min_le_right _ _)
  | none =>
    obtain ⟨reach, -, -, hreach, hnext⟩ := h.missing hfirst
    rw [hpair] at hnext
    cases hnext
    exact ⟨Or.inr rfl, reach, rfl, hreach.symm.imp And.left fun h => h.ge⟩

/-- The positions within a range that a lexer comes to are within the text. -/
theorem exists_nat_of_reaches (hagrees : ∀ pos : Nat, pos < stop → pos ≤ text.size →
    lexer.AgreesAt text stop pos) (hstart : start ≤ text.size) {p : Int}
    (h : lexer.lexer.Reaches text start stop p) :
    ∃ pos : Nat, p = pos ∧ (pos ≤ text.size ∨ stop ≤ pos) := by
  induction h with
  | start => exact ⟨start, rfl, Or.inl hstart⟩
  | @next p pair _ hlt hpair ih =>
    obtain ⟨pos, rfl, hpos⟩ := ih
    have hlt' : pos < stop := by exact_mod_cast hlt
    have hsize : pos ≤ text.size := hpos.resolve_right (by omega)
    exact ((hagrees pos hlt' hsize).rule_and_stop hsize hpair).2

end NamedLexer

/-- The pairs of a lexer that is not verbose and whose patterns are self-contained are those that its
patterns make one by one, at every position that it comes to; their rules are names of patterns, or
invalid. -/
theorem build_agreesAt {definition : LexerDefinition} {lexer : NamedLexer}
    (hx : 'x' ∉ definition.flags.toList) (hbuild : definition.build = .ok lexer)
    (hself : ∀ entry ∈ lexer.patterns, SelfContained entry.2) (text : Array Char) {start stop : Nat}
    (hstart : start ≤ text.size) :
    (∀ p, lexer.lexer.Reaches text start stop p → p < stop →
      ∃ pos : Nat, p = pos ∧ lexer.AgreesAt text stop pos) ∧
    ∀ pair ∈ (lexer.lexer.lex text start stop).pairs,
      pair.rule ∈ lexer.patterns.map (·.1) ∨ pair.rule = invalidKind := by
  have hkeeps := LexerDefinition.keeps_of_build hx hbuild hself
  have hinvalid : lexer.lexer.invalid = invalidKind := by
    obtain ⟨-, -, -, regex, -, hlexer⟩ := LexerDefinition.build_eq_ok hbuild
    rw [hlexer]
  have hagrees (pos : Nat) (hpos : pos < stop) (hsize : pos ≤ text.size) :=
    NamedLexer.agreesAt_of_keeps hkeeps hinvalid hpos hsize
  have hreached : ∀ p, lexer.lexer.Reaches text start stop p → p < stop →
      ∃ pos : Nat, p = pos ∧ pos ≤ text.size ∧ lexer.AgreesAt text stop pos := by
    intro p hp hlt
    obtain ⟨pos, rfl, hpos⟩ := NamedLexer.exists_nat_of_reaches hagrees hstart hp
    have hlt' : pos < stop := by exact_mod_cast hlt
    have hsize : pos ≤ text.size := hpos.resolve_right (by omega)
    exact ⟨pos, rfl, hsize, hagrees pos hlt' hsize⟩
  refine ⟨fun p hp hlt => ?_, fun pair hpair => ?_⟩
  · obtain ⟨pos, hpos, -, hat⟩ := hreached p hp hlt
    exact ⟨pos, hpos, hat⟩
  · obtain ⟨p, hp, hlt, hnext⟩ := exists_reaches_of_mem_lex hpair
    obtain ⟨pos, rfl, hsize, hat⟩ := hreached p hp hlt
    exact (hat.rule_and_stop hsize hnext).1

theorem exists_eq_ok {ε α : Type} {P : α → Prop} {r : Except ε α} (h : ∃ a ∈ r.toOption, P a) :
    ∃ a, r = .ok a ∧ P a := by
  obtain ⟨a, ha, hP⟩ := h
  cases r with
  | error e => cases ha
  | ok b =>
    cases ha
    exact ⟨a, rfl, hP⟩

/-- The second pattern of a lexer refers to a group of its own by name. -/
theorem build_agreesAt_doubled :
    ∃ lexer, LexerDefinition.build ⟨"", [("a", .text "x+"), ("b", .text "(?P<q>.)(?P=q)")]⟩ =
        .ok lexer ∧
      (∀ entry ∈ lexer.patterns, SelfContained entry.2) ∧
      (∀ p, lexer.lexer.Reaches #['x', 'z', 'z'] (0 : Nat) (3 : Nat) p → p < (3 : Nat) →
        ∃ pos : Nat, p = pos ∧ lexer.AgreesAt #['x', 'z', 'z'] 3 pos) ∧
      ∀ pair ∈ (lexer.lexer.lex #['x', 'z', 'z'] (0 : Nat) (3 : Nat)).pairs,
        pair.rule ∈ lexer.patterns.map (·.1) ∨ pair.rule = invalidKind := by
  obtain ⟨lexer, hbuild, hself⟩ := exists_eq_ok
    (P := fun lexer : NamedLexer => ∀ entry ∈ lexer.patterns, SelfContained entry.2)
    (r := LexerDefinition.build ⟨"", [("a", .text "x+"), ("b", .text "(?P<q>.)(?P=q)")]⟩)
    (by decide +kernel)
  exact ⟨lexer, hbuild, hself, build_agreesAt (by simp) hbuild hself _ (Nat.zero_le _)⟩

/-- The second pattern of a lexer refers to a group of its own by number, and matches a text by
itself. Among the other patterns the number is that of another group, and the text is invalid. -/
theorem build_not_agreesAt_numbered :
    ∃ lexer, LexerDefinition.build ⟨"", [("a", .text "(x)"), ("b", .text "(.)\\2")]⟩ = .ok lexer ∧
      firstAlone? lexer.patterns (seen #['z', 'z'] 2) 0 = some ("b", ⟨0, 2, some 1⟩) ∧
      (lexer.lexer.next #['z', 'z'] 0 2).toOption.map (fun pair => (pair.rule, pair.stop)) =
        some ("invalid", 2) :=
  exists_eq_ok (by decide +kernel)

end Precedence
