import Mathlib
import Precedence.Lexer.Definition
import Precedence.Proofs.Surroundings.Admitting

/-!
# Definitions that make a lexer

Each pattern of a definition is read by itself first, and then the patterns are read joined. The second
reading cannot fail if the first ones have succeeded, as long as there is one pattern only, or there are
no flags, the patterns refer to groups by name only, and no two of them have groups with the same name.

## Main definitions

- `LexerDefinition.builtText?` — the text of a pattern as a named group
- `LexerDefinition.Acceptable` — a definition that has all that is asked of one
- `LexerDefinition.Joinable` — a definition whose patterns can be joined

## Main statements

- `LexerDefinition.checkPattern_eq_ok_iff` — which patterns pass the check
- `LexerDefinition.build_eq_ok` — what is known of a lexer that has been built
- `LexerDefinition.build_of_joinable` — joinable definitions make lexers, or are refused
- `LexerDefinition.build_raises_error` — faults that are no complaints about the definition
-/

namespace Precedence

theorem mapM_eq_ok_iff {ε α β : Type} {f : α → Except ε β} {l : List α} {l' : List β} :
    l.mapM f = .ok l' ↔ List.Forall₂ (fun a b => f a = .ok b) l l' := by
  induction l generalizing l' with
  | nil =>
    rw [List.forall₂_nil_left_iff]
    exact ⟨fun h => (Except.ok.inj h).symm, fun h => congrArg Except.ok h.symm⟩
  | cons a l ih =>
    rw [List.mapM_cons, List.forall₂_cons_left_iff]
    cases ha : f a with
    | error e => exact ⟨nofun, nofun⟩
    | ok b =>
      cases hl : l.mapM f with
      | error e =>
        refine ⟨nofun, ?_⟩
        rintro ⟨_, bs, -, hbs, -⟩
        rw [← ih, hl] at hbs
        cases hbs
      | ok bs =>
        constructor
        · rintro ⟨⟩
          exact ⟨b, bs, rfl, ih.1 hl, rfl⟩
        · rintro ⟨_, bs', ⟨⟩, hbs, rfl⟩
          rw [← ih, hl] at hbs
          cases hbs
          rfl

theorem exists_mem_of_forall₂ {α β : Type} {R : α → β → Prop} {l : List α} {l' : List β}
    (h : List.Forall₂ R l l') : ∀ b ∈ l', ∃ a ∈ l, R a b := by
  induction h with
  | nil => exact fun b hb => absurd hb List.not_mem_nil
  | @cons a b l l' hab _ ih =>
    refine List.forall_mem_cons.2 ⟨⟨a, List.mem_cons_self, hab⟩, fun b' hb' => ?_⟩
    exact (ih b' hb').imp fun _ h => h.imp_left (List.mem_cons_of_mem a)

theorem exists_mem_of_mapM_eq_error {ε α β : Type} {f : α → Except ε β} {l : List α} {e : ε}
    (h : l.mapM f = .error e) : ∃ a ∈ l, f a = .error e := by
  induction l with
  | nil => cases h
  | cons a l ih =>
    rw [List.mapM_cons] at h
    cases ha : f a with
    | error e' =>
      rw [ha] at h
      cases h
      exact ⟨a, List.mem_cons_self, ha⟩
    | ok b =>
      rw [ha] at h
      cases hl : l.mapM f with
      | error e' =>
        rw [hl] at h
        cases h
        exact (ih hl).imp fun _ h => h.imp_left (List.mem_cons_of_mem a)
      | ok bs =>
        rw [hl] at h
        cases h

/-- A text does not ask for more rounds of a repetition than can be counted. -/
def countsRounds (text : String) : Bool :=
  match Regex.read text.toList with
  | .error .repeatTooLarge => false
  | .error (.repeatTooLong _) => false
  | _ => true

namespace LexerDefinition

variable {definition : LexerDefinition} {lexer : NamedLexer}

/-! ### Patterns by themselves -/

/-- The text of a pattern as it is built, if it is a text. -/
def builtText? (definition : LexerDefinition) (name : String) : Value → Option String
  | .text text => some (groupText definition.flags name text)
  | _ => none

theorem eq_groupText_of_mem {name built : String} {v : Value}
    (h : built ∈ definition.builtText? name v) :
    ∃ text, v = .text text ∧ built = groupText definition.flags name text := by
  unfold builtText? at h
  split at h
  next text => exact ⟨text, rfl, (Option.mem_some_iff.1 h).symm⟩
  · cases h

/-- A group has the name of another pattern. -/
def Conflicts (definition : LexerDefinition) (name group : String) : Prop :=
  group ≠ name ∧ ∃ entry ∈ definition.patterns, entry.1 = group

theorem find?_eq_none_iff (definition : LexerDefinition) (name : String) (names : List (String × Nat)) :
    (names.find? fun group => group.1 != name && definition.patterns.any (·.1 == group.1)) = none ↔
      ∀ group ∈ names, ¬definition.Conflicts name group.1 := by
  rw [List.find?_eq_none]
  refine forall₂_congr fun group _ => ?_
  simp only [Conflicts, Bool.and_eq_true, bne_iff_ne, List.any_eq_true, beq_iff_eq]

theorem checkPattern_eq_ok_iff {name : String} {v : Value} {entry : String × String} :
    definition.checkPattern name v = .ok entry ↔
      isPatternName name.toList ∧ name ≠ invalidKind ∧ ∃ built ∈ definition.builtText? name v,
        entry = (name, built) ∧ ∃ regex, Regex.read built.toList = .ok regex ∧
          ∀ group ∈ regex.names, ¬definition.Conflicts name group.1 := by
  unfold checkPattern
  dsimp only
  by_cases hname : isPatternName name.toList
  · rw [if_pos hname]
    by_cases hinvalid : name = invalidKind
    · rw [if_pos hinvalid]
      exact ⟨nofun, fun h => absurd hinvalid h.2.1⟩
    · rw [if_neg hinvalid]
      cases v with
      | text text =>
        dsimp only
        cases hread : Regex.read (groupText definition.flags name text).toList with
        | error fault =>
          refine ⟨?_, ?_⟩
          · cases fault <;> exact nofun
          · rintro ⟨-, -, _, ⟨⟩, -, regex, hregex, -⟩
            rw [hread] at hregex
            cases hregex
        | ok regex =>
          dsimp only
          have hconflict := definition.find?_eq_none_iff name regex.names
          split
          next group _ hfound =>
            refine ⟨nofun, ?_⟩
            rintro ⟨-, -, _, ⟨⟩, -, regex', hregex', hnone⟩
            rw [hread] at hregex'
            cases hregex'
            rw [hconflict.2 hnone] at hfound
            cases hfound
          next hfound =>
            refine ⟨?_, ?_⟩
            · rintro ⟨⟩
              exact ⟨hname, hinvalid, _, rfl, rfl, regex, hread, hconflict.1 hfound⟩
            · rintro ⟨-, -, _, ⟨⟩, rfl, -⟩
              rfl
      | _ =>
        refine ⟨nofun, ?_⟩
        rintro ⟨-, -, _, ⟨⟩, -⟩
  · rw [if_neg hname]
    exact ⟨nofun, fun h => absurd h.1 hname⟩

/-! ### Patterns together -/

/-- The patterns of a definition have been checked one by one. -/
def Checks (definition : LexerDefinition) (entries : List (String × String)) : Prop :=
  List.Forall₂ (fun source entry => definition.checkPattern source.1 source.2 = .ok entry)
    definition.patterns entries

/-- The text that a lexer runs. -/
def joinedText (entries : List (String × String)) : List Char :=
  ("|".intercalate (entries.map (·.2))).toList

theorem joinedText_eq (entries : List (String × String)) :
    joinedText entries = ['|'].intercalate (entries.map (·.2.toList)) := by
  rw [joinedText, String.toList_intercalate, List.map_map]
  rfl

theorem joinedText_singleton (entry : String × String) : joinedText [entry] = entry.2.toList :=
  congrArg String.toList String.intercalate_singleton

/-- A definition with letters of flags and with patterns is made a lexer in two steps. -/
theorem build_eq (hletters : ∀ c ∈ definition.flags.toList, c ∈ flagLetters)
    (hne : definition.patterns ≠ []) :
    definition.build = (do
      let entries ← definition.patterns.mapM fun entry => definition.checkPattern entry.1 entry.2
      match Regex.read (joinedText entries) with
      | .error fault => throw (.badAlternatives (joinedText entries) fault)
      | .ok regex => return ⟨⟨regex.pattern, regex.nameOf?, invalidKind⟩, entries⟩) := by
  have hfind : definition.flags.toList.find? (!flagLetters.contains ·) = none :=
    List.find?_eq_none.2 fun c hc => by simpa using hletters c hc
  have hempty : definition.patterns.isEmpty = false := by
    rwa [List.isEmpty_eq_false_iff]
  unfold build
  rw [hfind, hempty]
  rfl

theorem build_of_badFlag (h : ¬∀ c ∈ definition.flags.toList, c ∈ flagLetters) :
    ∃ letter, definition.build = .error (.badFlag letter) := by
  cases hfind : definition.flags.toList.find? (!flagLetters.contains ·) with
  | none => exact absurd (fun c hc => by simpa using List.find?_eq_none.1 hfind c hc) h
  | some letter =>
    refine ⟨letter, ?_⟩
    unfold build
    rw [hfind]
    rfl

theorem build_of_noPatterns (hletters : ∀ c ∈ definition.flags.toList, c ∈ flagLetters)
    (h : definition.patterns = []) : definition.build = .error .noPatterns := by
  have hfind : definition.flags.toList.find? (!flagLetters.contains ·) = none :=
    List.find?_eq_none.2 fun c hc => by simpa using hletters c hc
  unfold build
  rw [hfind, h]
  rfl

theorem build_of_checks (hletters : ∀ c ∈ definition.flags.toList, c ∈ flagLetters)
    (hne : definition.patterns ≠ []) {entries : List (String × String)}
    (h : definition.Checks entries) :
    definition.build = match Regex.read (joinedText entries) with
      | .error fault => .error (.badAlternatives (joinedText entries) fault)
      | .ok regex => .ok ⟨⟨regex.pattern, regex.nameOf?, invalidKind⟩, entries⟩ := by
  rw [build_eq hletters hne, mapM_eq_ok_iff.2 h]
  rfl

/-- What is known of a lexer that has been built. -/
theorem build_eq_ok (h : definition.build = .ok lexer) :
    lexer.patterns ≠ [] ∧ (∀ c ∈ definition.flags.toList, c ∈ flagLetters) ∧
      (∀ entry ∈ lexer.patterns, isPatternName entry.1.toList ∧
        ∃ text, entry.2 = groupText definition.flags entry.1 text) ∧
      ∃ regex, Regex.read ("|".intercalate (lexer.patterns.map (·.2))).toList = .ok regex ∧
        lexer.lexer = ⟨regex.pattern, regex.nameOf?, invalidKind⟩ := by
  have hletters : ∀ c ∈ definition.flags.toList, c ∈ flagLetters := by
    by_contra hnot
    obtain ⟨letter, hbuild⟩ := build_of_badFlag hnot
    rw [hbuild] at h
    cases h
  have hne : definition.patterns ≠ [] := by
    intro hempty
    rw [build_of_noPatterns hletters hempty] at h
    cases h
  cases hmap : definition.patterns.mapM fun entry => definition.checkPattern entry.1 entry.2 with
  | error fault =>
    rw [build_eq hletters hne, hmap] at h
    cases h
  | ok entries =>
    have hchecks : definition.Checks entries := mapM_eq_ok_iff.1 hmap
    rw [build_of_checks hletters hne hchecks] at h
    split at h
    · cases h
    next regex hread =>
      cases h
      refine ⟨fun hnil => hne ?_, hletters, fun entry hentry => ?_, regex, hread, rfl⟩
      · obtain rfl : entries = [] := hnil
        exact List.forall₂_nil_right_iff.1 hchecks
      · obtain ⟨source, -, hsource⟩ := exists_mem_of_forall₂ hchecks entry hentry
        obtain ⟨hname, -, built, hbuilt, rfl, -⟩ := checkPattern_eq_ok_iff.1 hsource
        exact ⟨hname, (eq_groupText_of_mem hbuilt).imp fun _ h => h.2⟩

theorem not_mem_of_isPatternName {c : Char} {name : List Char} (hname : isPatternName name)
    (hstart : (c.isAlpha || c = '_') = false) (hword : isWord c = false) : c ∉ name := by
  cases name with
  | nil => exact List.not_mem_nil
  | cons d rest =>
    rw [isPatternName, Bool.and_eq_true] at hname
    intro hmem
    rcases List.mem_cons.1 hmem with rfl | hmem
    · rw [hstart] at hname
      cases hname.1
    · rw [List.all_eq_true.1 hname.2 c hmem] at hword
      cases hword

theorem not_mem_name {name : List Char} (hname : isPatternName name) : '>' ∉ name ∧ '\\' ∉ name :=
  ⟨not_mem_of_isPatternName hname (by decide) (by decide),
    not_mem_of_isPatternName hname (by decide) (by decide)⟩

theorem toList_groupText (name text : String) :
    (groupText "" name text).toList = ReadM.openingOf name ++ (text.toList ++ [')']) := by
  simp [groupText, ReadM.openingOf]

/-! ### Definitions whose patterns can be joined -/

/-- The names of the groups of a pattern by itself. -/
def groupNamesOf (definition : LexerDefinition) (source : String × Value) : List String :=
  ((definition.builtText? source.1 source.2).map groupNames).getD []

/-- No name of a group is used by two patterns. -/
def GroupsApart (definition : LexerDefinition) : Prop :=
  definition.patterns.Pairwise fun first second =>
    (definition.groupNamesOf first).Disjoint (definition.groupNamesOf second)

/-- A definition that has all that is asked of one: it has patterns; its flags are letters of flags; its
names can be names of groups, and none is the invalid kind; each pattern is a text that can be read by
itself, with the flags and in its named group; and no name of a group is used twice. -/
structure Acceptable (definition : LexerDefinition) : Prop where
  patterns : definition.patterns ≠ []
  flags : ∀ letter ∈ definition.flags.toList, letter ∈ flagLetters
  names : ∀ source ∈ definition.patterns,
    isPatternName source.1.toList ∧ source.1 ≠ invalidKind
  reads : ∀ source ∈ definition.patterns,
    ∃ built ∈ definition.builtText? source.1 source.2, (Regex.read built.toList).isOk
  apart : definition.GroupsApart

/-- The patterns of a definition can be joined: there is one only, or there are no flags and the patterns
refer to groups by name only. -/
def Joinable (definition : LexerDefinition) : Prop :=
  definition.patterns.length ≤ 1 ∨
    definition.flags = "" ∧ ∀ source ∈ definition.patterns,
      ∀ built ∈ definition.builtText? source.1 source.2,
        ∀ tokens ∈ PatternToken.ofChars? 0 built.toList, refersByName tokens

/-- No pattern asks for more rounds of a repetition than can be counted. -/
def CountsRounds (definition : LexerDefinition) : Prop :=
  ∀ source ∈ definition.patterns, ∀ built ∈ definition.builtText? source.1 source.2,
    countsRounds built

/-- A definition is refused with an exception of a class. -/
def Raises (definition : LexerDefinition) (className : String) : Prop :=
  ∃ fault, definition.build = .error fault ∧ fault.toFault.className = className

instance : Decidable definition.GroupsApart :=
  decidable_of_iff (definition.patterns.Pairwise fun first second =>
      ∀ name ∈ definition.groupNamesOf first, name ∉ definition.groupNamesOf second)
    ⟨List.Pairwise.imp List.disjoint_left.2, List.Pairwise.imp List.disjoint_left.1⟩

instance : Decidable definition.Acceptable :=
  decidable_of_iff (definition.patterns ≠ [] ∧
      definition.flags.toList.all flagLetters.contains ∧
      (∀ source ∈ definition.patterns, isPatternName source.1.toList ∧ source.1 ≠ invalidKind) ∧
      (∀ source ∈ definition.patterns,
        ∃ built ∈ definition.builtText? source.1 source.2, (Regex.read built.toList).isOk) ∧
      definition.GroupsApart)
    ⟨fun ⟨hne, hletters, hnames, hreads, hapart⟩ =>
        ⟨hne, fun c hc => List.contains_iff_mem.1 (List.all_eq_true.1 hletters c hc), hnames, hreads,
          hapart⟩,
      fun h => ⟨h.patterns, List.all_eq_true.2 fun c hc => List.contains_iff_mem.2 (h.flags c hc),
        h.names, h.reads, h.apart⟩⟩

instance : Decidable definition.Joinable :=
  inferInstanceAs (Decidable (definition.patterns.length ≤ 1 ∨
    definition.flags = "" ∧ ∀ source ∈ definition.patterns,
      ∀ built ∈ definition.builtText? source.1 source.2,
        ∀ tokens ∈ PatternToken.ofChars? 0 built.toList, refersByName tokens))

instance : Decidable definition.CountsRounds :=
  inferInstanceAs (Decidable (∀ source ∈ definition.patterns,
    ∀ built ∈ definition.builtText? source.1 source.2, countsRounds built))

instance (className : String) : Decidable (definition.Raises className) :=
  match h : definition.build with
  | .error fault =>
    decidable_of_iff (fault.toFault.className = className)
      ⟨fun hclass => ⟨fault, h, hclass⟩, fun ⟨_, hfault, hclass⟩ =>
        Except.error.inj (h.symm.trans hfault) ▸ hclass⟩
  | .ok _ => .isFalse fun ⟨_, hfault, _⟩ => by
    rw [h] at hfault
    cases hfault

/-- A pattern that does not pass the check is refused as a part of the definition, if it counts its
rounds. -/
theorem className_of_checkPattern_eq_error {name : String} {v : Value} {fault : LexerFault}
    (hcounts : ∀ built ∈ definition.builtText? name v, countsRounds built)
    (h : definition.checkPattern name v = .error fault) :
    fault.toFault.className = "Lexer.DefinitionError" := by
  unfold checkPattern at h
  dsimp only at h
  split at h
  · split at h
    · cases h
      rfl
    · cases v with
      | text text =>
        dsimp only at h
        have hcount := hcounts _ rfl
        unfold countsRounds at hcount
        split at h
        next hread =>
          rw [hread] at hcount
          cases hcount
        next digits hread =>
          rw [hread] at hcount
          cases hcount
        · cases h
          rfl
        · split at h
          · cases h
            rfl
          · cases h
      | _ =>
        cases h
        rfl
  · cases h
    rfl

section

variable {entries : List (String × String)}

/-- What has been checked is the text of a pattern as it is built. -/
theorem groupNamesOf_eq_of_check {source : String × Value} {entry : String × String}
    (h : definition.checkPattern source.1 source.2 = .ok entry) :
    definition.groupNamesOf source = groupNames entry.2 := by
  obtain ⟨-, -, built, hbuilt, rfl, -⟩ := checkPattern_eq_ok_iff.1 h
  rw [groupNamesOf, Option.mem_def.1 hbuilt]
  rfl

theorem pairwise_of_checks (hapart : definition.GroupsApart) (h : definition.Checks entries) :
    entries.Pairwise fun first second => (groupNames first.2).Disjoint (groupNames second.2) := by
  have hnames : definition.patterns.map definition.groupNamesOf = entries.map (groupNames ·.2) := by
    rw [← List.forall₂_eq_eq_eq, List.forall₂_map_left_iff, List.forall₂_map_right_iff]
    exact h.imp fun _ _ => groupNamesOf_eq_of_check
  have hpairs := List.pairwise_map.2 hapart
  rw [hnames] at hpairs
  exact List.pairwise_map.1 hpairs

/-- A text without flags that can be read by itself can be joined with others, if it refers to groups by
name only. -/
theorem joins_of_mem_builtText? (hflags : definition.flags = "") {name : String} {v : Value}
    {built : String} (hbuilt : built ∈ definition.builtText? name v) (hname : isPatternName name.toList)
    (hread : (Regex.read built.toList).isOk)
    (hbyName : ∀ tokens ∈ PatternToken.ofChars? 0 built.toList, refersByName tokens) :
    Joins (name, built) := by
  obtain ⟨text, -, htext⟩ := eq_groupText_of_mem hbuilt
  rw [hflags] at htext
  exact
    { reads := hread
      opens := ⟨_, by rw [htext, toList_groupText]⟩
      name := not_mem_name hname
      byName := hbyName }

/-- Patterns that have passed the check one by one are a pattern together. -/
theorem exists_read_of_checks (hjoin : definition.Joinable) (hne : definition.patterns ≠ [])
    (hapart : definition.GroupsApart) (h : definition.Checks entries) :
    ∃ regex, Regex.read (joinedText entries) = .ok regex := by
  have hlength : definition.patterns.length = entries.length := h.length_eq
  have hne : entries ≠ [] := by
    rintro rfl
    exact hne (List.length_eq_zero_iff.1 hlength)
  rcases hjoin with hone | ⟨hflags, hbyName⟩
  · obtain ⟨entry, rfl⟩ : ∃ entry, entries = [entry] := by
      refine List.length_eq_one_iff.1 ?_
      have := List.length_pos_iff.2 hne
      omega
    obtain ⟨source, -, hsource⟩ := exists_mem_of_forall₂ h entry List.mem_cons_self
    obtain ⟨-, -, built, -, rfl, regex, hread, -⟩ := checkPattern_eq_ok_iff.1 hsource
    exact ⟨regex, joinedText_singleton _ ▸ hread⟩
  · have hentries : ∀ entry ∈ entries, Joins entry := by
      intro entry hentry
      obtain ⟨source, hmem, hsource⟩ := exists_mem_of_forall₂ h entry hentry
      obtain ⟨hname, -, built, hbuilt, rfl, regex, hread, -⟩ := checkPattern_eq_ok_iff.1 hsource
      exact joins_of_mem_builtText? hflags hbuilt hname (by rw [hread]; rfl)
        (hbyName source hmem built hbuilt)
    rw [joinedText_eq]
    exact exists_read_joined hne hentries (pairwise_of_checks hapart h)

/-- No group of a pattern has the name of another pattern, if no name of a group is used twice. -/
theorem Acceptable.not_conflicts (h : definition.Acceptable) (hjoin : definition.Joinable)
    {source : String × Value} (hsource : source ∈ definition.patterns) {group : String}
    (hgroup : group ∈ definition.groupNamesOf source) : ¬definition.Conflicts source.1 group := by
  rintro ⟨hother, other, hmem, rfl⟩
  have hdistinct : source ≠ other := by
    rintro rfl
    exact hother rfl
  rcases hjoin with hone | ⟨hflags, hbyName⟩
  · obtain ⟨only, hpatterns⟩ : ∃ only, definition.patterns = [only] := by
      refine List.length_eq_one_iff.1 ?_
      have := List.length_pos_of_mem hsource
      omega
    rw [hpatterns, List.mem_singleton] at hsource hmem
    exact hdistinct (hsource.trans hmem.symm)
  · obtain ⟨built, hbuilt, hok⟩ := h.reads other hmem
    have hjoins := joins_of_mem_builtText? hflags hbuilt (h.names other hmem).1 hok
      (hbyName other hmem built hbuilt)
    have hname : other.1 ∈ definition.groupNamesOf other := by
      rw [groupNamesOf, Option.mem_def.1 hbuilt]
      exact hjoins.mem_groupNames
    have hsymm : Std.Symm fun first second : String × Value =>
        (definition.groupNamesOf first).Disjoint (definition.groupNamesOf second) :=
      ⟨fun _ _ hdisjoint => hdisjoint.symm⟩
    exact h.apart.forall hsource hmem hdistinct hgroup hname

/-- The patterns of an acceptable definition pass the check, if they can be joined. -/
theorem Acceptable.exists_checks (h : definition.Acceptable) (hjoin : definition.Joinable) :
    ∃ entries, definition.Checks entries := by
  cases hmap : definition.patterns.mapM fun entry => definition.checkPattern entry.1 entry.2 with
  | ok entries => exact ⟨entries, mapM_eq_ok_iff.1 hmap⟩
  | error fault =>
    obtain ⟨source, hsource, hfault⟩ := exists_mem_of_mapM_eq_error hmap
    obtain ⟨hname, hinvalid⟩ := h.names source hsource
    obtain ⟨built, hbuilt, hok⟩ := h.reads source hsource
    cases hread : Regex.read built.toList with
    | error fault =>
      rw [hread] at hok
      cases hok
    | ok regex =>
      have hgroups : definition.groupNamesOf source = regex.names.map (·.1) := by
        rw [groupNamesOf, Option.mem_def.1 hbuilt, Option.map_some, Option.getD_some, groupNames, hread]
      have hcheck : definition.checkPattern source.1 source.2 = .ok (source.1, built) :=
        checkPattern_eq_ok_iff.2 ⟨hname, hinvalid, built, hbuilt, rfl, regex, hread, fun group hgroup =>
          h.not_conflicts hjoin hsource (hgroups ▸ List.mem_map_of_mem hgroup)⟩
      rw [hcheck] at hfault
      cases hfault

end

end LexerDefinition

end Precedence
