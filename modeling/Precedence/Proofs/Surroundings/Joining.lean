import Mathlib
import Precedence.Proofs.Alternatives
import Precedence.Proofs.Surroundings.Grammar

/-!
# Joined patterns

Texts of patterns are joined with bars between them. If each of them opens a group with a name, is one
group when it is read by itself, and refers to groups by name only, then the joined text is read as a
choice of what the texts are by themselves, and every group has its name there.

## Main definitions

- `SelfContained` — a text that is one group by itself and refers to groups by name only

## Main statements

- `PatternToken.ofChars?_append` — the tokens of a text in front of another one
- `ReadM.run_sequence_named` — a sequence that starts with a named group
- `ReadM.run_alternatives_joined` — a joined text is read as a choice
-/

namespace Precedence

/-! ### Tokens of texts -/

namespace PatternToken

theorem ofChars?_moved (offset pos : Nat) (cs : List Char) :
    ofChars? (pos + offset) cs = (ofChars? pos cs).map (List.map (·.moved offset)) := by
  induction pos, cs using ofChars?.induct with
  | case1 pos => rfl
  | case2 pos c rest ih =>
    rw [ofChars?, ofChars?, Nat.add_right_comm, ih, Option.map_map, Option.map_map]
    rfl
  | case3 pos => rfl
  | case4 pos c rest hescape hend ih =>
    rw [ofChars?, ofChars?, Nat.add_right_comm, ih, Option.map_map, Option.map_map]
    · rfl
    · exact hescape
    · exact hend
    · exact hescape
    · exact hend

/-- The tokens of a text that starts anywhere. -/
theorem ofChars?_at {cs : List Char} {tokens : List PatternToken} (h : ofChars? 0 cs = some tokens)
    (offset : Nat) : ofChars? offset cs = some (tokens.map (·.moved offset)) := by
  rw [← Nat.zero_add offset, ofChars?_moved, h, Nat.zero_add]
  rfl

theorem ofChars?_cons {c : Char} (hc : c ≠ '\\') (pos : Nat) (rest : List Char) :
    ofChars? pos (c :: rest) = (ofChars? (pos + 1) rest).map (⟨pos, c, false⟩ :: ·) := by
  rw [ofChars?]
  · exact fun _ _ h => absurd h hc
  · exact fun h => absurd h hc

/-- The tokens of a text come first among those of a longer one. -/
theorem ofChars?_append {pos : Nat} {cs : List Char} {tokens : List PatternToken}
    (h : ofChars? pos cs = some tokens) (after : List Char) :
    ofChars? pos (cs ++ after) = (ofChars? (pos + cs.length) after).map (tokens ++ ·) := by
  induction pos, cs using ofChars?.induct generalizing tokens with
  | case1 pos =>
    cases h
    exact Option.map_id'.symm
  | case2 pos c rest ih =>
    rw [ofChars?, Option.map_eq_some_iff] at h
    obtain ⟨others, hothers, rfl⟩ := h
    rw [List.cons_append, List.cons_append, ofChars?, ih hothers, Option.map_map, List.length_cons,
      List.length_cons, Nat.add_assoc, Nat.add_comm 2]
    rfl
  | case3 pos => cases h
  | case4 pos c rest hescape hend ih =>
    have hc : c ≠ '\\' := by
      intro hc
      cases rest with
      | nil => exact hend hc rfl
      | cons d rest => exact hescape d rest hc rfl
    rw [ofChars?_cons hc, Option.map_eq_some_iff] at h
    obtain ⟨others, hothers, rfl⟩ := h
    rw [List.cons_append, ofChars?_cons hc, ih hothers, Option.map_map, List.length_cons,
      Nat.add_assoc, Nat.add_comm 1]
    rfl

/-- The tokens of characters that are not escaped. -/
def plain (pos : Nat) : List Char → List PatternToken
  | [] => []
  | c :: cs => ⟨pos, c, false⟩ :: plain (pos + 1) cs

theorem ofChars?_plain {cs : List Char} (hcs : '\\' ∉ cs) (pos : Nat) :
    ofChars? pos cs = some (plain pos cs) := by
  induction cs generalizing pos with
  | nil => rfl
  | cons c cs ih =>
    obtain ⟨hc, hcs⟩ := not_or.1 (mt List.mem_cons.2 hcs)
    rw [ofChars?_cons (Ne.symm hc), ih hcs]
    rfl

theorem map_moved_plain (offset pos : Nat) (cs : List Char) :
    (plain pos cs).map (·.moved offset) = plain (pos + offset) cs := by
  induction cs generalizing pos with
  | nil => rfl
  | cons c cs ih =>
    rw [plain, List.map_cons, ih, plain, Nat.add_right_comm]
    rfl

theorem flatMap_chars_plain (pos : Nat) (cs : List Char) :
    (plain pos cs).flatMap PatternToken.chars = cs := by
  induction cs generalizing pos with
  | nil => rfl
  | cons c cs ih =>
    rw [plain, List.flatMap_cons, ih]
    rfl

theorem plain_append (pos : Nat) (cs ds : List Char) :
    plain pos (cs ++ ds) = plain pos cs ++ plain (pos + cs.length) ds := by
  induction cs generalizing pos with
  | nil => rfl
  | cons c cs ih =>
    rw [List.cons_append, plain, ih, plain, List.cons_append, List.length_cons, Nat.add_assoc,
      Nat.add_comm 1]

/-- The tokens before a mark that is not among the characters. -/
theorem takeWhile_plain {cs : List Char} {mark : Char} (hmark : mark ∉ cs) (pos pos' : Nat)
    (rest : List PatternToken) :
    (plain pos cs ++ ⟨pos', mark, false⟩ :: rest).takeWhile (!·.is mark) = plain pos cs := by
  induction cs generalizing pos with
  | nil =>
    rw [plain, List.nil_append, List.takeWhile_cons_of_neg]
    simp [is]
  | cons c cs ih =>
    obtain ⟨hc, hcs⟩ := not_or.1 (mt List.mem_cons.2 hmark)
    rw [plain, List.cons_append, List.takeWhile_cons_of_pos, ih hcs]
    simp [is, Ne.symm hc]

end PatternToken

/-! ### Named groups -/

namespace ReadM

/-- The characters that open a group with a name. -/
def openingOf (name : String) : List Char :=
  '(' :: '?' :: 'P' :: '<' :: (name.toList ++ ['>'])

theorem run_groupName {pos : Nat} {name : String} {rest : List PatternToken} {s : Reading}
    {r : String × Reading} (hname : '>' ∉ name.toList)
    (hrest : s.rest = PatternToken.plain pos (name.toList ++ ['>']) ++ rest)
    (h : (groupName '>').run s = .ok r) : r = (name, { s with rest := rest }) := by
  have htokens : s.rest = PatternToken.plain pos name.toList ++
      ⟨pos + name.toList.length, '>', false⟩ :: rest := by
    rw [hrest, PatternToken.plain_append, List.append_assoc]
    rfl
  have hbefore : before '>' s.rest = PatternToken.plain pos name.toList := by
    rw [htokens]
    exact PatternToken.takeWhile_plain hname _ _ _
  obtain ⟨cs, t, htake, h⟩ := run_bind_eq_ok.1 h
  obtain ⟨rfl, hexpect⟩ := run_takeUntil htake
  rw [hbefore, htokens, List.drop_left] at hexpect
  cases hexpect
  rw [hbefore, PatternToken.flatMap_chars_plain] at h
  split at h
  · cases h
    exact Prod.ext String.ofList_toList rfl
  · cases h

/-- A named group after its question mark. -/
theorem run_extended_named {fuel pos start : Nat} {flags : Flags} {name : String}
    {done : List PatternItem} {rest : List PatternToken} {s : Reading} {r : List PatternItem × Reading}
    (hname : '>' ∉ name.toList)
    (hrest : s.rest = PatternToken.plain pos ('P' :: '<' :: (name.toList ++ ['>'])) ++ rest)
    (h : (extended fuel flags start done).run s = .ok r) :
    s.names.lookup name = none ∧ ∃ fuel' inner u,
      (captured fuel' flags (s.groups.length + 1)).run { s with
        rest := rest
        groups := s.groups ++ [none]
        names := s.names ++ [(name, s.groups.length + 1)] } = .ok (inner, u) ∧
      r = (inner :: done, u) := by
  obtain ⟨rest', size, groups, names, behind, conditions, variableBehind⟩ := s
  obtain rfl : rest' = _ := hrest
  cases fuel with
  | zero => cases h
  | succ fuel =>
    rw [extended] at h
    change StateT.run (do
      let pos ← position
      let name ← groupName '>'
      let index ← openGroup (some name) pos
      return (← captured fuel flags index) :: done) _ = _ at h
    obtain ⟨at', t, ⟨⟩, h⟩ := run_bind_eq_ok.1 h
    obtain ⟨found, t, hfound, h⟩ := run_bind_eq_ok.1 h
    obtain ⟨⟩ := run_groupName hname rfl hfound
    obtain ⟨index, t, hopen, h⟩ := run_bind_eq_ok.1 h
    obtain ⟨hnew, ⟨⟩⟩ := run_openGroup_some_iff.1 hopen
    obtain ⟨inner, u, hinner, ⟨⟩⟩ := run_bind_eq_ok.1 h
    exact ⟨hnew, fuel, inner, u, hinner, rfl⟩

/-- A sequence that starts with a group with a question mark goes on after the group. -/
theorem run_sequence_extended {fuel pos pos' : Nat} {flags : Flags} {rest : List PatternToken}
    {s : Reading} {r : Pattern × Reading} (hverbose : flags.verbose = false)
    (hrest : s.rest = ⟨pos, '(', false⟩ :: ⟨pos', '?', false⟩ :: rest)
    (h : (sequence fuel flags []).run s = .ok r) :
    ∃ before fuel' items u, (extended before flags pos []).run { s with rest := rest } =
        .ok (items, u) ∧
      (sequence fuel' flags items).run u = .ok r := by
  obtain ⟨rest', size, groups, names, behind, conditions, variableBehind⟩ := s
  obtain rfl : rest' = _ := hrest
  cases fuel with
  | zero => cases h
  | succ fuel =>
    rw [sequence] at h
    change StateT.run (do
      let done ← item fuel flags ⟨pos, '(', false⟩ []
      sequence fuel flags done)
        ⟨⟨pos', '?', false⟩ :: rest, size, groups, names, behind, conditions, variableBehind⟩ = _ at h
    obtain ⟨items, u, hitem, h⟩ := run_bind_eq_ok.1 h
    cases fuel with
    | zero => cases hitem
    | succ fuel =>
      rw [item] at hitem
      simp only [hverbose, Bool.false_and, Bool.false_eq_true, if_false] at hitem
      exact ⟨fuel, _, items, u, hitem, h⟩

/-- A sequence that starts with a named group goes on after the group. -/
theorem run_sequence_named {fuel pos : Nat} {flags : Flags} {name : String}
    {rest : List PatternToken} {s : Reading} {r : Pattern × Reading}
    (hname : '>' ∉ name.toList) (hverbose : flags.verbose = false)
    (hrest : s.rest = PatternToken.plain pos (openingOf name) ++ rest)
    (h : (sequence fuel flags []).run s = .ok r) :
    s.names.lookup name = none ∧ ∃ before fuel' inner u,
      (captured before flags (s.groups.length + 1)).run { s with
        rest := rest
        groups := s.groups ++ [none]
        names := s.names ++ [(name, s.groups.length + 1)] } = .ok (inner, u) ∧
      (sequence fuel' flags [inner]).run u = .ok r := by
  obtain ⟨_, fuel', items, u, hextended, h⟩ := run_sequence_extended hverbose hrest h
  obtain ⟨hnew, before, inner, v, hinner, ⟨⟩⟩ := run_extended_named hname rfl hextended
  exact ⟨hnew, before, fuel', inner, _, hinner, h⟩

/-! ### Whole patterns -/

/-- A text that opens a named group has no flags before it. -/
theorem run_leadingFlags_named {fuel pos : Nat} {flags : Flags} {name : String}
    {rest : List PatternToken} {s : Reading} (hverbose : flags.verbose = false)
    (hrest : s.rest = PatternToken.plain pos (openingOf name) ++ rest) :
    (leadingFlags fuel flags).run s = .ok (flags, s) := by
  obtain ⟨rest', size, groups, names, behind, conditions, variableBehind⟩ := s
  obtain rfl : rest' = _ := hrest
  obtain ⟨ignoreCase, multiline, dotAll, verbose, ascii⟩ := flags
  obtain rfl : verbose = false := hverbose
  cases fuel with
  | zero => rfl
  | succ fuel => rfl

theorem run_wholePattern {s t : Reading} {p : Pattern} (h : wholePattern.run s = .ok (p, t)) :
    t.rest = [] ∧ ∃ flags u fuel, (leadingFlags s.rest.length .none).run s = .ok (flags, u) ∧
      (alternatives fuel flags).run u = .ok (p, t) := by
  obtain ⟨_, _, ⟨⟩, h⟩ := run_bind_eq_ok.1 h
  obtain ⟨flags, u, hflags, h⟩ := run_bind_eq_ok.1 h
  obtain ⟨q, v, halternatives, h⟩ := run_bind_eq_ok.1 h
  obtain ⟨_, _, ⟨⟩, h⟩ := run_bind_eq_ok.1 h
  split at h
  · cases h
  next hrest =>
    split at h
    · cases h
    · split at h
      · cases h
      · cases h
        refine ⟨?_, flags, u, _, hflags, halternatives⟩
        simpa using hrest

theorem run_of_read {text : List Char} {regex : Regex} (h : Regex.read text = .ok regex) :
    ∃ tokens t, PatternToken.ofChars? 0 text = some tokens ∧
      wholePattern.run ⟨tokens, text.length, [], [], none, [], false⟩ = .ok (regex.pattern, t) ∧
      regex.names = t.names := by
  rw [Regex.read] at h
  cases htokens : PatternToken.ofChars? 0 text with
  | none =>
    rw [htokens] at h
    cases h
  | some tokens =>
    rw [htokens] at h
    cases hrun : wholePattern.run ⟨tokens, text.length, [], [], none, [], false⟩ with
    | error fault =>
      simp only [hrun] at h
      cases h
    | ok result =>
      simp only [hrun] at h
      cases h
      exact ⟨tokens, result.2, rfl, hrun, rfl⟩

theorem not_mem_openingOf {name : String} (hname : '\\' ∉ name.toList) : '\\' ∉ openingOf name := by
  simp [openingOf, hname]

/-- The tokens of a text that opens a named group. -/
theorem tokens_of_openingOf {name : String} {after : List Char} {pos : Nat}
    {tokens : List PatternToken} (hname : '\\' ∉ name.toList)
    (h : PatternToken.ofChars? pos (openingOf name ++ after) = some tokens) :
    ∃ rest, tokens = PatternToken.plain pos (openingOf name) ++ rest := by
  rw [PatternToken.ofChars?_append (PatternToken.ofChars?_plain (not_mem_openingOf hname) pos),
    Option.map_eq_some_iff] at h
  obtain ⟨rest, -, rfl⟩ := h
  exact ⟨rest, rfl⟩

/-- Alternatives that are one group are one sequence. -/
theorem run_sequence_of_alternatives {fuel index : Nat} {flags : Flags} {p body : Pattern}
    {s t : Reading} (hgroup : p = .group index body) (h : (alternatives fuel flags).run s = .ok (p, t)) :
    ∃ fuel', (sequence fuel' flags []).run s = .ok (p, t) := by
  cases fuel with
  | zero => cases h
  | succ fuel =>
    rw [alternatives] at h
    obtain ⟨first, v, hfirst, h⟩ := run_bind_eq_ok.1 h
    obtain ⟨more, w, haccept, h⟩ := run_bind_eq_ok.1 h
    cases more with
    | true =>
      obtain ⟨q, w', -, h⟩ := run_bind_eq_ok.1 h
      have hpattern : first.alt q = p := congrArg Prod.fst (Except.ok.inj h)
      rw [hgroup] at hpattern
      cases hpattern
    | false =>
      have hresult : (first, w) = (p, t) := Except.ok.inj h
      rw [run_accept_false haccept] at hresult
      exact ⟨fuel, hresult ▸ hfirst⟩

/-- A text that opens a named group, and that is one group when it is read by itself, is read as one
sequence. -/
theorem run_sequence_of_read {name : String} {after : List Char} {regex : Regex} {body : Pattern}
    (hname : '\\' ∉ name.toList) (hread : Regex.read (openingOf name ++ after) = .ok regex)
    (hgroup : regex.pattern = .group 1 body) :
    ∃ rest size fuel t,
      PatternToken.ofChars? 0 (openingOf name ++ after) =
        some (PatternToken.plain 0 (openingOf name) ++ rest) ∧
      (sequence fuel .none []).run
          ⟨PatternToken.plain 0 (openingOf name) ++ rest, size, [], [], none, [], false⟩ =
        .ok (regex.pattern, t) ∧
      t.rest = [] ∧ regex.names = t.names := by
  obtain ⟨tokens, t, htokens, hwhole, hnames⟩ := run_of_read hread
  obtain ⟨rest, rfl⟩ := tokens_of_openingOf hname htokens
  obtain ⟨hend, flags, u, fuel, hflags, h⟩ := run_wholePattern hwhole
  rw [run_leadingFlags_named rfl rfl] at hflags
  cases hflags
  obtain ⟨fuel', hsequence⟩ := run_sequence_of_alternatives hgroup h
  exact ⟨rest, _, fuel', t, htokens, hsequence, hend, hnames⟩

/-- A sequence that starts with a named group and is all of a text by itself is read among others as
it is read by itself, and its group has the name there as well. -/
theorem run_sequence_among (around : Surroundings) {name : String} {flags : Flags}
    {rest : List PatternToken} {pos size fuel fuel' : Nat} {p p' : Pattern} {s t t' : Reading}
    (hname : '>' ∉ name.toList) (hverbose : flags.verbose = false) (hbyName : refersByName rest)
    (halone : (sequence fuel flags []).run
        ⟨PatternToken.plain pos (openingOf name) ++ rest, size, [], [], none, [], false⟩ =
      .ok (p, t))
    (hrest : s.rest = (PatternToken.plain pos (openingOf name) ++ rest).map (·.moved around.offset) ++
      around.after)
    (hgroups : s.groups = around.groups) (hnames : s.names = around.names)
    (hknown : around.known = [(name, 1)])
    (h : (sequence fuel' flags []).run s = .ok (p', t')) :
    Pattern.Beside around p p' ∧ Reading.Beside around t t' := by
  obtain ⟨-, before, fuel₁, inner, u, hinner, halone⟩ := run_sequence_named hname hverbose rfl halone
  have hrest' : s.rest = PatternToken.plain (pos + around.offset) (openingOf name) ++
      (rest.map (·.moved around.offset) ++ around.after) := by
    rw [hrest, List.map_append, PatternToken.map_moved_plain, List.append_assoc]
  obtain ⟨hnew, before', fuel₁', inner', u', hinner', h⟩ := run_sequence_named hname hverbose hrest' h
  have hindex : s.groups.length + 1 = 1 + around.groups.length := by
    rw [hgroups, Nat.add_comm]
  rw [hindex] at hinner'
  have hopened : Reading.Beside around
      ⟨rest, size, [none], [(name, 1)], none, [], false⟩
      { s with
        rest := rest.map (·.moved around.offset) ++ around.after
        groups := s.groups ++ [none]
        names := s.names ++ [(name, 1 + around.groups.length)] } :=
    { rest := rfl
      byName := hbyName
      groups := congrArg (· ++ [none]) hgroups
      names := congrArg (· ++ [(name, 1 + around.groups.length)]) hnames
      known := hknown ▸ List.prefix_rfl
      fresh := fun entry hentry => by
        rw [List.mem_singleton.1 hentry, ← hnames]
        exact hnew
      indices := fun entry hentry => by
        rw [List.mem_singleton.1 hentry]
        exact ⟨Nat.one_pos, le_rfl⟩ }
  obtain ⟨hitem, hu⟩ := (keepsBeside around before).captured before' flags 1 Nat.one_pos _ _ hopened
    _ _ _ _ hinner hinner'
  exact (keepsBeside around fuel₁).sequence fuel₁' flags [inner] [inner'] (.cons hitem .nil) u u' hu
    _ _ _ _ halone h fun h => absurd h (Bool.eq_false_iff.1 hverbose)

end ReadM

/-! ### Joined texts -/

/-- A joined text starts with one of its parts. -/
theorem exists_intercalate_eq {entries : List (String × String)} (hne : entries ≠ []) :
    ∃ entry ∈ entries, ∃ after,
      ['|'].intercalate (entries.map (·.2.toList)) = entry.2.toList ++ after := by
  cases entries with
  | nil => exact absurd rfl hne
  | cons entry entries =>
    refine ⟨entry, List.mem_cons_self, ?_⟩
    cases entries with
    | nil => exact ⟨[], by rw [List.map_singleton, List.intercalate_singleton, List.append_nil]⟩
    | cons next entries =>
      rw [List.map_cons, List.map_cons, List.intercalate_cons_cons, List.append_assoc]
      exact ⟨_, rfl⟩

/-- Whether a pattern is one group, with the number one. -/
def Pattern.isGroup : Pattern → Bool
  | .group 1 _ => true
  | _ => false

/-- A text is one group when it is read by itself, and refers to groups by name only. -/
structure SelfContained (text : String) : Prop where
  byName : ∀ tokens ∈ PatternToken.ofChars? 0 text.toList, refersByName tokens
  group : ∃ regex ∈ (Regex.read text.toList).toOption, regex.pattern.isGroup

instance (text : String) : Decidable (SelfContained text) :=
  decidable_of_iff ((∀ tokens ∈ PatternToken.ofChars? 0 text.toList, refersByName tokens) ∧
      ∃ regex ∈ (Regex.read text.toList).toOption, regex.pattern.isGroup)
    ⟨fun h => ⟨h.1, h.2⟩, fun h => ⟨h.byName, h.group⟩⟩

theorem SelfContained.exists_read {text : String} (h : SelfContained text) :
    ∃ regex body, Regex.read text.toList = .ok regex ∧ regex.pattern = .group 1 body := by
  obtain ⟨regex, hread, hgroup⟩ := h.group
  refine ⟨regex, ?_⟩
  cases hresult : Regex.read text.toList with
  | error fault =>
    rw [hresult] at hread
    cases hread
  | ok found =>
    rw [hresult] at hread
    cases hread
    unfold Pattern.isGroup at hgroup
    split at hgroup
    next body hpattern => exact ⟨body, rfl, hpattern⟩
    · cases hgroup

/-- A named text can stand among others: it is self-contained, and opens a group with the name. -/
structure StandsAmong (entry : String × String) : Prop extends SelfContained entry.2 where
  opens : ∃ after, entry.2.toList = ReadM.openingOf entry.1 ++ after
  name : '>' ∉ entry.1.toList ∧ '\\' ∉ entry.1.toList

/-- The name of a group. -/
def nameAmong (names : List (String × Nat)) (index : Nat) : Option String :=
  (names.find? (·.2 == index)).map (·.1)

namespace ReadM

/-- The numbers of names are those of groups that have been opened. -/
def NamesGroups (s : Reading) : Prop :=
  ∀ entry ∈ s.names, entry.2 ≤ s.groups.length

theorem find?_of_lt {names before others : List (String × Nat)} {name : String} {index : Nat}
    (hnames : before ++ (name, index) :: others <+: names)
    (hbefore : ∀ entry ∈ before, entry.2 < index) :
    names.find? (·.2 == index) = some (name, index) := by
  obtain ⟨more, rfl⟩ := hnames
  rw [List.append_assoc, List.find?_append, List.find?_eq_none.2, Option.none_or, List.cons_append,
    List.find?_cons_of_pos]
  · exact beq_self_eq_true index
  · intro entry hentry hindex
    exact (hbefore entry hentry).ne (beq_iff_eq.1 hindex)

/-- The first sequence of a joined text is that of its first part. -/
theorem run_sequence_joined {entry : String × String} (hentry : StandsAmong entry) {offset fuel : Nat}
    {s u : Reading} {p : Pattern} {tokens after : List PatternToken}
    (htokens : PatternToken.ofChars? 0 entry.2.toList = some tokens)
    (hrest : s.rest = tokens.map (·.moved offset) ++ after)
    (hbar : ∀ token ∈ after.head?, token.is '|')
    (hnames : NamesGroups s) (h : (sequence fuel .none []).run s = .ok (p, u)) :
    u.rest = after ∧ NamesGroups u ∧ s.names <+: u.names ∧
      ∀ names, u.names <+: names → HoldsAmong (nameAmong names) entry p := by
  obtain ⟨after', hopens⟩ := hentry.opens
  obtain ⟨regex, body, hread, hgroup⟩ := hentry.exists_read
  have hread' := hread
  rw [hopens] at hread' htokens
  obtain ⟨rest, size, fuel', t, htokens', halone, hend, -⟩ :=
    run_sequence_of_read hentry.name.2 hread' hgroup
  obtain rfl := Option.some.inj (htokens.symm.trans htokens')
  have hbyName := hentry.byName _ (hopens ▸ htokens)
  obtain ⟨hp, hu⟩ := run_sequence_among ⟨offset, s.groups, s.names, after, [(entry.1, 1)], hbar⟩
    hentry.name.1 rfl (refersByName_of_suffix (List.suffix_append _ _) hbyName) halone hrest rfl rfl
    rfl h
  refine ⟨?_, ?_, ?_, ?_⟩
  · rw [hu.rest, hend]
    rfl
  · intro named hnamed
    rw [hu.groups, List.length_append]
    rw [hu.names] at hnamed
    rcases List.mem_append.1 hnamed with hnamed | hnamed
    · exact (hnames named hnamed).trans (Nat.le_add_right _ _)
    · obtain ⟨alone, hmem, rfl⟩ := List.mem_map.1 hnamed
      rw [Nat.add_comm]
      exact Nat.add_le_add_left (hu.indices alone hmem).2 _
  · rw [hu.names]
    exact List.prefix_append _ _
  · intro names hstarts
    obtain ⟨others, hothers⟩ := hu.known
    rw [hu.names, ← hothers] at hstarts
    refine ⟨regex, body, s.groups.length, hread, hgroup, hp.eq, ?_⟩
    rw [nameAmong, find?_of_lt hstarts fun named hnamed => ?_]
    · rfl
    · rw [Nat.add_comm]
      exact Nat.lt_succ_of_le (hnames named hnamed)

/-- The tokens of a joined text that has one part only. -/
theorem rest_of_joined_singleton {entry : String × String} {offset : Nat}
    {tokens rest : List PatternToken} (htoken : PatternToken.ofChars? 0 entry.2.toList = some tokens)
    (h : PatternToken.ofChars? offset (['|'].intercalate ([entry].map (·.2.toList))) = some rest) :
    rest = tokens.map (·.moved offset) ++ [] := by
  rw [List.map_singleton, List.intercalate_singleton, PatternToken.ofChars?_at htoken offset] at h
  rw [List.append_nil]
  exact (Option.some.inj h).symm

/-- The tokens of a joined text: those of its first part, a bar, and those of the other parts. -/
theorem exists_rest_of_joined_cons {entry next : String × String} {entries : List (String × String)}
    {offset : Nat} {tokens rest : List PatternToken}
    (htoken : PatternToken.ofChars? 0 entry.2.toList = some tokens)
    (h : PatternToken.ofChars? offset
      (['|'].intercalate ((entry :: next :: entries).map (·.2.toList))) = some rest) :
    ∃ others, PatternToken.ofChars? (offset + entry.2.toList.length + 1)
        (['|'].intercalate ((next :: entries).map (·.2.toList))) = some others ∧
      rest = tokens.map (·.moved offset) ++
        ⟨offset + entry.2.toList.length, '|', false⟩ :: others := by
  rw [List.map_cons, List.map_cons, List.intercalate_cons_cons, List.append_assoc,
    PatternToken.ofChars?_append (PatternToken.ofChars?_at htoken offset), List.singleton_append,
    PatternToken.ofChars?_cons (by decide), Option.map_map, Option.map_eq_some_iff] at h
  obtain ⟨others, hothers, hrest⟩ := h
  exact ⟨others, hothers, hrest.symm⟩

/-- The text of several parts with a bar between each two of them is read as a choice of what the parts
are by themselves. -/
theorem run_alternatives_joined {entries : List (String × String)} (hne : entries ≠ [])
    (hentries : ∀ entry ∈ entries, StandsAmong entry) {offset fuel : Nat} {s t : Reading} {p : Pattern}
    (htokens : PatternToken.ofChars? offset (['|'].intercalate (entries.map (·.2.toList))) =
      some s.rest)
    (hnames : NamesGroups s) (h : (alternatives fuel .none).run s = .ok (p, t)) :
    s.names <+: t.names ∧ ∃ ps, ps ≠ [] ∧ p = .choice ps ∧
      List.Forall₂ (HoldsAmong (nameAmong t.names)) entries ps := by
  induction entries generalizing offset fuel s t p with
  | nil => exact absurd rfl hne
  | cons entry entries ih =>
    obtain ⟨hentry, hentries⟩ := List.forall_mem_cons.1 hentries
    cases fuel with
    | zero => cases h
    | succ fuel =>
      rw [alternatives] at h
      obtain ⟨first, u, hfirst, h⟩ := run_bind_eq_ok.1 h
      obtain ⟨more, v, haccept, h⟩ := run_bind_eq_ok.1 h
      have htoken : ∃ tokens, PatternToken.ofChars? 0 entry.2.toList = some tokens := by
        obtain ⟨regex, -, hread, -⟩ := hentry.exists_read
        obtain ⟨tokens, -, htokens, -⟩ := run_of_read hread
        exact ⟨tokens, htokens⟩
      obtain ⟨tokens, htoken⟩ := htoken
      cases entries with
      | nil =>
        have hrest := rest_of_joined_singleton htoken htokens
        obtain ⟨hend, -, hstarts, hholds⟩ :=
          run_sequence_joined hentry htoken hrest (by rintro _ ⟨⟩) hnames hfirst
        obtain ⟨hmore, hv⟩ := rest_eq_nil_of_run_accept haccept hend
        rw [hmore, hv] at h
        cases h
        exact ⟨hstarts, [p], List.cons_ne_nil _ _, rfl,
          .cons (hholds _ List.prefix_rfl) .nil⟩
      | cons next entries =>
        obtain ⟨others, hothers, hrest⟩ := exists_rest_of_joined_cons htoken htokens
        obtain ⟨hbar, hu, hstarts, hholds⟩ :=
          run_sequence_joined hentry htoken hrest (by rintro _ ⟨⟩; rfl) hnames hfirst
        rw [run_accept, hbar] at haccept
        cases haccept
        obtain ⟨q, w, hq, h⟩ := run_bind_eq_ok.1 h
        cases h
        obtain ⟨hstarts', ps, hps, rfl, hholds'⟩ :=
          ih (List.cons_ne_nil _ _) hentries (s := { u with rest := others }) hothers hu hq
        refine ⟨hstarts.trans hstarts', first :: ps, List.cons_ne_nil _ _, ?_,
          .cons (hholds _ hstarts') hholds'⟩
        cases ps with
        | nil => exact absurd rfl hps
        | cons => rfl

end ReadM

end Precedence
