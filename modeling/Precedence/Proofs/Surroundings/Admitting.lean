import Mathlib
import Precedence.Proofs.Surroundings.Joining
import Precedence.Proofs.Surroundings.Progress

/-!
# Texts that can be joined

Texts that are patterns by themselves make a pattern when they are joined with bars between them, if
each of them opens a group with a name, if they refer to groups by name only, and if no two of them have
groups with the same name.

## Main definitions

- `groupNames` — the names of the groups of a text that is a pattern
- `Joins` — a text that is a pattern, opens a group with a name, and refers to groups by name only

## Main statements

- `ReadM.exists_run_alternatives` — the alternatives of a text are read among others
- `ReadM.exists_run_alternatives_joined` — those of a joined text are read
- `exists_read_joined` — a joined text is a pattern
-/

namespace Precedence

/-- The names of the groups of a text that is a pattern. -/
def groupNames (text : String) : List String :=
  match Regex.read text.toList with
  | .ok regex => regex.names.map (·.1)
  | .error _ => []

/-- A named text is a pattern by itself, opens a group with the name, and refers to groups by name
only. -/
structure Joins (entry : String × String) : Prop where
  reads : (Regex.read entry.2.toList).isOk
  opens : ∃ after, entry.2.toList = ReadM.openingOf entry.1 ++ after
  name : '>' ∉ entry.1.toList ∧ '\\' ∉ entry.1.toList
  byName : ∀ tokens ∈ PatternToken.ofChars? 0 entry.2.toList, refersByName tokens

/-- Nothing has been read that has to be checked at the end, and no look-behind is being read. -/
structure Reading.Unburdened (s : Reading) : Prop where
  behind : s.behind = none
  conditions : s.conditions = []
  variableBehind : s.variableBehind = false

variable {around : Surroundings}

theorem Reading.Near.unburdened {s s' : Reading} (h : Reading.Near around s s')
    (hbehind : s.behind = none) (hvariable : s.variableBehind = false) : s'.Unburdened where
  behind := by rw [h.behind, hbehind]; rfl
  conditions := h.conditions.2
  variableBehind := h.variableBehind.trans hvariable

namespace ReadM

variable {s s' t : Reading} {flags : Flags} {p : Pattern}

/-! ### Alternatives among others -/

/-- The alternatives after the first one. -/
def furtherAlternatives (fuel : Nat) (flags : Flags) (first : Pattern) : ReadM Pattern := do
  if ← accept '|' then return .alt first (← alternatives fuel flags) else return first

theorem alternatives_succ (fuel : Nat) (flags : Flags) :
    alternatives (fuel + 1) flags = sequence fuel flags [] >>= furtherAlternatives fuel flags := by
  rw [alternatives]
  rfl

theorem furtherAlternatives_keeps (fuel : Nat) (flags : Flags) (first : Pattern) :
    Keeps (furtherAlternatives fuel flags first) := by
  refine (accept_keeps '|').bind fun more => ?_
  split
  · exact ((keepsAll fuel).alternatives flags).bind fun _ => .pure _
  · exact .pure _

/-- The alternatives of a text by itself are read among others, if what comes after them is read in as
many steps as are left. -/
theorem exists_run_alternatives {P : Reading → Prop} {fuel fuel' : Nat} (extra : Nat)
    (hverbose : flags.verbose = false) (hs : Reading.Near around s s')
    (h : (alternatives fuel flags).run s = .ok (p, t)) (hapart : around.Apart t.names)
    (hnext : ∀ u' first n, Reading.Near around t u' → extra ≤ n →
      ∃ q w, (furtherAlternatives n flags first).run u' = .ok (q, w) ∧ P w)
    (hfuel : fuel + extra ≤ fuel') :
    ∃ q w, (alternatives fuel' flags).run s' = .ok (q, w) ∧ P w := by
  induction fuel generalizing s s' p fuel' with
  | zero => cases h
  | succ fuel ih =>
    obtain ⟨n, rfl, hn⟩ : ∃ n, fuel' = n + 1 ∧ fuel + extra ≤ n := ⟨fuel' - 1, by omega, by omega⟩
    rw [alternatives_succ] at h
    rw [alternatives_succ]
    obtain ⟨first, u, hfirst, hfurther⟩ := run_bind_eq_ok.1 h
    have hnames := (furtherAlternatives_keeps fuel flags first).names u p t hfurther
    obtain ⟨first', u', -, hu, hfirst'⟩ := (keepsUp around fuel).sequence n flags [] []
      (by omega) .nil s s' hs first u hfirst (hapart.of_prefix hnames)
      fun hyes => absurd hyes (Bool.eq_false_iff.1 hverbose)
    obtain ⟨more, v, hbar, hrest⟩ := run_bind_eq_ok.1 hfurther
    cases more with
    | false =>
      obtain rfl := run_accept_false hbar
      cases hrest
      obtain ⟨q, w, hq, hP⟩ := hnext u' first' n hu (by omega)
      exact ⟨q, w, run_bind_eq_ok.2 ⟨_, _, hfirst', hq⟩, hP⟩
    | true =>
      have hne : u.rest ≠ [] := by
        obtain ⟨token, rest, hrest, -, -⟩ := run_accept_true hbar
        rw [hrest]
        exact List.cons_ne_nil _ _
      obtain ⟨_, v', rfl, hv, hbar'⟩ :=
        (accept_takesAt hu.rest (Or.inr hne)).followsAt hu _ _ hbar
      obtain ⟨q, w, hq, ⟨⟩⟩ := run_bind_eq_ok.1 hrest
      obtain ⟨q', w', hq', hP⟩ := ih hv hq hn
      exact ⟨_, w', run_bind_eq_ok.2 ⟨_, _, hfirst', run_bind_eq_ok.2 ⟨_, _, hbar',
        run_bind_eq_ok.2 ⟨_, _, hq', rfl⟩⟩⟩, hP⟩

/-! ### Whole patterns -/

/-- A text that opens a named group is read as alternatives, with as many steps as its length allows. -/
theorem run_wholePattern_named {pos : Nat} {name : String} {rest : List PatternToken}
    (hrest : s.rest = PatternToken.plain pos (openingOf name) ++ rest) :
    wholePattern.run s = .ok (p, t) ↔
      (alternatives (4 * s.rest.length + 4) .none).run s = .ok (p, t) ∧ t.rest = [] ∧
        t.conditions.any (t.groups.length < ·) = false ∧ t.variableBehind = false := by
  have hleading : (leadingFlags s.rest.length .none).run s = .ok (.none, s) :=
    run_leadingFlags_named rfl hrest
  constructor
  · intro h
    obtain ⟨_, _, ⟨⟩, h⟩ := run_bind_eq_ok.1 h
    obtain ⟨flags, u, hflags, h⟩ := run_bind_eq_ok.1 h
    rw [hleading] at hflags
    cases hflags
    obtain ⟨q, v, hq, h⟩ := run_bind_eq_ok.1 h
    obtain ⟨_, _, ⟨⟩, h⟩ := run_bind_eq_ok.1 h
    split at h
    · cases h
    next hend =>
      split at h
      · cases h
      next hconditions =>
        split at h
        · cases h
        next hvariable =>
          cases h
          exact ⟨hq, by simpa using hend, Bool.eq_false_iff.2 hconditions, Bool.eq_false_iff.2 hvariable⟩
  · rintro ⟨h, hend, hconditions, hvariable⟩
    refine run_bind_eq_ok.2 ⟨_, _, rfl, run_bind_eq_ok.2 ⟨_, _, hleading, ?_⟩⟩
    refine run_bind_eq_ok.2 ⟨_, _, h, run_bind_eq_ok.2 ⟨_, _, rfl, ?_⟩⟩
    rw [hend, hconditions, hvariable]
    rfl

theorem read_of_run {text : List Char} {tokens : List PatternToken}
    (htokens : PatternToken.ofChars? 0 text = some tokens)
    (h : wholePattern.run ⟨tokens, text.length, [], [], none, [], false⟩ = .ok (p, t)) :
    Regex.read text = .ok ⟨p, t.names⟩ := by
  rw [Regex.read, htokens]
  simp only [h]
  rfl

end ReadM

/-- What is known of a text that can be joined: all of it is read as alternatives. -/
theorem Joins.exists_run {entry : String × String} (h : Joins entry) :
    ∃ rest size p t,
      PatternToken.ofChars? 0 entry.2.toList =
        some (PatternToken.plain 0 (ReadM.openingOf entry.1) ++ rest) ∧
      (ReadM.alternatives (4 * (PatternToken.plain 0 (ReadM.openingOf entry.1) ++ rest).length + 4)
          .none).run
        ⟨PatternToken.plain 0 (ReadM.openingOf entry.1) ++ rest, size, [], [], none, [], false⟩ =
        .ok (p, t) ∧
      t.rest = [] ∧ t.variableBehind = false ∧ groupNames entry.2 = t.names.map (·.1) := by
  obtain ⟨after, hopens⟩ := h.opens
  have hreads := h.reads
  cases hread : Regex.read entry.2.toList with
  | error fault =>
    rw [hread] at hreads
    cases hreads
  | ok regex =>
    obtain ⟨tokens, t, htokens, hwhole, hnames⟩ := ReadM.run_of_read hread
    have hstart := htokens
    rw [hopens] at hstart
    obtain ⟨rest, rfl⟩ := ReadM.tokens_of_openingOf h.name.2 hstart
    obtain ⟨hrun, hend, -, hvariable⟩ := (ReadM.run_wholePattern_named rfl).1 hwhole
    refine ⟨rest, _, _, t, htokens, hrun, hend, hvariable, ?_⟩
    rw [groupNames, hread, ← hnames]

/-- The name of the group that a text opens is one of its names. -/
theorem Joins.mem_groupNames {entry : String × String} (h : Joins entry) :
    entry.1 ∈ groupNames entry.2 := by
  obtain ⟨rest, size, p, t, -, hrun, -, -, hnames⟩ := h.exists_run
  rw [ReadM.alternatives_succ] at hrun
  obtain ⟨first, u, hfirst, hfurther⟩ := ReadM.run_bind_eq_ok.1 hrun
  obtain ⟨-, before, fuel, inner, v, hinner, hsequence⟩ :=
    ReadM.run_sequence_named h.name.1 rfl rfl hfirst
  have hstart : [(entry.1, 1)] <+: t.names :=
    (((ReadM.keepsAll before).captured _ _).names _ _ _ hinner).trans
      ((((ReadM.keepsAll fuel).sequence _ _).names _ _ _ hsequence).trans
        ((ReadM.furtherAlternatives_keeps _ _ first).names _ _ _ hfurther))
  rw [hnames]
  exact List.mem_map_of_mem (hstart.subset (List.mem_singleton_self _))

/-! ### Joined texts -/

namespace ReadM

/-- A text that is read by itself is about to be read among others. -/
theorem near_start {tokens after : List PatternToken} {offset : Nat} (size : Nat) {s : Reading}
    (hbar : ∀ token ∈ after.head?, token.is '|') (hbyName : refersByName tokens)
    (hrest : s.rest = tokens.map (·.moved offset) ++ after) (hs : s.Unburdened) :
    Reading.Near ⟨offset, s.groups, s.names, after, [], hbar⟩
      ⟨tokens, size, [], [], none, [], false⟩ s where
  rest := hrest
  byName := hbyName
  groups := (List.append_nil _).symm
  names := (List.append_nil _).symm
  known := List.prefix_rfl
  fresh := by rintro _ ⟨⟩
  indices := by rintro _ ⟨⟩
  behind := hs.behind
  conditions := ⟨rfl, hs.conditions⟩
  variableBehind := hs.variableBehind

/-- A name is still not known after groups with other names have been read. -/
theorem lookup_append_eq_none {known read : List (String × Nat)} {name : String} (f : Nat → Nat)
    (hknown : known.lookup name = none) (hread : name ∉ read.map (·.1)) :
    (known ++ read.map fun entry => (entry.1, f entry.2)).lookup name = none := by
  rw [List.lookup_append, hknown, Option.none_or, lookup_map_snd f, Option.map_eq_none_iff,
    List.lookup_eq_none_iff]
  intro entry hentry
  rw [bne_iff_ne]
  rintro rfl
  exact hread (List.mem_map_of_mem hentry)

/-- The text of several parts with a bar between each two of them is read, in as many steps as its
length allows. -/
theorem exists_run_alternatives_joined {entries : List (String × String)} (hne : entries ≠ [])
    (hentries : ∀ entry ∈ entries, Joins entry)
    (hapart : entries.Pairwise fun a b => (groupNames a.2).Disjoint (groupNames b.2)) {offset fuel : Nat}
    {s : Reading}
    (htokens : PatternToken.ofChars? offset (['|'].intercalate (entries.map (·.2.toList))) =
      some s.rest)
    (hs : s.Unburdened)
    (hfresh : ∀ entry ∈ entries, ∀ name ∈ groupNames entry.2, s.names.lookup name = none)
    (hfuel : 4 * s.rest.length + 4 ≤ fuel) :
    ∃ p t, (alternatives fuel .none).run s = .ok (p, t) ∧ t.rest = [] ∧ t.Unburdened := by
  induction entries generalizing offset fuel s with
  | nil => exact absurd rfl hne
  | cons entry entries ih =>
    obtain ⟨hentry, hentries⟩ := List.forall_mem_cons.1 hentries
    obtain ⟨hfresh, hfreshLater⟩ := List.forall_mem_cons.1 hfresh
    obtain ⟨hapart, hapartLater⟩ := List.pairwise_cons.1 hapart
    obtain ⟨rest, size, p, t, htoken, hrun, hend, hvariable, hnames⟩ := hentry.exists_run
    have hbyName := hentry.byName _ htoken
    generalize PatternToken.plain 0 (openingOf entry.1) ++ rest = tokens at htoken hrun hbyName
    have hbehind : t.behind = none := ((keepsAll _).alternatives _ _ _ _ hrun).behind
    have hknown {around : Surroundings} (haround : around.names = s.names) : around.Apart t.names := by
      intro named hnamed
      rw [haround]
      exact hfresh named.1 (hnames ▸ List.mem_map_of_mem hnamed)
    cases entries with
    | nil =>
      have hrest := rest_of_joined_singleton htoken htokens
      have hlength : s.rest.length = tokens.length := by simp [hrest]
      have hnear := near_start size (by rintro _ ⟨⟩) hbyName hrest hs
      refine exists_run_alternatives 0 (P := fun w => w.rest = [] ∧ w.Unburdened) rfl hnear
        hrun (hknown rfl) (fun u first n hu _ => ?_) (by omega)
      have hrest : u.rest = [] := by
        rw [hu.rest, hend]
        rfl
      refine ⟨first, u, run_bind_eq_ok.2 ⟨false, u, ?_, rfl⟩, hrest, hu.unburdened hbehind hvariable⟩
      rw [run_accept, hrest]
      rfl
    | cons next entries =>
      obtain ⟨others, hothers, hrest⟩ := exists_rest_of_joined_cons htoken htokens
      have hlength : s.rest.length = tokens.length + 1 + others.length := by
        rw [hrest]
        simp only [List.length_append, List.length_map, List.length_cons]
        omega
      have hnear := near_start size (by rintro _ ⟨⟩; rfl) hbyName hrest hs
      refine exists_run_alternatives (4 * others.length + 4)
        (P := fun w => w.rest = [] ∧ w.Unburdened) rfl hnear hrun (hknown rfl)
        (fun u first n hu hn => ?_) (by omega)
      have hrest : u.rest = ⟨offset + entry.2.toList.length, '|', false⟩ :: others := by
        rw [hu.rest, hend]
        rfl
      have hlater : ∀ entry ∈ next :: entries, ∀ name ∈ groupNames entry.2,
          u.names.lookup name = none := by
        intro later hlater name hname
        rw [hu.names]
        refine lookup_append_eq_none (· + s.groups.length) (hfreshLater later hlater name hname) ?_
        rw [← hnames]
        exact fun hmem => hapart later hlater hmem hname
      obtain ⟨q, w, hq, hw⟩ := ih (List.cons_ne_nil _ _) hentries hapartLater
        (s := { u with rest := others }) hothers { (hu.unburdened hbehind hvariable) with } hlater hn
      refine ⟨.alt first q, w, run_bind_eq_ok.2 ⟨true, { u with rest := others }, ?_,
        run_bind_eq_ok.2 ⟨q, w, hq, rfl⟩⟩, hw⟩
      rw [run_accept, hrest]
      rfl

end ReadM

/-- Texts joined with bars have tokens if each of them has. -/
theorem PatternToken.exists_ofChars?_joined {texts : List (List Char)}
    (h : ∀ text ∈ texts, ∃ tokens, ofChars? 0 text = some tokens) (offset : Nat) :
    ∃ tokens, ofChars? offset (['|'].intercalate texts) = some tokens := by
  induction texts generalizing offset with
  | nil => exact ⟨[], rfl⟩
  | cons text texts ih =>
    obtain ⟨⟨tokens, htokens⟩, h⟩ := List.forall_mem_cons.1 h
    have hmoved := ofChars?_at htokens offset
    cases texts with
    | nil =>
      rw [List.intercalate_singleton]
      exact ⟨_, hmoved⟩
    | cons next texts =>
      obtain ⟨others, hothers⟩ := ih h (offset + text.length + 1)
      rw [List.intercalate_cons_cons, List.append_assoc, ofChars?_append hmoved,
        List.singleton_append, ofChars?_cons (by decide), hothers]
      exact ⟨_, rfl⟩

/-- Texts that can be joined make a pattern if no two of them have groups with the same name. -/
theorem exists_read_joined {entries : List (String × String)} (hne : entries ≠ [])
    (hentries : ∀ entry ∈ entries, Joins entry)
    (hapart : entries.Pairwise fun a b => (groupNames a.2).Disjoint (groupNames b.2)) :
    ∃ regex, Regex.read (['|'].intercalate (entries.map (·.2.toList))) = .ok regex := by
  obtain ⟨tokens, htokens⟩ : ∃ tokens,
      PatternToken.ofChars? 0 (['|'].intercalate (entries.map (·.2.toList))) = some tokens := by
    refine PatternToken.exists_ofChars?_joined (fun text htext => ?_) 0
    obtain ⟨entry, hentry, rfl⟩ := List.mem_map.1 htext
    obtain ⟨_, _, _, _, htokens, -⟩ := (hentries entry hentry).exists_run
    exact ⟨_, htokens⟩
  obtain ⟨name, rest, hrest⟩ : ∃ name rest,
      tokens = PatternToken.plain 0 (ReadM.openingOf name) ++ rest := by
    obtain ⟨entry, hmem, after, hafter⟩ := exists_intercalate_eq hne
    have hentry := hentries entry hmem
    obtain ⟨after', hopens⟩ := hentry.opens
    rw [hafter, hopens, List.append_assoc] at htokens
    exact ⟨entry.1, ReadM.tokens_of_openingOf hentry.name.2 htokens⟩
  obtain ⟨p, t, hrun, hend, ht⟩ := ReadM.exists_run_alternatives_joined hne hentries hapart
    (s := ⟨tokens, _, [], [], none, [], false⟩) htokens ⟨rfl, rfl, rfl⟩ (fun _ _ _ _ => rfl) le_rfl
  refine ⟨_, ReadM.read_of_run htokens ((ReadM.run_wholePattern_named hrest).2 ⟨hrun, hend, ?_, ?_⟩)⟩
  · rw [ht.conditions]
    rfl
  · exact ht.variableBehind

end Precedence
