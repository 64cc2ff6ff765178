import Mathlib
import Precedence.Proofs.Lines
import Precedence.Proofs.OneByOne

/-!
# The range that a lexer covers

The pairs of a lexer stand one after the other from the start of the range. They reach its end, unless
lexing stops with a fault before that.

## Main definitions

- `Tiles` — pairs that stand one after the other, none of them empty

## Main statements

- `exists_leaf_of_next` — the pair at a position starts there, and ends within the range
- `rule_ne_invalid_after` — no invalid pair follows an invalid one
- `exists_tiles_lex` — the pairs of a lexer cover the range up to where it stops
- `build_covers` — what the lexer of a definition covers, and what it leaves out

## Design notes

A pair that a group makes may be of the invalid kind if the group has the name of that kind. Then the
pairs still cover the range, but two of them that are invalid may stand side by side.
-/

namespace Precedence

variable {κ : Type}

/-! ### Pairs that stand one after the other -/

/-- The pairs stand one after the other from `start` to `stop`, and none of them is empty. -/
inductive Tiles : Nat → Nat → List (Pair κ Int) → Prop
  | nil (pos : Nat) : Tiles pos pos []
  | cons {kind : κ} {start middle stop : Nat} {pairs : List (Pair κ Int)} (hlt : start < middle)
      (h : Tiles middle stop pairs) : Tiles start stop (.leaf kind start middle :: pairs)

theorem Tiles.le {start stop : Nat} {pairs : List (Pair κ Int)} (h : Tiles start stop pairs) :
    start ≤ stop := by
  induction h with
  | nil pos => exact le_rfl
  | cons hlt _ ih => omega

/-- The texts of the pairs make up the text of the range. -/
theorem Tiles.flatMap_slice (source : Source) {start stop : Nat} {pairs : List (Pair κ Int)}
    (h : Tiles start stop pairs) :
    pairs.flatMap (fun pair => source.slice (.index pair.start) (.index pair.stop)) =
      source.slice (.index start) (.index stop) := by
  induction h with
  | nil pos => simp [Source.slice, Source.extract, Bound.index?]
  | @cons kind start middle stop pairs hlt h ih =>
    rw [List.flatMap_cons, ih]
    exact slice_append source hlt.le h.le

/-! ### One pair after another -/

/-- A match that is found starts at or after the position of the search, and is the match at its
start. -/
theorem matchAt?_of_searchFrom? {subject : Subject} {p : Pattern} {count pos : Nat} {found : Match}
    (h : p.searchFrom? subject count pos = some found) :
    pos ≤ found.start ∧ found.start ≤ pos + count ∧
      p.matchAt? subject found.start = some found := by
  have hhere : p.matchAt? subject pos = some found → pos ≤ found.start ∧
      found.start ≤ pos + count ∧ p.matchAt? subject found.start = some found := by
    intro hmatch
    have hstart := start_of_matchAt? hmatch
    rw [hstart]
    exact ⟨le_rfl, Nat.le_add_right pos count, hmatch⟩
  induction count generalizing pos with
  | zero => exact hhere h
  | succ count ih =>
    rw [Pattern.searchFrom?] at h
    cases hmatch : p.matchAt? subject pos with
    | some first =>
      rw [hmatch] at h
      obtain rfl : first = found := Option.some.inj h
      exact hhere hmatch
    | none =>
      rw [hmatch] at h
      obtain ⟨hle, hcount, hfound⟩ := ih h fun hmatch => by
        have hstart := start_of_matchAt? hmatch
        rw [hstart]
        exact ⟨le_rfl, Nat.le_add_right _ _, hmatch⟩
      exact ⟨by omega, by omega, hfound⟩

section

variable {lexer : Lexer κ} {text : Array Char} {pos stop : Nat}

/-- A match that is found in a range is within the range, and is found again from its start. -/
theorem search?_eq_some {p : Pattern} {found : Match} (hlt : pos < stop) (hstop : stop ≤ text.size)
    (h : p.search? text pos stop = some found) :
    pos ≤ found.start ∧ found.start ≤ found.stop ∧ found.stop ≤ stop ∧
      p.search? text found.start stop = some found := by
  have hsize : min stop text.size = stop := min_eq_left hstop
  rw [search?_eq_searchFrom? p hlt.le (by omega), hsize] at h
  obtain ⟨hle, hcount, hmatch⟩ := matchAt?_of_searchFrom? h
  obtain ⟨hspan, hend⟩ := le_stop_of_matchAt? hmatch
  dsimp only [seen] at hend
  refine ⟨hle, hspan, by omega, ?_⟩
  rw [search?_eq_searchFrom? p (by omega) (by omega)]
  exact searchFrom?_of_matchAt? hmatch _

/-- The pair at a position starts there, is not empty, and ends within the range. -/
theorem exists_leaf_of_next {pair : Pair κ Int} (hlt : pos < stop) (hstop : stop ≤ text.size)
    (h : lexer.next text pos stop = .ok pair) :
    ∃ (kind : κ) (middle : Nat), pair = .leaf kind pos middle ∧ pos < middle ∧ middle ≤ stop := by
  rw [Lexer.next] at h
  cases hsearch : lexer.pattern.search? text pos stop with
  | none =>
    -- Nothing matches in the rest of the range, which is invalid.
    rw [hsearch] at h
    cases h
    exact ⟨lexer.invalid, stop, rfl, hlt, le_rfl⟩
  | some found =>
    obtain ⟨hle, hspan, hend, -⟩ := search?_eq_some hlt hstop hsearch
    rw [hsearch] at h
    dsimp only at h
    split at h
    next hlater =>
      cases h
      exact ⟨lexer.invalid, found.start, rfl, by exact_mod_cast hlater, hspan.trans hend⟩
    next hhere =>
      -- The match is here, and an empty one would be refused.
      have hstart : found.start = pos := by omega
      split at h
      · cases h
      next hne =>
        split at h
        next kind hkind =>
          cases h
          exact ⟨kind, found.stop, by rw [hstart], by omega, hend⟩
        · cases h

/-- If no group is of the invalid kind, no invalid pair follows an invalid one: it ends where there is
a match, or at the end of the range. -/
theorem rule_ne_invalid_after (hkinds : ∀ index, lexer.kindOf index ≠ some lexer.invalid)
    {middle : Nat} {pair : Pair κ Int} (hlt : pos < stop) (hstop : stop ≤ text.size)
    (h : lexer.next text pos stop = .ok (.leaf lexer.invalid pos middle)) (hmiddle : middle < stop)
    (hpair : lexer.next text middle stop = .ok pair) : pair.rule ≠ lexer.invalid := by
  have hgroup : ∀ found : Match, found.lastClosed.bind lexer.kindOf ≠ some lexer.invalid := by
    intro found hkind
    obtain ⟨index, -, hindex⟩ := Option.bind_eq_some_iff.1 hkind
    exact hkinds index hindex
  rw [Lexer.next] at h
  cases hsearch : lexer.pattern.search? text pos stop with
  | none =>
    rw [hsearch] at h
    simp only [Pair.leaf, Except.ok.injEq, Pair.mk.injEq] at h
    omega
  | some found =>
    obtain ⟨-, -, -, hagain⟩ := search?_eq_some hlt hstop hsearch
    rw [hsearch] at h
    dsimp only at h
    split at h
    next hlater =>
      -- The match that ends the invalid pair is found again at its own start.
      have hmiddle : middle = found.start := by
        simp only [Pair.leaf, Except.ok.injEq, Pair.mk.injEq] at h
        omega
      rw [hmiddle, Lexer.next, hagain] at hpair
      dsimp only at hpair
      rw [if_neg (lt_irrefl _)] at hpair
      split at hpair
      · cases hpair
      · split at hpair
        next kind hkind =>
          cases hpair
          rintro rfl
          exact hgroup found hkind
        · cases hpair
    next hhere =>
      split at h
      · cases h
      · split at h
        next kind hkind =>
          simp only [Pair.leaf, Except.ok.injEq, Pair.mk.injEq] at h
          rw [h.1] at hkind
          exact absurd hkind (hgroup found)
        · cases h

/-! ### All pairs of a range -/

/-- The pairs of a lexer cover the range up to where lexing stops; without a fault, that is the end. -/
theorem exists_tiles_lexFrom (hstop : stop ≤ text.size) {fuel : Nat} (hle : pos ≤ stop)
    (hfuel : stop - pos ≤ fuel) :
    ∃ reached ≤ stop, Tiles pos reached (lexer.lexFrom text stop (fun _ => false) fuel pos).pairs ∧
      ((lexer.lexFrom text stop (fun _ => false) fuel pos).fault = none → reached = stop) := by
  induction fuel generalizing pos with
  | zero =>
    obtain rfl : pos = stop := by omega
    exact ⟨pos, le_rfl, .nil pos, fun _ => rfl⟩
  | succ fuel ih =>
    by_cases hlt : pos < stop
    · have hltInt : (pos : Int) < stop := by exact_mod_cast hlt
      cases hnext : lexer.next text pos stop with
      | error fault =>
        rw [Lexer.lexFrom_of_error hltInt hnext]
        exact ⟨pos, hle, .nil pos, nofun⟩
      | ok pair =>
        obtain ⟨kind, middle, rfl, hmiddle, hend⟩ := exists_leaf_of_next hlt hstop hnext
        obtain ⟨reached, hreached, htiles, hfault⟩ := ih hend (by omega)
        rw [Lexer.lexFrom_of_ok hltInt hnext]
        exact ⟨reached, hreached, .cons hmiddle htiles, hfault⟩
    · obtain rfl : pos = stop := by omega
      rw [Lexer.lexFrom_of_le le_rfl]
      exact ⟨pos, le_rfl, .nil pos, fun _ => rfl⟩

theorem exists_tiles_lex (lexer : Lexer κ) (hle : pos ≤ stop) (hstop : stop ≤ text.size) :
    ∃ reached ≤ stop, Tiles pos reached (lexer.lex text pos stop).pairs ∧
      ((lexer.lex text pos stop).fault = none → reached = stop) :=
  exists_tiles_lexFrom hstop hle (by omega)

/-- The first pair of a lexer is the one at the position that it starts from. -/
theorem next_of_mem_head? {fuel : Nat} {pair : Pair κ Int}
    (h : pair ∈ (lexer.lexFrom text stop (fun _ => false) fuel pos).pairs.head?) :
    pos < stop ∧ lexer.next text pos stop = .ok pair := by
  cases fuel with
  | zero => exact nomatch h
  | succ fuel =>
    by_cases hlt : (pos : Int) < stop
    · cases hnext : lexer.next text pos stop with
      | error fault =>
        rw [Lexer.lexFrom_of_error hlt hnext] at h
        exact nomatch h
      | ok first =>
        rw [Lexer.lexFrom_of_ok hlt hnext] at h
        obtain rfl : first = pair := Option.some.inj h
        exact ⟨by exact_mod_cast hlt, rfl⟩
    · rw [Lexer.lexFrom_of_le (not_lt.1 hlt)] at h
      exact nomatch h

/-- If no group is of the invalid kind, then no two invalid pairs stand side by side. -/
theorem isChain_lexFrom (hkinds : ∀ index, lexer.kindOf index ≠ some lexer.invalid)
    (hstop : stop ≤ text.size) (fuel : Nat) :
    (lexer.lexFrom text stop (fun _ => false) fuel pos).pairs.IsChain fun a b =>
      ¬ (a.rule = lexer.invalid ∧ b.rule = lexer.invalid) := by
  induction fuel generalizing pos with
  | zero => exact .nil
  | succ fuel ih =>
    by_cases hlt : pos < stop
    · have hltInt : (pos : Int) < stop := by exact_mod_cast hlt
      cases hnext : lexer.next text pos stop with
      | error fault =>
        rw [Lexer.lexFrom_of_error hltInt hnext]
        exact .nil
      | ok pair =>
        obtain ⟨kind, middle, rfl, -, -⟩ := exists_leaf_of_next hlt hstop hnext
        rw [Lexer.lexFrom_of_ok hltInt hnext]
        refine List.IsChain.cons ih ?_
        rintro second hsecond ⟨hkind, hinvalid⟩
        obtain ⟨hmiddle, hsecond⟩ := next_of_mem_head? hsecond
        have hfirst : kind = lexer.invalid := hkind
        rw [hfirst] at hnext
        exact rule_ne_invalid_after hkinds hlt hstop hnext hmiddle hsecond hinvalid
    · rw [Lexer.lexFrom_of_le (by exact_mod_cast not_lt.1 hlt)]
      exact .nil

end

/-- The pairs of a lexer stand one after the other from the start of a range to where lexing stops,
which is the end of the range if there is no fault, and their texts make up the text so far. If no
group of the lexer has the name of the invalid kind, then no two invalid pairs stand side by side. What
is left of the pairs when some kinds are dropped are the other pairs, with the same fault. -/
theorem build_covers {definition : LexerDefinition} {lexer : NamedLexer}
    (hbuild : definition.build = .ok lexer) (source : Source) {start stop : Nat}
    (hle : start ≤ stop) (hstop : stop ≤ source.length) :
    let lexing := lexer.lexer.lex source.text start stop
    (∃ reached ≤ stop, Tiles start reached lexing.pairs ∧
      lexing.pairs.flatMap (fun pair => source.slice (.index pair.start) (.index pair.stop)) =
        source.slice (.index start) (.index reached) ∧
      (lexing.fault = none → reached = stop)) ∧
    ((∀ index, lexer.lexer.kindOf index ≠ some invalidKind) →
      lexing.pairs.IsChain fun a b => ¬ (a.rule = invalidKind ∧ b.rule = invalidKind)) ∧
    ∀ drop, lexer.lexer.lexDropping drop source.text start stop =
      ⟨lexing.pairs.filter fun pair => !drop pair.rule, lexing.fault⟩ := by
  have hinvalid : lexer.lexer.invalid = invalidKind := by
    obtain ⟨-, -, -, regex, -, hlexer⟩ := LexerDefinition.build_eq_ok hbuild
    rw [hlexer]
  obtain ⟨reached, hreached, htiles, hfault⟩ : ∃ reached ≤ stop,
      Tiles start reached (lexer.lexer.lex source.text start stop).pairs ∧
        ((lexer.lexer.lex source.text start stop).fault = none → reached = stop) :=
    exists_tiles_lex lexer.lexer hle hstop
  refine ⟨⟨reached, hreached, htiles, htiles.flatMap_slice source, hfault⟩, fun hkinds => ?_,
    fun drop => Lexer.lexDropping_eq_without drop⟩
  rw [← hinvalid] at hkinds ⊢
  exact isChain_lexFrom hkinds hstop _

/-- What a lexer with two patterns covers of a text that is invalid at its start and in the middle. -/
theorem build_covers_words :
    ∃ lexer, LexerDefinition.build ⟨"", [("a", .text "x+"), ("b", .text "y")]⟩ = .ok lexer ∧
      (∀ index, lexer.lexer.kindOf index ≠ some invalidKind) ∧
      let source := Source.ofString "" "?xx..y" 0
      let lexing := lexer.lexer.lex source.text (0 : Nat) (6 : Nat)
      (∃ reached ≤ 6, Tiles 0 reached lexing.pairs ∧
        lexing.pairs.flatMap (fun pair => source.slice (.index pair.start) (.index pair.stop)) =
          source.slice (.index (0 : Nat)) (.index reached) ∧
        (lexing.fault = none → reached = 6)) ∧
      (lexing.pairs.IsChain fun a b => ¬ (a.rule = invalidKind ∧ b.rule = invalidKind)) ∧
      ∀ drop, lexer.lexer.lexDropping drop source.text (0 : Nat) (6 : Nat) =
        ⟨lexing.pairs.filter fun pair => !drop pair.rule, lexing.fault⟩ := by
  obtain ⟨lexer, hbuild, hpatterns⟩ := exists_eq_ok
    (P := fun lexer : NamedLexer => lexer.patterns.map (·.2) = ["(?P<a>x+)", "(?P<b>y)"])
    (r := LexerDefinition.build ⟨"", [("a", .text "x+"), ("b", .text "y")]⟩)
    (by decide +kernel)
  obtain ⟨regex, hregex, hgroups⟩ := exists_eq_ok
    (P := fun regex : Regex => ∀ entry ∈ regex.names, entry.1 ≠ invalidKind)
    (r := Regex.read "(?P<a>x+)|(?P<b>y)".toList) (by decide +kernel)
  have hnames : ∀ index, lexer.lexer.kindOf index ≠ some invalidKind := by
    intro index hindex
    obtain ⟨-, -, -, joined, hread, hlexer⟩ := LexerDefinition.build_eq_ok hbuild
    rw [hpatterns] at hread
    obtain rfl : regex = joined := Except.ok.inj (hregex.symm.trans hread)
    rw [hlexer] at hindex
    obtain ⟨entry, hentry, hname⟩ := Option.map_eq_some_iff.1 hindex
    exact hgroups entry (List.mem_of_find?_eq_some hentry) hname
  obtain ⟨htiles, hchain, hdrop⟩ :=
    build_covers hbuild (Source.ofString "" "?xx..y" 0) (Nat.zero_le 6) (by decide)
  exact ⟨lexer, hbuild, hnames, htiles, hchain hnames, hdrop⟩

/-- A pattern may close its own group early, and name another one as invalid text is named. Two pairs
of this kind stand side by side. -/
theorem build_not_isChain_closed :
    ∃ lexer, LexerDefinition.build ⟨"", [("a", .text "x)|(?P<invalid>y")]⟩ = .ok lexer ∧
      (lexer.lexer.lex #['y', 'y'] (0 : Nat) (2 : Nat)).fault.isNone ∧
      ¬ (lexer.lexer.lex #['y', 'y'] (0 : Nat) (2 : Nat)).pairs.IsChain
        fun a b => ¬ (a.rule = invalidKind ∧ b.rule = invalidKind) :=
  exists_eq_ok (by decide +kernel)

end Precedence
