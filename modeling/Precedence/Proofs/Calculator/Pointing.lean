import Mathlib
import Precedence.Proofs.Calculator.Complaints
import Precedence.Proofs.Calculator.Scanning
import Precedence.Proofs.Calculator.Unmatched
import Precedence.Proofs.Quoting

/-!
# Where complaints point

A pair of a source that is not blank covers some of the characters before the blanks at its end. A
complaint about a source of one line thus points at columns of that line, and never at the newline.

## Main definitions

- `Source.Stands` — a pair that covers some text before a position, with all pairs inside it

## Main statements

- `exists_chars_of_scans` — no pair but one of blanks covers a blank
- `pervades_stands` — where the pairs of a source stand that is not blank
- `faultText_of_names` — the diagnostic of a complaint about a source of one line
-/

namespace Precedence

/-! ### Blanks -/

section

variable {pos : Nat} {xs rest : List Char} {kind : Kind} {pairs : List Token} {pair : Token}

/-- What the scanner takes has no blanks in it, unless it is blank as a whole. -/
theorem Scanned.isBlank_eq_false (h : Scanned kind xs rest) (hkind : kind ≠ .spaces) :
    ∀ c ∈ xs, isBlank c = false := by
  cases h with
  | spaces => exact absurd rfl hkind
  | num h => exact fun c hc => isBlank_eq_false_of_isNumeralChar (isNumeralChar_of_mem h.1 c hc)
  | @symbol c kind _ h =>
    have hsymbols : ∀ symbol ∈ Kind.symbols, isBlank symbol.1 = false := by decide
    simpa using hsymbols (c, kind) h
  | invalid _ hall _ =>
    intro c hc
    have hstarts := hall c hc
    rw [startsToken, Bool.or_eq_false_iff, Bool.or_eq_false_iff] at hstarts
    exact hstarts.1.1

/-- A pair that is not one of blanks covers characters none of which is blank. -/
theorem exists_chars_of_scans (h : Scans pos xs pairs) (hpair : pair ∈ pairs)
    (hrule : pair.rule ≠ .spaces) :
    ∃ before chars after, xs = before ++ chars ++ after ∧ chars ≠ [] ∧
      (∀ c ∈ chars, isBlank c = false) ∧
      pair.stop = ((pos + (before ++ chars).length : Nat) : Int) := by
  induction h with
  | nil => exact nomatch hpair
  | @cons pos kind chars rest pairs hfirst _ ih =>
    rcases List.mem_cons.1 hpair with rfl | hpair
    · exact ⟨[], chars, rest, rfl, hfirst.ne_nil, hfirst.isBlank_eq_false hrule, rfl⟩
    · obtain ⟨before, later, after, rfl, hne, hall, hstop⟩ := ih hpair
      refine ⟨chars ++ before, later, after, by simp, hne, hall, ?_⟩
      rw [hstop]
      simp only [List.length_append]
      omega

/-- A text that is not blank has a pair that is not one of blanks. -/
theorem exists_mem_of_scans (h : Scans pos xs pairs) (hxs : ∃ c ∈ xs, isBlank c = false) :
    ∃ pair ∈ pairs, pair.rule ≠ .spaces := by
  induction h with
  | nil => exact hxs.elim fun c hc => nomatch hc.1
  | @cons pos kind chars rest pairs hfirst _ ih =>
    by_cases hkind : kind = .spaces
    · subst hkind
      -- A blank pair has blanks only, and what is not blank comes after it.
      have hblanks : ∀ c ∈ chars, isBlank c := by
        cases hfirst with
        | spaces _ hall _ => exact hall
        | symbol _ h => exact absurd h (by simp [Kind.symbols])
      obtain ⟨c, hc, hblank⟩ := hxs
      have hrest : c ∈ rest := (List.mem_append.1 hc).resolve_left fun hmem => by
        rw [hblanks c hmem] at hblank
        cases hblank
      obtain ⟨pair, hpair, hrule⟩ := ih ⟨c, hrest, hblank⟩
      exact ⟨pair, List.mem_cons_of_mem _ hpair, hrule⟩
    · exact ⟨_, List.mem_cons_self, hkind⟩

end

/-- The tokens of a source are the pairs of the scanner that are not blank. -/
theorem exists_scans_tokens (source : Source) :
    ∃ pairs, Scans 0 source.text.toList pairs ∧
      tokens source = pairs.filter fun pair => !(pair.rule == .spaces) := by
  obtain ⟨pairs, hscans⟩ := exists_scans 0 source.text.toList
  have hlex : Kind.lexer.lex source.text 0 source.length = ⟨pairs, none⟩ := lex_of_scans hscans
  refine ⟨pairs, hscans, ?_⟩
  rw [tokens, Source.lexing, Lexer.lexDropping_eq_without, hlex]
  rfl

/-! ### Pairs before blanks -/

/-- A pair is spelled as those of a source are and covers some text before a position, with all
pairs inside it. -/
structure Source.Stands (source : Source) (last : Int) (pair : Token) : Prop where
  spelled : source.Spelled pair
  start : 0 ≤ pair.start
  lt : pair.start < pair.stop
  stop : pair.stop ≤ last
  laid : Laid pair.start pair.stop pair.inner

/-- Pairs that all end before some position stand in a range up to there. -/
theorem Laid.of_stop_le {first last last' : Int} {pairs : List Token} (h : Laid first last pairs)
    (hfirst : first ≤ last') (hstop : ∀ pair ∈ pairs, pair.stop ≤ last') :
    Laid first last' pairs := by
  induction h with
  | nil => exact .nil hfirst
  | token hle hlt hinner _ ih =>
    obtain ⟨hpair, hrest⟩ := List.forall_mem_cons.1 hstop
    exact .token hle hlt hinner (ih hpair hrest)
  | expr hle hinner _ _ ih =>
    obtain ⟨hpair, hrest⟩ := List.forall_mem_cons.1 hstop
    exact .expr hle hinner (ih hpair hrest)

variable {source : Source} {body ending : List Char}

/-- The tokens of a source stand before the blanks at its end. -/
theorem laid_tokens_of_blank (htext : source.text.toList = body ++ ending)
    (hending : ∀ c ∈ ending, isBlank c) : Laid 0 body.length (tokens source) := by
  obtain ⟨pairs, hscans, htokens⟩ := exists_scans_tokens source
  refine (laid_tokens source).of_stop_le (Int.natCast_nonneg _) fun token htoken => ?_
  rw [htokens, List.mem_filter] at htoken
  obtain ⟨before, chars, after, heq, hne, hall, hstop⟩ :=
    exists_chars_of_scans hscans htoken.1 (by simpa using htoken.2)
  rw [hstop, zero_add, Int.ofNat_le]
  by_contra hlater
  -- The last character that the token covers would be one of the blanks.
  rw [htext] at heq
  rcases List.append_eq_append_iff.1 heq with ⟨front, hfront, rfl⟩ | ⟨back, rfl, -⟩
  · have hnonempty : front ≠ [] := by
      rintro rfl
      exact hlater (by rw [hfront, List.append_nil])
    have hlast : chars.getLast? = front.getLast? := by
      rw [← List.getLast?_append_of_ne_nil before hne, hfront,
        List.getLast?_append_of_ne_nil body hnonempty]
    have hblank := hending _ (List.mem_append_left after (List.getLast_mem hnonempty))
    rw [List.getLast?_eq_some_getLast hnonempty] at hlast
    rw [hall _ (List.mem_of_getLast? hlast)] at hblank
    cases hblank
  · exact hlater (by simp)

/-- All pairs of a source that is not blank stand before the blanks at its end. -/
theorem pervades_stands (htext : source.text.toList = body ++ ending)
    (hending : ∀ c ∈ ending, isBlank c) (hbody : ∃ c ∈ body, isBlank c = false) :
    source.Pervades (source.Stands body.length) where
  token token htoken := by
    have hlexed := lexed_of_mem_tokens htoken
    obtain ⟨hstart, hlt, hstop⟩ := (laid_tokens_of_blank htext hending).bounds token htoken
    refine ⟨.token hlexed, hstart, hlt, hstop, ?_⟩
    rw [hlexed.inner]
    exact .nil hlt.le
  expr expr h := by
    have hlaid := laid_of_nests (nests_of_parse h) (laid_tokens_of_blank htext hending)
    obtain ⟨opened, -, hclose⟩ := bind_eq_ok.1 h
    rcases span_of_close hclose with ⟨first, last, hfirst, hlast, hstart, hstop⟩ | ⟨hinner, -, -⟩
    · have hwithin := hlaid.of_ends hfirst hlast
      have hboundsFirst := hwithin.bounds first (List.mem_of_head? hfirst)
      have hnonneg := (hlaid.bounds first (List.mem_of_head? hfirst)).1
      have hbounds := (hlaid.bounds last (List.mem_of_getLast? hlast)).2.2
      rw [← hstart, ← hstop] at hwithin
      exact ⟨.expr (rule_of_parse h) (Source.spelled_of_parse h), by omega, by omega, by omega,
        hwithin⟩
    · -- The expression of a source that is not blank has inner pairs.
      obtain ⟨pairs, hscans, htokens⟩ := exists_scans_tokens source
      obtain ⟨c, hc, hblank⟩ := hbody
      have hmem : c ∈ source.text.toList := htext ▸ List.mem_append_left ending hc
      obtain ⟨pair, hpair, hrule⟩ := exists_mem_of_scans hscans ⟨c, hmem, hblank⟩
      have hnests := nests_of_parse h
      rw [hinner] at hnests
      have htoken : pair ∈ tokens source := by
        rw [htokens, List.mem_filter]
        exact ⟨hpair, by simpa using hrule⟩
      generalize tokens source = all at hnests htoken
      cases hnests
      exact nomatch htoken
  inner {pair} h inner hinner := by
    obtain ⟨hstart, hlt, hstop⟩ := h.laid.bounds inner hinner
    have hpair := h.start
    have hlast := h.stop
    exact ⟨h.spelled.inner inner hinner, by omega, hlt, by omega, h.laid.inner inner hinner⟩
  spelled h := h.spelled

/-! ### Complaints about one line -/

/-- The diagnostic of a complaint about a source of one line names columns of that line and quotes
it. -/
theorem faultText_of_names {fault : CalcFault Token} (hfresh : source.newlines = [])
    (hquote : QuotesLine source.text.toList body)
    (h : fault.Names (source.Stands body.length)) :
    ∃ (start stop : Nat) (under : List Char), start < stop ∧ stop ≤ body.length ∧
      Underlines source.text 0 start (stop - start) under ∧
      source.faultText fault = .ok (diagnosticText source.name
        (placeText (1 + source.firstLine) 0 start stop) (complaint fault.className fault.reason)
        body under) := by
  obtain ⟨⟨kind, start, stop, inner⟩, habout, hstands⟩ := h
  have hstart : 0 ≤ start := hstands.start
  have hlt : start < stop := hstands.lt
  have hstop : stop ≤ body.length := hstands.stop
  obtain ⟨start, rfl⟩ := Int.eq_ofNat_of_zero_le hstart
  obtain ⟨stop, rfl⟩ := Int.eq_ofNat_of_zero_le (hstart.trans hlt.le)
  have hsize : body.length ≤ source.text.size := by
    rw [← Array.length_toList]
    rcases hquote.2 with heq | heq
    · rw [heq]
    · rw [heq, List.length_append]
      exact Nat.le_add_right _ _
  have hpos : start < source.text.size := by omega
  have hextract : QuotesLine (source.extract 0 source.text.size) body := by
    rw [Source.extract, Array.extract_size]
    exact hquote
  have hfirst : (Bound.index (start : Int)).index? = some (start : Int) := rfl
  have hlast : (Bound.index (stop : Int)).index? = some (stop : Int) := rfl
  have hmin : min (stop : Int) source.text.size = stop := min_eq_left (by omega)
  obtain ⟨under, hunder, hshown⟩ := Source.diagnosticWithin_of_fresh hfresh hpos.le hfirst hlast
    (onLine_of_quotesLine hquote hpos) hextract (complaint fault.className fault.reason)
  rw [hmin] at hunder hshown
  rw [List.take_zero, List.count_nil, Nat.cast_zero, add_zero] at hshown
  refine ⟨start, stop, under, by omega, by omega, hunder, ?_⟩
  rw [Source.faultText, habout]
  exact hshown

end Precedence
