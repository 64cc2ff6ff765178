import Mathlib
import Precedence.Proofs.Lines

/-!
# Sources that have been asked before

A source remembers the newlines that it has found. What it has found after some requests depends on
the greatest position that they have asked about only. Its answers are those of a source that has not
been asked before, but for a position with a newline that has been found already.

## Main definitions

- `Request` — what a source is asked: the line of a position, or diagnostics about values
- `Source.after` — a source after a history of requests
- `Source.reached` — the greatest position within the text that a history has asked about
- `Source.Overtaken` — a history has looked beyond a newline
- `Source.Undisturbed` — no message is about a newline that has been looked beyond

## Main statements

- `after_upTo` — the newlines that are found after a history of requests
- `lineIndex_upTo`, `diagnosticWithin_upTo` — answers of a source that has found some newlines
- `answers_after` — how answers depend on the history of requests

## Design notes

A message of a diagnostic is a request as well: it may overtake the newlines that later messages of the
same diagnostic are about.
-/

namespace Precedence

/-! ### Requests -/

/-- What a source is asked: the index of the line of a position, or the diagnostics about some values
with a message about each. -/
inductive Request where
  | lineIndex (pos : Bound)
  | diagnostics (messages : List (Value × String))

/-- The position within a text that a bound asks about, if there is one. -/
def Bound.asked? (length : Nat) (bound : Bound) : Option Nat :=
  match bound.index? with
  | none => none
  | some pos => if 0 ≤ pos ∧ pos ≤ length then some pos.toNat else none

/-- The positions within a text that messages ask about, up to the first that cannot be rendered. -/
def askedIn (length : Nat) : List (Value × String) → List Nat
  | [] => []
  | (about, _) :: rest =>
    match about.span? with
    | .error _ => []
    | .ok (start, stop) =>
      match start.asked? length, stop.index? with
      | some pos, some _ => pos :: askedIn length rest
      | some pos, none => [pos]
      | none, _ => []

/-- The positions within a text that a request asks about. -/
def Request.asked (length : Nat) : Request → List Nat
  | lineIndex pos => (pos.asked? length).toList
  | diagnostics messages => askedIn length messages

namespace Source

/-- A source after a request. -/
def ask (source : Source) : Request → Source
  | .lineIndex pos => (source.lineIndexAt pos).2
  | .diagnostics messages => (source.diagnostics messages).2

/-- A source after a history of requests. -/
def after (source : Source) (history : List Request) : Source :=
  history.foldl ask source

/-- The greatest position within the text that a history of requests has asked about. -/
def reached (source : Source) (history : List Request) : Nat :=
  (history.flatMap (·.asked source.length)).foldl max 0

/-- There is a newline at the position, and a history of requests has looked beyond it. -/
def Overtaken (source : Source) (history : List Request) (pos : Nat) : Prop :=
  source.text[pos]? = some '\n' ∧ pos < source.reached history

/-- None of the messages is about a span that starts at a newline which has been overtaken, be it by a
history of requests or by the messages before it. -/
def Undisturbed (source : Source) (history : List Request) (messages : List (Value × String)) :
    Prop :=
  ∀ front about message back, messages = front ++ (about, message) :: back →
    ∀ start stop, about.span? = .ok (start, stop) → ∀ pos ∈ start.asked? source.length,
      ¬ source.Overtaken (history ++ [.diagnostics front]) pos

/-- The source once the newlines before a position have been found. -/
def upTo (source : Source) (reached : Nat) : Source :=
  { source with newlines := newlinesBetween source.text 0 reached }

variable {source : Source} {reached pos : Nat}

theorem upTo_zero (hfresh : source.newlines = []) : source.upTo 0 = source := by
  have hnone : newlinesBetween source.text 0 0 = [] := rfl
  rw [upTo, hnone, ← hfresh]

/-! ### The answers of a source that has found some newlines -/

theorem mem_asked?_iff {bound : Bound} {length : Nat} :
    pos ∈ bound.asked? length ↔ bound.index? = some (pos : Int) ∧ pos ≤ length := by
  rw [Bound.asked?]
  cases bound.index? with
  | none => simp
  | some i =>
    dsimp only
    by_cases hin : 0 ≤ i ∧ i ≤ length
    · rw [if_pos hin, Option.mem_some_iff, Option.some.injEq]
      omega
    · rw [if_neg hin, Option.some.injEq]
      refine iff_of_false (Option.not_mem_none pos) ?_
      rintro ⟨rfl, hle⟩
      omega

/-- The line of a position, and one more if the position is at a newline that has been found. -/
theorem lineIndex_upTo (hreached : reached ≤ source.length) (hpos : pos ≤ source.length) :
    (source.upTo reached).lineIndex pos =
      (.ok (source.lineNumber pos + if source.text[pos]? = some '\n' ∧ pos < reached then 1 else 0),
        source.upTo (max reached pos)) := by
  have hrange : (0 ≤ (pos : Int) && (pos : Int) ≤ (source.upTo reached).length) = true := by
    rw [Bool.and_eq_true, decide_eq_true_iff, decide_eq_true_iff]
    exact ⟨by omega, by exact_mod_cast hpos⟩
  have hnewlines (n : Nat) :
      (source.upTo n).newlines = newlinesBetween (source.upTo n).text 0 n := rfl
  have hscan : (source.upTo reached).scanTo pos = source.upTo (max reached pos) :=
    scanTo_newlinesBetween (hnewlines reached) pos
  have hfound : (source.upTo (max reached pos)).foundLineIndex pos = source.lineNumber pos +
      if source.text[pos]? = some '\n' ∧ pos < max reached pos then 1 else 0 :=
    foundLineIndex_newlinesBetween (hnewlines (max reached pos)) (le_max_right reached pos)
      (max_le hreached hpos)
  rw [lineIndex, if_pos hrange, Int.toNat_natCast]
  dsimp only
  rw [hscan, hfound]
  have hiff : pos < max reached pos ↔ pos < reached := by omega
  simp only [hiff]

theorem lineIndexAt_of_none {bound : Bound} (h : bound.asked? source.length = none) :
    ∃ fault, ∀ reached, (source.upTo reached).lineIndexAt bound =
      (.error fault, source.upTo reached) := by
  rw [Bound.asked?] at h
  cases hindex : bound.index? with
  | none => exact ⟨.startUnset, fun reached => by rw [lineIndexAt, hindex]⟩
  | some i =>
    rw [hindex] at h
    dsimp only at h
    refine ⟨.outside bound, fun reached => ?_⟩
    have hrange : ¬ (0 ≤ i && i ≤ (source.upTo reached).length) = true := by
      rw [Bool.and_eq_true, decide_eq_true_iff, decide_eq_true_iff]
      intro hin
      have hsome : 0 ≤ i ∧ i ≤ source.length := hin
      rw [if_pos hsome] at h
      cases h
    rw [lineIndexAt, hindex]
    dsimp only
    rw [lineIndex, if_neg hrange]

theorem lineIndexAt_of_mem {bound : Bound} (h : pos ∈ bound.asked? source.length)
    (hreached : reached ≤ source.length) :
    (source.upTo reached).lineIndexAt bound =
      (.ok (source.lineNumber pos + if source.text[pos]? = some '\n' ∧ pos < reached then 1 else 0),
        source.upTo (max reached pos)) := by
  obtain ⟨hindex, hpos⟩ := mem_asked?_iff.1 h
  rw [lineIndexAt, hindex]
  dsimp only
  rw [lineIndex_upTo hreached hpos]

/-- The state after a diagnostic about a span, and its text, if the span does not start at a newline
that has been found. -/
theorem diagnosticWithin_upTo (start stop : Bound) (message : String)
    (hreached : reached ≤ source.length) :
    ((source.upTo reached).diagnosticWithin start stop message).2 =
        source.upTo ((start.asked? source.length).toList.foldl max reached) ∧
      ((∀ pos ∈ start.asked? source.length, ¬ (source.text[pos]? = some '\n' ∧ pos < reached)) →
        ((source.upTo reached).diagnosticWithin start stop message).1 =
          ((source.upTo 0).diagnosticWithin start stop message).1) := by
  cases hasked : start.asked? source.length with
  | none =>
    -- The span does not start within the text, and nothing is looked for.
    obtain ⟨fault, hfault⟩ := lineIndexAt_of_none hasked
    constructor
    · rw [diagnosticWithin, hfault]
      rfl
    · intro _
      rw [diagnosticWithin, diagnosticWithin, hfault, hfault]
  | some pos =>
    have hmem : pos ∈ start.asked? source.length := hasked
    obtain ⟨hindex, hpos⟩ := mem_asked?_iff.1 hmem
    have hanswer := fun {r : Nat} (hr : r ≤ source.length) => lineIndexAt_of_mem hmem hr
    cases hlast : stop.index? with
    | none =>
      constructor
      · rw [diagnosticWithin, hanswer hreached, hindex, hlast]
        rfl
      · intro _
        rw [diagnosticWithin, diagnosticWithin, hanswer hreached, hanswer (Nat.zero_le _), hindex,
          hlast]
    | some last =>
      have hindexes := fun {r : Nat} (hr : r ≤ source.length) => lineIndex_upTo hr hpos
      constructor
      · rw [diagnosticWithin, hanswer hreached, hindex, hlast]
        dsimp only
        rw [diagnostic, hindexes hreached]
        rfl
      · intro hquiet
        rw [diagnosticWithin, diagnosticWithin, hanswer hreached, hanswer (Nat.zero_le _), hindex,
          hlast]
        dsimp only
        rw [diagnostic, diagnostic, hindexes hreached, hindexes (Nat.zero_le _),
          if_neg (hquiet pos rfl), if_neg fun hboth => absurd hboth.2 (Nat.not_lt_zero pos)]
        rfl

/-! ### Histories -/

/-- Taking the maximum along a list gives the greatest of its numbers and the one to start with. -/
theorem isGreatest_foldl_max (xs : List Nat) (start : Nat) :
    IsGreatest {x | x = start ∨ x ∈ xs} (xs.foldl max start) := by
  induction xs generalizing start with
  | nil =>
    constructor
    · exact Or.inl rfl
    · rintro x (rfl | hx)
      · exact le_rfl
      · exact absurd hx List.not_mem_nil
  | cons y xs ih =>
    obtain ⟨hmem, hbound⟩ := ih (max start y)
    have hmax : max start y ≤ xs.foldl max (max start y) := hbound (Or.inl rfl)
    constructor
    · rcases hmem with heq | hmem
      · rw [List.foldl_cons, heq]
        rcases max_choice start y with hstart | hy
        · exact Or.inl hstart
        · rw [hy]
          exact Or.inr List.mem_cons_self
      · exact Or.inr (List.mem_cons_of_mem y hmem)
    · rintro x (rfl | hx)
      · exact (le_max_left x y).trans hmax
      · rcases List.mem_cons.1 hx with rfl | hx
        · exact (le_max_right start x).trans hmax
        · exact hbound (Or.inr hx)

theorem foldl_max_le {xs : List Nat} {bound : Nat} (hreached : reached ≤ bound)
    (h : ∀ x ∈ xs, x ≤ bound) : xs.foldl max reached ≤ bound := by
  rcases (isGreatest_foldl_max xs reached).1 with heq | hmem
  · rw [heq]
    exact hreached
  · exact h _ hmem

/-- What follows the diagnostic of the first of several messages. -/
theorem diagnostics_cons {about : Value} {message : String} {start stop : Bound}
    (hspan : about.span? = .ok (start, stop)) (rest : List (Value × String)) :
    source.diagnostics ((about, message) :: rest) =
      match source.diagnosticWithin start stop message with
      | (.error fault, next) => (.error fault.toFault, next)
      | (.ok first, next) =>
        ((next.diagnostics rest).1.map (first ++ ·), (next.diagnostics rest).2) := by
  cases hwithin : source.diagnosticWithin start stop message with
  | mk result next => cases result <;> simp only [diagnostics, hspan, hwithin]

/-- A diagnostic about a span has no text only if one of its bounds is missing or the span does not
start within the text. -/
theorem exists_diagnosticWithin_iff (start stop : Bound) (message : String)
    (hreached : reached ≤ source.length) :
    (∃ shown, ((source.upTo reached).diagnosticWithin start stop message).1 = .ok shown) ↔
      (∃ pos, pos ∈ start.asked? source.length) ∧ ∃ last, stop.index? = some last := by
  cases hasked : start.asked? source.length with
  | none =>
    obtain ⟨fault, hfault⟩ := lineIndexAt_of_none hasked
    rw [diagnosticWithin, hfault]
    simp
  | some pos =>
    have hmem : pos ∈ start.asked? source.length := hasked
    obtain ⟨hindex, hpos⟩ := mem_asked?_iff.1 hmem
    rw [diagnosticWithin, lineIndexAt_of_mem hmem hreached, hindex]
    cases hlast : stop.index? with
    | none => simp
    | some last =>
      dsimp only
      rw [diagnostic, lineIndex_upTo hreached hpos]
      simp

theorem askedIn_of_none {about : Value} {message : String} {start stop : Bound}
    (hspan : about.span? = .ok (start, stop)) (rest : List (Value × String)) {length : Nat}
    (h : ¬ ((∃ pos, pos ∈ start.asked? length) ∧ ∃ last, stop.index? = some last)) :
    askedIn length ((about, message) :: rest) = (start.asked? length).toList := by
  rw [askedIn, hspan]
  dsimp only
  cases hasked : start.asked? length with
  | none => rfl
  | some pos =>
    cases hlast : stop.index? with
    | none => rfl
    | some last => exact absurd ⟨⟨pos, hasked⟩, last, hlast⟩ h

theorem askedIn_of_some {about : Value} {message : String} {start stop : Bound} {last : Int}
    (hspan : about.span? = .ok (start, stop)) (rest : List (Value × String)) {length : Nat}
    (hpos : pos ∈ start.asked? length) (hlast : stop.index? = some last) :
    askedIn length ((about, message) :: rest) = pos :: askedIn length rest := by
  rw [askedIn, hspan]
  dsimp only
  rw [Option.mem_def.1 hpos, hlast]

theorem le_of_mem_askedIn {length : Nat} (messages : List (Value × String)) :
    ∀ pos ∈ askedIn length messages, pos ≤ length := by
  induction messages with
  | nil => exact nofun
  | cons message rest ih =>
    obtain ⟨about, text⟩ := message
    intro pos hpos
    cases hspan : about.span? with
    | error fault =>
      rw [askedIn, hspan] at hpos
      exact nomatch hpos
    | ok span =>
      obtain ⟨start, stop⟩ := span
      by_cases hshown : (∃ pos, pos ∈ start.asked? length) ∧ ∃ last, stop.index? = some last
      · obtain ⟨⟨first, hfirst⟩, last, hlast⟩ := hshown
        rw [askedIn_of_some hspan rest hfirst hlast] at hpos
        rcases List.mem_cons.1 hpos with rfl | hpos
        · exact (mem_asked?_iff.1 hfirst).2
        · exact ih pos hpos
      · rw [askedIn_of_none hspan rest hshown] at hpos
        exact (mem_asked?_iff.1 (Option.mem_toList.1 hpos)).2

/-- The newlines that have been found after some diagnostics. -/
theorem diagnostics_upTo_snd (messages : List (Value × String)) (hreached : reached ≤ source.length) :
    ((source.upTo reached).diagnostics messages).2 =
      source.upTo ((askedIn source.length messages).foldl max reached) := by
  induction messages generalizing reached with
  | nil => rfl
  | cons message rest ih =>
    obtain ⟨about, text⟩ := message
    cases hspan : about.span? with
    | error fault =>
      rw [diagnostics, hspan, askedIn, hspan]
      rfl
    | ok span =>
      obtain ⟨start, stop⟩ := span
      have hnext := (diagnosticWithin_upTo start stop text hreached).1
      have hshown := exists_diagnosticWithin_iff start stop text hreached
      rw [diagnostics_cons hspan]
      cases hresult : (source.upTo reached).diagnosticWithin start stop text with
      | mk result next =>
        rw [hresult] at hnext hshown
        cases result with
        | error fault =>
          rw [askedIn_of_none hspan rest (hshown.not.1 fun ⟨shown, h⟩ => nomatch h)]
          exact hnext
        | ok first =>
          obtain ⟨⟨pos, hpos⟩, last, hlast⟩ := hshown.1 ⟨first, rfl⟩
          rw [Option.mem_def.1 hpos] at hnext
          rw [askedIn_of_some hspan rest hpos hlast, List.foldl_cons]
          change next = source.upTo (max reached pos) at hnext
          dsimp only
          rw [hnext]
          exact ih (max_le hreached (mem_asked?_iff.1 hpos).2)

/-- The texts of some diagnostics are those of a source that has found no newlines, unless a newline is
overtaken. -/
theorem diagnostics_upTo_fst {messages : List (Value × String)} (hreached : reached ≤ source.length)
    (hquiet : ∀ front about message back, messages = front ++ (about, message) :: back →
      ∀ start stop, about.span? = .ok (start, stop) → ∀ pos ∈ start.asked? source.length,
        ¬ (source.text[pos]? = some '\n' ∧
          pos < (askedIn source.length front).foldl max reached)) :
    ((source.upTo reached).diagnostics messages).1 =
      (messages.mapM fun message => ((source.upTo 0).diagnostics [message]).1).map String.join := by
  induction messages generalizing reached with
  | nil => rfl
  | cons message rest ih =>
    obtain ⟨about, text⟩ := message
    rw [List.mapM_cons]
    cases hspan : about.span? with
    | error fault =>
      rw [diagnostics, diagnostics, hspan]
      rfl
    | ok span =>
      obtain ⟨start, stop⟩ := span
      obtain ⟨hnext, hsame⟩ := diagnosticWithin_upTo start stop text hreached
      have hshown := exists_diagnosticWithin_iff start stop text hreached
      replace hsame := hsame (hquiet [] about text rest rfl start stop hspan)
      rw [diagnostics_cons hspan, diagnostics_cons hspan]
      revert hsame hnext hshown
      rcases (source.upTo reached).diagnosticWithin start stop text with ⟨result, next⟩
      rcases (source.upTo 0).diagnosticWithin start stop text with ⟨fresh, next'⟩
      rintro hnext hshown rfl
      cases result with
      | error fault => rfl
      | ok first =>
        -- The other messages are rendered once the newlines before this one have been found.
        obtain ⟨⟨pos, hpos⟩, last, hlast⟩ := hshown.1 ⟨first, rfl⟩
        rw [Option.mem_def.1 hpos] at hnext
        change next = source.upTo (max reached pos) at hnext
        have hrest := ih (max_le hreached (mem_asked?_iff.1 hpos).2)
          fun front about' message back heq start' stop' hspan' pos' hpos' => by
            have h := hquiet ((about, text) :: front) about' message back (by rw [heq]; rfl) start'
              stop' hspan' pos' hpos'
            rwa [askedIn_of_some hspan front hpos hlast] at h
        dsimp only
        rw [hnext, hrest]
        cases rest.mapM fun message => ((source.upTo 0).diagnostics [message]).1 with
        | error fault => rfl
        | ok others =>
          simp only [diagnostics, Except.map, Pure.pure, Except.pure, Bind.bind, Except.bind,
            String.join_cons, String.append_empty]

theorem le_of_mem_asked {length : Nat} (request : Request) :
    ∀ pos ∈ request.asked length, pos ≤ length := by
  intro pos hpos
  cases request with
  | lineIndex bound => exact (mem_asked?_iff.1 (Option.mem_toList.1 hpos)).2
  | diagnostics messages => exact le_of_mem_askedIn messages pos hpos

/-- A request makes a source look for the newlines before the positions that it asks about. -/
theorem ask_upTo (request : Request) (hreached : reached ≤ source.length) :
    (source.upTo reached).ask request =
      source.upTo ((request.asked source.length).foldl max reached) := by
  cases request with
  | lineIndex bound =>
    change ((source.upTo reached).lineIndexAt bound).2 =
      source.upTo ((bound.asked? source.length).toList.foldl max reached)
    cases hasked : bound.asked? source.length with
    | none =>
      obtain ⟨fault, hfault⟩ := lineIndexAt_of_none hasked
      rw [hfault]
      rfl
    | some pos =>
      rw [lineIndexAt_of_mem hasked hreached]
      rfl
  | diagnostics messages => exact diagnostics_upTo_snd messages hreached

/-- The newlines that have been found after a history of requests are those before the greatest
position that it has asked about. -/
theorem after_upTo (history : List Request) (hreached : reached ≤ source.length) :
    (source.upTo reached).after history =
      source.upTo ((history.flatMap (·.asked source.length)).foldl max reached) := by
  induction history generalizing reached with
  | nil => rfl
  | cons request history ih =>
    have hle : (request.asked source.length).foldl max reached ≤ source.length :=
      foldl_max_le hreached (le_of_mem_asked request)
    rw [List.flatMap_cons, List.foldl_append, ← ih hle, ← ask_upTo request hreached]
    rfl

theorem reached_le (history : List Request) : source.reached history ≤ source.length := by
  refine foldl_max_le (Nat.zero_le _) fun pos hpos => ?_
  obtain ⟨request, -, hpos⟩ := List.mem_flatMap.1 hpos
  exact le_of_mem_asked request pos hpos

theorem reached_append (history : List Request) (messages : List (Value × String)) :
    source.reached (history ++ [.diagnostics messages]) =
      (askedIn source.length messages).foldl max (source.reached history) := by
  rw [Source.reached, Source.reached, List.flatMap_append, List.foldl_append]
  simp [Request.asked]

/-- A source that has not been asked before tells for every position the index of its line. -/
theorem lineIndex_fresh (hfresh : source.newlines = []) (hpos : pos ≤ source.length) :
    (source.lineIndex pos).1 = .ok (source.lineNumber pos) := by
  have hanswer := lineIndex_upTo (Nat.zero_le source.length) hpos
  rw [upTo_zero hfresh, if_neg fun hboth => absurd hboth.2 (Nat.not_lt_zero pos), add_zero] at hanswer
  rw [hanswer]

/-- A source that has not been asked before tells for every position the index of the line that it is
on, where a newline is the last character of its line. After a history of requests it tells the same if
and only if there is no newline at the position that has been overtaken. The text of a diagnostic is
that of its messages, each rendered by a source that has not been asked before, if no message is about a
newline that has been overtaken. -/
theorem answers_after (hfresh : source.newlines = []) (history : List Request) :
    (∀ pos : Nat, pos ≤ source.length →
      StartsLine source.text (source.lineStart pos) (source.anchor pos) ∧
      (source.lineIndex pos).1 = .ok (source.firstLine +
        (source.text.toList.take (source.lineStart pos)).count '\n') ∧
      (((source.after history).lineIndex pos).1 = (source.lineIndex pos).1 ↔
        ¬ source.Overtaken history pos)) ∧
    ∀ messages, source.Undisturbed history messages →
      ((source.after history).diagnostics messages).1 =
        (messages.mapM fun message => (source.diagnostics [message]).1).map String.join := by
  have hafter : source.after history = source.upTo (source.reached history) := by
    have h := after_upTo history (Nat.zero_le source.length)
    rwa [upTo_zero hfresh] at h
  have hreached : source.reached history ≤ source.length := reached_le history
  refine ⟨fun pos hpos => ⟨startsLine_lineStart hpos, lineIndex_fresh hfresh hpos, ?_⟩,
    fun messages hquiet => ?_⟩
  · rw [hafter, lineIndex_upTo hreached hpos, lineIndex_fresh hfresh hpos, Except.ok.injEq, Overtaken]
    by_cases hovertaken : source.text[pos]? = some '\n' ∧ pos < source.reached history
    · rw [if_pos hovertaken]
      exact iff_of_false (by omega) (not_not.2 hovertaken)
    · rw [if_neg hovertaken]
      exact iff_of_true (add_zero _) hovertaken
  · have hsame := diagnostics_upTo_fst hreached fun front about message back heq start stop hspan pos
      hpos => by
        have h := hquiet front about message back heq start stop hspan pos hpos
        rwa [Overtaken, reached_append] at h
    rw [hafter, hsame, upTo_zero hfresh]

/-- Two requests about the second line, and what is told then. -/
theorem answers_after_second_line :
    let source := Source.ofString "" "a\nb" 0
    let history := [.lineIndex (.index 3),
      .diagnostics [(.slice (.index 2) (.index 3) .unset, "here")]]
    source.newlines = [] ∧ ¬ source.Overtaken history 2 ∧
      ((source.after history).lineIndex (2 : Nat)).1 = (source.lineIndex (2 : Nat)).1 := by
  have hquiet : ¬ (Source.ofString "" "a\nb" 0).Overtaken
      [.lineIndex (.index 3), .diagnostics [(.slice (.index 2) (.index 3) .unset, "here")]] 2 := by
    rintro ⟨hnewline, -⟩
    exact absurd hnewline (by decide)
  exact ⟨rfl, hquiet, (((answers_after rfl _).1 2 (by decide)).2.2).2 hquiet⟩

/-- Once the line after a newline has been asked about, the newline is told to be on that line. -/
theorem lineIndex_overtaken :
    let source := Source.ofString "" "a\nb" 0
    (source.lineIndex 1).1 = .ok 0 ∧
      ((source.after [.lineIndex (.index 3)]).lineIndex 1).1 = .ok 1 :=
  ⟨rfl, rfl⟩

end Source

end Precedence
