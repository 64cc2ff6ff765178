import Mathlib
import Precedence.Proofs.Requests

/-!
# The newlines that a source has found

A source looks for newlines from the last one that it has found, up to the position that it is asked
about. Positions may go back and forth, and be out of the text; still the newlines that it has found are
at all times those before the greatest position within the text that it has been asked about.

## Main statements

- `diagnostics_append` — the messages of a request are about one source after another
- `ask_of_asked_eq_nil` — a request about no position within the text changes nothing
- `newlines_after` — the newlines that have been found after a history of requests

## Design notes

A request may have several messages. Between two of them the source is as if the ones before had been a
request of their own.
-/

namespace Precedence

namespace Source

variable {source : Source}

/-! ### The greatest position -/

/-- The greatest position within the text that a history of requests asks about, or the start of the
text if there is none. -/
theorem isGreatest_reached (history : List Request) :
    IsGreatest {pos | pos = 0 ∨ ∃ request ∈ history, pos ∈ request.asked source.length}
      (source.reached history) := by
  have hgreatest := isGreatest_foldl_max (history.flatMap (·.asked source.length)) 0
  simp only [List.mem_flatMap] at hgreatest
  exact hgreatest

/-! ### Requests and their messages -/

/-- A source that has not been asked before has found, after a history of requests, the newlines before
the greatest position that they ask about. -/
theorem after_eq_upTo (hfresh : source.newlines = []) (history : List Request) :
    source.after history = source.upTo (source.reached history) := by
  have hafter := after_upTo history (Nat.zero_le source.length)
  rwa [upTo_zero hfresh] at hafter

/-- A request about no position within the text changes nothing. -/
theorem ask_of_asked_eq_nil (hfresh : source.newlines = []) (history : List Request)
    {request : Request} (h : request.asked source.length = []) :
    (source.after history).ask request = source.after history := by
  rw [after_eq_upTo hfresh, ask_upTo request (reached_le history), h]
  rfl

/-- If none of some messages fails, the messages after them are rendered by the source that they
leave. -/
theorem diagnostics_append {front : List (Value × String)} {shown : String}
    (h : (source.diagnostics front).1 = .ok shown) (back : List (Value × String)) :
    (source.diagnostics (front ++ back)).2 = ((source.diagnostics front).2.diagnostics back).2 := by
  induction front generalizing source shown with
  | nil => rfl
  | cons message front ih =>
    obtain ⟨about, text⟩ := message
    cases hspan : about.span? with
    | error fault =>
      rw [diagnostics, hspan] at h
      cases h
    | ok span =>
      obtain ⟨start, stop⟩ := span
      rw [List.cons_append, diagnostics_cons hspan, diagnostics_cons hspan]
      rw [diagnostics_cons hspan] at h
      rcases hwithin : source.diagnosticWithin start stop text with ⟨result, next⟩
      rw [hwithin] at h
      cases result with
      | error fault => cases h
      | ok first =>
        cases hfront : (next.diagnostics front).1 with
        | error fault =>
          dsimp only at h
          rw [hfront] at h
          cases h
        | ok others => exact ih hfront

/-! ### Newlines -/

/-- After a history of requests to a source that has not been asked before, the newlines that it has
found are in strictly ascending order, and are all those of the text before the greatest position within
the text that it has been asked about. Another request changes nothing if it is about no position
within the text. A request with several messages leaves what two requests leave that it is divided
into, unless a message of the first one fails. -/
theorem newlines_after (hfresh : source.newlines = []) (history : List Request) :
    (source.after history).newlines.Pairwise (· < ·) ∧
    (∀ i, i ∈ (source.after history).newlines ↔
      source.text[i]? = some '\n' ∧ i < source.reached history) ∧
    IsGreatest {pos | pos = 0 ∨ ∃ request ∈ history, pos ∈ request.asked source.length}
      (source.reached history) ∧
    (∀ request : Request, request.asked source.length = [] →
      source.after (history ++ [request]) = source.after history) ∧
    ∀ front back shown, ((source.after history).diagnostics front).1 = .ok shown →
      source.after (history ++ [.diagnostics (front ++ back)]) =
        source.after (history ++ [.diagnostics front] ++ [.diagnostics back]) := by
  have hconcat (history : List Request) (request : Request) :
      source.after (history ++ [request]) = (source.after history).ask request := by
    simp only [Source.after, List.foldl_append, List.foldl_cons, List.foldl_nil]
  refine ⟨?_, fun i => ?_, isGreatest_reached history, fun request h => ?_, ?_⟩
  · rw [after_eq_upTo hfresh]
    exact pairwise_newlinesBetween _ _ _
  · rw [after_eq_upTo hfresh, upTo, mem_newlinesBetween]
    constructor
    · rintro ⟨-, hlt, hnewline⟩
      exact ⟨hnewline, hlt⟩
    · rintro ⟨hnewline, hlt⟩
      exact ⟨Nat.zero_le i, hlt, hnewline⟩
  · rw [hconcat, ask_of_asked_eq_nil hfresh history h]
  · intro front back shown h
    rw [hconcat, hconcat, hconcat]
    exact diagnostics_append h back

/-- Positions that go back, and one outside the text, after the end of the second line. -/
theorem newlines_after_back :
    let source := Source.ofString "" "a\n\nb\n" 0
    let history := [.lineIndex (.index 3), .lineIndex (.index 1), .lineIndex (.index 9)]
    source.newlines = [] ∧ (source.after history).newlines = [1, 2] ∧
      ∀ i, i ∈ (source.after history).newlines ↔
        source.text[i]? = some '\n' ∧ i < source.reached history :=
  ⟨rfl, rfl, (newlines_after rfl _).2.1⟩

end Source

end Precedence
