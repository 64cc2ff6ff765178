import Mathlib
import Precedence.Proofs.Asking

/-!
# Towers of buffers

A tower is made of buffers over one feed, each buffer over the one before. Whatever it is asked, no
item is lost, none is delivered twice, and what the buffers hold stays in the order of the feed.

## Main definitions

- `numbered` — items with their places in the feed
- `Accounted` — every item that was delivered is held once, or was taken out once
- `Buffer.tower` — a tower over a feed that has not been asked yet

## Main statements

- `Accounted.passes`, `Accounted.after` — items stay accounted for in a step and in a history
- `Buffer.tower_keeps_items` — what holds of a tower after any history

## Design notes

Items are told apart by their places in the feed, so equal items at different places are different.
-/

namespace Precedence

variable {ε τ : Type}

/-! ### Places in the feed -/

/-- The items among these outcomes, each with its place in the feed, where the first of the outcomes
has the place `start`. -/
def numbered (start : Nat) (outcomes : List (Pull ε τ)) : List (τ × Nat) :=
  (outcomes.zipIdx start).filterMap fun (outcome, place) => outcome.item?.map (·, place)

theorem numbered_append (start : Nat) (front back : List (Pull ε τ)) :
    numbered start (front ++ back) =
      numbered start front ++ numbered (start + front.length) back := by
  simp [numbered, List.zipIdx_append]

theorem numbered_cons (start : Nat) (outcome : Pull ε τ) (rest : List (Pull ε τ)) :
    numbered start (outcome :: rest) =
      (outcome.item?.map (·, start)).toList ++ numbered (start + 1) rest := by
  cases outcome <;> rfl

theorem map_fst_numbered (start : Nat) (outcomes : List (Pull ε τ)) :
    (numbered start outcomes).map Prod.fst = outcomes.filterMap Pull.item? := by
  induction outcomes generalizing start with
  | nil => rfl
  | cons outcome rest ih =>
    rw [numbered_cons, List.map_append, ih]
    cases outcome <;> rfl

theorem place_of_mem_numbered {start : Nat} {outcomes : List (Pull ε τ)} {entry : τ × Nat}
    (h : entry ∈ numbered start outcomes) :
    start ≤ entry.2 ∧ entry.2 < start + outcomes.length := by
  simp only [numbered, List.mem_filterMap, Option.map_eq_some_iff] at h
  obtain ⟨⟨outcome, place⟩, hmem, a, -, rfl⟩ := h
  obtain ⟨hstart, hend, -⟩ := List.mem_zipIdx hmem
  exact ⟨hstart, by omega⟩

theorem pairwise_numbered (start : Nat) (outcomes : List (Pull ε τ)) :
    (numbered start outcomes).Pairwise (·.2 < ·.2) := by
  induction outcomes generalizing start with
  | nil => exact .nil
  | cons outcome rest ih =>
    rw [numbered_cons, List.pairwise_append]
    refine ⟨by cases outcome <;> simp [Pull.item?], ih _, ?_⟩
    intro first hfirst later hlater
    have hplace : first.2 = start := by cases outcome <;> simp_all [Pull.item?]
    have := (place_of_mem_numbered hlater).1
    omega

/-- The items that the feed has delivered, each with its place, are the ones that are held and the
ones that were taken out, `out` in the order in which they were. From the outermost buffer to the
innermost, the places of what is held ascend. -/
def Accounted (outcomes : List (Pull ε τ)) (out : List τ) (tower : Buffer ε τ) : Prop :=
  ∃ delivered, outcomes = delivered ++ tower.bottom.outcomes ∧ tower.asked = delivered.length ∧
    ∃ takenOut stillHeld : List (τ × Nat),
      takenOut.map Prod.fst = out ∧ stillHeld.map Prod.fst = tower.held ∧
      stillHeld.Pairwise (·.2 < ·.2) ∧ (takenOut ++ stillHeld).Perm (numbered 0 delivered)

namespace Accounted

variable {outcomes : List (Pull ε τ)} {outer out new : List τ} {tower later : Buffer ε τ}

theorem passes (h : Accounted outcomes out tower) (hstep : tower.Passes outer later new) :
    Accounted outcomes (out ++ new) later := by
  obtain ⟨delivered, houtcomes, hasked, takenOut, stillHeld, htaken, hheld, hplaces, hperm⟩ := h
  obtain ⟨inner, left, pulled, hfeed, hasked', htower, hlater, hitems⟩ := hstep
  let fresh := numbered delivered.length pulled
  obtain ⟨outerAt, innerAt, rfl, houter, hinner⟩ :=
    List.map_eq_append_iff.mp (hheld.trans htower)
  have hsplit : (innerAt ++ fresh).map Prod.fst = new ++ left := by
    rw [List.map_append, hinner, map_fst_numbered, hitems]
  obtain ⟨newAt, leftAt, happend, hnew, hleft⟩ := List.map_eq_append_iff.mp hsplit
  refine ⟨delivered ++ pulled, ?_, ?_, takenOut ++ newAt, outerAt ++ leftAt, ?_, ?_, ?_, ?_⟩
  · rw [houtcomes, hfeed, List.append_assoc]
  · rw [hasked', hasked, List.length_append]
  · rw [List.map_append, htaken, hnew]
  · rw [List.map_append, houter, hleft, hlater]
  · -- what was held comes before what is delivered now
    have hordered : (outerAt ++ innerAt ++ fresh).Pairwise (·.2 < ·.2) := by
      refine List.pairwise_append.mpr ⟨hplaces, pairwise_numbered _ _, ?_⟩
      intro old hold entry hentry
      have hold' := hperm.subset (List.mem_append_right _ hold)
      have := (place_of_mem_numbered hold').2
      have := (place_of_mem_numbered hentry).1
      omega
    rw [List.append_assoc, happend] at hordered
    exact hordered.sublist ((List.sublist_append_right _ _).append_left _)
  · have hmove : (takenOut ++ newAt ++ (outerAt ++ leftAt)).Perm
        (takenOut ++ (outerAt ++ (newAt ++ leftAt))) := by
      rw [List.append_assoc, ← List.append_assoc newAt, ← List.append_assoc outerAt]
      exact (List.perm_append_comm.append_right _).append_left _
    rw [← happend, ← List.append_assoc outerAt, ← List.append_assoc takenOut] at hmove
    rw [numbered_append, Nat.zero_add]
    exact hmove.trans (hperm.append_right _)

/-- No history loses an item, or delivers one twice. -/
theorem after (h : Accounted outcomes out tower) (history : List (Buffer.Request τ)) :
    Accounted outcomes (out ++ tower.takenBy history) (tower.after history) := by
  induction history generalizing tower out with
  | nil => simpa [Buffer.takenBy, Buffer.after] using h
  | cons request history ih =>
    obtain ⟨outer, hstep⟩ := tower.passes_ask request
    have hrest := ih (h.passes hstep)
    rwa [List.append_assoc] at hrest

end Accounted

namespace Buffer

/-! ### A tower -/

/-- Buffers over a feed that has not been asked yet: one, and `layers` more over it. -/
def tower (outcomes : List (Pull ε τ)) (layers : Nat) : Buffer ε τ :=
  (ofFeed ⟨outcomes, 0⟩).stack layers

theorem bottom_tower (outcomes : List (Pull ε τ)) (layers : Nat) :
    (tower outcomes layers).bottom = ⟨outcomes, 0⟩ := by
  induction layers with
  | zero => rfl
  | succ layers ih => exact ih

theorem heldItems_tower (outcomes : List (Pull ε τ)) (layers : Nat) :
    (tower outcomes layers).heldItems = List.replicate (layers + 1) none := by
  induction layers with
  | zero => rfl
  | succ layers ih =>
    show (tower outcomes layers).heldItems ++ [none] = _
    rw [ih, ← List.replicate_succ']

theorem held_tower (outcomes : List (Pull ε τ)) (layers : Nat) :
    (tower outcomes layers).held = [] := by
  rw [held, heldItems_tower]
  simp [List.reduceOption]

theorem accounted_tower (outcomes : List (Pull ε τ)) (layers : Nat) :
    Accounted outcomes [] (tower outcomes layers) :=
  ⟨[], by rw [bottom_tower]; rfl, by rw [asked_eq, bottom_tower]; rfl, [], [], rfl,
    (held_tower outcomes layers).symm, .nil, .nil⟩

/-! ### Any history -/

/-- After any history, each buffer of a tower holds at most one item, and the items that the feed
has delivered are held once or were taken out once, in the order of the feed. A request that meets
no item changes nothing that is held and takes nothing; taking all the items empties the buffers
from the one that is asked inwards. What has been looked at is taken next. -/
theorem tower_keeps_items (outcomes : List (Pull ε τ)) (layers : Nat)
    (history : List (Request τ)) :
    let buffers := (tower outcomes layers).after history
    buffers.heldItems.length = layers + 1 ∧
    Accounted outcomes ((tower outcomes layers).takenBy history) buffers ∧
    (∀ request : Request τ, request.operation ≠ .drain →
      (buffers.inside request.layers).next.1.item? = none →
      (buffers.ask request).2.heldItems = buffers.heldItems ∧
        (buffers.inside request.layers).taken request.operation = []) ∧
    (∀ level, (buffers.ask ⟨level, .drain⟩).2.heldItems =
      List.replicate (buffers.inside level).heldItems.length none
        ++ buffers.heldItems.drop (buffers.inside level).heldItems.length) ∧
    (∀ level items, (buffers.ask ⟨level, .drain⟩).1 = .items (.ok items) →
      items = (buffers.inside level).taken .drain) ∧
    ∀ level ≤ layers, ∀ a, (buffers.ask ⟨level, .peek⟩).1 = .pull (.item a) →
      ∀ look : Operation τ, look.Looks →
      ∀ between : List (Request τ),
        (∀ request ∈ between, request.layers ≤ layers ∧ request.Spares level) →
        (((buffers.ask ⟨level, look⟩).2.after between).ask ⟨level, .next⟩).1 =
          .pull (.item a) := by
  intro buffers
  have hlength : buffers.heldItems.length = layers + 1 := by
    rw [length_heldItems_after, heldItems_tower, List.length_replicate]
  refine ⟨hlength, (accounted_tower outcomes layers).after history, ?_, ?_, ?_, ?_⟩
  · intro request hdrain hnone
    exact ask_of_none hnone hdrain
  · exact ask_drain buffers
  · intro level items hitems
    rw [ask, under_fst] at hitems
    injection hitems with hitems
    exact items_of_drain hitems
  · intro level hlevel a hpeek look hlook between hbetween
    have hitem : (buffers.inside level).next.1 = .item a := by
      rw [ask, under_fst, perform, peek_fst] at hpeek
      injection hpeek
    refine next_after_look (by omega) hitem hlook fun request hrequest => ?_
    obtain ⟨hunder, hspares⟩ := hbetween request hrequest
    exact ⟨by omega, hspares⟩

/-- In a tower of two buffers, where the outer one has made the inner one look beyond a pause. -/
theorem tower_keeps_items_looked_at :
    let buffers := (tower [.item 1, .ended (none : Option Unit), .item 2] 1).after
      [⟨1, .peek⟩, ⟨0, .peek⟩, ⟨1, .peekOr 9⟩]
    (0 ≤ 1 ∧ (buffers.ask ⟨0, .peek⟩).1 = .pull (.item 1) ∧
      Operation.Looks (.hasNext : Operation Nat) ∧
      ∀ request ∈ ([⟨1, .next⟩] : List (Request Nat)), request.layers ≤ 1 ∧ request.Spares 0) ∧
    (((buffers.ask ⟨0, .hasNext⟩).2.after [⟨1, .next⟩]).ask ⟨0, .next⟩).1 = .pull (.item 1) := by
  intro buffers
  have hbetween : ∀ request ∈ ([⟨1, .next⟩] : List (Request Nat)),
      request.layers ≤ 1 ∧ request.Spares 0 := by
    simp [Request.Spares]
  refine ⟨⟨Nat.zero_le 1, rfl, trivial, hbetween⟩, ?_⟩
  exact (tower_keeps_items _ 1 _).2.2.2.2.2 0 (Nat.zero_le 1) 1 rfl .hasNext trivial _ hbetween

end Buffer

end Precedence
