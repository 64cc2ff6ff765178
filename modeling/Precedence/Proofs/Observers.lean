import Mathlib
import Precedence.Proofs.Announcing
import Precedence.Proofs.Recording
import Precedence.Proofs.Traversal

/-!
# Climbs that are observed

The lines that an observer writes make no difference to a climb. Apart from those about operators that
are absorbed, there is one line for every two values that are combined, in the order in which this is
done.

## Main definitions

- `Watched` — the state of callbacks with a record of their calls and the lines of an observer
- `Hooks.watched`, `Nesting.watched` — callbacks that keep such a record
- `Announces` — notes that announce the operators whose operands are combined
- `Told` — what is written about the calls that a silent run makes as well

## Main statements

- `runClimb_told` — a climb that is observed, beside one that is not
- `reduceInner_told` — the same for nested pairs
-/

namespace Precedence

variable {σ ε τ ρ β α γ : Type}

/-! ### Callbacks that are watched -/

/-- The state of the callbacks, the calls that have been made, and the lines that an observer has
written. -/
structure Watched (σ γ : Type) where
  user : σ
  calls : List γ
  lines : List String

/-- Nothing has been called or written. -/
def Watched.start (s : σ) : Watched σ γ :=
  ⟨s, [], []⟩

/-- A call that is recorded with its result. -/
def Act.watched (m : Act σ ε α) (call : Except ε α → γ) : Act (Watched σ γ) ε α := do
  let state ← get
  let (result, user) := m.run.run state.user
  set { state with user := user, calls := state.calls ++ [call result] }
  MonadExcept.ofExcept result

@[simp] theorem run_watched (m : Act σ ε α) (call : Except ε α → γ) (state : Watched σ γ) :
    (m.watched call).run.run state = ((m.run.run state.user).1,
      { state with
        user := (m.run.run state.user).2
        calls := state.calls ++ [call (m.run.run state.user).1] }) := by
  rw [Act.watched, run_bind_ok (run_get state)]
  rcases m.run.run state.user with ⟨result, user⟩
  cases result <;> rfl

/-- An observer that writes a line about every note if `verbose` is set. -/
def watch (verbose : Bool) (showItem : τ → String) (note : Note τ) : StateM (Watched σ γ) Unit :=
  if verbose then modify fun state => { state with lines := state.lines ++ [note.line showItem] }
  else pure ()

/-- Callbacks that record their calls, with an observer that writes lines. -/
def Hooks.watched (hooks : Hooks σ ε τ α) (verbose : Bool) (showItem : τ → String) :
    Hooks (Watched σ (Response ε τ α)) ε τ α where
  primary n item := (hooks.primary n item).watched (.operand item)
  combine n left op right := (hooks.combine n left op right).watched (.operator left op right)
  observe := watch verbose showItem

/-- Callbacks of a nesting that record their calls, with an observer that writes lines. -/
def Nesting.watched (nesting : Nesting σ ε ρ β α) (verbose : Bool) (showItem : Pair ρ β → String) :
    Nesting (Watched σ (Event ρ β α)) ε ρ β α where
  level? := nesting.level?
  visit pair := (nesting.visit pair).watched fun _ => .visit pair
  combine left op right := (nesting.combine left op right).watched fun _ => .combine left op right
  observe := watch verbose showItem
  emptyInner := nesting.emptyInner
  emptyInput := nesting.emptyInput
  missingOperand := nesting.missingOperand
  excess := nesting.excess

/-! ### What is written about calls -/

/-- Whether a note is about operands that are about to be combined. -/
def Note.isReducing : Note τ → Bool
  | absorbing _ _ => false
  | reducing _ _ => true

/-- The operator that a call is for. -/
def Response.operator? (call : Response ε τ α) : Option τ :=
  call.step.operator?

/-- The operator that a call is for. -/
def Event.operator? : Event ρ β α → Option (Pair ρ β)
  | .visit _ => none
  | .combine _ op _ => some op

/-- The notes about operands that are about to be combined are one for each of the operators, in the
same order, and name the operator with its precedence. -/
def Announces (level? : τ → Except ε (Option Level)) (notes : List (Note τ)) (ops : List τ) : Prop :=
  List.Forall₂ (fun note op => ∃ level, level? op = .ok (some level) ∧ note = .reducing op level.prec)
    (notes.filter Note.isReducing) ops

/-- Two runs have made the same calls and left the callbacks in the same state. The first has written
nothing. The second has written one line for each of its notes, which announce the calls for
operators. -/
structure Told (level? : τ → Except ε (Option Level)) (showItem : τ → String)
    (operator? : γ → Option τ) (silent loud : Watched σ γ) : Prop where
  user : loud.user = silent.user
  calls : loud.calls = silent.calls
  silent : silent.lines = []
  lines : ∃ notes, loud.lines = notes.map (Note.line showItem) ∧
    Announces level? notes (loud.calls.filterMap operator?)

namespace Told

variable {level? : τ → Except ε (Option Level)} {showItem : τ → String}
  {operator? : γ → Option τ} {silent loud : Watched σ γ}

theorem start (s : σ) : Told level? showItem operator? (.start s) (.start s) :=
  ⟨rfl, rfl, rfl, [], rfl, .nil⟩

/-- A line about an operator that is absorbed. -/
theorem absorbing (h : Told level? showItem operator? silent loud) (op : τ) (prec : Nat) :
    Told level? showItem operator? ((watch false showItem (.absorbing op prec)).run silent).2
      ((watch true showItem (.absorbing op prec)).run loud).2 := by
  obtain ⟨notes, hlines, hnotes⟩ := h.lines
  refine ⟨h.user, h.calls, h.silent, notes ++ [.absorbing op prec], ?_, ?_⟩
  · show loud.lines ++ _ = _
    rw [hlines, List.map_append]
    rfl
  · rw [Announces, List.filter_append]
    show List.Forall₂ _ (notes.filter Note.isReducing ++ []) _
    rwa [List.append_nil]

/-- A call that is not for an operator is made in the same way. -/
theorem call (m : Act σ ε α) (response : Except ε α → γ)
    (hresponse : ∀ x, operator? (response x) = none) {V : α → α → Prop} (hV : ∀ a, V a a) :
    Act.Like V (Told level? showItem operator?) (m.watched response) (m.watched response) := by
  refine Act.Like.of_fst_eq hV fun s t h => ?_
  rw [run_watched, run_watched, h.user]
  obtain ⟨notes, hlines, hnotes⟩ := h.lines
  refine ⟨rfl, rfl, ?_, h.silent, notes, hlines, ?_⟩
  · dsimp only
    rw [h.calls]
  · simpa [hresponse] using hnotes

/-- A call for an operator that is announced. -/
theorem announced (m : Act σ ε α) (response : Except ε α → γ) {op : τ} (left : α)
    (hresponse : ∀ x, operator? (response x) = some op) :
    Act.Like Eq (Told level? showItem operator?)
      (announce level? (watch false showItem) op left (m.watched response))
      (announce level? (watch true showItem) op left (m.watched response)) := by
  unfold announce
  split
  next level hlevel =>
    refine Act.Like.of_fst_eq (fun _ => rfl) fun s t h => ?_
    rw [run_bind_ok (run_lift _ s), run_bind_ok (run_lift _ t), run_watched, run_watched]
    obtain ⟨notes, hlines, hnotes⟩ := h.lines
    show (m.run.run s.user).1 = (m.run.run t.user).1 ∧ _
    rw [h.user]
    refine ⟨rfl, ?_, ?_, h.silent, notes ++ [.reducing op level.prec], ?_, ?_⟩
    · show (m.run.run t.user).2 = (m.run.run s.user).2
      rw [h.user]
    · show t.calls ++ [response (m.run.run t.user).1] = s.calls ++ [response (m.run.run s.user).1]
      rw [h.calls, h.user]
    · show t.lines ++ _ = _
      rw [hlines, List.map_append]
      rfl
    · -- The note and the call are each the last of their kind.
      show List.Forall₂ _ _ ((t.calls ++ [response (m.run.run t.user).1]).filterMap operator?)
      rw [List.filter_append, List.filterMap_append, List.filterMap_cons, hresponse]
      exact List.rel_append hnotes (.cons ⟨level, hlevel, rfl⟩ .nil)
  next => exact Coupled.pure fun _ _ h => ⟨rfl, h⟩

end Told

/-! ### Climbs and nested pairs -/

/-- Callbacks that are watched are told apart by the lines only. -/
theorem Hooks.watched_likeAt (grammar : Grammar ε τ) (hooks : Hooks σ ε τ α)
    (showItem : τ → String) :
    Hooks.LikeAt Eq Eq Eq (Told grammar.level? showItem Response.operator?)
      ((hooks.watched false showItem).announcing grammar)
      ((hooks.watched true showItem).announcing grammar) where
  primary := by
    rintro n _ item _ rfl rfl
    show Act.Like Eq _ ((hooks.primary n item).watched (Response.operand item))
      ((hooks.primary n item).watched (Response.operand item))
    exact Told.call _ _ (fun _ => rfl) fun _ => rfl
  combine := by
    rintro n _ left _ op _ right _ rfl rfl rfl rfl
    show Act.Like Eq _
      (announce grammar.level? (watch false showItem) op left
        ((hooks.combine n left op right).watched (Response.operator left op right)))
      (announce grammar.level? (watch true showItem) op left
        ((hooks.combine n left op right).watched (Response.operator left op right)))
    exact Told.announced _ _ _ fun _ => rfl
  absorbing := by
    rintro op _ prec rfl s t h
    exact h.absorbing op prec
  reducing := by
    rintro op _ prec rfl s t h
    exact h

theorem Nesting.watched_like (nesting : Nesting σ ε ρ β α) (showItem : Pair ρ β → String) :
    Nesting.Like Eq (Told nesting.level? showItem Event.operator?)
      (nesting.watched false showItem).announcing (nesting.watched true showItem).announcing where
  level? := rfl
  visit pair := by
    show Act.Like _ _ ((nesting.visit pair).watched fun _ => Event.visit pair)
      ((nesting.visit pair).watched fun _ => Event.visit pair)
    exact Told.call _ _ (fun _ => rfl) option_rel_refl
  combine op left right v w hleft hright := by
    rw [hleft, hright]
    show Act.Like Eq _
      (announce nesting.level? (watch false showItem) op v
        ((nesting.combine v op w).watched fun _ => Event.combine v op w))
      (announce nesting.level? (watch true showItem) op v
        ((nesting.combine v op w).watched fun _ => Event.combine v op w))
    exact Told.announced _ _ _ fun _ => rfl
  observe note s t h := by
    cases note with
    | absorbing op prec => exact h.absorbing op prec
    | reducing op prec => exact h
  emptyInner := rfl
  emptyInput := rfl
  missingOperand := rfl
  excess := rfl

/-- A climb whose callbacks are watched gives the same value or complaint, and leaves the same buffer,
whether lines are written or not. The lines are told by the calls. -/
theorem runClimb_told (grammar : Grammar ε τ) (hooks : Hooks σ ε τ α) (showItem : τ → String)
    (buffer : Buffer ε τ) (s : σ) :
    let silent := (runClimb grammar (hooks.watched false showItem) buffer).run (.start s)
    let loud := (runClimb grammar (hooks.watched true showItem) buffer).run (.start s)
    loud.1 = silent.1 ∧ Told grammar.level? showItem Response.operator? silent.2 loud.2 := by
  have hends := (climb_same grammar (hooks.watched_likeAt grammar showItem)).fst_eq
    (s := ⟨buffer, .start s⟩) (t := ⟨buffer, .start s⟩) ⟨rfl, .start s⟩
  rw [climb_announcing, climb_announcing] at hends
  obtain ⟨hresult, hbuffer, htold⟩ := hends
  dsimp only
  rw [run_runClimb, run_runClimb]
  exact ⟨Prod.ext hresult.symm hbuffer.symm, htold⟩

/-- Pairs are reduced to the same value or complaint whether lines are written or not, however deep
the climbs are nested. The lines are told by the calls of all climbs. -/
theorem reduceInner_told (nesting : Nesting σ ε ρ β α) (showItem : Pair ρ β → String)
    (pair : Pair ρ β) (s : σ) :
    let silent := ((nesting.watched false showItem).reduceInner pair).run.run (.start s)
    let loud := ((nesting.watched true showItem).reduceInner pair).run.run (.start s)
    loud.1 = silent.1 ∧ Told nesting.level? showItem Event.operator? silent.2 loud.2 := by
  have hends := ((nesting.watched_like showItem).reduceInner pair).fst_eq (Told.start s)
  rw [reduceInner_announcing, reduceInner_announcing] at hends
  exact ⟨hends.1.symm, hends.2⟩

end Precedence
