import Mathlib
import Precedence.Climb

/-!
# Coupled actions

Two actions that may fail, each on a state of its own, are compared by running them side by side from
related states: they have to succeed or fail together, and end in related states.

## Main definitions

- `Agree` — the ends of two runs
- `Coupled` — actions whose runs agree

## Main statements

- `Coupled.bind` — coupled actions, followed by coupled actions
- `Coupled.mono` — a weaker precondition, and weaker relations of the ends
-/

namespace Precedence

variable {σ σ₁ σ₂ ε ε₁ ε₂ α β α₁ α₂ β₁ β₂ : Type}

theorem run_bind (m : Act σ ε α) (k : α → Act σ ε β) (s : σ) :
    (m >>= k).run.run s = match m.run.run s with
      | (.ok a, s') => (k a).run.run s'
      | (.error e, s') => (.error e, s') := by
  rw [ExceptT.run_bind, StateT.run_bind]
  rcases m.run.run s with ⟨result, s'⟩
  cases result <;> rfl

@[simp] theorem run_pure (a : α) (s : σ) : (pure a : Act σ ε α).run.run s = (.ok a, s) := rfl

@[simp] theorem run_throw (e : ε) (s : σ) : (throw e : Act σ ε α).run.run s = (.error e, s) := rfl

@[simp] theorem run_get (s : σ) : (get : Act σ ε σ).run.run s = (.ok s, s) := rfl

@[simp] theorem run_set (s s' : σ) : (set s' : Act σ ε PUnit).run.run s = (.ok ⟨⟩, s') := rfl

@[simp] theorem run_lift (m : StateM σ α) (s : σ) :
    (liftM m : Act σ ε α).run.run s = (.ok (m.run s).1, (m.run s).2) := rfl

theorem run_bind_ok {m : Act σ ε α} {k : α → Act σ ε β} {s s' : σ} {a : α}
    (h : m.run.run s = (.ok a, s')) : (m >>= k).run.run s = (k a).run.run s' := by
  rw [run_bind, h]

theorem run_bind_error {m : Act σ ε α} {k : α → Act σ ε β} {s s' : σ} {e : ε}
    (h : m.run.run s = (.error e, s')) : (m >>= k).run.run s = (.error e, s') := by
  rw [run_bind, h]

theorem act_ext {m n : Act σ ε α} (h : ∀ s, m.run.run s = n.run.run s) : m = n :=
  funext h

/-- The ends of two runs: both are values related by `Q` with their states, or both are failures
related by `E`. -/
inductive Agree (Q : α₁ → α₂ → σ₁ → σ₂ → Prop) (E : ε₁ → ε₂ → σ₁ → σ₂ → Prop) :
    Except ε₁ α₁ × σ₁ → Except ε₂ α₂ × σ₂ → Prop
  | ok {a₁ a₂ s₁ s₂} (h : Q a₁ a₂ s₁ s₂) : Agree Q E (.ok a₁, s₁) (.ok a₂, s₂)
  | error {e₁ e₂ s₁ s₂} (h : E e₁ e₂ s₁ s₂) : Agree Q E (.error e₁, s₁) (.error e₂, s₂)

/-- A run that agrees with a success is one. -/
theorem Agree.of_ok {Q : α₁ → α₂ → σ₁ → σ₂ → Prop} {E : ε₁ → ε₂ → σ₁ → σ₂ → Prop}
    {end₁ : Except ε₁ α₁ × σ₁} {a₂ : α₂} {s₂ : σ₂} (h : Agree Q E end₁ (.ok a₂, s₂)) :
    ∃ a₁ s₁, end₁ = (.ok a₁, s₁) ∧ Q a₁ a₂ s₁ s₂ := by
  cases h with
  | ok hQ => exact ⟨_, _, rfl, hQ⟩

theorem Agree.of_error {Q : α₁ → α₂ → σ₁ → σ₂ → Prop} {E : ε₁ → ε₂ → σ₁ → σ₂ → Prop}
    {end₁ : Except ε₁ α₁ × σ₁} {e₂ : ε₂} {s₂ : σ₂} (h : Agree Q E end₁ (.error e₂, s₂)) :
    ∃ e₁ s₁, end₁ = (.error e₁, s₁) ∧ E e₁ e₂ s₁ s₂ := by
  cases h with
  | error hE => exact ⟨_, _, rfl, hE⟩

/-- From states related by `P` the runs of two actions agree. -/
def Coupled (P : σ₁ → σ₂ → Prop) (m₁ : Act σ₁ ε₁ α₁) (m₂ : Act σ₂ ε₂ α₂)
    (Q : α₁ → α₂ → σ₁ → σ₂ → Prop) (E : ε₁ → ε₂ → σ₁ → σ₂ → Prop) : Prop :=
  ∀ s₁ s₂, P s₁ s₂ → Agree Q E (m₁.run.run s₁) (m₂.run.run s₂)

namespace Coupled

variable {P P' : σ₁ → σ₂ → Prop} {m₁ : Act σ₁ ε₁ α₁} {m₂ : Act σ₂ ε₂ α₂}
  {Q Q' : α₁ → α₂ → σ₁ → σ₂ → Prop} {E E' : ε₁ → ε₂ → σ₁ → σ₂ → Prop}

theorem pure {a₁ : α₁} {a₂ : α₂} (h : ∀ s₁ s₂, P s₁ s₂ → Q a₁ a₂ s₁ s₂) :
    Coupled P (Pure.pure a₁ : Act σ₁ ε₁ α₁) (Pure.pure a₂ : Act σ₂ ε₂ α₂) Q E :=
  fun s₁ s₂ hP => .ok (h s₁ s₂ hP)

theorem throw {e₁ : ε₁} {e₂ : ε₂} (h : ∀ s₁ s₂, P s₁ s₂ → E e₁ e₂ s₁ s₂) :
    Coupled P (throw e₁ : Act σ₁ ε₁ α₁) (throw e₂ : Act σ₂ ε₂ α₂) Q E :=
  fun s₁ s₂ hP => .error (h s₁ s₂ hP)

theorem bind {k₁ : α₁ → Act σ₁ ε₁ β₁} {k₂ : α₂ → Act σ₂ ε₂ β₂}
    {S : β₁ → β₂ → σ₁ → σ₂ → Prop} (h : Coupled P m₁ m₂ Q E)
    (hk : ∀ a₁ a₂, Coupled (Q a₁ a₂) (k₁ a₁) (k₂ a₂) S E) :
    Coupled P (m₁ >>= k₁) (m₂ >>= k₂) S E := by
  intro s₁ s₂ hP
  have hm := h s₁ s₂ hP
  rw [run_bind, run_bind]
  revert hm
  generalize m₁.run.run s₁ = end₁
  generalize m₂.run.run s₂ = end₂
  intro hm
  cases hm with
  | ok hQ => exact hk _ _ _ _ hQ
  | error hE => exact .error hE

/-- A step of the first action alone, which always succeeds. -/
theorem bind_left {k₁ : α₁ → Act σ₁ ε₁ β₁} {m₂ : Act σ₂ ε₂ β₂}
    {S : β₁ → β₂ → σ₁ → σ₂ → Prop} {M : α₁ → σ₁ → σ₂ → Prop}
    (h : ∀ s₁ s₂, P s₁ s₂ → ∃ a s₁', m₁.run.run s₁ = (.ok a, s₁') ∧ M a s₁' s₂)
    (hk : ∀ a, Coupled (M a) (k₁ a) m₂ S E) : Coupled P (m₁ >>= k₁) m₂ S E := by
  intro s₁ s₂ hP
  obtain ⟨a, s₁', hrun, hM⟩ := h s₁ s₂ hP
  rw [run_bind_ok hrun]
  exact hk a s₁' s₂ hM

theorem of_run {n₁ : Act σ₁ ε₁ α₁} (h : ∀ s₁ s₂, P s₁ s₂ → m₁.run.run s₁ = n₁.run.run s₁)
    (hn : Coupled P n₁ m₂ Q E) : Coupled P m₁ m₂ Q E := by
  intro s₁ s₂ hP
  rw [h s₁ s₂ hP]
  exact hn s₁ s₂ hP

/-- A relation of the values alone may be taken out of the precondition. -/
theorem of_rel {V : Prop} (h : V → Coupled P m₁ m₂ Q E) :
    Coupled (fun s₁ s₂ => V ∧ P s₁ s₂) m₁ m₂ Q E :=
  fun s₁ s₂ hP => h hP.1 s₁ s₂ hP.2

theorem mono (h : Coupled P m₁ m₂ Q E) (hP : ∀ s₁ s₂, P' s₁ s₂ → P s₁ s₂)
    (hQ : ∀ a₁ a₂ s₁ s₂, Q a₁ a₂ s₁ s₂ → Q' a₁ a₂ s₁ s₂)
    (hE : ∀ e₁ e₂ s₁ s₂, E e₁ e₂ s₁ s₂ → E' e₁ e₂ s₁ s₂) : Coupled P' m₁ m₂ Q' E' := by
  intro s₁ s₂ hP'
  have hm := h s₁ s₂ (hP s₁ s₂ hP')
  revert hm
  generalize m₁.run.run s₁ = end₁
  generalize m₂.run.run s₂ = end₂
  intro hm
  cases hm with
  | ok hq => exact .ok (hQ _ _ _ _ hq)
  | error he => exact .error (hE _ _ _ _ he)

end Coupled

end Precedence
