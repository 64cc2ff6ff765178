import Mathlib
import Precedence.Proofs.Outcome

/-!
# Recorded calls

The calls of the callbacks of a nesting are recorded in the order in which they are made. Of two
nestings, one may refuse a call that the other does not: it then stops there, and up to that call
both have made the same calls.

## Main definitions

- `Event` — a call of a callback
- `Nesting.recorded` — a nesting that records its calls
- `Act.Writes` — how an action ends, and what it adds to the record
- `Along`, `InStep` — a run that makes the same calls as another one, up to the first that fails
- `Nesting.InStep` — nestings whose callbacks are in step

## Main statements

- `recorded_like` — recording makes no difference to what a nesting does
- `InStep.bind` — actions in step, followed by actions in step
- `Nesting.InStep.along_reduceInner` — nestings whose callbacks are in step reduce pairs in step
-/

namespace Precedence

variable {σ σ₁ σ₂ ε ρ β α α₁ α₂ γ γ₁ γ₂ δ₁ δ₂ : Type}

/-! ### Recording -/

/-- A call of a callback: for a pair, or for two values and the operator between them. -/
inductive Event (ρ β α : Type) where
  | visit (pair : Pair ρ β)
  | combine (left : α) (op : Pair ρ β) (right : α)

/-- Add an event to a record. -/
def record (event : γ) : Act (σ × List γ) ε Unit :=
  modify fun s => (s.1, s.2 ++ [event])

/-- An action beside a record, which it leaves as it is. -/
def Act.aside (m : Act σ ε α) : Act (σ × List γ) ε α := do
  let s ← get
  let (result, s') := m.run.run s.1
  set (s', s.2)
  MonadExcept.ofExcept result

/-- The nesting that records every call of a callback before it is made. -/
def Nesting.recorded (nesting : Nesting σ ε ρ β α) :
    Nesting (σ × List (Event ρ β α)) ε ρ β α where
  level? := nesting.level?
  visit pair := do
    record (.visit pair)
    (nesting.visit pair).aside
  combine left op right := do
    record (.combine left op right)
    (nesting.combine left op right).aside
  observe note := modify fun s => (((nesting.observe note).run s.1).2, s.2)
  emptyInner := nesting.emptyInner
  emptyInput := nesting.emptyInput
  missingOperand := nesting.missingOperand
  excess := nesting.excess

@[simp] theorem run_aside (m : Act σ ε α) (s : σ × List γ) :
    m.aside.run.run s = ((m.run.run s.1).1, (m.run.run s.1).2, s.2) := by
  rw [Act.aside, run_bind_ok (run_get s)]
  rcases m.run.run s.1 with ⟨result, s'⟩
  cases result <;> rfl

@[simp] theorem run_record_bind (event : γ) (k : Unit → Act (σ × List γ) ε α) (s : σ × List γ) :
    (record event >>= k).run.run s = (k ()).run.run (s.1, s.2 ++ [event]) :=
  run_bind_ok rfl

section

variable (nesting : Nesting σ ε ρ β α)

theorem run_recorded_visit (pair : Pair ρ β) (s : σ × List (Event ρ β α)) :
    (nesting.recorded.visit pair).run.run s = (((nesting.visit pair).run.run s.1).1,
      ((nesting.visit pair).run.run s.1).2, s.2 ++ [.visit pair]) := by
  rw [Nesting.recorded, run_record_bind, run_aside]

theorem run_recorded_combine (left : α) (op : Pair ρ β) (right : α)
    (s : σ × List (Event ρ β α)) :
    (nesting.recorded.combine left op right).run.run s =
      (((nesting.combine left op right).run.run s.1).1,
        ((nesting.combine left op right).run.run s.1).2, s.2 ++ [.combine left op right]) := by
  rw [Nesting.recorded, run_record_bind, run_aside]

end

/-- Recording makes no difference to what a nesting does. -/
theorem recorded_like (nesting : Nesting σ ε ρ β α) :
    Nesting.Like Eq (fun s t => s.1 = t) nesting.recorded nesting where
  level? := rfl
  visit pair := by
    refine Act.Like.of_fst_eq option_rel_refl ?_
    rintro s _ rfl
    rw [run_recorded_visit]
    exact ⟨rfl, rfl⟩
  combine op a b v w ha hb := by
    rw [ha, hb]
    refine Act.Like.of_fst_eq (fun _ => rfl) ?_
    rintro s _ rfl
    rw [run_recorded_combine]
    exact ⟨rfl, rfl⟩
  observe note s t hs := by
    rw [← hs]
    rfl
  emptyInner := rfl
  emptyInput := rfl
  missingOperand := rfl
  excess := rfl

/-- The calls that are recorded do not depend on the state. -/
theorem Nesting.Stateless.recorded_like {nesting : Nesting σ ε ρ β α} (h : nesting.Stateless)
    (s₀ : σ) :
    Nesting.Like Eq (fun s t => s.2 = t.2) nesting.recorded (nesting.fresh s₀).recorded where
  level? := rfl
  visit pair := by
    refine Act.Like.of_fst_eq option_rel_refl fun s t hs => ?_
    rw [run_recorded_visit, run_recorded_visit, hs]
    refine ⟨(h.visit pair s.1 s₀).trans ?_, rfl⟩
    exact (outcome_ofExcept _).symm
  combine op a b v w ha hb := by
    rw [ha, hb]
    refine Act.Like.of_fst_eq (fun _ => rfl) fun s t hs => ?_
    rw [run_recorded_combine, run_recorded_combine, hs]
    refine ⟨(h.combine v op w s.1 s₀).trans ?_, rfl⟩
    exact (outcome_ofExcept _).symm
  observe _ _ _ hs := hs
  emptyInner := rfl
  emptyInput := rfl
  missingOperand := rfl
  excess := rfl

theorem Nesting.Silent.recorded {nesting : Nesting σ ε ρ β α} (h : nesting.Silent) :
    nesting.recorded.Silent :=
  fun note s => Prod.ext (h note s.1) rfl

/-! ### Actions that record -/

/-- An action that ends with a result, and adds events to the record. -/
def Act.Writes (m : Act (Unit × List γ) ε α) (result : Except ε α) (events : List γ) : Prop :=
  ∀ s, m.run.run s = (result, s.1, s.2 ++ events)

namespace Act.Writes

variable {m : Act (Unit × List γ) ε α} {k : α → Act (Unit × List γ) ε δ₁} {events more : List γ}

theorem pure (a : α) : (Pure.pure a : Act (Unit × List γ) ε α).Writes (.ok a) [] := by
  intro s
  rw [List.append_nil]
  rfl

theorem throw (e : ε) : (throw e : Act (Unit × List γ) ε α).Writes (.error e) [] := by
  intro s
  rw [List.append_nil]
  rfl

theorem bind_ok {a : α} {result : Except ε δ₁} (h : m.Writes (.ok a) events)
    (hk : (k a).Writes result more) : (m >>= k).Writes result (events ++ more) := by
  intro s
  rw [run_bind_ok (h s), hk, List.append_assoc]

theorem bind_error {e : ε} (h : m.Writes (.error e) events) : (m >>= k).Writes (.error e) events :=
  fun s => run_bind_error (h s)

/-- Whatever an action is followed by, what it has recorded is kept. -/
theorem exists_bind {result : Except ε α} (h : m.Writes result events)
    (hk : ∀ a, ∃ next more, (k a).Writes next more) :
    ∃ next more, (m >>= k).Writes next (events ++ more) := by
  cases result with
  | ok a =>
    obtain ⟨next, more, hnext⟩ := hk a
    exact ⟨next, more, h.bind_ok hnext⟩
  | error e =>
    refine ⟨.error e, [], ?_⟩
    rw [List.append_nil]
    exact h.bind_error

end Act.Writes

theorem writes_recorded_visit (nesting : Nesting Unit ε ρ β α) (pair : Pair ρ β) :
    (nesting.recorded.visit pair).Writes (nesting.visit pair).outcome [.visit pair] :=
  run_recorded_visit nesting pair

theorem writes_recorded_combine (nesting : Nesting Unit ε ρ β α) (left : α) (op : Pair ρ β)
    (right : α) :
    (nesting.recorded.combine left op right).Writes (nesting.combine left op right).outcome
      [.combine left op right] :=
  run_recorded_combine nesting left op right

/-! ### Runs in step -/

/-- The same call, with related values. -/
inductive Event.Like (V : α₁ → α₂ → Prop) : Event ρ β α₁ → Event ρ β α₂ → Prop
  | visit (pair) : Like V (.visit pair) (.visit pair)
  | combine {a b v w} (op) (hleft : V a v) (hright : V b w) :
      Like V (.combine a op b) (.combine v op w)

/-- The ends of two runs, and the calls that they have made. If none of the calls of the first run
fails, the second run makes the same calls and ends in the same way. Otherwise it makes the same calls
up to the first one that fails, and ends with the complaint about that. -/
inductive Along (fails : Event ρ β α₁ → ε → Prop) (V : α₁ → α₂ → Prop) (W : δ₁ → δ₂ → Prop) :
    Except ε δ₁ → List (Event ρ β α₁) → Except ε δ₂ → List (Event ρ β α₂) → Prop
  | ok {a b events calls} (hfine : ∀ event ∈ events, ∀ e, ¬ fails event e)
      (hcalls : List.Forall₂ (Event.Like V) events calls) (hvalue : W a b) :
      Along fails V W (.ok a) events (.ok b) calls
  | error {e events calls} (hfine : ∀ event ∈ events, ∀ e, ¬ fails event e)
      (hcalls : List.Forall₂ (Event.Like V) events calls) :
      Along fails V W (.error e) events (.error e) calls
  | failed {result before event after e calls} (hfine : ∀ event ∈ before, ∀ e, ¬ fails event e)
      (hfails : fails event e)
      (hcalls : List.Forall₂ (Event.Like V) (before ++ [event]) calls) :
      Along fails V W result (before ++ event :: after) (.error e) calls

section

variable {fails : Event ρ β α₁ → ε → Prop} {V : α₁ → α₂ → Prop} {W : δ₁ → δ₂ → Prop}

/-- Calls that have been made before. -/
theorem Along.prepend {result₁ : Except ε δ₁} {result₂ : Except ε δ₂}
    {front events : List (Event ρ β α₁)} {start calls : List (Event ρ β α₂)}
    (hfine : ∀ event ∈ front, ∀ e, ¬ fails event e)
    (hfront : List.Forall₂ (Event.Like V) front start)
    (h : Along fails V W result₁ events result₂ calls) :
    Along fails V W result₁ (front ++ events) result₂ (start ++ calls) := by
  cases h with
  | ok hevents hcalls hvalue =>
    exact .ok (List.forall_mem_append.2 ⟨hfine, hevents⟩) (List.rel_append hfront hcalls) hvalue
  | error hevents hcalls =>
    exact .error (List.forall_mem_append.2 ⟨hfine, hevents⟩) (List.rel_append hfront hcalls)
  | failed hbefore hfails hcalls =>
    rw [← List.append_assoc]
    refine .failed (List.forall_mem_append.2 ⟨hfine, hbefore⟩) hfails ?_
    rw [List.append_assoc]
    exact List.rel_append hfront hcalls

/-- If no call fails, the second run makes the same calls and ends in the same way. -/
theorem Along.of_fine {result₁ : Except ε δ₁} {result₂ : Except ε δ₂}
    {events : List (Event ρ β α₁)} {calls : List (Event ρ β α₂)}
    (h : Along fails V W result₁ events result₂ calls)
    (hfine : ∀ event ∈ events, ∀ e, ¬ fails event e) :
    List.Forall₂ (Event.Like V) events calls ∧
      (∀ a, result₁ = .ok a → ∃ b, result₂ = .ok b ∧ W a b) ∧
        ∀ e, result₁ = .error e → result₂ = .error e := by
  cases h with
  | ok _ hcalls hvalue =>
    refine ⟨hcalls, ?_, nofun⟩
    rintro _ ⟨⟩
    exact ⟨_, rfl, hvalue⟩
  | error _ hcalls =>
    refine ⟨hcalls, nofun, ?_⟩
    rintro _ ⟨⟩
    rfl
  | failed _ hfails _ =>
    exact absurd hfails (hfine _ (List.mem_append_right _ List.mem_cons_self) _)

/-- If a call fails, the second run ends with the complaint about the first one that does. -/
theorem Along.of_failed {result₁ : Except ε δ₁} {result₂ : Except ε δ₂}
    {events : List (Event ρ β α₁)} {calls : List (Event ρ β α₂)}
    (h : Along fails V W result₁ events result₂ calls)
    (hfailed : ∃ event ∈ events, ∃ e, fails event e) :
    ∃ before event after e, events = before ++ event :: after ∧
      (∀ event ∈ before, ∀ e, ¬ fails event e) ∧ fails event e ∧
        List.Forall₂ (Event.Like V) (before ++ [event]) calls ∧ result₂ = .error e := by
  obtain ⟨event, hevent, e, he⟩ := hfailed
  cases h with
  | ok hfine _ _ => exact absurd he (hfine event hevent e)
  | error hfine _ => exact absurd he (hfine event hevent e)
  | failed hfine hfails hcalls => exact ⟨_, _, _, _, rfl, hfine, hfails, hcalls, rfl⟩

/-- Two actions whose runs go along. -/
def InStep (fails : Event ρ β α₁ → ε → Prop) (V : α₁ → α₂ → Prop) (W : δ₁ → δ₂ → Prop)
    (m₁ : Act (Unit × List (Event ρ β α₁)) ε δ₁) (m₂ : Act (Unit × List (Event ρ β α₂)) ε δ₂) :
    Prop :=
  ∃ result₁ events result₂ calls, m₁.Writes result₁ events ∧ m₂.Writes result₂ calls ∧
    Along fails V W result₁ events result₂ calls

namespace InStep

variable {m₁ : Act (Unit × List (Event ρ β α₁)) ε δ₁} {m₂ : Act (Unit × List (Event ρ β α₂)) ε δ₂}

theorem pure {a : δ₁} {b : δ₂} (h : W a b) : InStep fails V W (Pure.pure a) (Pure.pure b) :=
  ⟨_, _, _, _, .pure a, .pure b, .ok (by simp) .nil h⟩

theorem throw (e : ε) : InStep fails V W (throw e) (throw e) :=
  ⟨_, _, _, _, .throw e, .throw e, .error (by simp) .nil⟩

theorem exists_writes (h : InStep fails V W m₁ m₂) : ∃ result events, m₁.Writes result events := by
  obtain ⟨result, events, -, -, hwrites, -⟩ := h
  exact ⟨result, events, hwrites⟩

/-- Actions in step, followed by actions in step. The first may go on after a call that fails, so
whatever follows it has to record something. -/
theorem bind {θ₁ θ₂ : Type} {Z : θ₁ → θ₂ → Prop}
    {k₁ : δ₁ → Act (Unit × List (Event ρ β α₁)) ε θ₁}
    {k₂ : δ₂ → Act (Unit × List (Event ρ β α₂)) ε θ₂} (h : InStep fails V W m₁ m₂)
    (hwrites : ∀ a, ∃ result events, (k₁ a).Writes result events)
    (hk : ∀ a b, W a b → InStep fails V Z (k₁ a) (k₂ b)) :
    InStep fails V Z (m₁ >>= k₁) (m₂ >>= k₂) := by
  obtain ⟨result₁, events, result₂, calls, h₁, h₂, halong⟩ := h
  cases halong with
  | ok hfine hcalls hvalue =>
    obtain ⟨next₁, more, next₂, others, hk₁, hk₂, hnext⟩ := hk _ _ hvalue
    exact ⟨_, _, _, _, h₁.bind_ok hk₁, h₂.bind_ok hk₂, hnext.prepend hfine hcalls⟩
  | error hfine hcalls =>
    exact ⟨_, _, _, _, h₁.bind_error, h₂.bind_error, .error hfine hcalls⟩
  | failed hfine hfails hcalls =>
    -- The second run has ended; whatever the first one adds comes after the call that fails.
    obtain ⟨next, more, hnext⟩ := h₁.exists_bind hwrites
    rw [List.append_assoc, List.cons_append] at hnext
    exact ⟨_, _, _, _, hnext, h₂.bind_error, .failed hfine hfails hcalls⟩

end InStep

end

/-! ### Nestings in step -/

/-- Nestings whose callbacks are in step for good pairs, as the inner pairs of good pairs are. -/
structure Nesting.InStep (good : Pair ρ β → Prop) (fails : Event ρ β α₁ → ε → Prop)
    (V : α₁ → α₂ → Prop) (n₁ : Nesting Unit ε ρ β α₁) (n₂ : Nesting Unit ε ρ β α₂) : Prop where
  silent₁ : n₁.Silent
  silent₂ : n₂.Silent
  level? : n₁.level? = n₂.level?
  emptyInner : n₁.emptyInner = n₂.emptyInner
  missingOperand : n₁.missingOperand = n₂.missingOperand
  excess : n₁.excess = n₂.excess
  inner : ∀ {pair}, good pair → ∀ inner ∈ pair.inner, good inner
  visit : ∀ {pair}, good pair →
    Along fails V (Option.Rel V) (n₁.visit pair).outcome [.visit pair]
      (n₂.visit pair).outcome [.visit pair]
  combine : ∀ {op level a b v w}, good op → n₁.level? op = .ok (some level) → V a v → V b w →
    Along fails V V (n₁.combine a op b).outcome [.combine a op b]
      (n₂.combine v op w).outcome [.combine v op w]

namespace Nesting.InStep

variable {good : Pair ρ β → Prop} {fails : Event ρ β α₁ → ε → Prop} {V : α₁ → α₂ → Prop}
  {n₁ : Nesting Unit ε ρ β α₁} {n₂ : Nesting Unit ε ρ β α₂}

theorem innerGrammar_eq (h : Nesting.InStep good fails V n₁ n₂) (parent : Pair ρ β) :
    n₁.recorded.innerGrammar parent = n₂.recorded.innerGrammar parent := by
  simp only [Nesting.innerGrammar, Nesting.recorded, h.level?, h.emptyInner, h.missingOperand]

theorem recorded_visit (h : Nesting.InStep good fails V n₁ n₂) {pair : Pair ρ β}
    (hgood : good pair) :
    Precedence.InStep fails V (Option.Rel V) (n₁.recorded.visit pair) (n₂.recorded.visit pair) :=
  ⟨_, _, _, _, writes_recorded_visit n₁ pair, writes_recorded_visit n₂ pair, h.visit hgood⟩

theorem recorded_combine (h : Nesting.InStep good fails V n₁ n₂) {op : Pair ρ β} {level : Level}
    (hgood : good op) (hlevel : n₁.level? op = .ok (some level)) {a b : α₁} {v w : α₂}
    (ha : V a v) (hb : V b w) :
    Precedence.InStep fails V V (n₁.recorded.combine a op b) (n₂.recorded.combine v op w) :=
  ⟨_, _, _, _, writes_recorded_combine n₁ a op b, writes_recorded_combine n₂ v op w,
    h.combine hgood hlevel ha hb⟩

/-- A look at the next pair, after which a value is given, records nothing. -/
theorem glance_inStep (grammar : Grammar ε (Pair ρ β)) (rest : List (Pair ρ β)) {a : α₁} {b : α₂}
    (hab : V a b) :
    Precedence.InStep fails V V (glance grammar rest >>= fun _ => pure a)
      (glance grammar rest >>= fun _ => pure b) := by
  cases rest with
  | nil => exact .pure hab
  | cons op rest =>
    rw [glance, glance]
    cases grammar.level? op with
    | ok level => exact .pure hab
    | error e => exact .throw e

theorem glance_writes (grammar : Grammar ε (Pair ρ β)) (rest : List (Pair ρ β)) (a : α₁) :
    ∃ result events, (glance grammar rest >>= fun _ => pure a :
      Act (Unit × List (Event ρ β α₁)) ε α₁).Writes result events := by
  cases rest with
  | nil => exact ⟨_, _, .pure a⟩
  | cons op rest =>
    rw [glance]
    cases grammar.level? op with
    | ok level => exact ⟨_, _, .pure a⟩
    | error e => exact ⟨_, _, .throw e⟩

theorem check_inStep (h : Nesting.InStep good fails V n₁ n₂) (pairs : List (Pair ρ β)) {a : α₁}
    {b : α₂} (hab : V a b) :
    Precedence.InStep fails V V
      (MonadExcept.ofExcept (n₁.recorded.check pairs) >>= fun _ => pure a)
      (MonadExcept.ofExcept (n₂.recorded.check pairs) >>= fun _ => pure b) := by
  have hcheck : n₁.recorded.check pairs = n₂.recorded.check pairs := by
    cases pairs with
    | nil => rfl
    | cons pair rest => exact congrFun h.excess pair
  rw [hcheck]
  cases n₂.recorded.check pairs with
  | ok _ => exact .pure hab
  | error e => exact .throw e

theorem check_writes (x : Except ε Unit) (a : α₁) :
    ∃ result events, (MonadExcept.ofExcept x >>= fun _ => pure a :
      Act (Unit × List (Event ρ β α₁)) ε α₁).Writes result events := by
  cases x with
  | ok _ => exact ⟨_, _, .pure a⟩
  | error e => exact ⟨_, _, .throw e⟩

/-- The outlines of climbs of inner pairs are in step if the inner pairs are. -/
theorem outline_inStep (h : Nesting.InStep good fails V n₁ n₂) (parent : Pair ρ β)
    (hgood : ∀ pair ∈ parent.inner, good pair)
    (hinner : ∀ pair ∈ parent.inner,
      Precedence.InStep fails V V (n₁.recorded.reduce pair) (n₂.recorded.reduce pair)) :
    Precedence.InStep fails V V
      (outline (n₁.recorded.innerGrammar parent) n₁.recorded.reduce n₁.recorded.combine
        parent.inner)
      (outline (n₁.recorded.innerGrammar parent) n₂.recorded.reduce n₂.recorded.combine
        parent.inner) := by
  refine outline_rel (Precedence.InStep fails V V) (fun e _ => .throw e) ?_ ?_
  · intro pair hpair rest
    exact (hinner pair hpair).bind (glance_writes _ rest) fun a b hab => glance_inStep _ rest hab
  · intro op hop level hlevel left₁ left₂ right₁ right₂ hleft hright
    obtain ⟨result, events, hwrites⟩ := hright.exists_writes
    have hcombine : ∀ a b, ∃ result events, (n₁.recorded.combine a op b).Writes result events :=
      fun a b => ⟨_, _, writes_recorded_combine n₁ a op b⟩
    refine hleft.bind (fun a => ?_) fun a v ha => hright.bind (hcombine a) fun b w hb => ?_
    · obtain ⟨next, more, hnext⟩ := hwrites.exists_bind (hcombine a)
      exact ⟨next, events ++ more, hnext⟩
    · exact h.recorded_combine (hgood op hop) hlevel ha hb

theorem reduceInner_of (h : Nesting.InStep good fails V n₁ n₂) (parent : Pair ρ β)
    (hgood : ∀ pair ∈ parent.inner, good pair)
    (hinner : ∀ pair ∈ parent.inner,
      Precedence.InStep fails V V (n₁.recorded.reduce pair) (n₂.recorded.reduce pair)) :
    Precedence.InStep fails V V (n₁.recorded.reduceInner parent)
      (n₂.recorded.reduceInner parent) := by
  rw [reduceInner_eq h.silent₁.recorded, reduceInner_eq h.silent₂.recorded, Nesting.outlineInner,
    Nesting.outlineInner, ← h.innerGrammar_eq parent,
    leftover_eq _ n₂.recorded.reduce n₁.recorded.reduce]
  refine (h.outline_inStep parent hgood hinner).bind (fun a => ?_) fun a b hab => ?_
  · exact check_writes _ a
  · exact h.check_inStep _ hab

/-- Nestings whose callbacks are in step reduce good pairs in step. -/
theorem reduce (h : Nesting.InStep good fails V n₁ n₂) {pair : Pair ρ β} (hgood : good pair) :
    Precedence.InStep fails V V (n₁.recorded.reduce pair) (n₂.recorded.reduce pair) := by
  induction pair using Pair.induction with
  | step pair ih =>
    have hinner := h.reduceInner_of pair (h.inner hgood) fun inner hmem =>
      ih inner hmem (h.inner hgood inner hmem)
    rw [Nesting.reduce_eq, Nesting.reduce_eq]
    -- Both look at the pair alike, so both take its value or both climb its inner pairs.
    refine (h.recorded_visit hgood).bind (fun value => ?_) fun value₁ value₂ hvalue => ?_
    · cases value with
      | none => exact hinner.exists_writes
      | some a => exact ⟨_, _, .pure a⟩
    · cases hvalue with
      | none => exact hinner
      | some hab => exact .pure hab

theorem reduceInner (h : Nesting.InStep good fails V n₁ n₂) {parent : Pair ρ β}
    (hgood : ∀ pair ∈ parent.inner, good pair) :
    Precedence.InStep fails V V (n₁.recorded.reduceInner parent)
      (n₂.recorded.reduceInner parent) :=
  h.reduceInner_of parent hgood fun pair hpair => h.reduce (hgood pair hpair)

end Nesting.InStep

/-! ### Recorded runs -/

/-- What reducing the inner pairs of a pair gives, and the calls that are made, from a state. -/
def Nesting.trace (nesting : Nesting σ ε ρ β α) (parent : Pair ρ β) (s : σ) :
    Except ε α × List (Event ρ β α) :=
  let (result, _, events) := (nesting.recorded.reduceInner parent).run.run (s, [])
  (result, events)

/-- A recorded run gives what the run gives. -/
theorem fst_trace (nesting : Nesting σ ε ρ β α) (parent : Pair ρ β) (s : σ) :
    (nesting.trace parent s).1 = ((nesting.reduceInner parent).run.run s).1 :=
  (((recorded_like nesting).reduceInner parent).fst_eq rfl).1

theorem Nesting.Stateless.trace_eq {nesting : Nesting σ ε ρ β α} (h : nesting.Stateless)
    (parent : Pair ρ β) (s t : σ) :
    nesting.trace parent s = (nesting.fresh t).trace parent () := by
  obtain ⟨hresult, hevents⟩ := ((h.recorded_like t).reduceInner parent).fst_eq
    (s := (s, [])) (t := ((), [])) rfl
  exact Prod.ext hresult hevents

theorem Act.Writes.trace_eq {nesting : Nesting Unit ε ρ β α} {parent : Pair ρ β}
    {result : Except ε α} {events : List (Event ρ β α)}
    (h : (nesting.recorded.reduceInner parent).Writes result events) :
    nesting.trace parent () = (result, events) := by
  simp only [Nesting.trace, h ((), []), List.nil_append]

/-- The recorded runs of nestings whose callbacks are in step go along. -/
theorem Nesting.InStep.along_trace {good : Pair ρ β → Prop} {fails : Event ρ β α₁ → ε → Prop}
    {V : α₁ → α₂ → Prop} {n₁ : Nesting σ₁ ε ρ β α₁} {n₂ : Nesting σ₂ ε ρ β α₂}
    (h₁ : n₁.Stateless) (h₂ : n₂.Stateless) (s₁ : σ₁) (s₂ : σ₂)
    (h : Nesting.InStep good fails V (n₁.fresh s₁) (n₂.fresh s₂)) {parent : Pair ρ β}
    (hgood : ∀ pair ∈ parent.inner, good pair) (t₁ : σ₁) (t₂ : σ₂) :
    Along fails V V (n₁.trace parent t₁).1 (n₁.trace parent t₁).2 (n₂.trace parent t₂).1
      (n₂.trace parent t₂).2 := by
  obtain ⟨result₁, events, result₂, calls, hwrites₁, hwrites₂, halong⟩ := h.reduceInner hgood
  rw [h₁.trace_eq parent t₁ s₁, h₂.trace_eq parent t₂ s₂, hwrites₁.trace_eq, hwrites₂.trace_eq]
  exact halong

end Precedence
