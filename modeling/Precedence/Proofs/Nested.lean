import Mathlib
import Precedence.Nesting
import Precedence.Proofs.Outline

/-!
# Climbs of nested pairs

Reducing a pair climbs its inner pairs, whose operands are reduced in the same way. What is shown of
a single climb is lifted here to nested ones, by induction on the nesting.

## Main definitions

- `Nesting.Like` — ways to reduce pairs that are coupled
- `Nesting.Silent` — nothing is done when the observer is told something
- `Nesting.outlineInner` — the outline of a climb of inner pairs, and a look at what is left over

## Main statements

- `Pair.induction` — what holds of a pair if it holds of its inner pairs holds of every pair
- `Nesting.Like.reduceInner` — coupled ways to reduce pairs reduce the inner pairs of a pair alike
- `reduceInner_eq` — reducing the inner pairs of a pair is what its outline says
-/

namespace Precedence

variable {σ σ₁ σ₂ ε ρ β α α₁ α₂ : Type}

/-- What holds of a pair if it holds of all its inner pairs holds of every pair. -/
theorem Pair.induction {motive : Pair ρ β → Prop}
    (step : ∀ pair, (∀ inner ∈ pair.inner, motive inner) → motive pair) (pair : Pair ρ β) :
    motive pair := by
  refine @Pair.rec ρ β motive (fun pairs => ∀ inner ∈ pairs, motive inner) ?_ ?_ ?_ pair
  · intro rule start stop inner hinner
    exact step _ hinner
  · simp
  · intro head tail hhead htail inner hmem
    rcases List.mem_cons.1 hmem with rfl | hmem
    · exact hhead
    · exact htail inner hmem

/-! ### Coupled ways to reduce pairs -/

/-- Ways to reduce pairs that tell operators alike, and whose callbacks are coupled. -/
structure Nesting.Like (V : α₁ → α₂ → Prop) (R : σ₁ → σ₂ → Prop) (n₁ : Nesting σ₁ ε ρ β α₁)
    (n₂ : Nesting σ₂ ε ρ β α₂) : Prop where
  level? : n₁.level? = n₂.level?
  visit : ∀ pair, Act.Like (Option.Rel V) R (n₁.visit pair) (n₂.visit pair)
  combine : ∀ op {a b v w}, V a v → V b w →
    Act.Like V R (n₁.combine a op b) (n₂.combine v op w)
  observe : ∀ note {s t}, R s t → R ((n₁.observe note).run s).2 ((n₂.observe note).run t).2
  emptyInner : n₁.emptyInner = n₂.emptyInner
  emptyInput : n₁.emptyInput = n₂.emptyInput
  missingOperand : n₁.missingOperand = n₂.missingOperand
  excess : n₁.excess = n₂.excess

/-- The same pair beside coupled actions. -/
def ItemLike (V : α₁ → α₂ → Prop) (R : σ₁ → σ₂ → Prop) (item₁ : Pair ρ β × Act σ₁ ε α₁)
    (item₂ : Pair ρ β × Act σ₂ ε α₂) : Prop :=
  item₁.1 = item₂.1 ∧ Act.Like V R item₁.2 item₂.2

/-- The grammar of pairs, each beside an action, with the complaint about a pair without inner
pairs. -/
def Nesting.guarded (nesting : Nesting σ ε ρ β α) (parent : Pair ρ β) :
    Grammar ε (Pair ρ β × Act σ ε α) :=
  { nesting.grammar with emptyInput := nesting.emptyInner parent }

namespace Nesting.Like

variable {V : α₁ → α₂ → Prop} {R : σ₁ → σ₂ → Prop} {n₁ : Nesting σ₁ ε ρ β α₁}
  {n₂ : Nesting σ₂ ε ρ β α₂}

theorem guarded (h : Nesting.Like V R n₁ n₂) (parent : Pair ρ β) :
    Grammar.Like (ItemLike V R) (n₁.guarded parent) (n₂.guarded parent) where
  level? hitem := by
    simp only [Nesting.guarded, Nesting.grammar, h.level?, hitem.1]
  emptyInput := by
    simp only [Nesting.guarded, h.emptyInner]
  missingOperand hitem := by
    simp only [Nesting.guarded, Nesting.grammar, h.missingOperand, hitem.1]

theorem hooks (h : Nesting.Like V R n₁ n₂) : Hooks.Like (ItemLike V R) V R n₁.hooks n₂.hooks where
  primary _ _ _ _ hitem := hitem.2
  combine _ _ v₁ v₂ item₁ item₂ w₁ w₂ hv hitem hw := by
    simp only [Nesting.hooks, hitem.1]
    exact h.combine _ hv hw
  absorbing prec hitem _ _ hs := by
    simp only [Nesting.hooks, Note.map, hitem.1]
    exact h.observe _ hs
  reducing prec hitem _ _ hs := by
    simp only [Nesting.hooks, Note.map, hitem.1]
    exact h.observe _ hs

end Nesting.Like

/-- What a climb of inner pairs gives once the climb has ended. -/
def Nesting.ending (nesting : Nesting σ ε ρ β α) :
    Except ε α × ClimbState σ ε (Pair ρ β × Act σ ε α) → Except ε α × σ
  | (.error e, state) => (.error e, state.user)
  | (.ok value, state) =>
    match state.buffer.peek.1 with
    | .item item => ((nesting.excess item.1).map fun _ => value, state.user)
    | _ => (.ok value, state.user)

/-- Once a climb has its first item, it does not matter what is thrown at one without items. -/
theorem climbFrom_absorb_emptyInput {τ : Type} (grammar : Grammar ε τ) (hooks : Hooks σ ε τ α) (e : ε)
    (fuel : Nat) :
    (∀ floor left, climbFrom { grammar with emptyInput := e } hooks fuel floor left =
      climbFrom grammar hooks fuel floor left) ∧
    ∀ prec right, absorb { grammar with emptyInput := e } hooks fuel prec right =
      absorb grammar hooks fuel prec right := by
  induction fuel with
  | zero => exact ⟨fun _ _ => rfl, fun _ _ => rfl⟩
  | succ fuel ih =>
    have hpeek : ClimbM.peekOperator (σ := σ) { grammar with emptyInput := e } =
        ClimbM.peekOperator grammar := rfl
    obtain ⟨ihClimb, ihAbsorb⟩ := ih
    constructor
    · intro floor left
      rw [climbFrom_step, climbFrom_step, hpeek]
      simp only [ihClimb, ihAbsorb]
    · intro prec right
      rw [absorb_step, absorb_step, hpeek]
      simp only [ihClimb, ihAbsorb]

/-- A climb of inner pairs is a climb whose complaint, if there are none, is about their parent. -/
theorem run_climbInner (nesting : Nesting σ ε ρ β α) (parent : Pair ρ β)
    (items : List (Pair ρ β × Act σ ε α)) (s : σ) :
    (nesting.climbInner parent items).run.run s =
      nesting.ending
        ((climb (nesting.guarded parent) nesting.hooks).run.run ⟨Buffer.ofList items, s⟩) := by
  cases items with
  | nil => rfl
  | cons item items =>
    have hclimb : (climb (nesting.guarded parent) nesting.hooks).run.run
          ⟨Buffer.ofList (item :: items), s⟩ =
        (climb nesting.grammar nesting.hooks).run.run ⟨Buffer.ofList (item :: items), s⟩ := by
      have hfrom := fun fuel =>
        (climbFrom_absorb_emptyInput nesting.grammar nesting.hooks (nesting.emptyInner parent) fuel).1
      rw [climb_step, climb_step, Nesting.guarded]
      simp only [hfrom]
      rfl
    have hlift : (liftM (runClimb nesting.grammar nesting.hooks (Buffer.ofList (item :: items))) :
        Act σ ε _).run.run s = _ := run_lift _ s
    rw [run_runClimb] at hlift
    rw [Nesting.climbInner, if_neg (by simp), hclimb]
    change (liftM (runClimb nesting.grammar nesting.hooks (Buffer.ofList (item :: items))) >>= _ :
      Act σ ε α).run.run s = _
    rw [run_bind_ok hlift]
    rcases (climb nesting.grammar nesting.hooks).run.run ⟨Buffer.ofList (item :: items), s⟩ with
      ⟨result, state⟩
    cases result with
    | error e => rfl
    | ok value =>
      simp only [Nesting.ending]
      cases state.buffer.peek.1 with
      | item item =>
        simp only
        cases nesting.excess item.1 <;> rfl
      | ended detail => rfl
      | fault e => rfl

namespace Nesting.Like

variable {V : α₁ → α₂ → Prop} {R : σ₁ → σ₂ → Prop} {n₁ : Nesting σ₁ ε ρ β α₁}
  {n₂ : Nesting σ₂ ε ρ β α₂}

/-- Climbs of inner pairs beside coupled actions are coupled. -/
theorem climbInner (h : Nesting.Like V R n₁ n₂) (parent : Pair ρ β)
    {items₁ : List (Pair ρ β × Act σ₁ ε α₁)} {items₂ : List (Pair ρ β × Act σ₂ ε α₂)}
    (hitems : List.Forall₂ (ItemLike V R) items₁ items₂) :
    Act.Like V R (n₁.climbInner parent items₁) (n₂.climbInner parent items₂) := by
  intro s t hs
  have hbuffer : Buffer.Like (ItemLike V R) (Buffer.ofList items₁ : Buffer ε _)
      (Buffer.ofList items₂) := by
    rw [Buffer.Like, Buffer.remaining_ofList, Buffer.remaining_ofList, List.forall₂_map_left_iff,
      List.forall₂_map_right_iff]
    exact hitems.imp fun _ _ => .item
  have hends := climb_like (h.guarded parent) h.hooks ⟨Buffer.ofList items₁, s⟩
    ⟨Buffer.ofList items₂, t⟩ ⟨hbuffer, hs⟩
  rw [run_climbInner, run_climbInner]
  revert hends
  generalize (climb (n₁.guarded parent) n₁.hooks).run.run ⟨Buffer.ofList items₁, s⟩ = end₁
  generalize (climb (n₂.guarded parent) n₂.hooks).run.run ⟨Buffer.ofList items₂, t⟩ = end₂
  intro hends
  cases hends with
  | error he => exact .error ⟨he.1, he.2.2⟩
  | @ok value₁ value₂ state₁ state₂ hok =>
    obtain ⟨hvalue, hrest, huser⟩ := hok
    have hseen := hrest.peek.1
    simp only [Nesting.ending]
    revert hseen
    generalize state₁.buffer.peek.1 = seen₁
    generalize state₂.buffer.peek.1 = seen₂
    intro hseen
    cases hseen with
    | @item item₁ item₂ hitem =>
      simp only [h.excess, hitem.1]
      cases n₂.excess item₂.1 with
      | ok _ => exact .ok ⟨hvalue, huser⟩
      | error e => exact .error ⟨rfl, huser⟩
    | ended detail => exact .ok ⟨hvalue, huser⟩
    | fault e => exact .ok ⟨hvalue, huser⟩

theorem reducers (pairs : List (Pair ρ β))
    (hpairs : ∀ pair ∈ pairs, Act.Like V R (n₁.reduce pair) (n₂.reduce pair)) :
    List.Forall₂ (ItemLike V R) (n₁.reducers pairs) (n₂.reducers pairs) := by
  rw [Nesting.reducers_eq_map, Nesting.reducers_eq_map, List.forall₂_map_left_iff,
    List.forall₂_map_right_iff, List.forall₂_same]
  exact fun pair hpair => ⟨rfl, hpairs pair hpair⟩

/-- Coupled ways to reduce pairs reduce every pair alike. -/
theorem reduce (h : Nesting.Like V R n₁ n₂) (pair : Pair ρ β) :
    Act.Like V R (n₁.reduce pair) (n₂.reduce pair) := by
  induction pair using Pair.induction with
  | step pair ih =>
    rw [Nesting.reduce_eq, Nesting.reduce_eq]
    refine Coupled.bind (h.visit pair) fun value₁ value₂ => Coupled.of_rel fun hvalue => ?_
    cases hvalue with
    | none => exact h.climbInner pair (reducers pair.inner ih)
    | some hvalue => exact Coupled.pure fun s t hs => ⟨hvalue, hs⟩

theorem reduceInner (h : Nesting.Like V R n₁ n₂) (pair : Pair ρ β) :
    Act.Like V R (n₁.reduceInner pair) (n₂.reduceInner pair) :=
  h.climbInner pair (reducers pair.inner fun inner _ => h.reduce inner)

end Nesting.Like

/-! ### Silent ways to reduce pairs -/

/-- Nothing is done when the observer is told something. -/
def Nesting.Silent (nesting : Nesting σ ε ρ β α) : Prop :=
  ∀ note s, ((nesting.observe note).run s).2 = s

variable {nesting : Nesting σ ε ρ β α}

theorem Nesting.Silent.follow (h : nesting.Silent) :
    nesting.hooks.Follow (fun item => item.2)
      (fun left op right => nesting.combine left op.1 right) Eq Eq where
  primary _ _ := Act.Like.refl _
  combine _ _ a b v w ha hb := by
    rw [ha, hb]
    exact Act.Like.refl _
  observe note s t hs := by
    rw [← hs]
    exact h _ s

/-- The grammar of the inner pairs of a pair. -/
def Nesting.innerGrammar (nesting : Nesting σ ε ρ β α) (parent : Pair ρ β) :
    Grammar ε (Pair ρ β) :=
  ⟨nesting.level?, nesting.emptyInner parent, nesting.missingOperand⟩

/-- The complaint about the first of the pairs that are left over. -/
def Nesting.check (nesting : Nesting σ ε ρ β α) : List (Pair ρ β) → Except ε Unit
  | [] => .ok ()
  | pair :: _ => nesting.excess pair

/-- The outline of a climb of inner pairs, followed by a look at what is left over. -/
def Nesting.outlineInner (nesting : Nesting σ ε ρ β α) (parent : Pair ρ β) : Act σ ε α := do
  let value ← outline (nesting.innerGrammar parent) nesting.reduce nesting.combine parent.inner
  MonadExcept.ofExcept
    (nesting.check (leftover (nesting.innerGrammar parent) nesting.reduce parent.inner))
  pure value

/-- Reducing the inner pairs of a pair is what its outline says. -/
theorem reduceInner_eq (h : nesting.Silent) (parent : Pair ρ β) :
    nesting.reduceInner parent = nesting.outlineInner parent := by
  refine act_ext fun s => ?_
  -- The items of the climb are the pairs beside their actions, and so are those it leaves.
  have hends := climb_outline (nesting.guarded parent) h.follow
    (nesting.reducers parent.inner) ⟨Buffer.ofList (nesting.reducers parent.inner), s⟩ s
    ⟨Buffer.remaining_ofList _, rfl⟩
  rw [Nesting.reduceInner, run_climbInner, Nesting.outlineInner, run_bind]
  revert hends
  generalize (climb (nesting.guarded parent) nesting.hooks).run.run
    ⟨Buffer.ofList (nesting.reducers parent.inner), s⟩ = end₁
  rw [Nesting.reducers_eq_map, outline_map, leftover_map]
  intro hends
  change Agree _ _ _ ((outline (nesting.innerGrammar parent) nesting.reduce nesting.combine
    parent.inner).run.run s) at hends
  revert hends
  generalize (outline (nesting.innerGrammar parent) nesting.reduce nesting.combine
    parent.inner).run.run s = end₂
  intro hends
  cases hends with
  | error he =>
    rw [← he.1, ← he.2]
    rfl
  | @ok value₁ value₂ state s' hok =>
    obtain ⟨rfl, hrest, rfl⟩ := hok
    replace hrest := hrest.remaining
    change state.buffer.remaining = ((leftover (nesting.innerGrammar parent) nesting.reduce
      parent.inner).map _).map _ at hrest
    simp only [Nesting.ending]
    generalize leftover (nesting.innerGrammar parent) nesting.reduce parent.inner = left at hrest
    cases left with
    | nil =>
      rw [Buffer.peek_of_remaining_nil hrest]
      rfl
    | cons pair rest =>
      rw [Buffer.peek_of_remaining_cons hrest]
      simp only [Nesting.check]
      cases nesting.excess pair <;> rfl

end Precedence
