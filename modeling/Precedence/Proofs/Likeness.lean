import Mathlib
import Precedence.Proofs.Lookahead

/-!
# Climbs that are alike

Two climbs over related items, with callbacks that are coupled, are coupled themselves: they end in
the same way, with related values or with the same complaint, and leave buffers that are still to
deliver related items. What the buffers hold already, and what the callbacks do to parts of their
states that the relation leaves out, makes no difference.

## Main definitions

- `Pull.Like`, `Buffer.Like` — related outcomes, and buffers that are still to deliver such outcomes
- `Buffer.Bisimilar` — a relation of buffers that taking items keeps
- `Grammar.Like`, `Hooks.Like` — grammars and callbacks that treat related items alike
- `Hooks.LikeAt` — callbacks that do so if they are told related numbers of outcomes
- `OuterLike`, `InnerLike` — the loops of two climbs are coupled

## Main statements

- `outerLike_succ`, `innerLike_succ` — a round of either loop
- `climb_likeAt` — climbs over buffers that any such relation holds of
- `climb_like`, `climb_same` — climbs that are alike, and climbs over one buffer

## Design notes

Callbacks that are alike do not look at how many outcomes the feed has delivered, for this depends on
what the buffers hold. Over one and the same buffer they may.
-/

namespace Precedence

variable {σ σ₁ σ₂ ε τ τ₁ τ₂ α α₁ α₂ : Type}

/-- Two outcomes that are alike: items related by `X`, or the same pause or failure. -/
inductive Pull.Like (X : τ₁ → τ₂ → Prop) : Pull ε τ₁ → Pull ε τ₂ → Prop
  | item {a₁ a₂} (h : X a₁ a₂) : Like X (.item a₁) (.item a₂)
  | ended (detail) : Like X (.ended detail) (.ended detail)
  | fault (e) : Like X (.fault e) (.fault e)

theorem Pull.Like.refl : ∀ outcome : Pull ε τ, Pull.Like Eq outcome outcome
  | .item _ => .item rfl
  | .ended detail => .ended detail
  | .fault e => .fault e

/-- Two buffers that are still to deliver outcomes that are alike. -/
def Buffer.Like (X : τ₁ → τ₂ → Prop) (b₁ : Buffer ε τ₁) (b₂ : Buffer ε τ₂) : Prop :=
  List.Forall₂ (Pull.Like X) b₁.remaining b₂.remaining

namespace Buffer.Like

variable {X : τ₁ → τ₂ → Prop} {b₁ : Buffer ε τ₁} {b₂ : Buffer ε τ₂}

theorem of_remaining_eq {b₁ b₂ : Buffer ε τ} (h : b₁.remaining = b₂.remaining) :
    Buffer.Like Eq b₁ b₂ := by
  rw [Buffer.Like, h, List.forall₂_same]
  exact fun outcome _ => .refl outcome

theorem remaining_eq {b₁ b₂ : Buffer ε τ} (h : Buffer.Like Eq b₁ b₂) :
    b₁.remaining = b₂.remaining := by
  rw [← List.forall₂_eq_eq_eq]
  refine h.imp fun _ _ hout => ?_
  cases hout with
  | item ha => rw [ha]
  | ended detail => rfl
  | fault e => rfl

theorem size_eq (h : Buffer.Like X b₁ b₂) : b₁.size = b₂.size :=
  List.Forall₂.length_eq h

theorem next (h : Buffer.Like X b₁ b₂) :
    Pull.Like X b₁.next.1 b₂.next.1 ∧ Buffer.Like X b₁.next.2 b₂.next.2 := by
  rw [Buffer.Like] at h ⊢
  rw [next_fst, next_fst, remaining_next, remaining_next]
  revert h
  generalize b₁.remaining = outcomes₁
  generalize b₂.remaining = outcomes₂
  intro h
  cases h with
  | nil => exact ⟨.ended none, .nil⟩
  | cons hhead htail => exact ⟨hhead, htail⟩

theorem peek (h : Buffer.Like X b₁ b₂) :
    Pull.Like X b₁.peek.1 b₂.peek.1 ∧ Buffer.Like X b₁.peek.2 b₂.peek.2 := by
  obtain ⟨hout, hrest⟩ := h.next
  have hheld := fun a₁ a₂ (hX : X a₁ a₂) => List.Forall₂.cons (Pull.Like.item hX) hrest
  simp only [← remaining_hold_next] at hheld
  rcases h₁ : b₁.next with ⟨outcome₁, rest₁⟩
  rcases h₂ : b₂.next with ⟨outcome₂, rest₂⟩
  rw [Buffer.peek, Buffer.peek, h₁, h₂]
  rw [h₁, h₂] at hout hrest hheld
  cases hout with
  | item hX => exact ⟨.item hX, hheld _ _ hX⟩
  | ended detail => exact ⟨.ended detail, hrest⟩
  | fault e => exact ⟨.fault e, hrest⟩

end Buffer.Like

/-- A relation `B` of buffers with items related by `X`, which is kept when an item is taken or looked
at; how many outcomes the buffers have delivered is related by `N`. -/
structure Buffer.Bisimilar (X : τ₁ → τ₂ → Prop) (N : Nat → Nat → Prop)
    (B : Buffer ε τ₁ → Buffer ε τ₂ → Prop) : Prop where
  next : ∀ {b₁ b₂}, B b₁ b₂ → Pull.Like X b₁.next.1 b₂.next.1 ∧ B b₁.next.2 b₂.next.2
  peek : ∀ {b₁ b₂}, B b₁ b₂ → Pull.Like X b₁.peek.1 b₂.peek.1 ∧ B b₁.peek.2 b₂.peek.2
  size_eq : ∀ {b₁ b₂}, B b₁ b₂ → b₁.size = b₂.size
  asked : ∀ {b₁ b₂}, B b₁ b₂ → N b₁.asked b₂.asked

theorem Buffer.Like.bisimilar (X : τ₁ → τ₂ → Prop) :
    Buffer.Bisimilar X (fun _ _ => True) (Buffer.Like X : Buffer ε τ₁ → Buffer ε τ₂ → Prop) where
  next := Buffer.Like.next
  peek := Buffer.Like.peek
  size_eq := Buffer.Like.size_eq
  asked _ := trivial

theorem Buffer.bisimilar_eq :
    Buffer.Bisimilar Eq Eq (Eq : Buffer ε τ → Buffer ε τ → Prop) where
  next := by
    rintro b _ rfl
    exact ⟨.refl _, rfl⟩
  peek := by
    rintro b _ rfl
    exact ⟨.refl _, rfl⟩
  size_eq := congrArg Buffer.size
  asked := congrArg Buffer.asked

/-- Grammars that judge related items alike. -/
structure Grammar.Like (X : τ₁ → τ₂ → Prop) (g₁ : Grammar ε τ₁) (g₂ : Grammar ε τ₂) : Prop where
  level? : ∀ {a₁ a₂}, X a₁ a₂ → g₁.level? a₁ = g₂.level? a₂
  emptyInput : g₁.emptyInput = g₂.emptyInput
  missingOperand : ∀ {a₁ a₂}, X a₁ a₂ → g₁.missingOperand a₁ = g₂.missingOperand a₂

theorem Grammar.Like.refl (grammar : Grammar ε τ) : Grammar.Like Eq grammar grammar where
  level? ha := by rw [ha]
  emptyInput := rfl
  missingOperand ha := by rw [ha]

/-- Actions that are coupled by a relation `V` of values and a relation `R` of states, and fail with
the same complaints. -/
def Act.Like (V : α₁ → α₂ → Prop) (R : σ₁ → σ₂ → Prop) (m₁ : Act σ₁ ε α₁) (m₂ : Act σ₂ ε α₂) :
    Prop :=
  Coupled R m₁ m₂ (fun a₁ a₂ s₁ s₂ => V a₁ a₂ ∧ R s₁ s₂) (fun e₁ e₂ s₁ s₂ => e₁ = e₂ ∧ R s₁ s₂)

namespace Act.Like

/-- Actions with the same results are coupled, if they keep their states related. -/
theorem of_fst_eq {V : α → α → Prop} (hV : ∀ a, V a a) {R : σ₁ → σ₂ → Prop}
    {m₁ : Act σ₁ ε α} {m₂ : Act σ₂ ε α}
    (h : ∀ s t, R s t → (m₁.run.run s).1 = (m₂.run.run t).1 ∧
      R (m₁.run.run s).2 (m₂.run.run t).2) : Act.Like V R m₁ m₂ := by
  intro s t hs
  obtain ⟨hresult, hstate⟩ := h s t hs
  revert hresult hstate
  rcases m₁.run.run s with ⟨result, s'⟩
  rcases m₂.run.run t with ⟨result', t'⟩
  rintro ⟨⟩ hstate
  cases result with
  | ok a => exact .ok ⟨hV a, hstate⟩
  | error e => exact .error ⟨rfl, hstate⟩

/-- The results of actions that are coupled by equality are the same. -/
theorem fst_eq {R : σ₁ → σ₂ → Prop} {m₁ : Act σ₁ ε α} {m₂ : Act σ₂ ε α}
    (h : Act.Like Eq R m₁ m₂) {s : σ₁} {t : σ₂} (hs : R s t) :
    (m₁.run.run s).1 = (m₂.run.run t).1 ∧ R (m₁.run.run s).2 (m₂.run.run t).2 := by
  have hends := h s t hs
  revert hends
  generalize m₁.run.run s = end₁
  generalize m₂.run.run t = end₂
  intro hends
  cases hends with
  | ok hok => exact ⟨congrArg Except.ok hok.1, hok.2⟩
  | error he => exact ⟨congrArg Except.error he.1, he.2⟩

theorem refl (m : Act σ ε α) : Act.Like Eq Eq m m := by
  refine of_fst_eq (fun _ => rfl) ?_
  rintro s _ rfl
  exact ⟨rfl, rfl⟩

end Act.Like

theorem option_rel_refl : ∀ a : Option α, Option.Rel Eq a a
  | none => .none
  | some _ => .some rfl

/-- Callbacks that are coupled, and do not look at how many outcomes have been delivered. -/
structure Hooks.Like (X : τ₁ → τ₂ → Prop) (V : α₁ → α₂ → Prop) (R : σ₁ → σ₂ → Prop)
    (h₁ : Hooks σ₁ ε τ₁ α₁) (h₂ : Hooks σ₂ ε τ₂ α₂) : Prop where
  primary : ∀ n₁ n₂ {a₁ a₂}, X a₁ a₂ → Act.Like V R (h₁.primary n₁ a₁) (h₂.primary n₂ a₂)
  combine : ∀ n₁ n₂ {v₁ v₂ a₁ a₂ w₁ w₂}, V v₁ v₂ → X a₁ a₂ → V w₁ w₂ →
    Act.Like V R (h₁.combine n₁ v₁ a₁ w₁) (h₂.combine n₂ v₂ a₂ w₂)
  absorbing : ∀ {a₁ a₂} prec, X a₁ a₂ → ∀ {s₁ s₂}, R s₁ s₂ →
    R ((h₁.observe (.absorbing a₁ prec)).run s₁).2 ((h₂.observe (.absorbing a₂ prec)).run s₂).2
  reducing : ∀ {a₁ a₂} prec, X a₁ a₂ → ∀ {s₁ s₂}, R s₁ s₂ →
    R ((h₁.observe (.reducing a₁ prec)).run s₁).2 ((h₂.observe (.reducing a₂ prec)).run s₂).2

/-- Callbacks that are coupled if the numbers of outcomes that they are told are related by `N`. -/
structure Hooks.LikeAt (N : Nat → Nat → Prop) (X : τ₁ → τ₂ → Prop) (V : α₁ → α₂ → Prop)
    (R : σ₁ → σ₂ → Prop) (h₁ : Hooks σ₁ ε τ₁ α₁) (h₂ : Hooks σ₂ ε τ₂ α₂) : Prop where
  primary : ∀ {n₁ n₂ a₁ a₂}, N n₁ n₂ → X a₁ a₂ →
    Act.Like V R (h₁.primary n₁ a₁) (h₂.primary n₂ a₂)
  combine : ∀ {n₁ n₂ v₁ v₂ a₁ a₂ w₁ w₂}, N n₁ n₂ → V v₁ v₂ → X a₁ a₂ → V w₁ w₂ →
    Act.Like V R (h₁.combine n₁ v₁ a₁ w₁) (h₂.combine n₂ v₂ a₂ w₂)
  absorbing : ∀ {a₁ a₂} prec, X a₁ a₂ → ∀ {s₁ s₂}, R s₁ s₂ →
    R ((h₁.observe (.absorbing a₁ prec)).run s₁).2 ((h₂.observe (.absorbing a₂ prec)).run s₂).2
  reducing : ∀ {a₁ a₂} prec, X a₁ a₂ → ∀ {s₁ s₂}, R s₁ s₂ →
    R ((h₁.observe (.reducing a₁ prec)).run s₁).2 ((h₂.observe (.reducing a₂ prec)).run s₂).2

theorem Hooks.Like.likeAt {X : τ₁ → τ₂ → Prop} {V : α₁ → α₂ → Prop} {R : σ₁ → σ₂ → Prop}
    {h₁ : Hooks σ₁ ε τ₁ α₁} {h₂ : Hooks σ₂ ε τ₂ α₂} (h : Hooks.Like X V R h₁ h₂) :
    Hooks.LikeAt (fun _ _ => True) X V R h₁ h₂ where
  primary _ hX := h.primary _ _ hX
  combine _ hv hX hw := h.combine _ _ hv hX hw
  absorbing := h.absorbing
  reducing := h.reducing

/-- An observer that keeps the states related is coupled as an action. -/
theorem observe_like {R : σ₁ → σ₂ → Prop} {m₁ : StateM σ₁ Unit} {m₂ : StateM σ₂ Unit}
    (h : ∀ {s₁ s₂}, R s₁ s₂ → R (m₁.run s₁).2 (m₂.run s₂).2) :
    Act.Like (fun _ _ => True) R (liftM m₁ : Act σ₁ ε Unit) (liftM m₂ : Act σ₂ ε Unit) :=
  fun _ _ hs => .ok ⟨trivial, h hs⟩

/-- States of climbs with related buffers and related states of the callbacks. -/
def ClimbState.LikeAt (B : Buffer ε τ₁ → Buffer ε τ₂ → Prop) (R : σ₁ → σ₂ → Prop)
    (s₁ : ClimbState σ₁ ε τ₁) (s₂ : ClimbState σ₂ ε τ₂) : Prop :=
  B s₁.buffer s₂.buffer ∧ R s₁.user s₂.user

/-- States of climbs with buffers that are alike and related states of the callbacks. -/
def ClimbState.Like (X : τ₁ → τ₂ → Prop) (R : σ₁ → σ₂ → Prop) (s₁ : ClimbState σ₁ ε τ₁)
    (s₂ : ClimbState σ₂ ε τ₂) : Prop :=
  Buffer.Like X s₁.buffer s₂.buffer ∧ R s₁.user s₂.user

section

variable {N : Nat → Nat → Prop} {X : τ₁ → τ₂ → Prop} {V : α₁ → α₂ → Prop} {R : σ₁ → σ₂ → Prop}
  {B : Buffer ε τ₁ → Buffer ε τ₂ → Prop} {g₁ : Grammar ε τ₁} {g₂ : Grammar ε τ₂}
  {h₁ : Hooks σ₁ ε τ₁ α₁} {h₂ : Hooks σ₂ ε τ₂ α₂}

open ClimbM

theorem onBuffer_like {op₁ : Buffer ε τ₁ → Pull ε τ₁ × Buffer ε τ₁}
    {op₂ : Buffer ε τ₂ → Pull ε τ₂ × Buffer ε τ₂}
    (h : ∀ {b₁ b₂}, B b₁ b₂ → Pull.Like X (op₁ b₁).1 (op₂ b₂).1 ∧ B (op₁ b₁).2 (op₂ b₂).2) :
    Act.Like (Option.Rel X) (ClimbState.LikeAt B R) (onBuffer op₁ : ClimbM σ₁ ε τ₁ _)
      (onBuffer op₂ : ClimbM σ₂ ε τ₂ _) := by
  rintro s₁ s₂ ⟨hbuffer, huser⟩
  have hops := h hbuffer
  rw [run_onBuffer, run_onBuffer]
  revert hops
  generalize op₁ s₁.buffer = answer₁
  generalize op₂ s₂.buffer = answer₂
  obtain ⟨outcome₁, rest₁⟩ := answer₁
  obtain ⟨outcome₂, rest₂⟩ := answer₂
  rintro ⟨hout, hrest⟩
  cases hout with
  | item hX => exact .ok ⟨.some hX, hrest, huser⟩
  | ended detail => exact .ok ⟨.none, hrest, huser⟩
  | fault e => exact .error ⟨rfl, hrest, huser⟩

theorem onUser_like {β₁ β₂ : Type} {W : β₁ → β₂ → Prop} {act₁ : Nat → Act σ₁ ε β₁}
    {act₂ : Nat → Act σ₂ ε β₂} (hB : Buffer.Bisimilar X N B)
    (h : ∀ n₁ n₂, N n₁ n₂ → Act.Like W R (act₁ n₁) (act₂ n₂)) :
    Act.Like W (ClimbState.LikeAt B R) (onUser act₁ : ClimbM σ₁ ε τ₁ _)
      (onUser act₂ : ClimbM σ₂ ε τ₂ _) := by
  rintro s₁ s₂ ⟨hbuffer, huser⟩
  have hact := h s₁.buffer.asked s₂.buffer.asked (hB.asked hbuffer) s₁.user s₂.user huser
  rw [run_onUser, run_onUser]
  revert hact
  generalize (act₁ s₁.buffer.asked).run.run s₁.user = end₁
  generalize (act₂ s₂.buffer.asked).run.run s₂.user = end₂
  intro hact
  cases hact with
  | ok hv => exact .ok ⟨hv.1, hbuffer, hv.2⟩
  | error he => exact .error ⟨he.1, hbuffer, he.2⟩

theorem peekOperator_like (hB : Buffer.Bisimilar X N B) (hg : Grammar.Like X g₁ g₂) :
    Act.Like (Option.Rel fun (p₁ : τ₁ × Level) (p₂ : τ₂ × Level) => X p₁.1 p₂.1 ∧ p₁.2 = p₂.2)
      (ClimbState.LikeAt B R) (peekOperator g₁ : ClimbM σ₁ ε τ₁ _)
      (peekOperator g₂ : ClimbM σ₂ ε τ₂ _) := by
  refine Coupled.bind (onBuffer_like hB.peek) fun seen₁ seen₂ => ?_
  rintro s₁ s₂ ⟨hseen, hs⟩
  cases hseen with
  | none => exact .ok ⟨.none, hs⟩
  | @some a₁ a₂ hX =>
    simp only [hg.level? hX]
    cases g₂.level? a₂ with
    | error e => exact .error ⟨rfl, hs⟩
    | ok level =>
      cases level with
      | none => exact .ok ⟨.none, hs⟩
      | some level => exact .ok ⟨.some ⟨hX, rfl⟩, hs⟩

/-- What follows a look at the next operator is coupled if it is so without an operator, and for
operators that are alike. -/
theorem peekOperator_bind_like {γ₁ γ₂ : Type} {W : γ₁ → γ₂ → Prop} (hB : Buffer.Bisimilar X N B)
    (hg : Grammar.Like X g₁ g₂) {k₁ : Option (τ₁ × Level) → ClimbM σ₁ ε τ₁ γ₁}
    {k₂ : Option (τ₂ × Level) → ClimbM σ₂ ε τ₂ γ₂}
    (hnone : Act.Like W (ClimbState.LikeAt B R) (k₁ none) (k₂ none))
    (hsome : ∀ op₁ op₂ level, X op₁ op₂ →
      Act.Like W (ClimbState.LikeAt B R) (k₁ (some (op₁, level))) (k₂ (some (op₂, level)))) :
    Act.Like W (ClimbState.LikeAt B R) (peekOperator g₁ >>= k₁) (peekOperator g₂ >>= k₂) := by
  refine Coupled.bind (peekOperator_like hB hg) fun seen₁ seen₂ => Coupled.of_rel fun hseen => ?_
  cases hseen with
  | none => exact hnone
  | @some seen₁ seen₂ hseen =>
    obtain ⟨op₁, level⟩ := seen₁
    obtain ⟨op₂, level₂⟩ := seen₂
    -- Operators that are alike have the same level.
    obtain ⟨hop, rfl : level = level₂⟩ := hseen
    exact hsome op₁ op₂ level hop

variable (V R B g₁ g₂ h₁ h₂) in
/-- The outer loops are coupled. -/
def OuterLike (fuel : Nat) : Prop :=
  ∀ floor {v₁ v₂}, V v₁ v₂ → Act.Like V (ClimbState.LikeAt B R) (climbFrom g₁ h₁ fuel floor v₁)
    (climbFrom g₂ h₂ fuel floor v₂)

variable (V R B g₁ g₂ h₁ h₂) in
/-- The inner loops are coupled. -/
def InnerLike (fuel : Nat) : Prop :=
  ∀ prec {v₁ v₂}, V v₁ v₂ → Act.Like V (ClimbState.LikeAt B R) (absorb g₁ h₁ fuel prec v₁)
    (absorb g₂ h₂ fuel prec v₂)

/-- A round of the outer loops. -/
theorem outerLike_succ (hB : Buffer.Bisimilar X N B) (hg : Grammar.Like X g₁ g₂)
    (hh : Hooks.LikeAt N X V R h₁ h₂) {fuel : Nat} (ihFrom : OuterLike V R B g₁ g₂ h₁ h₂ fuel)
    (ihAbsorb : InnerLike V R B g₁ g₂ h₁ h₂ fuel) : OuterLike V R B g₁ g₂ h₁ h₂ (fuel + 1) := by
  intro floor v₁ v₂ hV
  rw [climbFrom_step, climbFrom_step]
  refine peekOperator_bind_like hB hg (Coupled.pure fun _ _ hs => ⟨hV, hs⟩) fun op₁ op₂ level hop => ?_
  dsimp only
  split
  · exact Coupled.pure fun _ _ hs => ⟨hV, hs⟩
  refine Coupled.bind (onBuffer_like hB.next) fun _ _ => Coupled.of_rel fun _ => ?_
  refine Coupled.bind (onBuffer_like hB.next) fun taken₁ taken₂ => Coupled.of_rel fun htaken => ?_
  cases htaken with
  | none => exact Coupled.throw fun _ _ hs => ⟨hg.missingOperand hop, hs⟩
  | some hitem =>
    refine Coupled.bind (onUser_like hB fun n₁ n₂ hn => hh.primary hn hitem) fun _ _ =>
      Coupled.of_rel fun hoperand => ?_
    refine Coupled.bind (ihAbsorb _ hoperand) fun _ _ => Coupled.of_rel fun hright => ?_
    refine Coupled.bind (onUser_like hB fun _ _ _ => observe_like (hh.reducing _ hop))
      fun _ _ => Coupled.of_rel fun _ => ?_
    refine Coupled.bind (onUser_like hB fun n₁ n₂ hn => hh.combine hn hV hop hright)
      fun _ _ => Coupled.of_rel fun hvalue => ?_
    exact ihFrom _ hvalue

/-- A round of the inner loops. -/
theorem innerLike_succ (hB : Buffer.Bisimilar X N B) (hg : Grammar.Like X g₁ g₂)
    (hh : Hooks.LikeAt N X V R h₁ h₂) {fuel : Nat} (ihFrom : OuterLike V R B g₁ g₂ h₁ h₂ fuel)
    (ihAbsorb : InnerLike V R B g₁ g₂ h₁ h₂ fuel) : InnerLike V R B g₁ g₂ h₁ h₂ (fuel + 1) := by
  intro prec v₁ v₂ hV
  rw [absorb_step, absorb_step]
  refine peekOperator_bind_like hB hg (Coupled.pure fun _ _ hs => ⟨hV, hs⟩) fun op₁ op₂ level hop => ?_
  dsimp only
  split
  · refine Coupled.bind (onUser_like hB fun _ _ _ => observe_like (hh.absorbing _ hop))
      fun _ _ => Coupled.of_rel fun _ => ?_
    refine Coupled.bind (ihFrom _ hV) fun _ _ => Coupled.of_rel fun hvalue => ?_
    exact ihAbsorb _ hvalue
  · exact Coupled.pure fun _ _ hs => ⟨hV, hs⟩

/-- Both loops are coupled, however many rounds they may take. -/
theorem loops_like (hB : Buffer.Bisimilar X N B) (hg : Grammar.Like X g₁ g₂)
    (hh : Hooks.LikeAt N X V R h₁ h₂) (fuel : Nat) :
    OuterLike V R B g₁ g₂ h₁ h₂ fuel ∧ InnerLike V R B g₁ g₂ h₁ h₂ fuel := by
  induction fuel with
  | zero => exact ⟨fun _ _ _ hV _ _ hs => .ok ⟨hV, hs⟩, fun _ _ _ hV _ _ hs => .ok ⟨hV, hs⟩⟩
  | succ fuel ih => exact ⟨outerLike_succ hB hg hh ih.1 ih.2, innerLike_succ hB hg hh ih.1 ih.2⟩

/-- Climbs over related buffers with coupled callbacks are coupled. -/
theorem climb_likeAt (hB : Buffer.Bisimilar X N B) (hg : Grammar.Like X g₁ g₂)
    (hh : Hooks.LikeAt N X V R h₁ h₂) :
    Act.Like V (ClimbState.LikeAt B R) (climb g₁ h₁) (climb g₂ h₂) := by
  rw [climb_step, climb_step]
  refine Coupled.bind (onBuffer_like hB.next) fun first₁ first₂ => Coupled.of_rel fun hfirst => ?_
  cases hfirst with
  | none => exact Coupled.throw fun _ _ hs => ⟨hg.emptyInput, hs⟩
  | some hfirst =>
    refine Coupled.bind (onUser_like hB fun n₁ n₂ hn => hh.primary hn hfirst) fun left₁ left₂ =>
      Coupled.of_rel fun hleft => ?_
    intro s₁ s₂ hs
    -- Buffers that are alike are of one size, which is the fuel of both climbs.
    have hrun := (loops_like hB hg hh (s₁.buffer.size + 2)).1 0 hleft s₁ s₂ hs
    rw [run_bind_ok (run_get s₁), run_bind_ok (run_get s₂), ← hB.size_eq hs.1]
    exact hrun

/-- Climbs over related items with coupled callbacks are coupled. -/
theorem climb_like (hg : Grammar.Like X g₁ g₂) (hh : Hooks.Like X V R h₁ h₂) :
    Act.Like V (ClimbState.Like X R) (climb g₁ h₁) (climb g₂ h₂) :=
  climb_likeAt (Buffer.Like.bisimilar X) hg hh.likeAt

end

/-- Climbs over one and the same buffer with coupled callbacks give the same value or the same
complaint, and leave the same buffer. -/
theorem climb_same {R : σ₁ → σ₂ → Prop} (grammar : Grammar ε τ) {h₁ : Hooks σ₁ ε τ α}
    {h₂ : Hooks σ₂ ε τ α} (hh : Hooks.LikeAt Eq Eq Eq R h₁ h₂) :
    Act.Like Eq (ClimbState.LikeAt Eq R) (climb grammar h₁) (climb grammar h₂) :=
  climb_likeAt Buffer.bisimilar_eq (.refl grammar) hh

end Precedence
