import Mathlib
import Precedence.Tree

/-!
# Traversals of a tree

The post-order of a tree has a step for each leaf, and a step for each operator after the steps of
both its sides. Calls that may fail follow it up to the first failure.

## Main definitions

- `Step`, `Tree.postorder` — the steps of the traversal
- `Response` — a call for a step, with its result
- `Tree.Performs` — the calls of a whole traversal, or of one that a failure ends
- `Tree.Awaits` — the calls before that for the last leaf

## Main statements

- `Tree.Performs.steps_ok`, `Tree.Performs.steps_error` — which calls a traversal makes
- `Tree.postorder_eq` — nothing but operators comes after the last leaf
-/

namespace Precedence

variable {ε τ α : Type}

/-- A step of a traversal: for an operand, or for an operator whose sides are complete. -/
inductive Step (τ : Type) where
  | operand (item : τ)
  | operator (op : τ)
deriving Repr, DecidableEq

namespace Step

/-- The operand that a step is for. -/
def operand? : Step τ → Option τ
  | operand item => some item
  | operator _ => none

/-- The operator that a step is for. -/
def operator? : Step τ → Option τ
  | operand _ => none
  | operator op => some op

end Step

/-- A call for an operand, or for two values and the operator between them, with its result. -/
inductive Response (ε τ α : Type) where
  | operand (item : τ) (result : Except ε α)
  | operator (left : α) (op : τ) (right : α) (result : Except ε α)

namespace Response

/-- The step that a call is for. -/
def step : Response ε τ α → Step τ
  | operand item _ => .operand item
  | operator _ op _ _ => .operator op

/-- The result of a call. -/
def result : Response ε τ α → Except ε α
  | operand _ result => result
  | operator _ _ _ result => result

/-- The operand that a call is for. -/
def operand? (call : Response ε τ α) : Option τ :=
  call.step.operand?

end Response

namespace Tree

/-- The steps for a tree: those for its left side, for its right side, and for its operator. -/
def postorder : Tree τ → List (Step τ)
  | leaf a => [.operand a]
  | node op left right => left.postorder ++ right.postorder ++ [.operator op]

/-- The steps before that for the last leaf. -/
def beforeLast : Tree τ → List (Step τ)
  | leaf _ => []
  | node _ left right => left.postorder ++ right.beforeLast

/-- The last leaf. -/
def last : Tree τ → τ
  | leaf a => a
  | node _ _ right => right.last

/-- The last leaf is followed by nothing but operators. -/
theorem postorder_eq (t : Tree τ) :
    ∃ ops : List τ, t.postorder = t.beforeLast ++ .operand t.last :: ops.map .operator := by
  induction t with
  | leaf a => exact ⟨[], rfl⟩
  | node op left right _ ih =>
    obtain ⟨ops, hops⟩ := ih
    refine ⟨ops ++ [op], ?_⟩
    rw [postorder, hops, beforeLast, last]
    simp

/-- There is one step for each leaf, in their order. -/
theorem operands_postorder (t : Tree τ) : t.postorder.filterMap Step.operand? = t.leaves := by
  induction t with
  | leaf a => rfl
  | node op left right ihl ihr =>
    rw [postorder, List.filterMap_append, List.filterMap_append, ihl, ihr, leaves]
    exact List.append_nil _

/-- There is one step for each operator. -/
theorem operators_postorder (t : Tree τ) :
    (t.postorder.filterMap Step.operator?).Perm t.ops := by
  induction t with
  | leaf a => exact .nil
  | node op left right ihl ihr =>
    rw [postorder, List.filterMap_append, List.filterMap_append, ops, List.append_assoc]
    exact ihl.append ((ihr.append_right _).trans (List.perm_append_singleton op _))

/-! ### The calls of a traversal -/

/-- The calls of a traversal with its result. Calls are made in post-order, that for an operator with
the results for both its sides, and a call that fails is the last one. -/
inductive Performs : Tree τ → List (Response ε τ α) → Except ε α → Prop
  | leaf (a result) : Performs (.leaf a) [.operand a result] result
  | node {op left right front back a b} (result) (hleft : Performs left front (.ok a))
      (hright : Performs right back (.ok b)) :
      Performs (.node op left right) (front ++ back ++ [.operator a op b result]) result
  | left_error {op left right front e} (hleft : Performs left front (.error e)) :
      Performs (.node op left right) front (.error e)
  | right_error {op left right front back a e} (hleft : Performs left front (.ok a))
      (hright : Performs right back (.error e)) :
      Performs (.node op left right) (front ++ back) (.error e)

/-- The calls of a traversal up to the last leaf, all of which succeed. -/
inductive Awaits : Tree τ → List (Response ε τ α) → Prop
  | leaf (a) : Awaits (.leaf a) []
  | node {op left right front back a} (hleft : Performs left front (.ok a))
      (hright : Awaits right back) : Awaits (.node op left right) (front ++ back)

/-- All calls have succeeded. -/
def Succeed (calls : List (Response ε τ α)) : Prop :=
  ∀ call ∈ calls, ∃ a, call.result = .ok a

theorem Succeed.append {front back : List (Response ε τ α)} (hfront : Succeed front)
    (hback : Succeed back) : Succeed (front ++ back) :=
  List.forall_mem_append.2 ⟨hfront, hback⟩

/-- A traversal with a value is complete. -/
theorem Performs.steps_ok {t : Tree τ} {calls : List (Response ε τ α)} {a : α}
    (h : t.Performs calls (.ok a)) : calls.map Response.step = t.postorder ∧ Succeed calls := by
  generalize hresult : Except.ok a = result at h
  induction h generalizing a with
  | leaf item result =>
    subst hresult
    exact ⟨rfl, by simp [Succeed, Response.result]⟩
  | node result _ _ ihLeft ihRight =>
    subst hresult
    obtain ⟨hleft, hfront⟩ := ihLeft rfl
    obtain ⟨hright, hback⟩ := ihRight rfl
    refine ⟨?_, (hfront.append hback).append (by simp [Succeed, Response.result])⟩
    rw [List.map_append, List.map_append, hleft, hright]
    rfl
  | left_error => cases hresult
  | right_error => cases hresult

/-- A traversal with a complaint ends with the first call that fails. -/
theorem Performs.steps_error {t : Tree τ} {calls : List (Response ε τ α)} {e : ε}
    (h : t.Performs calls (.error e)) :
    calls.map Response.step <+: t.postorder ∧
      ∃ done call, calls = done ++ [call] ∧ Succeed done ∧ call.result = .error e := by
  generalize hresult : Except.error e = result at h
  induction h generalizing e with
  | leaf item result =>
    subst hresult
    exact ⟨List.prefix_rfl, [], _, rfl, by simp [Succeed], rfl⟩
  | node result hleft hright =>
    subst hresult
    obtain ⟨hfront, hfrontOk⟩ := hleft.steps_ok
    obtain ⟨hback, hbackOk⟩ := hright.steps_ok
    refine ⟨?_, _, _, rfl, hfrontOk.append hbackOk, rfl⟩
    rw [List.map_append, List.map_append, hfront, hback]
    exact List.prefix_rfl
  | left_error _ ih =>
    obtain ⟨hmade, hends⟩ := ih hresult
    refine ⟨hmade.trans ?_, hends⟩
    rw [postorder, List.append_assoc]
    exact List.prefix_append _ _
  | @right_error op left right front back a _ hleft _ _ ih =>
    obtain ⟨hfront, hfrontOk⟩ := hleft.steps_ok
    obtain ⟨hmade, done, call, rfl, hdone, hcall⟩ := ih hresult
    refine ⟨?_, front ++ done, call, by rw [List.append_assoc], hfrontOk.append hdone, hcall⟩
    rw [List.map_append, hfront, postorder, List.append_assoc]
    exact (List.prefix_append_right_inj _).2 (hmade.trans (List.prefix_append _ _))

/-- Nothing comes after a call that fails, and the traversal ends with its complaint. -/
theorem Performs.of_failed {t : Tree τ} {front back : List (Response ε τ α)}
    {call : Response ε τ α} {result : Except ε α} {e : ε}
    (h : t.Performs (front ++ call :: back) result) (hcall : call.result = .error e) :
    result = .error e ∧ back = [] ∧
      (front ++ call :: back).map Response.step <+: t.postorder := by
  cases result with
  | ok a =>
    obtain ⟨b, hb⟩ := h.steps_ok.2 call (by simp)
    rw [hcall] at hb
    cases hb
  | error f =>
    obtain ⟨hmade, done, last, hdone, hsucceed, hlast⟩ := h.steps_error
    rcases List.eq_nil_or_concat back with rfl | ⟨init, other, rfl⟩
    · obtain ⟨rfl, hsame⟩ := List.append_inj' hdone rfl
      obtain rfl : call = last := List.singleton_inj.1 hsame
      exact ⟨hlast.symm.trans hcall, rfl, hmade⟩
    · rw [List.concat_eq_append, ← List.cons_append, ← List.append_assoc] at hdone
      obtain ⟨rfl, -⟩ := List.append_inj' hdone rfl
      obtain ⟨b, hb⟩ := hsucceed call (by simp)
      rw [hcall] at hb
      cases hb

theorem Awaits.steps {t : Tree τ} {calls : List (Response ε τ α)} (h : t.Awaits calls) :
    calls.map Response.step = t.beforeLast ∧ Succeed calls := by
  induction h with
  | leaf a => exact ⟨rfl, by simp [Succeed]⟩
  | node hleft _ ih =>
    obtain ⟨hfront, hfrontOk⟩ := hleft.steps_ok
    refine ⟨?_, hfrontOk.append ih.2⟩
    rw [List.map_append, hfront, ih.1, beforeLast]

end Tree

end Precedence
