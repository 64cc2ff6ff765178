import Mathlib
import Precedence.Proofs.Traversal

/-!
# The calls of a climb

A climb calls back along the post-order of the tree that it builds. A call that fails ends the climb,
and so does an operator without a right operand.

## Main statements

- `runClimb_postorder` — the calls of a climb, and what it leaves

## Design notes

The calls are those of callbacks that record them with their results; a climb of such callbacks ends
like one of the callbacks themselves.
-/

namespace Precedence

variable {σ ω ε τ ρ α : Type}

section

variable [RuleKey ρ] (climber : Climber ρ) (reader : RuleReader ε τ ρ) (emptyInput : ε)
  (missingOperand : τ → ε) (callbacks : Callbacks σ ε τ α) (observe : Note τ → StateM ω Unit)

/-- A climb ends in the same way if its calls are recorded. -/
theorem runClimb_recorded (grammar : Grammar ε τ) (buffer : Buffer ε τ) (s : σ) (seen : ω) :
    let plain := (runClimb grammar (callbacks.hooks observe) buffer).run (s, seen)
    let ends := (runClimb grammar (callbacks.recorded.hooks observe) buffer).run ((s, []), seen)
    ends.1.1 = plain.1.1 ∧ ends.1.2.remaining = plain.1.2.remaining ∧
      ends.2.1.1 = plain.2.1 ∧ ends.2.2 = plain.2.2 := by
  have hends := (climb_like (Grammar.Like.refl grammar) (callbacks.recorded_like observe)).fst_eq
    (s := ⟨buffer, (s, []), seen⟩) (t := ⟨buffer, s, seen⟩)
    ⟨Buffer.Like.of_remaining_eq rfl, rfl, rfl⟩
  obtain ⟨hresult, hbuffer, hstate, hseen⟩ := hends
  exact ⟨hresult, hbuffer.remaining_eq, hstate, hseen⟩

/-- A recorded climb that an item stops which is no operator makes the calls of a traversal, and
leaves the items after the last operand that there was a call for. -/
theorem runClimb_performs (grammar : Grammar ε τ) {first : τ} {links : List (Link τ τ)}
    (hlinks : ∀ link ∈ links, grammar.level? link.op = .ok (some link.level)) {left : List τ}
    (hleft : ∀ next ∈ left.head?, grammar.level? next = .ok none) {buffer : Buffer ε τ}
    (hbuffer : buffer.remaining = (first :: (linkItems links ++ left)).map .item) (s : σ)
    (seen : ω) :
    let ends := (runClimb grammar (callbacks.recorded.hooks observe) buffer).run ((s, []), seen)
    (chainTree first links).Performs ends.2.1.2 ends.1.1 ∧
      ends.1.2.remaining = ((first :: (linkItems links ++ left)).drop
        (2 * (ends.2.1.2.filterMap Response.operand?).length - 1)).map .item := by
  intro ends
  obtain ⟨-, hstop⟩ := readableHead_of_none hleft
  have hchain : grammar.EndsChain left := by
    rintro next item rest rfl
    exact hstop next rfl
  obtain ⟨result, s', calls, hrun, hperforms⟩ := outline_walks callbacks first hlinks hleft s []
  obtain ⟨hresult, hstate, hrest⟩ := recorded_ends callbacks observe hchain hbuffer s seen hrun
  obtain rfl : ends.2.1.2 = calls := congrArg Prod.snd hstate
  obtain rfl : ends.1.1 = result := hresult
  refine ⟨hperforms, ?_⟩
  rcases hrest with hrest | ⟨op, level, rfl, hop⟩
  · exact hrest
  · exact absurd hop (hstop op rfl level)

/-- The calls of a climb over a sequence of operands and operators follow the post-order of the tree
that a climb builds: one for each operand in their order, and one for each operator, with the values
of both its sides. A call that fails is the last one, and its complaint is that of the climb; what the
buffer is still to deliver then are the items after the last operand that there was a call for. If
the last operator lacks its operand, then the calls are those before that for the missing operand. -/
theorem runClimb_postorder (first : τ) (links : List (Link τ τ))
    (hlinks : ∀ link ∈ links, climber.level? reader link.op = .ok (some link.level))
    (left : List τ) (buffer : Buffer ε τ)
    (hbuffer : buffer.remaining = (first :: (linkItems links ++ left)).map .item) (s : σ)
    (seen : ω) :
    let grammar := climber.grammar reader emptyInput missingOperand
    let plain := (runClimb grammar (callbacks.hooks observe) buffer).run (s, seen)
    let ends := (runClimb grammar (callbacks.recorded.hooks observe) buffer).run ((s, []), seen)
    let calls := ends.2.1.2
    (ends.1.1 = plain.1.1 ∧ ends.1.2.remaining = plain.1.2.remaining ∧
      ends.2.1.1 = plain.2.1 ∧ ends.2.2 = plain.2.2) ∧
    ((∀ next ∈ left.head?, climber.level? reader next = .ok none) →
      let tree := chainTree first links
      (∀ hooks : Hooks σ ε τ (Tree τ),
        hooks.Computes .leaf (fun left op right => .node op left right) →
          ((runClimb grammar hooks buffer).run s).1.1 = .ok tree) ∧
      tree.postorder.filterMap Step.operand? = first :: links.map (·.operand) ∧
      (tree.postorder.filterMap Step.operator?).Perm (links.map (·.op)) ∧
      tree.Performs calls ends.1.1 ∧
      (∀ value, ends.1.1 = .ok value → calls.map Response.step = tree.postorder) ∧
      (∀ front call back e, calls = front ++ call :: back → call.result = .error e →
        ends.1.1 = .error e ∧ back = [] ∧ calls.map Response.step <+: tree.postorder) ∧
      ends.1.2.remaining = ((first :: (linkItems links ++ left)).drop
        (2 * (calls.filterMap Response.operand?).length - 1)).map .item) ∧
    (∀ op level last, left = [op] → climber.level? reader op = .ok (some level) →
      let tree := chainTree first (links ++ [⟨op, level, last⟩])
      (∃ ops : List τ, tree.postorder = tree.beforeLast ++ .operand last :: ops.map .operator) ∧
      ((ends.1.1 = .error (missingOperand op) ∧ tree.Awaits calls ∧
          calls.map Response.step = tree.beforeLast) ∨
        ∃ e, ends.1.1 = .error e ∧ tree.Performs calls (.error e) ∧
          calls.map Response.step <+: tree.beforeLast)) := by
  intro grammar plain ends calls
  refine ⟨runClimb_recorded callbacks observe grammar buffer s seen, fun hleft => ?_, ?_⟩
  · obtain ⟨hperforms, hrest⟩ := runClimb_performs callbacks observe grammar hlinks
      hleft hbuffer s seen
    refine ⟨fun hooks hhooks => ?_, ?_, ?_, hperforms, fun value hvalue => ?_, ?_, hrest⟩
    · have hends := climb_outline grammar hhooks.follow (first :: (linkItems links ++ left))
        ⟨buffer, s⟩ () ⟨hbuffer, trivial⟩
      rw [outline_reference_append _ _ first hlinks hleft, run_pure] at hends
      obtain ⟨value, s'', hclimb, hvalue, -⟩ := hends.of_ok
      rw [run_runClimb, hclimb, hvalue]
      rfl
    · rw [Tree.operands_postorder, (leaves_chainTree first links).1]
    · rw [← (leaves_chainTree first links).2]
      exact Tree.operators_postorder _
    · have hcomplete := hperforms
      rw [hvalue] at hcomplete
      exact hcomplete.steps_ok.1
    · intro front call back e hcalls hcall
      have hfailed : (chainTree first links).Performs (front ++ call :: back) ends.1.1 :=
        hcalls ▸ hperforms
      rw [hcalls]
      exact hfailed.of_failed hcall
  · rintro op level last rfl hop tree
    have hchain : grammar.EndsChain [op] := by
      rintro next item rest h
      cases h
    have hlast : tree.last = last := last_chainTree_concat first links _
    obtain ⟨ops, hops⟩ := tree.postorder_eq
    rw [hlast] at hops
    refine ⟨⟨ops, hops⟩, ?_⟩
    have hoplevel : grammar.level? op = .ok (some level) := hop
    rcases outline_missing_walksTo callbacks first last hlinks hoplevel s [] with
      ⟨e, s', made, hrun, hperforms, hsteps⟩ | ⟨s', made, hawaits, hrun⟩
    · obtain ⟨hresult, hstate, -⟩ := recorded_ends callbacks observe hchain hbuffer s seen hrun
      obtain rfl : calls = made := congrArg Prod.snd hstate
      exact Or.inr ⟨e, hresult, hperforms, hsteps⟩
    · obtain ⟨hresult, hstate, -⟩ := recorded_ends callbacks observe hchain hbuffer s seen
        (hrun _ _ rfl)
      obtain rfl : calls = made := congrArg Prod.snd hstate
      exact Or.inl ⟨hresult, hawaits, hawaits.steps.1⟩

/-- Callbacks that number the operands, add the numbers, and refuse to multiply them. -/
def numbering : Callbacks Nat String Kind Nat where
  primary _ := do
    let n ← get
    set (n + 1)
    pure n
  combine left op right := if op = .op .times then throw "product" else pure (left + right)

/-- In a sum with a product that cannot be combined and a difference after it, three operands have
been called for when the product fails, and the difference is left. -/
theorem runClimb_postorder_product :
    let links : List (Link Kind Kind) :=
      [⟨.op .plus, ⟨1, .left⟩, .num⟩, ⟨.op .times, ⟨2, .left⟩, .num⟩,
        ⟨.op .minus, ⟨1, .left⟩, .num⟩]
    let reader : RuleReader String Kind Kind := ⟨.ok, fun _ => false, id⟩
    let climber : Climber Kind := ⟨Kind.groups, Kind.table⟩
    let buffer : Buffer String Kind := .ofList (.num :: (linkItems links ++ []))
    let ends := (runClimb (climber.grammar reader "empty" Kind.name)
      (numbering.recorded.hooks fun _ => (pure () : StateM Unit Unit)) buffer).run ((0, []), ())
    (∀ link ∈ links, climber.level? reader link.op = .ok (some link.level)) ∧
      buffer.remaining = (Kind.num :: (linkItems links ++ [])).map .item ∧
      (chainTree .num links).Performs ends.2.1.2 (.error "product") ∧
      ends.2.1.2.map Response.step =
        [.operand .num, .operand .num, .operand .num, .operator (.op .times)] ∧
      ends.1.2.remaining = [Kind.op .minus, .num].map .item := by
  intro links reader climber buffer ends
  have hlinks : ∀ link ∈ links, climber.level? reader link.op = .ok (some link.level) := by
    simp only [links, List.forall_mem_cons, List.not_mem_nil, false_implies, implies_true, and_true]
    exact ⟨rfl, rfl, rfl⟩
  have hends := (runClimb_postorder climber reader "empty" Kind.name numbering
    (fun _ => (pure () : StateM Unit Unit)) .num links hlinks [] buffer rfl 0 ()).2.1 (by simp)
  have hperforms : (chainTree .num links).Performs ends.2.1.2 ends.1.1 := hends.2.2.2.1
  have hresult : ends.1.1 = .error "product" := rfl
  rw [hresult] at hperforms
  exact ⟨hlinks, rfl, hperforms, rfl, rfl⟩

end

end Precedence
