import Mathlib
import Precedence.Calculator.Token
import Precedence.Climber
import Precedence.Proofs.Outline
import Precedence.Tree

/-!
# The reference tree of a climb

A climb whose callbacks compute functions gives the value of the reference tree: the whole sequence
is split at one operator of the lowest precedence, and both sides in turn.

## Main definitions

- `reference` — the value of the reference tree
- `Hooks.Computes` — callbacks that compute functions, whatever else they do
- `Climber.grammar` — the operators of a climber as a grammar

## Main statements

- `reference_split` — the tree of a chain that is split
- `reference_of_uniformSplit` — the tree of a chain whose lowest operators are all of one
  associativity
- `runClimb_reference` — a climb gives the value of the reference tree
-/

namespace Precedence

variable {σ ε τ ρ α : Type}

/-! ### The reference tree -/

section

variable (primary : τ → α) (combine : α → τ → α → α)

/-- The value of the reference tree of a chain: that of its only operand, or the values of both sides
of its split, combined by the operator there. -/
def reference (first : τ) (links : List (Link τ τ)) : α :=
  bracket (fun left link right => combine left link.op right) (primary first)
    (links.map (Link.map id primary))

variable {first : τ} {links before after : List (Link τ τ)} {link : Link τ τ}

theorem reference_nil : reference primary combine first [] = primary first :=
  bracket_nil _ _

theorem reference_split (h : split? (lowest links) links = some (before, link, after)) :
    reference primary combine first links =
      combine (reference primary combine first before) link.op
        (reference primary combine link.operand after) := by
  rw [reference, bracket_of_split _ (split?_lowest_map id primary h)]
  rfl

/-- All operators of the lowest precedence in a chain are of one associativity, and `link` is the last
of them if they are left-associative, or the first if they are right-associative. -/
def UniformSplit (links before : List (Link τ τ)) (link : Link τ τ) (after : List (Link τ τ)) : Prop :=
  links = before ++ link :: after ∧ link.level.prec = lowest links ∧
    ((∀ other ∈ links, other.level.prec = lowest links → other.level.assoc = .left) ∧
        (∀ later ∈ after, later.level.prec ≠ lowest links) ∨
      (∀ other ∈ links, other.level.prec = lowest links → other.level.assoc = .right) ∧
        ∀ earlier ∈ before, earlier.level.prec ≠ lowest links)

theorem reference_of_uniformSplit (h : UniformSplit links before link after) :
    reference primary combine first links =
      combine (reference primary combine first before) link.op
        (reference primary combine link.operand after) := by
  obtain ⟨hlinks, hprec, ⟨hleft, hlast⟩ | ⟨hright, hfirst⟩⟩ := h
  · exact reference_split primary combine (split?_of_left hlinks hprec hleft hlast)
  · exact reference_split primary combine (split?_of_right hlinks hprec hright hfirst)

end

/-! ### Callbacks that compute functions -/

/-- Callbacks that always succeed with the values of two functions, whatever they do to their
state. -/
structure Hooks.Computes (hooks : Hooks σ ε τ α) (primary : τ → α) (combine : α → τ → α → α) :
    Prop where
  primary : ∀ n item s, ∃ s', (hooks.primary n item).run.run s = (.ok (primary item), s')
  combine : ∀ n left op right s, ∃ s',
    (hooks.combine n left op right).run.run s = (.ok (combine left op right), s')

theorem Hooks.Computes.follow {hooks : Hooks σ ε τ α} {primary : τ → α} {combine : α → τ → α → α}
    (h : hooks.Computes primary combine) :
    hooks.Follow (fun item => (pure (primary item) : Act Unit ε α))
      (fun left op right => pure (combine left op right)) Eq fun _ _ => True where
  primary n item s t _ := by
    obtain ⟨s', hrun⟩ := h.primary n item s
    rw [hrun]
    exact .ok ⟨rfl, trivial⟩
  combine n op a b v w ha hb s t _ := by
    obtain ⟨s', hrun⟩ := h.combine n a op b s
    rw [hrun, ← ha, ← hb]
    exact .ok ⟨rfl, trivial⟩
  observe _ _ _ _ := trivial

/-- The operators of a climber, and the complaints about a misplaced end. -/
def Climber.grammar [RuleKey ρ] (climber : Climber ρ) (reader : RuleReader ε τ ρ) (emptyInput : ε)
    (missingOperand : τ → ε) : Grammar ε τ :=
  ⟨climber.level? reader, emptyInput, missingOperand⟩

/-- The outline of a climb whose callbacks compute functions. -/
theorem outline_reference_append {grammar : Grammar ε τ} (primary : τ → α) (combine : α → τ → α → α)
    (first : τ) {links : List (Link τ τ)} {left : List τ}
    (h : ∀ link ∈ links, grammar.level? link.op = .ok (some link.level))
    (hleft : ∀ next ∈ left.head?, grammar.level? next = .ok none) :
    (outline grammar (fun item => pure (primary item))
      (fun left op right => pure (combine left op right)) (first :: (linkItems links ++ left)) :
        Act σ ε α) = pure (reference primary combine first links) := by
  have hnode : ∀ (left : α) (link : Link τ α) (right : α),
      (pure (combine left link.op right) : Act σ ε α) =
        inTurn (fun left op right => pure (combine left op right)) (pure left) (link.map id pure)
          (pure right) := by
    intro left link right
    rw [inTurn, pure_bind, pure_bind]
    rfl
  rw [outline_linkItems_stop _ _ first h hleft, reference, map_bracket _ id pure hnode,
    List.map_map]
  rfl

theorem outline_reference {grammar : Grammar ε τ} (primary : τ → α) (combine : α → τ → α → α)
    (first : τ) {links : List (Link τ τ)}
    (h : ∀ link ∈ links, grammar.level? link.op = .ok (some link.level)) :
    (outline grammar (fun item => pure (primary item))
      (fun left op right => pure (combine left op right)) (first :: linkItems links) : Act σ ε α) =
      pure (reference primary combine first links) := by
  rw [← List.append_nil (linkItems links)]
  exact outline_reference_append primary combine first h (by simp)

/-- Over every sequence of operands and operators, all of which are in the climber's table, a climb
gives the value of the reference tree. Where the operators of the lowest precedence are all of one
associativity, this tree is split at the last or at the first of them. -/
theorem runClimb_reference [RuleKey ρ] (climber : Climber ρ) (reader : RuleReader ε τ ρ)
    (emptyInput : ε) (missingOperand : τ → ε) {hooks : Hooks σ ε τ α} {primary : τ → α}
    {combine : α → τ → α → α} (hhooks : hooks.Computes primary combine) (first : τ)
    (links : List (Link τ τ))
    (hlinks : ∀ link ∈ links, climber.level? reader link.op = .ok (some link.level))
    (buffer : Buffer ε τ) (hbuffer : buffer.remaining = (first :: linkItems links).map .item)
    (s : σ) :
    ((runClimb (climber.grammar reader emptyInput missingOperand) hooks buffer).run s).1.1 =
        .ok (reference primary combine first links) ∧
      ∀ before link after, UniformSplit links before link after →
        reference primary combine first links =
          combine (reference primary combine first before) link.op
            (reference primary combine link.operand after) := by
  refine ⟨?_, fun before link after => reference_of_uniformSplit primary combine⟩
  have hends := climb_outline (climber.grammar reader emptyInput missingOperand) hhooks.follow
    (first :: linkItems links) ⟨buffer, s⟩ () ⟨hbuffer, trivial⟩
  rw [outline_reference primary combine first hlinks, run_pure] at hends
  obtain ⟨value, s', hclimb, hvalue, -⟩ := hends.of_ok
  rw [run_runClimb, hclimb, hvalue]

/-- A climber of one group, in which plus is left-associative and minus is right-associative. -/
def mixedClimber : Climber Kind :=
  let groups := [Group.ofOperators [⟨Kind.op .plus, .left⟩, ⟨Kind.op .minus, .right⟩]]
  ⟨groups, ⟨Table.levelled 1 groups⟩⟩

/-- Callbacks that build trees. -/
def treeHooks : Hooks Unit String Kind (Tree Kind) where
  primary _ item := pure (.leaf item)
  combine _ left op right := pure (.node op left right)
  observe _ := pure ()

/-- In a sequence of a plus, a minus and another plus, the first plus, before the minus, is reduced
last, and the minus, before a plus, first. -/
theorem runClimb_reference_mixed :
    let links : List (Link Kind Kind) :=
      [⟨.op .plus, ⟨1, .left⟩, .num⟩, ⟨.op .minus, ⟨1, .right⟩, .num⟩,
        ⟨.op .plus, ⟨1, .left⟩, .num⟩]
    let reader : RuleReader String Kind Kind := ⟨.ok, fun _ => false, id⟩
    (∀ link ∈ links, mixedClimber.level? reader link.op = .ok (some link.level)) ∧
      ((runClimb (mixedClimber.grammar reader "empty" Kind.name) treeHooks
        (.ofList (.num :: linkItems links))).run ()).1.1 =
          .ok (.node (.op .plus) (.leaf .num)
            (.node (.op .plus) (.node (.op .minus) (.leaf .num) (.leaf .num)) (.leaf .num))) := by
  intro links reader
  have hlinks : ∀ link ∈ links, mixedClimber.level? reader link.op = .ok (some link.level) := by
    simp only [links, List.forall_mem_cons, List.not_mem_nil, false_implies, implies_true, and_true]
    exact ⟨rfl, rfl, rfl⟩
  have hhooks : treeHooks.Computes Tree.leaf fun left op right => .node op left right :=
    ⟨fun _ _ s => ⟨s, rfl⟩, fun _ _ _ _ s => ⟨s, rfl⟩⟩
  refine ⟨hlinks, ?_⟩
  rw [(runClimb_reference mixedClimber reader "empty" Kind.name hhooks .num links hlinks _ rfl ()).1,
    reference_split _ _ (show _ = some ([], _, _) from rfl), reference_nil,
    reference_split _ _ (show _ = some ([_], _, []) from rfl),
    reference_split _ _ (show _ = some ([], _, []) from rfl)]
  simp only [reference_nil]

end Precedence
