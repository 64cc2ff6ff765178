import Mathlib
import Precedence.Proofs.Nested

/-!
# Reducing pairs to values

If the callbacks of a nesting do not depend on their state, reducing a pair amounts to computing a
value or a complaint. A pair has a value just in case its inner pairs are a chain of pairs that have
values.

## Main definitions

- `Act.outcome` — the value or the complaint of an action without a state
- `Nesting.Stateless`, `Nesting.fresh` — callbacks that do not depend on their state, and the same
  callbacks without it
- `Nesting.Chain` — a chain of pairs that have values, and the value of the chain
- `Nesting.Complains` — callbacks whose complaints about good pairs satisfy a condition

## Main statements

- `Nesting.Stateless.outcome_reduceInner` — the state makes no difference
- `Nesting.Simple.reduceInner_eq_ok_iff` — which inner pairs have a value
- `Nesting.Complains.raises_reduceInner` — what the complaints about nested pairs satisfy
-/

namespace Precedence

variable {σ ε τ ρ β α γ : Type}

/-! ### Outcomes of actions -/

/-- The value or the complaint of an action without a state. -/
def Act.outcome (m : Act Unit ε α) : Except ε α :=
  (m.run.run ()).1

@[simp] theorem outcome_pure (a : α) : (pure a : Act Unit ε α).outcome = .ok a := rfl

@[simp] theorem outcome_throw (e : ε) : (throw e : Act Unit ε α).outcome = .error e := rfl

@[simp] theorem outcome_ofExcept (x : Except ε α) :
    (MonadExcept.ofExcept x : Act Unit ε α).outcome = x := by
  cases x <;> rfl

@[simp] theorem outcome_bind (m : Act Unit ε α) (k : α → Act Unit ε γ) :
    (m >>= k).outcome = m.outcome >>= fun a => (k a).outcome := by
  rw [Act.outcome, run_bind, Act.outcome]
  rcases m.run.run () with ⟨result, s⟩
  cases result <;> rfl

theorem bind_eq_ok {x : Except ε α} {f : α → Except ε γ} {c : γ} :
    x >>= f = .ok c ↔ ∃ a, x = .ok a ∧ f a = .ok c := by
  cases x with
  | ok a => exact ⟨fun h => ⟨a, rfl, h⟩, fun ⟨_, rfl, h⟩ => h⟩
  | error e => exact ⟨nofun, fun ⟨_, h, _⟩ => nomatch h⟩

/-- Every complaint of an action satisfies a condition. -/
def Raises (P : ε → Prop) (m : Act Unit ε α) : Prop :=
  ∀ e, m.outcome = .error e → P e

theorem Raises.pure {P : ε → Prop} (a : α) : Raises P (Pure.pure a : Act Unit ε α) :=
  fun _ h => nomatch h

theorem Raises.throw {P : ε → Prop} {e : ε} (h : P e) : Raises P (throw e : Act Unit ε α) := by
  rintro _ ⟨⟩
  exact h

theorem Raises.bind {P : ε → Prop} {m : Act Unit ε α} {k : α → Act Unit ε γ} (hm : Raises P m)
    (hk : ∀ a, Raises P (k a)) : Raises P (m >>= k) := by
  intro e h
  rw [outcome_bind] at h
  cases hm' : m.outcome with
  | ok a => rw [hm'] at h; exact hk a e h
  | error e' => rw [hm'] at h; cases h; exact hm _ hm'

/-- The outcome of a bracketing is found by bracketing outcomes. -/
theorem outcome_bracket (combine : α → τ → α → Act Unit ε α) (first : Act Unit ε α)
    (links : List (Link τ (Act Unit ε α))) :
    (bracket (inTurn combine) first links).outcome =
      bracket (inTurn fun left op right => (combine left op right).outcome) first.outcome
        (links.map (Link.map id Act.outcome)) := by
  refine map_bracket _ id Act.outcome (fun left link right => ?_) first links
  rw [inTurn, outcome_bind]
  simp only [outcome_bind]
  rfl

/-- A chain of outcomes that are all values has the value of the chain of the values. -/
theorem bracket_ok (node : α → τ → α → α) (first : α) (links : List (Link τ α)) :
    bracket (inTurn fun left op right => (.ok (node left op right) : Except ε α)) (.ok first)
        (links.map (Link.map id .ok)) =
      .ok (bracket (fun left link right => node left link.op right) first links) :=
  (map_bracket (fun left link right => node left link.op right) id Except.ok
    (fun _ _ _ => rfl) first links).symm

/-- A chain of outcomes has a value only if all of them are values. -/
theorem operands_of_bracket_eq_ok {combine : α → τ → α → Except ε α} {first : Except ε α}
    {links : List (Link τ (Except ε α))} {value : α}
    (h : bracket (inTurn combine) first links = .ok value) :
    (∃ a, first = .ok a) ∧ ∀ link ∈ links, ∃ a, link.operand = .ok a := by
  induction links using split_induction generalizing first value with
  | nil => exact ⟨⟨value, by simpa using h⟩, by simp⟩
  | @split links before link after hsplit hparts ihBefore ihAfter =>
    rw [bracket_of_split _ hsplit] at h
    obtain ⟨left, hleft, h⟩ := bind_eq_ok.1 h
    obtain ⟨right, hright, -⟩ := bind_eq_ok.1 h
    obtain ⟨hfirst, hbefore⟩ := ihBefore hleft
    obtain ⟨hlink, hafter⟩ := ihAfter hright
    refine ⟨hfirst, fun other hother => ?_⟩
    rw [hparts] at hother
    rcases List.mem_append.1 hother with hin | hin
    · exact hbefore other hin
    · rcases List.mem_cons.1 hin with rfl | hin
      · exact hlink
      · exact hafter other hin

theorem exists_valued (f : γ → Except ε α) {links : List (Link τ γ)}
    (h : ∀ link ∈ links, ∃ a, f link.operand = .ok a) :
    ∃ valued : List (Link τ (γ × α)), links = valued.map (Link.map id Prod.fst) ∧
      ∀ link ∈ valued, f link.operand.1 = .ok link.operand.2 := by
  induction links with
  | nil => exact ⟨[], rfl, by simp⟩
  | cons link links ih =>
    obtain ⟨a, ha⟩ := h link List.mem_cons_self
    obtain ⟨valued, rfl, hvalued⟩ := ih fun other hother => h other (List.mem_cons_of_mem _ hother)
    refine ⟨⟨link.op, link.level, link.operand, a⟩ :: valued, rfl, fun other hother => ?_⟩
    rcases List.mem_cons.1 hother with rfl | hin
    · exact ha
    · exact hvalued other hin

theorem map_valued {f : γ → Except ε α} {valued : List (Link τ (γ × α))}
    (h : ∀ link ∈ valued, f link.operand.1 = .ok link.operand.2) :
    (valued.map (Link.map id Prod.fst)).map (Link.map id f) =
      (valued.map (Link.map id Prod.snd)).map (Link.map id .ok) := by
  rw [List.map_map, List.map_map]
  refine List.map_congr_left fun link hlink => ?_
  simp only [Function.comp_apply, Link.map, h link hlink]

/-! ### Callbacks without a state -/

/-- What the callbacks of a nesting give does not depend on their state. -/
structure Nesting.Stateless (nesting : Nesting σ ε ρ β α) : Prop where
  visit : ∀ pair s t, ((nesting.visit pair).run.run s).1 = ((nesting.visit pair).run.run t).1
  combine : ∀ left op right s t,
    ((nesting.combine left op right).run.run s).1 = ((nesting.combine left op right).run.run t).1

/-- The nesting whose callbacks give what those of another one give in a state. -/
def Nesting.fresh (nesting : Nesting σ ε ρ β α) (s : σ) : Nesting Unit ε ρ β α where
  level? := nesting.level?
  visit pair := MonadExcept.ofExcept ((nesting.visit pair).run.run s).1
  combine left op right := MonadExcept.ofExcept ((nesting.combine left op right).run.run s).1
  observe _ := pure ()
  emptyInner := nesting.emptyInner
  emptyInput := nesting.emptyInput
  missingOperand := nesting.missingOperand
  excess := nesting.excess

/-- An action whose outcome is known goes along with the outcome. -/
theorem like_ofExcept {V : α → α → Prop} (hV : ∀ a, V a a) {m : Act σ ε α} {x : Except ε α}
    (h : ∀ s, (m.run.run s).1 = x) :
    Act.Like V (fun _ _ => True) m (MonadExcept.ofExcept x : Act Unit ε α) := by
  refine Act.Like.of_fst_eq hV fun s _ _ => ⟨?_, trivial⟩
  rw [h s]
  exact (outcome_ofExcept x).symm

theorem Nesting.Stateless.like {nesting : Nesting σ ε ρ β α} (h : nesting.Stateless) (s : σ) :
    Nesting.Like Eq (fun _ _ => True) nesting (nesting.fresh s) where
  level? := rfl
  visit pair := like_ofExcept option_rel_refl fun t => h.visit pair t s
  combine op a b v w ha hb := by
    rw [ha, hb]
    exact like_ofExcept (fun _ => rfl) fun t => h.combine v op w t s
  observe _ _ _ _ := trivial
  emptyInner := rfl
  emptyInput := rfl
  missingOperand := rfl
  excess := rfl

/-- What reducing the inner pairs of a pair gives does not depend on the state. -/
theorem Nesting.Stateless.outcome_reduceInner {nesting : Nesting σ ε ρ β α} (h : nesting.Stateless)
    (s t : σ) (pair : Pair ρ β) :
    ((nesting.reduceInner pair).run.run t).1 = ((nesting.fresh s).reduceInner pair).outcome :=
  (((h.like s).reduceInner pair).fst_eq trivial).1

/-! ### Pairs that have values -/

/-- The outcome of a pair whose inner pairs are a chain of operands and operators is that of the chain
of the outcomes of its operands. -/
theorem Nesting.Silent.outcome_reduceInner {nesting : Nesting Unit ε ρ β α} (h : nesting.Silent)
    {level? : Pair ρ β → Option Level} (hlevel? : ∀ pair, nesting.level? pair = .ok (level? pair))
    {parent first : Pair ρ β} {links : List (Link (Pair ρ β) (Pair ρ β))}
    (hinner : parent.inner = first :: linkItems links)
    (hlinks : ∀ link ∈ links, level? link.op = some link.level) :
    (nesting.reduceInner parent).outcome =
      bracket (inTurn fun left op right => (nesting.combine left op right).outcome)
        (nesting.reduce first).outcome
        (links.map (Link.map id fun pair => (nesting.reduce pair).outcome)) := by
  have hlevels : ∀ link ∈ links,
      (nesting.innerGrammar parent).level? link.op = .ok (some link.level) := by
    intro link hlink
    rw [← hlinks link hlink]
    exact hlevel? link.op
  have hread : (nesting.innerGrammar parent).ReadableHead [] := by simp [Grammar.ReadableHead]
  have hleft := leftover_linkItems_append nesting.reduce first hlevels hread (by simp)
  rw [← List.append_nil (linkItems links)] at hinner
  have houtline := outline_linkItems_stop nesting.reduce nesting.combine first hlevels
    (by simp : ∀ next ∈ ([] : List (Pair ρ β)).head?, _)
  rw [reduceInner_eq h, Nesting.outlineInner, hinner, hleft, houtline, Nesting.check]
  simp only [outcome_bind, outcome_bracket, List.map_map, outcome_ofExcept, outcome_pure]
  exact bind_pure _

/-- A nesting that knows of every pair whether it is an operator, never refuses to combine two values,
and does not let a pair be left over. -/
structure Nesting.Simple (nesting : Nesting Unit ε ρ β α) (level? : Pair ρ β → Option Level)
    (node : α → Pair ρ β → α → α) : Prop where
  silent : nesting.Silent
  level? : ∀ pair, nesting.level? pair = .ok (level? pair)
  combine : ∀ left op right, nesting.combine left op right = pure (node left op right)
  excess : ∀ pair, nesting.excess pair ≠ .ok ()

/-- A list of pairs is a chain whose operands have values, and `value` is the value of the chain. -/
def Nesting.Chain (nesting : Nesting Unit ε ρ β α) (level? : Pair ρ β → Option Level)
    (node : α → Pair ρ β → α → α) (pairs : List (Pair ρ β)) (value : α) : Prop :=
  ∃ (first : Pair ρ β × α) (links : List (Link (Pair ρ β) (Pair ρ β × α))),
    pairs = first.1 :: linkItems (links.map (Link.map id Prod.fst)) ∧
    (∀ link ∈ links, level? link.op = some link.level) ∧
    (nesting.reduce first.1).outcome = .ok first.2 ∧
    (∀ link ∈ links, (nesting.reduce link.operand.1).outcome = .ok link.operand.2) ∧
    bracket (fun left link right => node left link.op right) first.2
      (links.map (Link.map id Prod.snd)) = value

namespace Nesting.Simple

variable {nesting : Nesting Unit ε ρ β α} {level? : Pair ρ β → Option Level}
  {node : α → Pair ρ β → α → α}

theorem level?_inner (h : nesting.Simple level? node) (parent pair : Pair ρ β) :
    (nesting.innerGrammar parent).level? pair = .ok (level? pair) :=
  h.level? pair

theorem readableHead (h : nesting.Simple level? node) (parent : Pair ρ β)
    (pairs : List (Pair ρ β)) :
    (nesting.innerGrammar parent).ReadableHead pairs := by
  intro op _ e
  rw [h.level?_inner]
  exact nofun

theorem level?_eq_some_iff (h : nesting.Simple level? node) (parent : Pair ρ β)
    (pair : Pair ρ β) (level : Level) :
    (nesting.innerGrammar parent).level? pair = .ok (some level) ↔ level? pair = some level := by
  rw [h.level?_inner, Except.ok.injEq]

/-- The outcome of the chain that inner pairs begin with. -/
theorem outcome_outline (h : nesting.Simple level? node) (parent first : Pair ρ β)
    {links : List (Link (Pair ρ β) (Pair ρ β))} {left : List (Pair ρ β)}
    (hlinks : ∀ link ∈ links,
      (nesting.innerGrammar parent).level? link.op = .ok (some link.level)) :
    (outline (nesting.innerGrammar parent) nesting.reduce nesting.combine
        (first :: (linkItems links ++ left))).outcome =
      bracket (inTurn fun left op right => .ok (node left op right)) (nesting.reduce first).outcome
        (links.map (Link.map id fun pair => (nesting.reduce pair).outcome) ++
          (upcoming (nesting.innerGrammar parent).level?
            (operandAfter (nesting.innerGrammar parent) nesting.reduce) left).map
              (Link.map id Act.outcome)) := by
  rw [outline_linkItems_append _ _ _ hlinks (h.readableHead parent left), outcome_bracket,
    List.map_append, List.map_map]
  simp only [h.combine, outcome_pure]
  rfl

/-- What is computed for inner pairs: the outline of their chain, unless a pair is left over. -/
theorem outcome_reduceInner_eq (h : nesting.Simple level? node) (parent : Pair ρ β) :
    (nesting.reduceInner parent).outcome = (do
      let value ← (outline (nesting.innerGrammar parent) nesting.reduce nesting.combine
        parent.inner).outcome
      nesting.check (leftover (nesting.innerGrammar parent) nesting.reduce parent.inner)
      pure value) := by
  rw [reduceInner_eq h.silent, Nesting.outlineInner]
  simp only [outcome_bind, outcome_ofExcept, outcome_pure]
  rfl

/-- Inner pairs that have a value are a chain of pairs that have values. -/
theorem chain_of_reduceInner_eq_ok (h : nesting.Simple level? node) {parent : Pair ρ β} {value : α}
    (hvalue : (nesting.reduceInner parent).outcome = .ok value) :
    nesting.Chain level? node parent.inner value := by
  rw [h.outcome_reduceInner_eq] at hvalue
  obtain ⟨value', houtline, hvalue⟩ := bind_eq_ok.1 hvalue
  obtain ⟨_, hcheck, hvalue⟩ := bind_eq_ok.1 hvalue
  obtain rfl : value' = value := Except.ok.inj hvalue
  have hne : parent.inner ≠ [] := by
    intro hnil
    rw [hnil, outline_nil] at houtline
    cases houtline
  obtain ⟨first, links, left, heq, hlinks, hleft | ⟨op, level, rfl, hop⟩⟩ :=
    exists_chain (nesting.innerGrammar parent).level? hne
  · rw [heq, leftover_linkItems_append _ _ hlinks (h.readableHead parent left) hleft] at hcheck
    obtain rfl : left = [] := by
      cases left with
      | nil => rfl
      | cons pair rest => exact absurd hcheck (h.excess pair)
    rw [heq, h.outcome_outline parent first hlinks] at houtline
    rw [upcoming, List.map_nil, List.append_nil] at houtline
    obtain ⟨⟨a, ha⟩, hoperands⟩ := operands_of_bracket_eq_ok houtline
    obtain ⟨valued, rfl, hvalued⟩ := exists_valued (fun pair => (nesting.reduce pair).outcome)
      fun link hlink => hoperands _ (List.mem_map_of_mem hlink)
    rw [ha, map_valued hvalued, bracket_ok] at houtline
    refine ⟨(first, a), valued, by rw [heq, List.append_nil], ?_, ha, hvalued,
      Except.ok.inj houtline⟩
    intro link hlink
    exact (h.level?_eq_some_iff parent _ _).1 (hlinks _ (List.mem_map_of_mem hlink))
  · -- The operator at the end lacks its operand.
    rw [heq, h.outcome_outline parent first hlinks, upcoming_cons _ hop] at houtline
    obtain ⟨-, hoperands⟩ := operands_of_bracket_eq_ok houtline
    obtain ⟨a, ha⟩ := hoperands _ (List.mem_append_right _ List.mem_cons_self)
    cases ha

theorem reduceInner_eq_ok_of_chain (h : nesting.Simple level? node) {parent : Pair ρ β} {value : α}
    (hchain : nesting.Chain level? node parent.inner value) :
    (nesting.reduceInner parent).outcome = .ok value := by
  obtain ⟨first, links, heq, hlevels, hfirst, hoperands, rfl⟩ := hchain
  have houtcome := h.silent.outcome_reduceInner h.level? heq (List.forall_mem_map.2 hlevels)
  simp only [h.combine, outcome_pure] at houtcome
  rw [houtcome, hfirst, map_valued hoperands, bracket_ok]

/-- The inner pairs of a pair have a value just in case they are a chain of pairs that have
values. -/
theorem reduceInner_eq_ok_iff (h : nesting.Simple level? node) (parent : Pair ρ β) (value : α) :
    (nesting.reduceInner parent).outcome = .ok value ↔
      nesting.Chain level? node parent.inner value :=
  ⟨h.chain_of_reduceInner_eq_ok, h.reduceInner_eq_ok_of_chain⟩

end Nesting.Simple

/-! ### Complaints about pairs -/

/-- A nesting whose complaints about good pairs satisfy the condition `P`. Whether a pair is an operator
is known of every pair, and the inner pairs of a good pair are good. -/
structure Nesting.Complains (P : ε → Prop) (Good : Pair ρ β → Prop)
    (nesting : Nesting Unit ε ρ β α) : Prop where
  silent : nesting.Silent
  readable : ∀ pair e, nesting.level? pair ≠ .error e
  inner : ∀ {pair}, Good pair → ∀ inner ∈ pair.inner, Good inner
  emptyInner : ∀ {pair}, Good pair → P (nesting.emptyInner pair)
  missingOperand : ∀ {op}, Good op → P (nesting.missingOperand op)
  excess : ∀ {pair e}, Good pair → nesting.excess pair = .error e → P e
  visit : ∀ {pair}, Good pair → Raises P (nesting.visit pair)
  combine : ∀ {op level}, Good op → nesting.level? op = .ok (some level) →
    ∀ left right, Raises P (nesting.combine left op right)

namespace Nesting.Complains

variable {P : ε → Prop} {Good : Pair ρ β → Prop} {nesting : Nesting Unit ε ρ β α}

theorem raises_reduceInner_of (h : nesting.Complains P Good) {parent : Pair ρ β}
    (hparent : Good parent) (hinner : ∀ pair ∈ parent.inner, Raises P (nesting.reduce pair)) :
    Raises P (nesting.reduceInner parent) := by
  have hgood := h.inner hparent
  have hread (rest : List (Pair ρ β)) : (nesting.innerGrammar parent).ReadableHead rest :=
    fun op _ => h.readable op
  rw [reduceInner_eq h.silent, Nesting.outlineInner]
  refine Raises.bind ?_ fun value => Raises.bind ?_ fun _ => Raises.pure value
  · refine @outline_rel _ _ _ _ _ _ (nesting.innerGrammar parent) nesting.reduce nesting.reduce
      nesting.combine nesting.combine (fun m _ => Raises P m) _ ?_ ?_ ?_
    · rintro e (rfl | ⟨op, hop, rfl⟩)
      · exact Raises.throw (h.emptyInner hparent)
      · exact Raises.throw (h.missingOperand (hgood op hop))
    · intro pair hpair rest
      rw [operandOf_of_readableHead _ _ (hread rest)]
      exact hinner pair hpair
    · intro op hop level hlevel left₁ left₂ right₁ right₂ hleft hright
      exact Raises.bind hleft fun a => Raises.bind hright fun b =>
        h.combine (hgood op hop) hlevel a b
  · intro e he
    have hmem : ∀ pair ∈ leftover (nesting.innerGrammar parent) nesting.reduce parent.inner,
        pair ∈ parent.inner := fun pair => mem_of_mem_leftover _
    rw [outcome_ofExcept] at he
    revert he hmem
    generalize leftover (nesting.innerGrammar parent) nesting.reduce parent.inner = left
    intro he hmem
    cases left with
    | nil => cases he
    | cons pair rest => exact h.excess (hgood pair (hmem pair List.mem_cons_self)) he

/-- The complaints about the inner pairs of a good pair satisfy the condition, however deep they
stand. -/
theorem raises_reduceInner (h : nesting.Complains P Good) {parent : Pair ρ β}
    (hparent : Good parent) : Raises P (nesting.reduceInner parent) := by
  refine h.raises_reduceInner_of hparent fun pair hpair => ?_
  replace hpair := h.inner hparent pair hpair
  induction pair using Pair.induction with
  | step pair ih =>
    rw [Nesting.reduce_eq]
    refine Raises.bind (h.visit hpair) fun value => ?_
    cases value with
    | some value => exact Raises.pure value
    | none =>
      exact h.raises_reduceInner_of hpair fun inner hinner => ih inner hinner (h.inner hpair inner hinner)

end Nesting.Complains

end Precedence
