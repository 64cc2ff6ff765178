import Mathlib
import Precedence.Proofs.Traversal

/-!
# The tie-break in the whole tree

An operator is taken into the right side of the one before it if it is of a higher precedence, or of
the same precedence and right-associative. Here this is asked of all operators in a side, however deep
they stand. It holds in every tree of a climb that no group of which mixes associativities, and in some
others.

## Main definitions

- `Tree.EveryNode` — a condition on every operator of a tree and those in its sides
- `TieBreak` — the tie-break, asked of all operators in the sides of an operator
- `FirstTieBreak` — the tie-break, asked on the right of the first operator of the same precedence only
- `Steady` — after no operator does a left-associative one of its precedence follow a right-associative
  one

## Main statements

- `everyNode_tieBreak_iff` — the trees in which the tie-break holds
- `steady_of_uniform` — operators of the same precedence that are of the same associativity are steady
- `runClimb_tieBreak` — the tie-break in the tree of a climb

## Design notes

Once a right-associative operator has been taken into the right side of another one of its precedence,
the climb that does so goes on with every operator of that precedence. So the first of them decides
about the others too.
-/

namespace Precedence

variable {σ ε τ ρ α β : Type}

/-! ### Conditions on trees -/

/-- A condition holds of every operator in a tree, together with the operators in its left side and
those in its right side. -/
def Tree.EveryNode (P : α → List α → List α → Prop) : Tree α → Prop
  | .leaf _ => True
  | .node op left right => P op left.ops right.ops ∧ left.EveryNode P ∧ right.EveryNode P

/-- Every operator on the left of `op` is of a higher precedence, or of the same one and then `op` is
left-associative; every operator on its right is of a higher precedence, or of the same one and itself
right-associative. -/
def TieBreak (levelOf : τ → Level → Prop) (op : τ) (left right : List τ) : Prop :=
  ∀ outer, levelOf op outer →
    (∀ q ∈ left, ∀ inner, levelOf q inner →
      outer.prec < inner.prec ∨ inner.prec = outer.prec ∧ outer.assoc = .left) ∧
    ∀ q ∈ right, ∀ inner, levelOf q inner →
      outer.prec < inner.prec ∨ inner.prec = outer.prec ∧ inner.assoc = .right

/-- As for `TieBreak`, but of the operators of the same precedence on the right of `op` only the first
has to be right-associative. -/
def FirstTieBreak (levelOf : τ → Level → Prop) (op : τ) (left right : List τ) : Prop :=
  ∀ outer, levelOf op outer →
    (∀ q ∈ left, ∀ inner, levelOf q inner →
      outer.prec < inner.prec ∨ inner.prec = outer.prec ∧ outer.assoc = .left) ∧
    ∀ before q after, right = before ++ q :: after → ∀ inner, levelOf q inner →
      outer.prec < inner.prec ∨ inner.prec = outer.prec ∧
        (inner.assoc = .right ∨ ∃ p ∈ before, ∃ level, levelOf p level ∧ level.prec = outer.prec)

/-! ### Steady chains -/

/-- The operators of the same precedence that come after an operator, up to one of a lower
precedence. -/
def rivals (link : Link τ β) (later : List (Link τ β)) : List (Link τ β) :=
  (later.takeWhile fun other => link.level.prec ≤ other.level.prec).filter
    fun other => other.level.prec = link.level.prec

/-- After no operator does a left-associative operator of its precedence follow a right-associative
one, up to an operator of a lower precedence. -/
def Steady : List (Link τ β) → Prop
  | [] => True
  | link :: later =>
    ((rivals link later).Pairwise fun a b => a.level.assoc = .right → b.level.assoc = .right) ∧
      Steady later

section

variable {links before after later : List (Link τ β)} {link : Link τ β}

theorem Steady.of_append {front : List (Link τ β)} (h : Steady (front ++ links)) : Steady links := by
  induction front with
  | nil => exact h
  | cons head front ih => exact ih h.2

/-- Operators of the same precedence that are of the same associativity are steady. -/
theorem steady_of_uniform (h : ∀ a ∈ links, ∀ b ∈ links, a.level.prec = b.level.prec →
    a.level.assoc = b.level.assoc) : Steady links := by
  induction links with
  | nil => trivial
  | cons link later ih =>
    have hrival : ∀ other ∈ rivals link later, other.level.assoc = link.level.assoc := by
      intro other hother
      obtain ⟨htaken, hprec⟩ := List.mem_filter.1 hother
      have hmem := (List.takeWhile_sublist _).mem htaken
      exact h other (List.mem_cons_of_mem _ hmem) link List.mem_cons_self (by simpa using hprec)
    refine ⟨?_, ih fun a ha b hb => h a (List.mem_cons_of_mem _ ha) b (List.mem_cons_of_mem _ hb)⟩
    refine List.pairwise_of_forall_mem_list fun a ha b hb hright => ?_
    rw [hrival b hb, ← hrival a ha, hright]

/-- If no operator is of a lower precedence, then the rivals of one are all later operators of its
precedence. -/
theorem rivals_of_le (hle : ∀ other ∈ later, link.level.prec ≤ other.level.prec) :
    rivals link later = later.filter fun other => other.level.prec = link.level.prec := by
  have htake : (later.takeWhile fun other => link.level.prec ≤ other.level.prec) = later :=
    List.takeWhile_eq_self_iff.2 fun other hother => decide_eq_true (hle other hother)
  rw [rivals, htake]

theorem rivals_sublist (link : Link τ β) (later more : List (Link τ β)) :
    (rivals link later).Sublist (rivals link (later ++ more)) := by
  refine List.Sublist.filter _ ?_
  rw [List.takeWhile_append]
  split
  · exact (List.takeWhile_sublist _).trans (List.sublist_append_left _ _)
  · exact List.Sublist.refl _

theorem Steady.of_append_left {more : List (Link τ β)} (h : Steady (links ++ more)) :
    Steady links := by
  induction links with
  | nil => trivial
  | cons link later ih => exact ⟨h.1.sublist (rivals_sublist link later more), ih h.2⟩

/-- The rivals of an operator do not depend on what comes after an operator of a lower precedence. -/
theorem rivals_append_of_lt {next : Link τ β} (hlt : next.level.prec < link.level.prec) :
    rivals link (later ++ next :: after) = rivals link later := by
  have hnext : ((next :: after).takeWhile fun other => link.level.prec ≤ other.level.prec) = [] := by
    rw [List.takeWhile_cons, if_neg (by simpa using hlt)]
  rw [rivals, List.takeWhile_append, hnext, List.append_nil]
  split
  next hlength =>
    have htake := (List.takeWhile_prefix _).eq_of_length hlength
    rw [rivals, htake]
  · rfl

/-! ### Steady chains that are split -/

/-- The last member of a list that satisfies a condition. -/
theorem exists_last {γ : Type} {P : γ → Prop} {xs : List γ} (h : ∃ x ∈ xs, P x) :
    ∃ front x back, xs = front ++ x :: back ∧ P x ∧ ∀ y ∈ back, ¬ P y := by
  -- The longest end without such a member is the longest front of the reversed list.
  obtain ⟨back, front, hparts, hback, hfront⟩ := exists_front (fun x => ¬ P x) xs.reverse
  cases front with
  | nil =>
    obtain ⟨x, hx, hP⟩ := h
    rw [List.append_nil] at hparts
    exact absurd hP (hback x (hparts ▸ List.mem_reverse.2 hx))
  | cons x front =>
    refine ⟨front.reverse, x, back.reverse, ?_, not_not.1 (hfront x rfl), fun y hy => ?_⟩
    · rw [← List.reverse_reverse xs, hparts]
      simp
    · exact hback y (List.mem_reverse.1 hy)

/-- A list that is extended by one element and parted before that. -/
theorem exists_tail_of_concat {γ : Type} {xs front back : List γ} {x y : γ}
    (h : xs ++ [x] = front ++ y :: back) (hne : back ≠ []) :
    ∃ tail, xs = front ++ y :: tail ∧ back = tail ++ [x] := by
  obtain ⟨tail, z, rfl⟩ : ∃ tail z, back = tail ++ [z] :=
    ⟨back.dropLast, back.getLast hne, (List.dropLast_append_getLast hne).symm⟩
  have hsame : xs ++ [x] = (front ++ y :: tail) ++ [z] := by
    rw [h, List.append_assoc, List.cons_append]
  obtain ⟨htail, hlast⟩ := List.append_inj' hsame rfl
  exact ⟨tail, htail, by rw [hlast]⟩

/-- Up to the operator where a chain is split, those of the lowest precedence are left-associative but
for the first of them. -/
theorem assoc_eq_left_of_split? (h : split? (lowest links) links = some (before, link, after))
    {front back : List (Link τ β)} {other : Link τ β}
    (hparts : before ++ [link] = front ++ other :: back) (hother : other.level.prec = lowest links)
    (hfront : ∃ earlier ∈ front, earlier.level.prec = lowest links) : other.level.assoc = .left := by
  have hlinks := eq_of_split? h
  obtain ⟨-, hbefore⟩ := splits_of_split? h
  obtain ⟨first, last, between, rfl, hlast, hbetween⟩ := exists_last hfront
  have hconcat : before ++ [link] = first ++ last :: (between ++ other :: back) := by
    rw [hparts, List.append_assoc, List.cons_append]
  obtain ⟨tail, htail, hrest⟩ := exists_tail_of_concat hconcat (by simp)
  -- The operator before `other` would split the chain if `other` were right-associative.
  have hsplits := hbefore first last tail htail
  have hall : ∀ x ∈ between, lowest links < x.level.prec := by
    intro x hx
    refine lt_of_le_of_ne (lowest_le ?_) (Ne.symm (hbetween x hx))
    have hmem : x ∈ tail ++ [link] := by
      rw [← hrest]
      exact List.mem_append_left _ hx
    rw [hlinks, htail]
    simp only [List.mem_append, List.mem_cons, List.append_assoc, List.cons_append,
      List.not_mem_nil, or_false] at hmem ⊢
    tauto
  have hnext : (tail ++ link :: after).find? (·.level.prec == lowest links) = some other := by
    have hsame : tail ++ link :: after = between ++ other :: (back ++ after) := by
      rw [List.append_cons, ← hrest, List.append_assoc, List.cons_append]
    rw [hsame, find?_append_of_lt _ hall, List.find?_cons_of_pos (by simp [hother])]
  rw [Link.splits, hlast, hnext] at hsplits
  cases hassoc : other.level.assoc with
  | left => rfl
  | right => simp [hassoc] at hsplits

/-- After the operator where a chain is split, the first one of the lowest precedence is
right-associative. -/
theorem assoc_eq_right_of_split? (h : split? (lowest links) links = some (before, link, after))
    {front back : List (Link τ β)} {other : Link τ β} (hparts : after = front ++ other :: back)
    (hother : other.level.prec = lowest links)
    (hfront : ∀ earlier ∈ front, earlier.level.prec ≠ lowest links) :
    other.level.assoc = .right := by
  obtain ⟨hsplits, -⟩ := splits_of_split? h
  have hlinks := eq_of_split? h
  have hall : ∀ earlier ∈ front, lowest links < earlier.level.prec := by
    intro earlier hearlier
    refine lt_of_le_of_ne (lowest_le ?_) (Ne.symm (hfront earlier hearlier))
    rw [hlinks, hparts]
    simp [hearlier]
  rw [Link.splits, hparts, find?_append_of_lt _ hall,
    List.find?_cons_of_pos (by simp [hother])] at hsplits
  simp only [Option.all_some, Bool.and_eq_true, beq_iff_eq] at hsplits
  exact hsplits.2

theorem prec_eq_of_split? (h : split? (lowest links) links = some (before, link, after)) :
    link.level.prec = lowest links := by
  obtain ⟨hsplits, -⟩ := splits_of_split? h
  simp only [Link.splits, Bool.and_eq_true, beq_iff_eq] at hsplits
  exact hsplits.1

/-- No operator of a chain is of a lower precedence than the one where it is split. -/
theorem prec_le_of_split? (h : split? (lowest links) links = some (before, link, after)) :
    ∀ other ∈ before ++ link :: after, link.level.prec ≤ other.level.prec := by
  intro other hother
  rw [← eq_of_split? h] at hother
  rw [prec_eq_of_split? h]
  exact lowest_le hother

/-- Operators that are first left-associative and then right-associative are steady. -/
theorem pairwise_of_left_right {front back : List (Link τ β)}
    (hfront : ∀ a ∈ front, a.level.assoc = .left) (hback : ∀ b ∈ back, b.level.assoc = .right) :
    (front ++ back).Pairwise fun a b => a.level.assoc = .right → b.level.assoc = .right := by
  refine List.pairwise_append.2 ⟨?_, ?_, fun a _ b hb _ => hback b hb⟩
  · refine List.pairwise_of_forall_mem_list fun a ha b _ hright => ?_
    rw [hfront a ha] at hright
    cases hright
  · exact List.pairwise_of_forall_mem_list fun a _ b hb _ => hback b hb

/-- If a steady chain is split at an operator, then all operators of its precedence after it are
right-associative, as the first of them is. -/
theorem Steady.assoc_eq_right (hsteady : Steady links)
    (h : split? (lowest links) links = some (before, link, after)) :
    ∀ other ∈ after, other.level.prec = link.level.prec → other.level.assoc = .right := by
  have hprec := prec_eq_of_split? h
  have hlinks := eq_of_split? h
  have hle : ∀ other ∈ after, link.level.prec ≤ other.level.prec :=
    fun other hother => prec_le_of_split? h other (by simp [hother])
  rw [hlinks] at hsteady
  have hpairs := hsteady.of_append.1
  rw [rivals_of_le hle] at hpairs
  intro other hother heq
  have hmem : other ∈ after.filter fun x => x.level.prec = link.level.prec :=
    List.mem_filter.2 ⟨hother, decide_eq_true heq⟩
  -- The first rival after the split is right-associative, and so are the others by steadiness.
  cases hfilter : after.filter fun x => x.level.prec = link.level.prec with
  | nil =>
    rw [hfilter] at hmem
    exact absurd hmem List.not_mem_nil
  | cons first rest =>
    rw [hfilter] at hpairs hmem
    obtain ⟨front, back, hafter, hfront, hfirst, -⟩ := List.filter_eq_cons_iff.1 hfilter
    have hright : first.level.assoc = .right := by
      refine assoc_eq_right_of_split? h hafter ?_ fun earlier hearlier hlow => ?_
      · rw [← hprec]
        exact of_decide_eq_true hfirst
      · exact hfront earlier hearlier (decide_eq_true (hlow.trans hprec.symm))
    rcases List.mem_cons.1 hmem with rfl | hmem
    · exact hright
    · exact (List.pairwise_cons.1 hpairs).1 other hmem hright

/-- An operator of the lowest precedence that stands before the split is steady: its rivals up to the
split are left-associative, and those after it right-associative. -/
theorem pairwise_rivals_of_split? {front rest : List (Link τ β)} {head : Link τ β}
    (h : split? (lowest links) links = some (before, link, after))
    (hright : ∀ other ∈ after, other.level.prec = link.level.prec → other.level.assoc = .right)
    (hbefore : before = front ++ head :: rest) (heq : head.level.prec = link.level.prec) :
    (rivals head (rest ++ link :: after)).Pairwise
      fun a b => a.level.assoc = .right → b.level.assoc = .right := by
  have hprec := prec_eq_of_split? h
  have hlater : ∀ other ∈ rest ++ link :: after, head.level.prec ≤ other.level.prec := by
    intro other hother
    rw [heq]
    refine prec_le_of_split? h other ?_
    rw [hbefore, List.append_assoc]
    exact List.mem_append_right _ (List.mem_cons_of_mem _ hother)
  rw [rivals_of_le hlater, List.append_cons, List.filter_append]
  refine pairwise_of_left_right (fun other hother => ?_) fun other hother => ?_
  · obtain ⟨hmem, hsame⟩ := List.mem_filter.1 hother
    obtain ⟨between, back, hparts⟩ := List.append_of_mem hmem
    have hlow : other.level.prec = lowest links := (of_decide_eq_true hsame).trans (heq.trans hprec)
    have hsplit : before ++ [link] = (front ++ head :: between) ++ other :: back := by
      rw [hbefore, List.append_assoc, List.cons_append, hparts, List.append_assoc, List.cons_append]
    exact assoc_eq_left_of_split? h hsplit hlow ⟨head, by simp, heq.trans hprec⟩
  · obtain ⟨hmem, hsame⟩ := List.mem_filter.1 hother
    exact hright other hmem ((of_decide_eq_true hsame).trans heq)

/-- A chain is steady from the split on if it is so after the split, where all rivals of the operator
at the split are right-associative. -/
theorem steady_from_split? (h : split? (lowest links) links = some (before, link, after))
    (hafter : Steady after)
    (hright : ∀ other ∈ after, other.level.prec = link.level.prec → other.level.assoc = .right) :
    Steady (link :: after) := by
  have hle : ∀ other ∈ after, link.level.prec ≤ other.level.prec :=
    fun other hother => prec_le_of_split? h other (by simp [hother])
  refine ⟨?_, hafter⟩
  rw [rivals_of_le hle]
  refine @pairwise_of_left_right _ _ [] _ nofun fun other hother => ?_
  obtain ⟨hmem, heq⟩ := List.mem_filter.1 hother
  exact hright other hmem (of_decide_eq_true heq)

/-- A chain that is split is steady if and only if both sides are and, after the operator where it is
split, the operators of its precedence are all right-associative. -/
theorem steady_split_iff (h : split? (lowest links) links = some (before, link, after)) :
    Steady links ↔ Steady before ∧ Steady after ∧
      ∀ other ∈ after, other.level.prec = link.level.prec → other.level.assoc = .right := by
  have hlinks := eq_of_split? h
  constructor
  · intro hsteady
    have hright := hsteady.assoc_eq_right h
    rw [hlinks] at hsteady
    exact ⟨hsteady.of_append_left, hsteady.of_append.2, hright⟩
  · rintro ⟨hbefore, hafter, hright⟩
    -- By induction from the split to the start of the chain.
    have hsuffix : ∀ rest front, before = front ++ rest → Steady (rest ++ link :: after) := by
      intro rest
      induction rest with
      | nil => exact fun front _ => steady_from_split? h hafter hright
      | cons head rest ih =>
        intro front hfront
        refine ⟨?_, ih (front ++ [head]) (by rw [hfront, List.append_assoc]; rfl)⟩
        by_cases heq : head.level.prec = link.level.prec
        · exact pairwise_rivals_of_split? h hright hfront heq
        · -- An operator of a higher precedence has no rivals beyond the split.
          have hle : link.level.prec ≤ head.level.prec :=
            prec_le_of_split? h head (by simp [hfront])
          change (rivals head (rest ++ link :: after)).Pairwise _
          rw [rivals_append_of_lt (lt_of_le_of_ne hle (Ne.symm heq))]
          rw [hfront] at hbefore
          exact hbefore.of_append.1
    rw [hlinks]
    exact hsuffix before [] rfl

/-- Before the operator where a chain is split, no operator is of a lower precedence, and there are
some of the same one only if that operator is left-associative. -/
theorem left_of_split? (h : split? (lowest links) links = some (before, link, after)) :
    ∀ other ∈ before, link.level.prec < other.level.prec ∨
      other.level.prec = link.level.prec ∧ link.level.assoc = .left := by
  intro other hother
  have hlinks := eq_of_split? h
  have hprec := prec_eq_of_split? h
  have hle : lowest links ≤ other.level.prec := lowest_le (by simp [hlinks, hother])
  rcases Nat.eq_or_lt_of_le hle with heq | hlt
  · have hleft : link.level.assoc = .left :=
      assoc_eq_left_of_split? h rfl hprec ⟨other, hother, heq.symm⟩
    exact Or.inr ⟨heq.symm.trans hprec.symm, hleft⟩
  · exact Or.inl (hprec ▸ hlt)

/-- After the operator where a chain is split, no operator is of a lower precedence, and the first of
the same one is right-associative. -/
theorem right_of_split? (h : split? (lowest links) links = some (before, link, after))
    {front back : List (Link τ β)} {other : Link τ β} (hparts : after = front ++ other :: back) :
    link.level.prec < other.level.prec ∨ other.level.prec = link.level.prec ∧
      (other.level.assoc = .right ∨ ∃ earlier ∈ front, earlier.level.prec = link.level.prec) := by
  have hlinks := eq_of_split? h
  have hprec := prec_eq_of_split? h
  have hle : lowest links ≤ other.level.prec := lowest_le (by simp [hlinks, hparts])
  rcases Nat.eq_or_lt_of_le hle with heq | hlt
  · refine Or.inr ⟨heq.symm.trans hprec.symm, ?_⟩
    by_cases hfront : ∃ earlier ∈ front, earlier.level.prec = link.level.prec
    · exact Or.inr hfront
    · refine Or.inl (assoc_eq_right_of_split? h hparts heq.symm fun earlier hearlier hlow => ?_)
      exact hfront ⟨earlier, hearlier, hlow.trans hprec.symm⟩
  · exact Or.inl (hprec ▸ hlt)

end

/-! ### The tie-break in the tree of a chain -/

section

variable {levelOf : τ → Level → Prop} {links before after : List (Link τ τ)} {link : Link τ τ}

/-- The tie-break, asked of the operators of links. -/
theorem tieBreak_map_iff
    (hlevels : ∀ other ∈ before ++ link :: after, ∀ level,
      levelOf other.op level ↔ level = other.level) :
    TieBreak levelOf link.op (before.map (·.op)) (after.map (·.op)) ↔
      (∀ other ∈ before, link.level.prec < other.level.prec ∨
        other.level.prec = link.level.prec ∧ link.level.assoc = .left) ∧
      ∀ other ∈ after, link.level.prec < other.level.prec ∨
        other.level.prec = link.level.prec ∧ other.level.assoc = .right := by
  obtain ⟨hbefore, hlink, hafter⟩ :
      (∀ other ∈ before, ∀ level, levelOf other.op level ↔ level = other.level) ∧
        (∀ level, levelOf link.op level ↔ level = link.level) ∧
        ∀ other ∈ after, ∀ level, levelOf other.op level ↔ level = other.level := by
    simpa only [List.forall_mem_append, List.forall_mem_cons] using hlevels
  simp only [TieBreak, hlink, forall_eq, List.forall_mem_map]
  refine and_congr (forall₂_congr fun other hother => ?_) (forall₂_congr fun other hother => ?_)
  · simp only [hbefore other hother, forall_eq]
  · simp only [hafter other hother, forall_eq]

/-- In the tree of a chain, of the operators of the same precedence on the right of one, the first is
right-associative. -/
theorem everyNode_firstTieBreak (first : τ)
    (hlevels : ∀ link ∈ links, ∀ level, levelOf link.op level ↔ level = link.level) :
    (chainTree first links).EveryNode (FirstTieBreak levelOf) := by
  induction links using split_induction generalizing first with
  | nil =>
    rw [chainTree, reference_nil]
    trivial
  | @split links before link after hsplit hparts ihBefore ihAfter =>
    have hmem : ∀ {other}, other ∈ before ∨ other = link ∨ other ∈ after → other ∈ links := by
      simp [hparts]
    rw [chainTree, reference_split _ _ hsplit]
    refine ⟨?_, ihBefore first fun other hother => hlevels other (hmem (Or.inl hother)),
      ihAfter link.operand fun other hother => hlevels other (hmem (Or.inr (Or.inr hother)))⟩
    change FirstTieBreak levelOf link.op (chainTree first before).ops
      (chainTree link.operand after).ops
    rw [(leaves_chainTree _ _).2, (leaves_chainTree _ _).2]
    intro outer houter
    obtain rfl := (hlevels link (hmem (Or.inr (Or.inl rfl))) outer).1 houter
    constructor
    · intro q hq inner hinner
      obtain ⟨other, hother, rfl⟩ := List.mem_map.1 hq
      obtain rfl := (hlevels other (hmem (Or.inl hother)) inner).1 hinner
      exact left_of_split? hsplit other hother
    · intro earlier q later hops inner hinner
      obtain ⟨front, tail, rfl, rfl, htail⟩ := List.map_eq_append_iff.1 hops
      obtain ⟨other, back, rfl, rfl, rfl⟩ := List.map_eq_cons_iff.1 htail
      have hother : other ∈ links := hmem (by simp)
      obtain rfl := (hlevels other hother inner).1 hinner
      rcases right_of_split? hsplit rfl with hlt | ⟨hprec, hright | ⟨rival, hrival, hsame⟩⟩
      · exact Or.inl hlt
      · exact Or.inr ⟨hprec, Or.inl hright⟩
      · have hlevel := (hlevels rival (hmem (by simp [hrival])) rival.level).2 rfl
        exact Or.inr ⟨hprec, Or.inr ⟨rival.op, List.mem_map_of_mem hrival, rival.level, hlevel, hsame⟩⟩

/-- The tie-break holds in the whole tree of a chain if and only if the chain is steady. -/
theorem everyNode_tieBreak_iff (first : τ)
    (hlevels : ∀ link ∈ links, ∀ level, levelOf link.op level ↔ level = link.level) :
    (chainTree first links).EveryNode (TieBreak levelOf) ↔ Steady links := by
  induction links using split_induction generalizing first with
  | nil =>
    rw [chainTree, reference_nil]
    exact Iff.rfl
  | @split links before link after hsplit hparts ihBefore ihAfter =>
    have hmem : ∀ {other}, other ∈ before ∨ other = link ∨ other ∈ after → other ∈ links := by
      simp [hparts]
    have hbefore := ihBefore first fun other hother => hlevels other (hmem (Or.inl hother))
    have hafter := ihAfter link.operand fun other hother =>
      hlevels other (hmem (Or.inr (Or.inr hother)))
    have hnode : TieBreak levelOf link.op (before.map (·.op)) (after.map (·.op)) ↔
        ∀ other ∈ after, other.level.prec = link.level.prec → other.level.assoc = .right := by
      rw [tieBreak_map_iff (hparts ▸ hlevels), and_iff_right (left_of_split? hsplit)]
      refine forall₂_congr fun other hother => ?_
      have hle : link.level.prec ≤ other.level.prec := by
        rw [prec_eq_of_split? hsplit]
        exact lowest_le (hmem (Or.inr (Or.inr hother)))
      rcases Nat.eq_or_lt_of_le hle with heq | hlt
      · simp [heq]
      · simp [hlt, hlt.ne']
    rw [chainTree, reference_split _ _ hsplit, steady_split_iff hsplit, ← hbefore, ← hafter, ← hnode]
    change TieBreak levelOf link.op (chainTree first before).ops
      (chainTree link.operand after).ops ∧ _ ∧ _ ↔ _
    rw [(leaves_chainTree _ _).2, (leaves_chainTree _ _).2]
    tauto

end

/-! ### The tie-break in the tree of a climb -/

section

variable [RuleKey ρ]

/-- An operator is of a level in a climber's table. -/
def Climber.HasLevel (climber : Climber ρ) (reader : RuleReader ε τ ρ) (op : τ) (level : Level) :
    Prop :=
  climber.level? reader op = .ok (some level)

/-- The tree of a climb over operands and operators. In it, what is on the left of an operator is of a
higher precedence, or of the same one and the operator left-associative; what is on its right is of a
higher precedence, or of the same one and then the first such is right-associative. All such on the
right are right-associative, at every operator of the tree, if and only if the operators are steady:
then the tie-break holds in the whole tree. Operators are steady if those of the same precedence are of
the same associativity. -/
theorem runClimb_tieBreak (climber : Climber ρ) (reader : RuleReader ε τ ρ) (emptyInput : ε)
    (missingOperand : τ → ε) {hooks : Hooks σ ε τ (Tree τ)}
    (hhooks : hooks.Computes .leaf fun left op right => .node op left right) (first : τ)
    (links : List (Link τ τ)) (hlinks : ∀ link ∈ links, climber.HasLevel reader link.op link.level)
    (buffer : Buffer ε τ) (hbuffer : buffer.remaining = (first :: linkItems links).map .item)
    (s : σ) :
    ∃ tree : Tree τ,
      ((runClimb (climber.grammar reader emptyInput missingOperand) hooks buffer).run s).1.1 =
          .ok tree ∧
        tree.EveryNode (FirstTieBreak (climber.HasLevel reader)) ∧
        (tree.EveryNode (TieBreak (climber.HasLevel reader)) ↔ Steady links) ∧
        ((∀ a ∈ links, ∀ b ∈ links, a.level.prec = b.level.prec → a.level.assoc = b.level.assoc) →
          Steady links) := by
  have hgrammar : ∀ link ∈ links, (climber.grammar reader emptyInput missingOperand).level? link.op =
      .ok (some link.level) := hlinks
  have hends := climb_outline (climber.grammar reader emptyInput missingOperand) hhooks.follow
    (first :: linkItems links) ⟨buffer, s⟩ () ⟨hbuffer, trivial⟩
  rw [outline_reference Tree.leaf _ first hgrammar, run_pure] at hends
  obtain ⟨tree, s', hclimb, htree, -⟩ := hends.of_ok
  have hlevels : ∀ link ∈ links, ∀ level,
      climber.HasLevel reader link.op level ↔ level = link.level := by
    intro link hlink level
    rw [Climber.HasLevel, hlinks link hlink]
    simp [eq_comm]
  refine ⟨chainTree first links, ?_, everyNode_firstTieBreak first hlevels,
    everyNode_tieBreak_iff first hlevels, steady_of_uniform⟩
  rw [run_runClimb, hclimb, htree]
  rfl

end

/-- In a sequence of a plus and then two minuses, the plus left-associative and the minuses
right-associative, the tie-break holds in the whole tree. -/
theorem runClimb_tieBreak_minuses :
    let links : List (Link Kind Kind) :=
      [⟨.op .plus, ⟨1, .left⟩, .num⟩, ⟨.op .minus, ⟨1, .right⟩, .num⟩,
        ⟨.op .minus, ⟨1, .right⟩, .num⟩]
    let reader : RuleReader String Kind Kind := ⟨.ok, fun _ => false, id⟩
    (∀ link ∈ links, mixedClimber.HasLevel reader link.op link.level) ∧
      ∃ tree, ((runClimb (mixedClimber.grammar reader "empty" Kind.name) treeHooks
          (.ofList (.num :: linkItems links))).run ()).1.1 = .ok tree ∧
        tree.EveryNode (TieBreak (mixedClimber.HasLevel reader)) := by
  intro links reader
  have hlinks : ∀ link ∈ links, mixedClimber.HasLevel reader link.op link.level := by
    simp only [links, List.forall_mem_cons, List.not_mem_nil, false_implies, implies_true, and_true]
    exact ⟨rfl, rfl, rfl⟩
  have hhooks : treeHooks.Computes Tree.leaf fun left op right => .node op left right :=
    ⟨fun _ _ s => ⟨s, rfl⟩, fun _ _ _ _ s => ⟨s, rfl⟩⟩
  have hsteady : Steady links := by
    simp [links, Steady, rivals]
  obtain ⟨tree, htree, -, hbreak, -⟩ := runClimb_tieBreak mixedClimber reader "empty" Kind.name hhooks
    .num links hlinks (.ofList (.num :: linkItems links)) rfl ()
  exact ⟨hlinks, tree, htree, hbreak.2 hsteady⟩

/-- In a sequence of a plus, a minus and another plus, the minus is taken into the right side of the
first plus, and then the second plus is too, which is left-associative: the tie-break does not hold in
the tree. -/
theorem runClimb_not_tieBreak :
    let reader : RuleReader String Kind Kind := ⟨.ok, fun _ => false, id⟩
    let tree := Tree.node (.op .plus) (.leaf .num)
      (.node (.op .plus) (.node (.op .minus) (.leaf .num) (.leaf .num)) (.leaf .num))
    ((runClimb (mixedClimber.grammar reader "empty" Kind.name) treeHooks
        (.ofList [.num, .op .plus, .num, .op .minus, .num, .op .plus, .num])).run ()).1.1 =
          .ok tree ∧
      ¬ tree.EveryNode (TieBreak (mixedClimber.HasLevel reader)) := by
  intro reader tree
  refine ⟨rfl, fun hevery => ?_⟩
  have hplus : mixedClimber.HasLevel reader (.op .plus) ⟨1, .left⟩ := rfl
  have hmem : Kind.op .plus ∈ [Kind.op .minus, .op .plus] := by simp
  rcases (hevery.1 _ hplus).2 _ hmem _ hplus with hlt | ⟨-, hassoc⟩
  · exact absurd hlt (lt_irrefl 1)
  · cases hassoc

end Precedence
