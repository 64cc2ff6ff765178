import Mathlib
import Precedence.Table

/-!
# Bracketing

A chain is an operand followed by links, each of which is an operator with the operand to its right.
Its bracketing splits the whole chain at one operator, and then both sides in turn: of the operators
of the lowest precedence the chain is split at the first that is the last of them or is followed by a
right-associative one.

## Main definitions

- `Link` — an operator, its level, and the operand to its right
- `lowest` — the lowest precedence in a chain
- `split?` — where a chain is split
- `bracket` — the value of a chain, combined as the bracketing says

## Design notes

Operands may be of any type that the combination of two operands stays in: values, trees, or actions
that are run from left to right.
-/

namespace Precedence

theorem Level.captures_eq_false {level : Level} {prec : Nat} (h : level.prec < prec) :
    level.captures prec = false := by
  simp only [Level.captures, Bool.or_eq_false_iff, decide_eq_false_iff_not, Bool.and_eq_false_iff,
    beq_eq_false_iff_ne]
  omega

/-- An operator of a chain, its level, and the operand to its right. -/
structure Link (τ β : Type) where
  op : τ
  level : Level
  operand : β

section

variable {τ υ β γ : Type}

/-- The link with another operator of the same level and another operand. -/
def Link.map (onOp : τ → υ) (onOperand : β → γ) (link : Link τ β) : Link υ γ :=
  ⟨onOp link.op, link.level, onOperand link.operand⟩

/-- The lowest precedence of the operators in a chain. -/
def lowest (links : List (Link τ β)) : Nat :=
  (links.map (·.level.prec)).min?.getD 0

/-- Whether a chain whose lowest precedence is `m` may be split at an operator: it is of that
precedence, and the next one of that precedence, if there is one, is right-associative. -/
def Link.splits (m : Nat) (link : Link τ β) (later : List (Link τ β)) : Bool :=
  link.level.prec == m &&
    (later.find? (·.level.prec == m)).all (·.level.assoc == .right)

/-- The links before the first operator where a chain may be split, that operator's link, and the
links after it. -/
def split? (m : Nat) :
    List (Link τ β) → Option (List (Link τ β) × Link τ β × List (Link τ β))
  | [] => none
  | link :: later =>
    if link.splits m later then some ([], link, later)
    else (split? m later).map fun (before, at_, after) => (link :: before, at_, after)

/-- A split puts the links back together. -/
theorem eq_of_split? {m : Nat} {links before after : List (Link τ β)} {link : Link τ β}
    (h : split? m links = some (before, link, after)) : links = before ++ link :: after := by
  induction links generalizing before with
  | nil => simp [split?] at h
  | cons head later ih =>
    simp only [split?] at h
    split at h
    · simp only [Option.some.injEq, Prod.mk.injEq] at h
      obtain ⟨rfl, rfl, rfl⟩ := h
      rfl
    · obtain ⟨⟨before', link', after'⟩, hsplit, heq⟩ := Option.map_eq_some_iff.1 h
      simp only [Prod.mk.injEq] at heq
      obtain ⟨rfl, rfl, rfl⟩ := heq
      rw [ih hsplit, List.cons_append]

/-- The value of a chain that starts with `first`: the values of its two sides, combined by the
operator where it is split. -/
def bracket (node : β → Link τ β → β → β) (first : β) (links : List (Link τ β)) : β :=
  match _h : split? (lowest links) links with
  | none => first
  | some (before, link, after) =>
    node (bracket node first before) link (bracket node link.operand after)
termination_by links.length
decreasing_by
  all_goals
    have := congrArg List.length (eq_of_split? ‹_›)
    simp only [List.length_append, List.length_cons] at this
    omega

/-! ### The lowest precedence -/

theorem lowest_le {links : List (Link τ β)} {link : Link τ β} (h : link ∈ links) :
    lowest links ≤ link.level.prec := by
  have hmem : link.level.prec ∈ links.map (·.level.prec) := List.mem_map_of_mem h
  cases hmin : (links.map (·.level.prec)).min? with
  | none => rw [List.min?_eq_none_iff] at hmin; simp [hmin] at hmem
  | some m =>
    simp only [lowest, hmin, Option.getD_some]
    exact (List.min?_eq_some_iff.1 hmin).2 _ hmem

theorem exists_lowest {links : List (Link τ β)} (h : links ≠ []) :
    ∃ link ∈ links, link.level.prec = lowest links := by
  cases hmin : (links.map (·.level.prec)).min? with
  | none => rw [List.min?_eq_none_iff, List.map_eq_nil_iff] at hmin; exact absurd hmin h
  | some m =>
    obtain ⟨link, hlink, hprec⟩ := List.mem_map.1 (List.min?_eq_some_iff.1 hmin).1
    exact ⟨link, hlink, by simp [lowest, hmin, hprec]⟩

/-- The lowest precedence is that of a member below which no member is. -/
theorem lowest_eq {links : List (Link τ β)} {link : Link τ β} (h : link ∈ links)
    (hle : ∀ other ∈ links, link.level.prec ≤ other.level.prec) :
    lowest links = link.level.prec := by
  obtain ⟨other, hother, heq⟩ := exists_lowest (List.ne_nil_of_mem h)
  have := hle other hother
  have := lowest_le h
  omega

/-! ### Where a chain is split -/

theorem exists_split? {m : Nat} {links : List (Link τ β)}
    (h : ∃ link ∈ links, link.level.prec = m) :
    ∃ before link after, split? m links = some (before, link, after) := by
  induction links with
  | nil => simp at h
  | cons head later ih =>
    simp only [split?]
    split
    · exact ⟨[], head, later, rfl⟩
    next hsplits =>
      -- A head of precedence `m` that does not split is followed by another one.
      have hlater : ∃ link ∈ later, link.level.prec = m := by
        obtain ⟨link, hlink, hprec⟩ := h
        rcases List.mem_cons.1 hlink with rfl | hmem
        · cases hfind : later.find? (·.level.prec == m) with
          | none => simp [Link.splits, hprec, hfind] at hsplits
          | some next =>
            exact ⟨next, List.mem_of_find?_eq_some hfind, by
              simpa using List.find?_some hfind⟩
        · exact ⟨link, hmem, hprec⟩
      obtain ⟨before, link, after, hsplit⟩ := ih hlater
      exact ⟨head :: before, link, after, by simp [hsplit]⟩

theorem split?_append_of_lt {m : Nat} {front : List (Link τ β)} (links : List (Link τ β))
    (h : ∀ link ∈ front, m < link.level.prec) :
    split? m (front ++ links) =
      (split? m links).map fun (before, at_, after) => (front ++ before, at_, after) := by
  induction front with
  | nil => simp
  | cons head front ih =>
    have hhead : head.splits m (front ++ links) = false := by
      have := h head List.mem_cons_self
      simp only [Link.splits, Bool.and_eq_false_iff, beq_eq_false_iff_ne]
      left
      omega
    rw [List.cons_append, split?, hhead, ih fun link hlink => h link (List.mem_cons_of_mem _ hlink)]
    simp only [Bool.false_eq_true, if_false, Option.map_map, Function.comp_def, List.cons_append]

/-- What holds of the empty chain, and of a chain if it holds of both sides of its split, holds of
every chain. -/
theorem split_induction {motive : List (Link τ β) → Prop} (nil : motive [])
    (split : ∀ {links before link after},
      split? (lowest links) links = some (before, link, after) → links = before ++ link :: after →
      motive before → motive after → motive links)
    (links : List (Link τ β)) : motive links := by
  induction hlen : links.length using Nat.strongRecOn generalizing links with
  | _ n ih =>
    cases links with
    | nil => exact nil
    | cons head tail =>
      obtain ⟨before, link, after, hsplit⟩ :=
        exists_split? (exists_lowest (List.cons_ne_nil head tail))
      have hparts := eq_of_split? hsplit
      have hshort := congrArg List.length hparts
      simp only [hlen, List.length_append, List.length_cons] at hshort
      exact split hsplit hparts (ih before.length (by omega) before rfl)
        (ih after.length (by omega) after rfl)

/-! ### The bracketing of a chain -/

variable (node : β → Link τ β → β → β)

@[simp] theorem bracket_nil (first : β) : bracket node first [] = first := by
  rw [bracket]
  split
  · rfl
  · next h => simp [split?] at h

theorem bracket_of_split {first : β} {links before after : List (Link τ β)} {link : Link τ β}
    (h : split? (lowest links) links = some (before, link, after)) :
    bracket node first links =
      node (bracket node first before) link (bracket node link.operand after) := by
  rw [bracket]
  split
  · next hnone => rw [h] at hnone; cases hnone
  · next hsome =>
    rw [h] at hsome
    cases hsome
    rfl

/-- An operator takes the rest of a chain for its right side if none of it is of a lower precedence,
and the next one of its own precedence, if there is one, is right-associative. -/
theorem bracket_cons {first : β} {link : Link τ β} {links : List (Link τ β)}
    (hle : ∀ later ∈ links, link.level.prec ≤ later.level.prec)
    (hright : ∀ next, links.find? (·.level.prec == link.level.prec) = some next →
      next.level.assoc = .right) :
    bracket node first (link :: links) = node first link (bracket node link.operand links) := by
  have hlow : lowest (link :: links) = link.level.prec :=
    lowest_eq List.mem_cons_self (by simpa using hle)
  have hsplits : link.splits link.level.prec links = true := by
    cases hfind : links.find? (·.level.prec == link.level.prec) with
    | none => simp [Link.splits, hfind]
    | some next => simp [Link.splits, hfind, hright next hfind]
  rw [bracket_of_split node (by rw [hlow, split?, if_pos hsplits]), bracket_nil]

/-- An operator does not split a chain if the next operator of its precedence is not
right-associative. -/
theorem splits_eq_false {m : Nat} {link next : Link τ β} {later : List (Link τ β)}
    (hnext : later.find? (·.level.prec == m) = some next) (hassoc : next.level.assoc ≠ .right) :
    link.splits m later = false := by
  simp [Link.splits, hnext, hassoc]

theorem find?_append_of_lt {m : Nat} {front : List (Link τ β)} (links : List (Link τ β))
    (h : ∀ link ∈ front, m < link.level.prec) :
    (front ++ links).find? (·.level.prec == m) = links.find? (·.level.prec == m) := by
  have hskip : front.find? (·.level.prec == m) = none := by
    rw [List.find?_eq_none]
    intro link hlink
    have := h link hlink
    simp only [beq_iff_eq]
    omega
  rw [List.find?_append, hskip, Option.none_or]

/-- The lowest precedence does not come from links that are not below the first of the others. -/
theorem lowest_append {front links : List (Link τ β)} {next : Link τ β}
    (h : ∀ link ∈ front, next.level.prec ≤ link.level.prec) :
    lowest (front ++ next :: links) = lowest (next :: links) := by
  obtain ⟨low, hmem, hprec⟩ := exists_lowest (List.cons_ne_nil next links)
  rw [← hprec]
  refine lowest_eq (List.mem_append_right _ hmem) fun other hother => ?_
  rw [hprec]
  rcases List.mem_append.1 hother with hin | hin
  · exact (lowest_le List.mem_cons_self).trans (h other hin)
  · exact lowest_le hin

/-- A chain that its next operator does not reach into is combined before that operator is: the next
operator does not capture the operand of the chain's first operator, and is of a lower precedence
than the others. -/
theorem bracket_append {first : β} {link : Link τ β} {front : List (Link τ β)}
    (links : List (Link τ β))
    (h : ∀ next ∈ links.head?, next.level.captures link.level.prec = false ∧
      ∀ later ∈ front, next.level.prec < later.level.prec) :
    bracket node first (link :: front ++ links) =
      bracket node (bracket node first (link :: front)) links := by
  induction links using split_induction with
  | nil => simp
  | @split links before at_ after hsplit hparts ihBefore _ =>
    obtain ⟨next, rest, rfl⟩ : ∃ next rest, links = next :: rest :=
      List.exists_cons_of_ne_nil (by simp [hparts])
    obtain ⟨hcap, hfront⟩ := h next rfl
    simp only [Level.captures, Bool.or_eq_false_iff, decide_eq_false_iff_not, not_lt,
      Bool.and_eq_false_iff, beq_eq_false_iff_ne] at hcap
    obtain ⟨hnext, hassoc⟩ := hcap
    have hlow_le : lowest (next :: rest) ≤ next.level.prec := lowest_le List.mem_cons_self
    have habove : ∀ later ∈ front, lowest (next :: rest) < later.level.prec :=
      fun later hlater => hlow_le.trans_lt (hfront later hlater)
    have hlow : lowest (link :: front ++ next :: rest) = lowest (next :: rest) := by
      refine lowest_append fun other hother => ?_
      rcases List.mem_cons.1 hother with rfl | hin
      · exact hnext
      · exact (hfront other hin).le
    -- If the first operator shares the lowest precedence, `next` is the one that follows it.
    have hfirst : link.splits (lowest (next :: rest)) (front ++ next :: rest) = false := by
      by_cases heq : link.level.prec = lowest (next :: rest)
      · have hprec : next.level.prec = lowest (next :: rest) := by omega
        have hfind : (front ++ next :: rest).find? (·.level.prec == lowest (next :: rest)) =
            some next := by
          rw [find?_append_of_lt _ habove, List.find?_cons_of_pos (by simp [hprec])]
        exact splits_eq_false hfind (hassoc.resolve_left (by omega))
      · simp [Link.splits, heq]
    have hwhole : split? (lowest (link :: front ++ next :: rest)) (link :: front ++ next :: rest) =
        some (link :: front ++ before, at_, after) := by
      rw [hlow, List.cons_append, split?, hfirst, split?_append_of_lt _ habove, hsplit]
      rfl
    rw [bracket_of_split node hwhole, bracket_of_split node hsplit, ihBefore fun other hother => ?_]
    cases before with
    | nil => simp at hother
    | cons head tail =>
      obtain rfl : head = other := by simpa using hother
      rw [List.cons_append, List.cons.injEq] at hparts
      rw [← hparts.1]
      exact h next rfl

/-! ### Chains whose lowest operators are of one associativity -/

theorem split?_of_splits {m : Nat} {link : Link τ β} {before after : List (Link τ β)}
    (hsplits : link.splits m after = true)
    (hbefore : ∀ front other back, before = front ++ other :: back →
      other.splits m (back ++ link :: after) = false) :
    split? m (before ++ link :: after) = some (before, link, after) := by
  induction before with
  | nil => rw [List.nil_append, split?, if_pos hsplits]
  | cons head before ih =>
    have hhead := hbefore [] head before rfl
    rw [List.cons_append, split?, hhead, ih fun front other back hback =>
      hbefore (head :: front) other back (by rw [hback, List.cons_append])]
    rfl

theorem splits_of_split? {m : Nat} {links before after : List (Link τ β)} {link : Link τ β}
    (h : split? m links = some (before, link, after)) :
    link.splits m after = true ∧ ∀ front other back, before = front ++ other :: back →
      other.splits m (back ++ link :: after) = false := by
  induction links generalizing before with
  | nil => simp [split?] at h
  | cons head later ih =>
    simp only [split?] at h
    split at h
    next hsplits =>
      simp only [Option.some.injEq, Prod.mk.injEq] at h
      obtain ⟨rfl, rfl, rfl⟩ := h
      exact ⟨hsplits, by simp⟩
    next hsplits =>
      obtain ⟨⟨before', link', after'⟩, hsplit, heq⟩ := Option.map_eq_some_iff.1 h
      simp only [Prod.mk.injEq] at heq
      obtain ⟨rfl, rfl, rfl⟩ := heq
      obtain ⟨hlink, hbefore⟩ := ih hsplit
      refine ⟨hlink, fun front other back hback => ?_⟩
      cases front with
      | nil =>
        rw [List.nil_append, List.cons.injEq] at hback
        rw [← hback.1, ← hback.2, ← eq_of_split? hsplit]
        exact Bool.not_eq_true _ ▸ hsplits
      | cons first front =>
        rw [List.cons_append, List.cons.injEq] at hback
        exact hbefore front other back hback.2

/-- If a part of a chain has an operator of the lowest precedence, then a first one is found there. -/
theorem exists_find?_lowest {links part : List (Link τ β)} {link : Link τ β} (hpart : part ⊆ links)
    (hlink : link ∈ part) (hprec : link.level.prec = lowest links) :
    ∃ next ∈ links, part.find? (·.level.prec == lowest links) = some next ∧
      next.level.prec = lowest links := by
  cases hfind : part.find? (·.level.prec == lowest links) with
  | none => exact absurd (List.find?_eq_none.1 hfind link hlink) (by simp [hprec])
  | some next =>
    exact ⟨next, hpart (List.mem_of_find?_eq_some hfind), rfl, by simpa using List.find?_some hfind⟩

/-- A chain whose operators of the lowest precedence are all left-associative is split at the last of
them. -/
theorem split?_of_left {links before after : List (Link τ β)} {link : Link τ β}
    (hlinks : links = before ++ link :: after) (hprec : link.level.prec = lowest links)
    (hleft : ∀ other ∈ links, other.level.prec = lowest links → other.level.assoc = .left)
    (hlast : ∀ later ∈ after, later.level.prec ≠ lowest links) :
    split? (lowest links) links = some (before, link, after) := by
  have hnone : after.find? (·.level.prec == lowest links) = none :=
    List.find?_eq_none.2 fun later hlater => by simpa using hlast later hlater
  nth_rewrite 2 [hlinks]
  refine split?_of_splits (by simp [Link.splits, hprec, hnone]) fun front other back hback => ?_
  -- The next operator of the lowest precedence is left-associative, so `other` does not split.
  have hpart : back ++ link :: after ⊆ links := by
    rw [hlinks, hback, List.append_assoc]
    exact fun x hx => List.mem_append_right _ (List.mem_cons_of_mem _ hx)
  obtain ⟨next, hmem, hfind, hlow⟩ := exists_find?_lowest hpart (by simp) hprec
  exact splits_eq_false hfind (by simp [hleft next hmem hlow])

/-- A chain whose operators of the lowest precedence are all right-associative is split at the first
of them. -/
theorem split?_of_right {links before after : List (Link τ β)} {link : Link τ β}
    (hlinks : links = before ++ link :: after) (hprec : link.level.prec = lowest links)
    (hright : ∀ other ∈ links, other.level.prec = lowest links → other.level.assoc = .right)
    (hfirst : ∀ earlier ∈ before, earlier.level.prec ≠ lowest links) :
    split? (lowest links) links = some (before, link, after) := by
  nth_rewrite 2 [hlinks]
  refine split?_of_splits ?_ fun front other back hback => ?_
  · cases hfind : after.find? (·.level.prec == lowest links) with
    | none => simp [Link.splits, hprec, hfind]
    | some next =>
      have hmem := List.mem_of_find?_eq_some hfind
      have hassoc := hright next (by simp [hlinks, hmem]) (by simpa using List.find?_some hfind)
      simp [Link.splits, hprec, hfind, hassoc]
  · have := hfirst other (by simp [hback])
    simp [Link.splits, this]

/-- Where operators of the same precedence are of the same associativity, the operators of the
lowest precedence are all on one side of the one where a chain is split: on its left if it is
left-associative, and on its right if it is right-associative. -/
theorem lowest_lt_of_split? {links before after : List (Link τ β)} {link : Link τ β}
    (huniform : ∀ a ∈ links, ∀ b ∈ links, a.level.prec = b.level.prec →
      a.level.assoc = b.level.assoc)
    (h : split? (lowest links) links = some (before, link, after)) :
    link.level.prec = lowest links ∧
      (link.level.assoc = .left → ∀ later ∈ after, lowest links < later.level.prec) ∧
        (link.level.assoc = .right → ∀ earlier ∈ before, lowest links < earlier.level.prec) := by
  obtain ⟨hsplits, hbefore⟩ := splits_of_split? h
  have hparts := eq_of_split? h
  have hlink : link ∈ links := by simp [hparts]
  simp only [Link.splits, Bool.and_eq_true, beq_iff_eq] at hsplits
  obtain ⟨hprec, hnext⟩ := hsplits
  refine ⟨hprec, fun hleft later hlater => ?_, fun hright earlier hearlier => ?_⟩
  · have hmem : later ∈ links := by simp [hparts, hlater]
    refine lt_of_le_of_ne (lowest_le hmem) fun heq => ?_
    -- Some operator after the split is of the lowest precedence, and the first such is not
    -- right-associative.
    have hpart : after ⊆ links := by
      rw [hparts]
      exact fun x hx => List.mem_append_right _ (List.mem_cons_of_mem _ hx)
    obtain ⟨next, hmem, hfind, hlow⟩ := exists_find?_lowest hpart hlater heq.symm
    have hassoc := huniform link hlink next hmem (hprec.trans hlow.symm)
    simp [hfind, ← hassoc, hleft] at hnext
  · have hmem : earlier ∈ links := by simp [hparts, hearlier]
    refine lt_of_le_of_ne (lowest_le hmem) fun heq => ?_
    obtain ⟨front, back, rfl⟩ := List.append_of_mem hearlier
    have hsplits := hbefore front earlier back rfl
    have hpart : back ++ link :: after ⊆ links := by
      rw [hparts, List.append_assoc]
      exact fun x hx => List.mem_append_right _ (List.mem_cons_of_mem _ hx)
    obtain ⟨next, hmem, hfind, hlow⟩ := exists_find?_lowest hpart (by simp) hprec
    have hassoc := huniform link hlink next hmem (hprec.trans hlow.symm)
    simp [Link.splits, hfind, ← hassoc, hright, ← heq] at hsplits

/-- Conversely, a chain is split at an operator of the lowest precedence if the others are all on the
side that it groups to. -/
theorem split?_of_lowest_lt {before after : List (Link τ β)} {link : Link τ β}
    (huniform : ∀ a ∈ before ++ link :: after, a.level.prec = link.level.prec →
      a.level.assoc = link.level.assoc)
    (hbefore : ∀ earlier ∈ before, link.level.prec ≤ earlier.level.prec)
    (hafter : ∀ later ∈ after, link.level.prec ≤ later.level.prec)
    (hleft : link.level.assoc = .left → ∀ later ∈ after, link.level.prec < later.level.prec)
    (hright : link.level.assoc = .right →
      ∀ earlier ∈ before, link.level.prec < earlier.level.prec) :
    split? (lowest (before ++ link :: after)) (before ++ link :: after) =
      some (before, link, after) := by
  have hlow : lowest (before ++ link :: after) = link.level.prec := by
    refine lowest_eq (by simp) fun other hother => ?_
    rcases List.mem_append.1 hother with hin | hin
    · exact hbefore other hin
    · rcases List.mem_cons.1 hin with rfl | hin
      · exact le_rfl
      · exact hafter other hin
  cases hassoc : link.level.assoc with
  | left =>
    refine split?_of_left rfl hlow.symm (fun other hother hprec => ?_) fun later hlater => ?_
    · rw [huniform other hother (hprec.trans hlow), hassoc]
    · rw [hlow]
      exact (hleft hassoc later hlater).ne'
  | right =>
    refine split?_of_right rfl hlow.symm (fun other hother hprec => ?_) fun earlier hearlier => ?_
    · rw [huniform other hother (hprec.trans hlow), hassoc]
    · rw [hlow]
      exact (hright hassoc earlier hearlier).ne'

/-! ### What an operator takes -/

/-- An operator of precedence `prec` takes `front`, and leaves `links`: none of `front` is of a lower
precedence, and the first of its own precedence is right-associative; the operator after `front`
does not capture its operand, and is of a lower precedence than all of `front`. -/
structure Takes (prec : Nat) (front links : List (Link τ β)) : Prop where
  le : ∀ link ∈ front, prec ≤ link.level.prec
  right : ∀ link, front.find? (·.level.prec == prec) = some link → link.level.assoc = .right
  captures : ∀ next ∈ links.head?, next.level.captures prec = false
  lt : ∀ next ∈ links.head?, ∀ link ∈ front, next.level.prec < link.level.prec

/-- What an operator takes does not depend on how a chain goes on after an operator of a lower
precedence, or after its end. -/
theorem Takes.append {prec : Nat} {front rest links : List (Link τ β)} (h : Takes prec front rest)
    (hlinks : ∀ next ∈ links.head?, next.level.prec < prec) : Takes prec front (rest ++ links) := by
  cases rest with
  | cons next rest => exact ⟨h.le, h.right, h.captures, h.lt⟩
  | nil =>
    refine ⟨h.le, h.right, fun next hnext => ?_, fun next hnext link hlink => ?_⟩
    · exact Level.captures_eq_false (hlinks next hnext)
    · have := hlinks next hnext
      have := h.le link hlink
      omega

/-- An operator captures the operand of the one that takes it first. -/
theorem Takes.captures_head {prec : Nat} {link : Link τ β} {front rest : List (Link τ β)}
    (h : Takes prec (link :: front) rest) : link.level.captures prec = true := by
  have hle := h.le link List.mem_cons_self
  simp only [Level.captures, Bool.or_eq_true, decide_eq_true_eq, Bool.and_eq_true, beq_iff_eq]
  rcases Nat.eq_or_lt_of_le hle with heq | hlt
  · exact Or.inr ⟨heq.symm, h.right link (List.find?_cons_of_pos (by simp [heq]))⟩
  · exact Or.inl hlt

/-- If an operator takes a run of links and others after it that are of lower precedences, then it
takes the others alone. -/
theorem Takes.tail {prec : Nat} {front links rest : List (Link τ β)}
    (h : Takes prec (front ++ links) rest)
    (hlt : ∀ next ∈ links.head?, ∀ link ∈ front, next.level.prec < link.level.prec) :
    Takes prec links rest := by
  refine ⟨fun link hlink => h.le link (List.mem_append_right _ hlink), fun link hlink => ?_,
    h.captures, fun next hnext link hlink => h.lt next hnext link (List.mem_append_right _ hlink)⟩
  obtain ⟨head, links, rfl⟩ : ∃ head tail, links = head :: tail :=
    List.exists_cons_of_ne_nil (by rintro rfl; simp at hlink)
  have hhead := h.le head (by simp)
  refine h.right link ?_
  rw [find?_append_of_lt _ fun other hother => hhead.trans_lt (hlt head rfl other hother), hlink]

/-- The longest front of a list whose members satisfy a condition. -/
theorem exists_front {α : Type} (p : α → Prop) (xs : List α) :
    ∃ front rest, xs = front ++ rest ∧ (∀ x ∈ front, p x) ∧ ∀ next ∈ rest.head?, ¬ p next := by
  induction xs with
  | nil => exact ⟨[], [], rfl, by simp, by simp⟩
  | cons x xs ih =>
    by_cases hx : p x
    · obtain ⟨front, rest, rfl, hfront, hrest⟩ := ih
      exact ⟨x :: front, rest, rfl, by simpa [hx] using hfront, hrest⟩
    · exact ⟨[], x :: xs, rfl, by simp, by simpa using hx⟩

theorem find?_eq_none_of_lt {prec : Nat} {above : List (Link τ β)}
    (h : ∀ link ∈ above, prec < link.level.prec) :
    above.find? (·.level.prec == prec) = none := by
  rw [List.find?_eq_none]
  intro link hlink
  have := h link hlink
  simp only [beq_iff_eq]
  omega

/-- An operator takes those of higher precedences, up to one that does not capture its operand. -/
theorem takes_above {prec : Nat} {above rest : List (Link τ β)}
    (habove : ∀ link ∈ above, prec < link.level.prec)
    (hlast : ∀ next ∈ rest.head?, ¬ prec < next.level.prec)
    (hcaptures : ∀ next ∈ rest.head?, next.level.captures prec = false) :
    Takes prec above rest := by
  have hfind := find?_eq_none_of_lt habove
  refine ⟨fun link hlink => (habove link hlink).le, by simp [hfind], hcaptures, ?_⟩
  intro next hnext link hlink
  have := hlast next hnext
  have := habove link hlink
  omega

/-- If the first operator of its own precedence is right-associative, then an operator takes that one
and all others that are not of a lower precedence. -/
theorem takes_through {prec : Nat} {above equal rest : List (Link τ β)} {next : Link τ β}
    (habove : ∀ link ∈ above, prec < link.level.prec) (hprec : next.level.prec = prec)
    (hassoc : next.level.assoc = .right) (hequal : ∀ link ∈ equal, prec ≤ link.level.prec)
    (hlast : ∀ after ∈ rest.head?, after.level.prec < prec) :
    Takes prec (above ++ next :: equal) rest := by
  have hle : ∀ link ∈ above ++ next :: equal, prec ≤ link.level.prec := by
    intro link hlink
    rcases List.mem_append.1 hlink with hin | hin
    · exact (habove link hin).le
    · rcases List.mem_cons.1 hin with rfl | hin
      · exact hprec.ge
      · exact hequal link hin
  refine ⟨hle, fun link hlink => ?_, fun after hafter => ?_, fun after hafter link hlink => ?_⟩
  · rw [List.find?_append, find?_eq_none_of_lt habove, Option.none_or,
      List.find?_cons_of_pos (by simp [hprec]), Option.some.injEq] at hlink
    rw [← hlink]
    exact hassoc
  · exact Level.captures_eq_false (hlast after hafter)
  · exact (hlast after hafter).trans_le (hle link hlink)

theorem exists_takes (prec : Nat) (links : List (Link τ β)) :
    ∃ front rest, links = front ++ rest ∧ Takes prec front rest := by
  obtain ⟨above, rest, rfl, habove, hrest⟩ :=
    exists_front (fun link : Link τ β => prec < link.level.prec) links
  by_cases hcap : ∃ next ∈ rest.head?, next.level.captures prec = true
  · obtain ⟨next, hnext, hcap⟩ := hcap
    obtain ⟨tail, rfl⟩ : ∃ tail, rest = next :: tail := List.head?_eq_some_iff.1 hnext
    obtain ⟨equal, rest, rfl, hequal, hlast⟩ :=
      exists_front (fun link : Link τ β => prec ≤ link.level.prec) tail
    have hlevel : next.level.prec = prec ∧ next.level.assoc = .right := by
      have := hrest next hnext
      simp only [Level.captures, Bool.or_eq_true, decide_eq_true_eq, Bool.and_eq_true,
        beq_iff_eq] at hcap
      tauto
    refine ⟨above ++ next :: equal, rest, by simp, ?_⟩
    exact takes_through habove hlevel.1 hlevel.2 hequal fun after hafter =>
      not_le.1 (hlast after hafter)
  · refine ⟨above, rest, rfl, takes_above habove hrest fun next hnext => ?_⟩
    simpa using fun h => hcap ⟨next, hnext, h⟩

/-! ### Bracketings of actions and of other operands -/

/-- Combine the values of two actions, the left one of which is run first. -/
def inTurn {m : Type → Type} [Monad m] (combine : β → τ → β → m β) (left : m β)
    (link : Link τ (m β)) (right : m β) : m β := do
  let a ← left
  let b ← right
  combine a link.op b

/-- The first operand of a chain of actions is run before all others. -/
theorem bracket_inTurn {m : Type → Type} [Monad m] [LawfulMonad m] (combine : β → τ → β → m β)
    (first : m β) (links : List (Link τ (m β))) :
    bracket (inTurn combine) first links =
      first >>= fun a => bracket (inTurn combine) (pure a) links := by
  induction links using split_induction with
  | nil => simp
  | split hsplit _ ihBefore _ =>
    rw [bracket_of_split _ hsplit, inTurn, ihBefore, bind_assoc]
    refine bind_congr fun a => ?_
    rw [bracket_of_split _ hsplit, inTurn]

theorem lowest_map (g : τ → υ) (f : β → γ) (links : List (Link τ β)) :
    lowest (links.map (Link.map g f)) = lowest links := by
  simp [lowest, Link.map, Function.comp_def]

theorem splits_map (g : τ → υ) (f : β → γ) (m : Nat) (link : Link τ β) (later : List (Link τ β)) :
    (link.map g f).splits m (later.map (Link.map g f)) = link.splits m later := by
  simp only [Link.splits, Link.map, List.find?_map, Function.comp_def]
  cases later.find? (·.level.prec == m) <;> rfl

theorem split?_map (g : τ → υ) (f : β → γ) (m : Nat) (links : List (Link τ β)) :
    split? m (links.map (Link.map g f)) = (split? m links).map fun (before, link, after) =>
      (before.map (Link.map g f), link.map g f, after.map (Link.map g f)) := by
  induction links with
  | nil => rfl
  | cons head later ih =>
    rw [List.map_cons, split?, split?, splits_map, ih]
    split
    · rfl
    · simp [Function.comp_def]

theorem split?_lowest_map (g : τ → υ) (f : β → γ) {links before after : List (Link τ β)}
    {link : Link τ β} (h : split? (lowest links) links = some (before, link, after)) :
    split? (lowest (links.map (Link.map g f))) (links.map (Link.map g f)) =
      some (before.map (Link.map g f), link.map g f, after.map (Link.map g f)) := by
  rw [lowest_map, split?_map, h, Option.map_some]

theorem map_bracket {node' : γ → Link υ γ → γ → γ} (g : τ → υ) (f : β → γ)
    (h : ∀ left link right, f (node left link right) = node' (f left) (link.map g f) (f right))
    (first : β) (links : List (Link τ β)) :
    f (bracket node first links) = bracket node' (f first) (links.map (Link.map g f)) := by
  induction links using split_induction generalizing first with
  | nil => simp
  | @split links before link after hsplit _ ihBefore ihAfter =>
    rw [bracket_of_split _ hsplit, bracket_of_split _ (split?_lowest_map g f hsplit), h, ihBefore,
      ihAfter]
    rfl

/-- A relation that holds of the operands of two chains with the same levels, and of two values if
it holds of their sides, holds of the values of the chains. -/
theorem bracket_rel {β₁ β₂ : Type} {node₁ : β₁ → Link τ β₁ → β₁ → β₁}
    {node₂ : β₂ → Link τ β₂ → β₂ → β₂} (C : β₁ → β₂ → Prop) (f₁ : β → β₁) (f₂ : β → β₂)
    {links : List (Link τ β)}
    (hnode : ∀ link ∈ links, ∀ {left₁ left₂ right₁ right₂}, C left₁ left₂ → C right₁ right₂ →
      C (node₁ left₁ (link.map id f₁) right₁) (node₂ left₂ (link.map id f₂) right₂))
    {first₁ : β₁} {first₂ : β₂} (hfirst : C first₁ first₂)
    (hlinks : ∀ link ∈ links, C (f₁ link.operand) (f₂ link.operand)) :
    C (bracket node₁ first₁ (links.map (Link.map id f₁)))
      (bracket node₂ first₂ (links.map (Link.map id f₂))) := by
  induction links using split_induction generalizing first₁ first₂ with
  | nil => simpa using hfirst
  | @split links before link after hsplit hparts ihBefore ihAfter =>
    have hmem : ∀ {other}, other ∈ before ∨ other = link ∨ other ∈ after → other ∈ links := by
      simp [hparts]
    rw [bracket_of_split _ (split?_lowest_map id f₁ hsplit),
      bracket_of_split _ (split?_lowest_map id f₂ hsplit)]
    refine hnode link (hmem (Or.inr (Or.inl rfl))) (ihBefore ?_ hfirst ?_) (ihAfter ?_ ?_ ?_)
    · exact fun other hother => hnode other (hmem (Or.inl hother))
    · exact fun other hother => hlinks other (hmem (Or.inl hother))
    · exact fun other hother => hnode other (hmem (Or.inr (Or.inr hother)))
    · exact hlinks link (hmem (Or.inr (Or.inl rfl)))
    · exact fun other hother => hlinks other (hmem (Or.inr (Or.inr hother)))

/-- A relation that holds of the last operands of two chains, and of two values if it holds of their
right sides and another relation holds of their left sides, holds of the values of the chains, if the
other relation holds of the other operands as in `bracket_rel`. -/
theorem bracket_rel_concat {β₁ β₂ : Type} {node₁ : β₁ → Link τ β₁ → β₁ → β₁}
    {node₂ : β₂ → Link τ β₂ → β₂ → β₂} (C D : β₁ → β₂ → Prop) (f₁ : β → β₁) (f₂ : β → β₂)
    {links : List (Link τ β)} {last : Link τ β}
    (hnode : ∀ link ∈ links, ∀ {left₁ left₂ right₁ right₂}, C left₁ left₂ → C right₁ right₂ →
      C (node₁ left₁ (link.map id f₁) right₁) (node₂ left₂ (link.map id f₂) right₂))
    (hlastNode : ∀ link ∈ links ++ [last], ∀ {left₁ left₂ right₁ right₂}, C left₁ left₂ →
      D right₁ right₂ → D (node₁ left₁ (link.map id f₁) right₁)
        (node₂ left₂ (link.map id f₂) right₂))
    {first₁ : β₁} {first₂ : β₂} (hfirst : C first₁ first₂)
    (hlinks : ∀ link ∈ links, C (f₁ link.operand) (f₂ link.operand))
    (hlast : D (f₁ last.operand) (f₂ last.operand)) :
    D (bracket node₁ first₁ ((links ++ [last]).map (Link.map id f₁)))
      (bracket node₂ first₂ ((links ++ [last]).map (Link.map id f₂))) := by
  generalize hall : links ++ [last] = all at hlastNode ⊢
  induction all using split_induction generalizing links first₁ first₂ with
  | nil => simp at hall
  | @split all before link after hsplit hparts _ ihAfter =>
    have hlink : link ∈ all := by simp [hparts]
    rw [bracket_of_split _ (split?_lowest_map id f₁ hsplit),
      bracket_of_split _ (split?_lowest_map id f₂ hsplit)]
    rw [hparts] at hall
    -- The last operand is alone on the right of the split, or the last one of the right side.
    rcases List.eq_nil_or_concat after with rfl | ⟨init, other, rfl⟩
    · obtain ⟨rfl, hsame⟩ := List.append_inj' hall rfl
      obtain rfl : last = link := List.singleton_inj.1 hsame
      refine hlastNode last hlink (bracket_rel C f₁ f₂ hnode hfirst hlinks) ?_
      simpa [Link.map] using hlast
    · rw [List.concat_eq_append, ← List.cons_append, ← List.append_assoc] at hall
      obtain ⟨rfl, hsame⟩ := List.append_inj' hall rfl
      obtain rfl : last = other := List.singleton_inj.1 hsame
      obtain ⟨hnodeBefore, hnodeAfter⟩ := List.forall_mem_append.1 hnode
      obtain ⟨hbefore, hafter⟩ := List.forall_mem_append.1 hlinks
      obtain ⟨hoperand, hafter⟩ := List.forall_mem_cons.1 hafter
      refine hlastNode link hlink (bracket_rel C f₁ f₂ hnodeBefore hfirst hbefore) ?_
      refine ihAfter ((List.forall_mem_cons.1 hnodeAfter).2) hoperand hafter
        List.concat_eq_append.symm fun other hother => hlastNode other ?_
      rw [hparts]
      exact List.mem_append_right _ (List.mem_cons_of_mem _ hother)

end

end Precedence
