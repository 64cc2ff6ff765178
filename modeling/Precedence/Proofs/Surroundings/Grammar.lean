import Mathlib
import Precedence.Proofs.Surroundings.Parts

/-!
# Patterns side by side

A pattern that refers to groups by name only is read among others as it is read by itself.

## Main definitions

- `ReadM.namedItem`, `ReadM.behindItem`, `ReadM.branches` — what an extension goes on with
- `ReadM.KeepsBeside` — all productions of the grammar keep readings side by side

## Main statements

- `ReadM.keepsBeside` — they do, however many steps either reading may take

## Design notes

A sequence that reaches the end of its text by itself may go on among others: in a verbose pattern a
comment runs into what comes after it, and a bar starts another alternative. What has still to be
closed cannot end there, so a production that encloses another one needs no such exception.
-/

namespace Precedence

variable {around : Surroundings}

namespace ReadM

/-! ### Productions within productions -/

section

variable (fuel : Nat) (flags : Flags) (done : List PatternItem)

/-- A pattern up to its closing parenthesis. -/
def enclosed : ReadM Pattern := do
  let body ← alternatives fuel flags
  expect ')'
  return body

/-- A group is opened, and its text is read. -/
def newGroup (name : Option String) (pos : Nat) : ReadM (List PatternItem) := do
  let index ← openGroup name pos
  return (← captured fuel flags index) :: done

/-- What comes after an opening parenthesis: a group, or an extension. -/
def parenthesis (pos : Nat) : ReadM (List PatternItem) := do
  if ← accept '?' then extended fuel flags pos done else newGroup fuel flags done none pos

/-- What comes after a P: a named group, or a reference to one. -/
def namedItem : ReadM (List PatternItem) := do
  if ← accept '<' then
    let pos ← position
    let name ← groupName '>'
    newGroup fuel flags done (some name) pos
  else
    expect '='
    let pos ← position
    let index ← namedGroup (← groupName ')')
    return ⟨.backref flags.folding (← reference index pos), .other⟩ :: done

/-- The text of a look-behind, which may refer to the groups opened before it. -/
def behindItem (negated : Bool) : ReadM (List PatternItem) := do
  let outer := (← get).behind
  modify fun reading =>
    { reading with behind := some (reading.behind.getD reading.groups.length) }
  let body ← alternatives fuel flags
  modify fun reading => { reading with behind := outer }
  expect ')'
  return ⟨← lookBehind negated body, .other⟩ :: done

/-- The two branches of a condition, of which the second one may be missing. -/
def branches (index : Nat) : ReadM (List PatternItem) := do
  let whenSet ← sequence fuel flags []
  let whenUnset ← if ← accept '|' then sequence fuel flags [] else pure .empty
  expect ')'
  return ⟨.ifGroup index whenSet whenUnset, .other⟩ :: done

/-- An extension is told by the character after its question mark. -/
theorem extended_succ (start : Nat) :
    extended (fuel + 1) flags start done = do
      let mark ← takeSome
      if mark.escaped then malformed
      match mark.char with
      | 'P' => namedItem fuel flags done
      | ':' => return ⟨← enclosed fuel flags, .other⟩ :: done
      | '#' =>
        skipComment
        return done
      | '=' => return ⟨.lookAhead false (← enclosed fuel flags), .other⟩ :: done
      | '!' => return ⟨.lookAhead true (← enclosed fuel flags), .other⟩ :: done
      | '<' =>
        let sign ← takeSome
        unless sign.isOneOf ['=', '!'] do malformed
        behindItem fuel flags done (sign.is '!')
      | '(' =>
        let index ← condition
        branches fuel flags done index
      | '>' => return ⟨.atomic (← enclosed fuel flags), .other⟩ :: done
      | _ =>
        modify fun reading => { reading with rest := mark :: reading.rest }
        match ← flagGroup with
        | .everywhere _ => throw (.misplacedFlags start)
        | .scoped on off => return ⟨← enclosed fuel (flags.update on off), .other⟩ :: done := by
  rw [extended]
  rfl
end

variable {γ δ : Type} {W : γ → δ → Prop} {s s' : Reading}

/-- All productions keep two readings side by side, of which the first one takes at most `fuel`
steps. -/
structure KeepsBeside (around : Surroundings) (fuel : Nat) : Prop where
  alternatives : ∀ fuel' flags,
    BesideWithin around True (Pattern.Beside around) (alternatives fuel flags)
      (ReadM.alternatives fuel' flags)
  sequence : ∀ fuel' flags done done', List.Forall₂ (PatternItem.Beside around) done done' →
    BesideWithin around flags.verbose (Pattern.Beside around) (sequence fuel flags done)
      (ReadM.sequence fuel' flags done')
  item : ∀ fuel' flags token done done' s s', Reading.Beside around s s' →
    refersByName (token :: s.rest) → List.Forall₂ (PatternItem.Beside around) done done' →
    BesideWithinAt around flags.verbose s s' (List.Forall₂ (PatternItem.Beside around))
      (item fuel flags token done) (ReadM.item fuel' flags (token.moved around.offset) done')
  captured : ∀ fuel' flags index, 0 < index →
    Beside around (PatternItem.Beside around) (captured fuel flags index)
      (ReadM.captured fuel' flags (index + around.groups.length))
  extended : ∀ fuel' flags start start' done done' s s', Reading.Beside around s s' →
    namesCondition s.rest → List.Forall₂ (PatternItem.Beside around) done done' →
    BesideAt around s s' (List.Forall₂ (PatternItem.Beside around))
      (extended fuel flags start done) (ReadM.extended fuel' flags start' done')

/-! ### Ends of actions -/

theorem rest_ne_nil_of_expect_bind {c : Char} {k : Unit → ReadM γ} {r : γ × Reading}
    (h : (expect c >>= k).run s = .ok r) : s.rest ≠ [] := by
  obtain ⟨_, t, hexpect, -⟩ := run_bind_eq_ok.1 h
  exact rest_ne_nil_of_expect hexpect

theorem rest_eq_nil_of_run_accept {c : Char} {a : Bool} {t : Reading}
    (h : (accept c).run s = .ok (a, t)) (hs : s.rest = []) : a = false ∧ t = s := by
  rw [run_accept, hs] at h
  cases h
  exact ⟨rfl, rfl⟩

/-- A sequence that starts at the end stays there. -/
theorem rest_eq_nil_of_run_sequence {fuel : Nat} {flags : Flags} {done : List PatternItem}
    {r : Pattern × Reading} (h : (sequence fuel flags done).run s = .ok r) (hs : s.rest = []) :
    r.2.rest = [] := by
  cases fuel with
  | zero => cases h
  | succ fuel =>
    rw [sequence] at h
    obtain ⟨next, t, ⟨⟩, h⟩ := run_bind_eq_ok.1 h
    rw [hs] at h
    cases h
    exact hs

/-! ### Productions -/

/-- The text in parentheses, and what is made of it. -/
theorem enclosed_bind_beside {fuel fuel' : Nat} (ih : KeepsBeside around fuel) (flags : Flags)
    {k : Pattern → ReadM γ} {k' : Pattern → ReadM δ}
    (hk : ∀ p p', Pattern.Beside around p p' → Beside around W (k p) (k' p')) :
    Beside around W (do let body ← alternatives fuel flags; expect ')'; k body)
      (do let body ← alternatives fuel' flags; expect ')'; k' body) := by
  refine (ih.alternatives fuel' flags).bind (fun _ _ _ => rest_ne_nil_of_expect_bind) ?_
  intro p p' hp s s' hs _
  exact (expect_takes (by decide)).beside.bind (fun _ _ _ => hk p p' hp) s s' hs

theorem enclosed_beside {fuel fuel' : Nat} (ih : KeepsBeside around fuel) (flags : Flags) :
    Beside around (Pattern.Beside around) (enclosed fuel flags) (enclosed fuel' flags) :=
  enclosed_bind_beside ih flags fun _ _ hp => .pure hp

theorem captured_beside {fuel fuel' : Nat} (ih : KeepsBeside around fuel) (flags : Flags)
    {index : Nat} (hindex : 0 < index) :
    Beside around (PatternItem.Beside around) (captured (fuel + 1) flags index)
      (captured fuel' flags (index + around.groups.length)) := by
  cases fuel' with
  | zero => exact .throwRight _
  | succ fuel' =>
    rw [captured, captured]
    refine enclosed_bind_beside ih flags fun p p' hp s s' hs => ?_
    refine BesideAt.get_bind ?_
    refine (closeGroup_beside hindex ?_).bind ?_ s s' hs
    · exact hp.width _ _ fun index hindex => by rw [hs.groups, widthOf_append hindex]
    · intro _ _ _
      exact .pure ⟨hp.group index, rfl⟩

theorem alternatives_besideWithin {fuel fuel' : Nat} (ih : KeepsBeside around fuel) (flags : Flags) :
    BesideWithin around True (Pattern.Beside around) (alternatives (fuel + 1) flags)
      (alternatives fuel' flags) := by
  cases fuel' with
  | zero => intro s s' _ p p' t t' _ h'; cases h'
  | succ fuel' =>
    rw [alternatives, alternatives]
    intro s s' hs p p' t t' h h' hend
    obtain ⟨first, u, hfirst, h⟩ := run_bind_eq_ok.1 h
    obtain ⟨first', u', hfirst', h'⟩ := run_bind_eq_ok.1 h'
    obtain ⟨more, v, hbar, h⟩ := run_bind_eq_ok.1 h
    obtain ⟨more', v', hbar', h'⟩ := run_bind_eq_ok.1 h'
    have hne : u.rest ≠ [] := by
      intro hu
      obtain ⟨hmore, hv⟩ := rest_eq_nil_of_run_accept hbar hu
      rw [hmore, hv] at h
      cases h
      exact hend trivial hu
    obtain ⟨hp, hu⟩ := ih.sequence fuel' flags [] [] .nil s s' hs _ _ _ _ hfirst hfirst' fun _ => hne
    obtain ⟨rfl, hv⟩ := (accept_takesAt hu.rest (Or.inr hne)).besideAt hu _ _ _ _ hbar hbar'
    cases more with
    | false =>
      cases h
      cases h'
      exact ⟨hp, hv⟩
    | true =>
      obtain ⟨q, w, hq, h⟩ := run_bind_eq_ok.1 h
      obtain ⟨q', w', hq', h'⟩ := run_bind_eq_ok.1 h'
      cases h
      cases h'
      obtain ⟨hq, hw⟩ := ih.alternatives fuel' flags v v' hv q q' t t' hq hq' hend
      exact ⟨hp.alt hq, hw⟩

theorem sequence_besideWithin {fuel fuel' : Nat} (ih : KeepsBeside around fuel) (flags : Flags)
    {done done' : List PatternItem} (hdone : List.Forall₂ (PatternItem.Beside around) done done') :
    BesideWithin around flags.verbose (Pattern.Beside around) (sequence (fuel + 1) flags done)
      (sequence fuel' flags done') := by
  have hsequence := Pattern.Beside.ofItems hdone
  cases fuel' with
  | zero => intro s s' _ p p' t t' _ h'; cases h'
  | succ fuel' =>
    rw [sequence, sequence]
    intro s s' hs p p' t t' h h' hend
    obtain ⟨next, u, ⟨⟩, h⟩ := run_bind_eq_ok.1 h
    obtain ⟨next', u', ⟨⟩, h'⟩ := run_bind_eq_ok.1 h'
    cases hrest : s.rest with
    | nil =>
      rw [hrest] at h
      rw [hs.rest, hrest, List.map_nil, List.nil_append] at h'
      cases h
      cases hafter : around.after.head? with
      | none =>
        rw [hafter] at h'
        cases h'
        exact ⟨hsequence, hs⟩
      | some bar =>
        rw [hafter] at h'
        dsimp only at h'
        rw [PatternToken.isOneOf_of_bar (around.bar bar hafter)] at h'
        cases h'
        exact ⟨hsequence, hs⟩
    | cons token rest =>
      rw [hrest] at h
      rw [hs.rest, hrest, List.map_cons, List.cons_append] at h'
      dsimp only [List.head?_cons] at h h'
      rw [PatternToken.isOneOf_moved] at h'
      split at h
      next hstop =>
        rw [if_pos hstop] at h'
        cases h
        cases h'
        exact ⟨hsequence, hs⟩
      next hgo =>
        rw [if_neg hgo] at h'
        obtain ⟨_, v, htake, h⟩ := run_bind_eq_ok.1 h
        obtain ⟨_, v', htake', h'⟩ := run_bind_eq_ok.1 h'
        cases htake
        cases htake'
        obtain ⟨items, w, hitem, h⟩ := run_bind_eq_ok.1 h
        obtain ⟨items', w', hitem', h'⟩ := run_bind_eq_ok.1 h'
        have hnamed : refersByName (token :: s.rest.tail) := by
          have := hs.byName
          rw [hrest] at this ⊢
          exact this
        obtain ⟨hitems, hw⟩ := ih.item fuel' flags token done done' _ _ (hs.tail hrest).2 hnamed hdone
          _ _ _ _ hitem hitem' fun hverbose hend' =>
            hend hverbose (rest_eq_nil_of_run_sequence h hend')
        exact ih.sequence fuel' flags items items' hitems w w' hw _ _ _ _ h h' hend

theorem newGroup_beside {fuel fuel' : Nat} (ih : KeepsBeside around fuel) (flags : Flags)
    {done done' : List PatternItem} (hdone : List.Forall₂ (PatternItem.Beside around) done done')
    {name : Option String} {pos pos' : Nat} :
    Beside around (List.Forall₂ (PatternItem.Beside around)) (newGroup fuel flags done name pos)
      (newGroup fuel' flags done' name pos') := by
  refine openGroup_beside.bind ?_
  rintro index _ ⟨hindex, rfl⟩
  exact (ih.captured fuel' flags index hindex).bind fun _ _ hitem => .pure (.cons hitem hdone)

theorem parenthesis_besideAt {fuel fuel' : Nat} (ih : KeepsBeside around fuel) (flags : Flags)
    {done done' : List PatternItem} (hdone : List.Forall₂ (PatternItem.Beside around) done done')
    {pos pos' : Nat} (hs : Reading.Beside around s s') (hasks : asksByName ⟨pos, '(', false⟩ s.rest) :
    BesideAt around s s' (List.Forall₂ (PatternItem.Beside around)) (parenthesis fuel flags done pos)
      (parenthesis fuel' flags done' pos') := by
  intro a b t t' h h'
  obtain ⟨marked, u, haccept, h⟩ := run_bind_eq_ok.1 h
  obtain ⟨marked', u', haccept', h'⟩ := run_bind_eq_ok.1 h'
  obtain ⟨rfl, hu⟩ := (accept_takes (by decide)).beside s s' hs _ _ _ _ haccept haccept'
  cases marked with
  | false => exact newGroup_beside ih flags hdone u u' hu a b t t' h h'
  | true =>
    obtain ⟨mark, rest, hrest, hmark, rfl⟩ := run_accept_true haccept
    rw [hrest, asksByName, hmark] at hasks
    exact ih.extended fuel' flags _ _ done done' _ u' hu hasks hdone a b t t' h h'

theorem item_besideWithinAt {fuel fuel' : Nat} (ih : KeepsBeside around fuel) (flags : Flags)
    {token : PatternToken} {done done' : List PatternItem} (hs : Reading.Beside around s s')
    (hnamed : refersByName (token :: s.rest))
    (hdone : List.Forall₂ (PatternItem.Beside around) done done') :
    BesideWithinAt around flags.verbose s s' (List.Forall₂ (PatternItem.Beside around))
      (item (fuel + 1) flags token done) (item fuel' flags (token.moved around.offset) done') := by
  obtain ⟨hnumbered, hasks, -⟩ := refersByName_cons_iff.1 hnamed
  have hchar (set : CharSet) : List.Forall₂ (PatternItem.Beside around)
      (⟨.char set, .other⟩ :: done) (⟨.char set, .other⟩ :: done') :=
    .cons ⟨.char set, rfl⟩ hdone
  have hanchor (place : Anchor) : List.Forall₂ (PatternItem.Beside around)
      (⟨.anchor place, .place⟩ :: done) (⟨.anchor place, .place⟩ :: done') :=
    .cons ⟨.anchor place, rfl⟩ hdone
  cases fuel' with
  | zero => intro a b t t' _ h'; cases h'
  | succ fuel' =>
    obtain ⟨pos, c, escaped⟩ := token
    rw [PatternToken.moved, item, item]
    dsimp only
    cases escaped with
    | true =>
      refine BesideAt.within ((escape_takes flags rfl hnumbered rfl).beside.bind ?_ s s' hs)
      rintro _ _ (n | category | place)
      · exact .pure (hchar _)
      · exact .pure (hchar _)
      · exact .pure (hanchor _)
    | false =>
    rw [if_neg Bool.false_ne_true, if_neg Bool.false_ne_true]
    by_cases hblank : flags.verbose && skippedBlanks.contains c
    · rw [if_pos hblank, if_pos hblank]
      exact BesideAt.within (.pure hs hdone)
    rw [if_neg hblank, if_neg hblank]
    by_cases hcomment : flags.verbose && c = '#'
    · rw [if_pos hcomment, if_pos hcomment]
      have hverbose : flags.verbose := (Bool.and_eq_true_iff.1 hcomment).1
      intro a b t t' h h' hend
      obtain ⟨_, u, hskip, ⟨⟩⟩ := run_bind_eq_ok.1 h
      obtain ⟨_, u', hskip', ⟨⟩⟩ := run_bind_eq_ok.1 h'
      have hnot : afterMark '\n' s.rest ≠ [] := by
        cases hskip
        exact hend hverbose
      obtain ⟨-, ht⟩ := (skipLine_takesAt hs.rest hnot).besideAt hs _ _ _ _ hskip hskip'
      exact ⟨hdone, ht⟩
    rw [if_neg hcomment, if_neg hcomment]
    refine BesideAt.within ?_
    split
    · refine (charSet_takes flags).beside.bind (fun set _ hset => ?_) s s' hs
      subst hset
      exact .pure (hchar set)
    · exact .pure hs (hchar _)
    · exact .pure hs (hanchor _)
    · exact .pure hs (hanchor _)
    · exact parenthesis_besideAt ih flags hdone hs hasks
    · split
      · refine (repeatBounds_takes _).beside.bind (fun bounds _ hbounds => ?_) s s' hs
        subst hbounds
        split
        · exact (repeatLast_takes hdone).beside
        · exact .pure (hchar _)
      · exact .pure hs (hchar _)

theorem namedItem_beside {fuel fuel' : Nat} (ih : KeepsBeside around fuel) (flags : Flags)
    {done done' : List PatternItem} (hdone : List.Forall₂ (PatternItem.Beside around) done done') :
    Beside around (List.Forall₂ (PatternItem.Beside around)) (namedItem fuel flags done)
      (namedItem fuel' flags done') := by
  refine (accept_takes (by decide)).beside.bind ?_
  rintro named _ rfl
  split
  · refine position_takes.beside.bind fun _ _ _ => ?_
    refine (groupName_takes (by decide)).beside.bind ?_
    rintro name _ rfl
    exact newGroup_beside ih flags hdone
  · refine (expect_takes (by decide)).beside.bind fun _ _ _ => ?_
    refine position_takes.beside.bind fun _ _ _ => ?_
    refine (groupName_takes (by decide)).beside.bind ?_
    rintro name _ rfl
    refine (namedGroup_beside name).bind ?_
    rintro index _ ⟨hindex, rfl⟩
    refine (reference_beside hindex _ _).bind ?_
    rintro index _ ⟨hindex, rfl⟩
    exact .pure (.cons ⟨.backref _ hindex, rfl⟩ hdone)

theorem behindItem_beside {fuel fuel' : Nat} (ih : KeepsBeside around fuel) (flags : Flags)
    {done done' : List PatternItem} (hdone : List.Forall₂ (PatternItem.Beside around) done done')
    (negated : Bool) :
    Beside around (List.Forall₂ (PatternItem.Beside around)) (behindItem fuel flags done negated)
      (behindItem fuel' flags done' negated) := by
  intro s s' hs
  refine BesideAt.get_bind (BesideAt.modify_bind { hs with } ?_)
  refine (ih.alternatives fuel' flags).bind ?_ ?_
  · intro _ s r h
    obtain ⟨_, t, ⟨⟩, h⟩ := run_bind_eq_ok.1 h
    have hne := rest_ne_nil_of_expect_bind h
    exact hne
  · intro p p' hp u u' hu _
    refine BesideAt.modify_bind { hu with } ?_
    refine (expect_takes (by decide)).beside.bind fun _ _ _ => ?_
    exact (lookBehind_beside hp).bind fun _ _ hp => .pure (.cons ⟨hp, rfl⟩ hdone)

/-- A bar or a closing parenthesis is needed after the first branch of a condition. -/
theorem rest_ne_nil_of_run_branch {k : Pattern → ReadM γ} {r : γ × Reading} {m : ReadM Pattern}
    (h : StateT.run (do
      let whenUnset ← if ← accept '|' then m else pure .empty
      expect ')'
      k whenUnset) s = .ok r) : s.rest ≠ [] := by
  intro hend
  obtain ⟨more, t, haccept, h⟩ := run_bind_eq_ok.1 h
  obtain ⟨hmore, ht⟩ := rest_eq_nil_of_run_accept haccept hend
  rw [hmore, ht] at h
  obtain ⟨_, u, ⟨⟩, h⟩ := run_bind_eq_ok.1 h
  exact rest_ne_nil_of_expect_bind h hend

theorem branches_beside {fuel fuel' : Nat} (ih : KeepsBeside around fuel) (flags : Flags)
    {done done' : List PatternItem} (hdone : List.Forall₂ (PatternItem.Beside around) done done')
    (index : Nat) :
    Beside around (List.Forall₂ (PatternItem.Beside around)) (branches fuel flags done index)
      (branches fuel' flags done' (index + around.groups.length)) := by
  have hclose {p p' : Pattern} (hp : Pattern.Beside around p p') :
      ∀ q q', Pattern.Beside around q q' → Beside around (List.Forall₂ (PatternItem.Beside around))
        (do expect ')'; return ⟨.ifGroup index p q, .other⟩ :: done)
        (do expect ')'; return ⟨.ifGroup (index + around.groups.length) p' q', .other⟩ :: done') :=
    fun q q' hq => (expect_takes (by decide)).beside.bind
      fun _ _ _ => .pure (.cons ⟨hp.ifGroup hq index, rfl⟩ hdone)
  refine (ih.sequence fuel' flags [] [] .nil).bind (fun _ _ _ => rest_ne_nil_of_run_branch) ?_
  intro p p' hp u u' hu hne
  refine ((accept_takesAt hu.rest (Or.inr hne)).besideAt hu).bind ?_
  rintro more _ rfl
  cases more with
  | true =>
    exact (ih.sequence fuel' flags [] [] .nil).bind (fun _ _ _ => rest_ne_nil_of_expect_bind)
      fun q q' hq v v' hv _ => hclose hp q q' hq v v' hv
  | false => exact (Beside.pure .empty).bind (hclose hp)

theorem extended_besideAt {fuel fuel' : Nat} (ih : KeepsBeside around fuel) (flags : Flags)
    {start start' : Nat} {done done' : List PatternItem} (hs : Reading.Beside around s s')
    (hnamed : namesCondition s.rest)
    (hdone : List.Forall₂ (PatternItem.Beside around) done done') :
    BesideAt around s s' (List.Forall₂ (PatternItem.Beside around))
      (extended (fuel + 1) flags start done) (extended fuel' flags start' done') := by
  cases fuel' with
  | zero => exact .throwRight _
  | succ fuel' =>
    rw [extended_succ, extended_succ]
    refine takeSome_bind_besideAt hs fun mark rest hrest => ?_
    have hrestSuffix : rest <:+ s.rest := by
      rw [hrest]
      exact List.suffix_cons mark rest
    have hu := hs.withRest hrestSuffix
    obtain ⟨pos, c, escaped⟩ := mark
    rw [PatternToken.moved]
    dsimp only
    cases escaped with
    | true => exact .throwLeft _
    | false =>
      rw [if_neg Bool.false_ne_true, if_neg Bool.false_ne_true]
      have hbody (flags : Flags) {f : Pattern → Pattern}
          (hf : ∀ p p', Pattern.Beside around p p' → Pattern.Beside around (f p) (f p')) :
          Beside around (List.Forall₂ (PatternItem.Beside around))
            (do return ⟨f (← enclosed fuel flags), .other⟩ :: done)
            (do return ⟨f (← enclosed fuel' flags), .other⟩ :: done') :=
        (enclosed_beside ih flags).bind fun p p' hp => .pure (.cons ⟨hf p p' hp, rfl⟩ hdone)
      split
      · exact namedItem_beside ih flags hdone _ _ hu
      · exact hbody flags (fun p p' hp => hp) _ _ hu
      · exact skipComment_takes.beside.bind (fun _ _ _ => .pure hdone) _ _ hu
      · exact hbody flags (fun p p' hp => hp.lookAhead false) _ _ hu
      · exact hbody flags (fun p p' hp => hp.lookAhead true) _ _ hu
      · refine takeSome_takes.beside.bind ?_ _ _ hu
        rintro sign _ rfl
        rw [PatternToken.isOneOf_moved, PatternToken.is_moved]
        split
        · exact behindItem_beside ih flags hdone _
        · exact .throwLeft _
      · rw [hrest] at hnamed
        refine (condition_besideAt hu hnamed).bind ?_
        rintro index _ ⟨-, rfl⟩
        exact branches_beside ih flags hdone index
      · exact hbody flags (fun p p' hp => hp.atomic) _ _ hu
      · refine BesideAt.modify_bind (?_ : Reading.Beside around _ _) ?_
        · have := hs.withRest (List.suffix_rfl)
          rw [hrest] at this
          exact this
        · refine flagGroup_takes.beside.bind ?_
          rintro flag _ rfl
          split
          · exact .throwLeft _
          · exact hbody _ fun p p' hp => hp

/-- All productions keep two readings side by side. -/
theorem keepsBeside (around : Surroundings) (fuel : Nat) : KeepsBeside around fuel := by
  induction fuel with
  | zero =>
    exact
      { alternatives := fun _ _ _ _ _ => nofun
        sequence := fun _ _ _ _ _ _ _ _ => nofun
        item := fun _ _ _ _ _ _ _ _ _ _ => nofun
        captured := fun _ _ _ _ _ _ _ => nofun
        extended := fun _ _ _ _ _ _ _ _ _ _ _ => nofun }
  | succ fuel ih =>
    exact
      { alternatives := fun fuel' flags => alternatives_besideWithin ih flags
        sequence := fun fuel' flags _ _ hdone => sequence_besideWithin ih flags hdone
        item := fun fuel' flags _ _ _ _ _ hs hnamed hdone => item_besideWithinAt ih flags hs hnamed hdone
        captured := fun fuel' flags _ hindex => captured_beside ih flags hindex
        extended := fun fuel' flags _ _ _ _ _ _ hs hnamed hdone =>
          extended_besideAt ih flags hs hnamed hdone }

end ReadM

end Precedence
