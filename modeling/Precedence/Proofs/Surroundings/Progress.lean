import Mathlib
import Precedence.Proofs.Surroundings.Following

/-!
# Patterns are read among others

What the grammar reads by itself it reads among others, if it may take as many steps there.

## Main definitions

- `ReadM.KeepsUp` — all productions of the grammar follow

## Main statements

- `ReadM.keepsUp` — they do, if they may take as many steps
-/

namespace Precedence

variable {around : Surroundings}

namespace ReadM

variable {α γ δ : Type} {W : γ → δ → Prop} {s s' : Reading} {guard : Prop} {fuel fuel' : Nat}

/-- All productions that take at most `fuel` steps are followed by those that may take more. -/
structure KeepsUp (around : Surroundings) (fuel : Nat) : Prop where
  alternatives : ∀ fuel' flags, fuel ≤ fuel' →
    FollowsWithin around True (Pattern.Beside around) (alternatives fuel flags)
      (ReadM.alternatives fuel' flags)
  sequence : ∀ fuel' flags done done', fuel ≤ fuel' →
    List.Forall₂ (PatternItem.Beside around) done done' →
    FollowsWithin around flags.verbose (Pattern.Beside around) (sequence fuel flags done)
      (ReadM.sequence fuel' flags done')
  item : ∀ fuel' flags token done done' s s', fuel ≤ fuel' → Reading.Near around s s' →
    refersByName (token :: s.rest) → List.Forall₂ (PatternItem.Beside around) done done' →
    FollowsWithinAt around flags.verbose s s' (List.Forall₂ (PatternItem.Beside around))
      (item fuel flags token done) (ReadM.item fuel' flags (token.moved around.offset) done')
  captured : ∀ fuel' flags index, fuel ≤ fuel' → 0 < index →
    FollowsWithin around False (PatternItem.Beside around) (captured fuel flags index)
      (ReadM.captured fuel' flags (index + around.groups.length))
  extended : ∀ fuel' flags start start' done done' s s', fuel ≤ fuel' → Reading.Near around s s' →
    namesCondition s.rest → List.Forall₂ (PatternItem.Beside around) done done' →
    FollowsWithinAt around False s s' (List.Forall₂ (PatternItem.Beside around))
      (extended fuel flags start done) (ReadM.extended fuel' flags start' done')

/-- The text in parentheses, and what is made of it. -/
theorem enclosed_bind_followsWithin (ih : KeepsUp around fuel) (hfuel : fuel ≤ fuel') (flags : Flags)
    {k : Pattern → ReadM γ} {k' : Pattern → ReadM δ} (hkeeps : ∀ p, Keeps (k p))
    (hk : ∀ p p', Pattern.Beside around p p' → FollowsWithin around guard W (k p) (k' p')) :
    FollowsWithin around guard W (do let body ← alternatives fuel flags; expect ')'; k body)
      (do let body ← alternatives fuel' flags; expect ')'; k' body) := by
  refine (ih.alternatives fuel' flags hfuel).bind (fun _ _ _ _ => rest_ne_nil_of_expect_bind)
    (fun p => ((expect_takes (by decide)).keeps.bind fun _ => hkeeps p).names) ?_
  intro p p' hp s s' hs _
  exact (expect_takes (by decide)).follows.bindWithin (fun _ _ _ => hk p p' hp) s s' hs

theorem enclosed_followsWithin (ih : KeepsUp around fuel) (hfuel : fuel ≤ fuel') (flags : Flags) :
    FollowsWithin around False (Pattern.Beside around) (enclosed fuel flags) (enclosed fuel' flags) :=
  enclosed_bind_followsWithin ih hfuel flags (fun p => .pure p) fun _ _ hp => (Follows.pure hp).within

theorem captured_followsWithin (ih : KeepsUp around fuel) (hfuel : fuel ≤ fuel') (flags : Flags)
    {index : Nat} (hindex : 0 < index) :
    FollowsWithin around False (PatternItem.Beside around) (captured (fuel + 1) flags index)
      (captured (fuel' + 1) flags (index + around.groups.length)) := by
  rw [captured, captured]
  refine enclosed_bind_followsWithin ih hfuel flags (fun p => Keeps.get.bind fun _ => ?_)
    fun p p' hp => Follows.within fun s s' hs => FollowsAt.get_bind ?_
  · exact Keeps.bind (.modify fun _ => .of_eq rfl rfl) fun _ => .pure _
  · refine (closeGroup_follows hindex ?_).bind ?_ s s' hs
    · exact hp.width _ _ fun index hindex => by rw [hs.groups, widthOf_append hindex]
    · intro _ _ _
      exact .pure ⟨hp.group index, rfl⟩

theorem alternatives_followsWithin (ih : KeepsUp around fuel) (hfuel : fuel ≤ fuel')
    (flags : Flags) :
    FollowsWithin around True (Pattern.Beside around) (alternatives (fuel + 1) flags)
      (alternatives (fuel' + 1) flags) := by
  rw [alternatives, alternatives]
  intro s s' hs p t h hapart hend
  obtain ⟨first, u, hfirst, h⟩ := run_bind_eq_ok.1 h
  obtain ⟨more, v, hbar, h⟩ := run_bind_eq_ok.1 h
  have hne : u.rest ≠ [] := by
    intro hu
    obtain ⟨hmore, hv⟩ := rest_eq_nil_of_run_accept hbar hu
    rw [hmore, hv] at h
    cases h
    exact hend trivial hu
  have hkept : Reading.Kept v t := by
    cases more with
    | false =>
      cases h
      exact .of_eq rfl rfl
    | true => exact ((keepsAll fuel).alternatives flags).bind (fun _ => .pure _) v p t h
  obtain ⟨first', u', hp, hu, hfirst'⟩ := ih.sequence fuel' flags [] [] hfuel .nil s s' hs first u
    hfirst (hapart.of_prefix ((accept_keeps '|' u more v hbar).trans hkept).names) fun _ => hne
  obtain ⟨_, v', rfl, hv, hbar'⟩ :=
    (accept_takesAt hu.rest (Or.inr hne)).followsAt hu more v hbar
  cases more with
  | false =>
    cases h
    exact ⟨first', v', hp, hv, run_bind_eq_ok.2 ⟨_, _, hfirst', run_bind_eq_ok.2 ⟨_, _, hbar', rfl⟩⟩⟩
  | true =>
    obtain ⟨q, w, hq, ⟨⟩⟩ := run_bind_eq_ok.1 h
    obtain ⟨q', t', hq, ht, hrun'⟩ := ih.alternatives fuel' flags hfuel v v' hv q t hq hapart hend
    exact ⟨_, t', hp.alt hq, ht, run_bind_eq_ok.2 ⟨_, _, hfirst', run_bind_eq_ok.2 ⟨_, _, hbar',
      run_bind_eq_ok.2 ⟨_, _, hrun', rfl⟩⟩⟩⟩

theorem sequence_followsWithin (ih : KeepsUp around fuel) (hfuel : fuel ≤ fuel') (flags : Flags)
    {done done' : List PatternItem} (hdone : List.Forall₂ (PatternItem.Beside around) done done') :
    FollowsWithin around flags.verbose (Pattern.Beside around) (sequence (fuel + 1) flags done)
      (sequence (fuel' + 1) flags done') := by
  have hsequence := Pattern.Beside.ofItems hdone
  rw [sequence, sequence]
  intro s s' hs p t h hapart hend
  obtain ⟨next, _, ⟨⟩, h⟩ := run_bind_eq_ok.1 h
  cases hrest : s.rest with
  | nil =>
    rw [hrest] at h
    cases h
    refine ⟨_, s', hsequence, hs, run_bind_eq_ok.2 ⟨_, _, rfl, ?_⟩⟩
    rw [hs.rest, hrest, List.map_nil, List.nil_append]
    cases hafter : around.after.head? with
    | none => rfl
    | some bar =>
      dsimp only
      rw [PatternToken.isOneOf_of_bar (around.bar bar hafter)]
      rfl
  | cons token rest =>
    obtain ⟨hhead, hu⟩ := hs.tail hrest
    rw [hrest, List.head?_cons] at h
    dsimp only at h
    split at h
    next hstop =>
      cases h
      refine ⟨_, s', hsequence, hs, run_bind_eq_ok.2 ⟨_, _, rfl, ?_⟩⟩
      rw [hhead]
      dsimp only
      rw [PatternToken.isOneOf_moved, if_pos hstop]
      rfl
    next hgo =>
      obtain ⟨_, v, ⟨⟩, h⟩ := run_bind_eq_ok.1 h
      obtain ⟨items, w, hitem, h⟩ := run_bind_eq_ok.1 h
      have hnamed : refersByName (token :: s.rest.tail) := by
        have := hs.byName
        rw [hrest] at this ⊢
        exact this
      have hnames := ((keepsAll fuel).sequence flags items w p t h).names
      obtain ⟨items', w', hitems, hw, hitem'⟩ := ih.item fuel' flags token done done' _ _ hfuel hu
        hnamed hdone items w hitem (hapart.of_prefix hnames) fun hverbose hnil =>
          hend hverbose (rest_eq_nil_of_run_sequence h hnil)
      obtain ⟨p', t', hp, ht, h'⟩ :=
        ih.sequence fuel' flags items items' hfuel hitems w w' hw p t h hapart hend
      refine ⟨p', t', hp, ht, run_bind_eq_ok.2 ⟨_, _, rfl, ?_⟩⟩
      rw [hhead]
      dsimp only
      rw [PatternToken.isOneOf_moved, if_neg hgo]
      exact run_bind_eq_ok.2 ⟨_, _, rfl, run_bind_eq_ok.2 ⟨_, _, hitem', h'⟩⟩

theorem newGroup_followsWithin (ih : KeepsUp around fuel) (hfuel : fuel ≤ fuel') (flags : Flags)
    {done done' : List PatternItem} (hdone : List.Forall₂ (PatternItem.Beside around) done done')
    {name : Option String} {pos pos' : Nat} :
    FollowsWithin around False (List.Forall₂ (PatternItem.Beside around))
      (newGroup fuel flags done name pos) (newGroup fuel' flags done' name pos') := by
  refine openGroup_followsWithin.bind False.elim
    (fun _ => (((keepsAll fuel).captured flags _).bind fun _ => .pure _).names) ?_
  rintro index _ ⟨hindex, rfl⟩ s s' hs _
  exact (ih.captured fuel' flags index hfuel hindex).map (fun _ _ hitem => .cons hitem hdone) s s' hs

theorem parenthesis_followsWithinAt (ih : KeepsUp around fuel) (hfuel : fuel ≤ fuel')
    (flags : Flags) {done done' : List PatternItem}
    (hdone : List.Forall₂ (PatternItem.Beside around) done done') {pos pos' : Nat}
    (hs : Reading.Near around s s') (hasks : asksByName ⟨pos, '(', false⟩ s.rest) :
    FollowsWithinAt around guard s s' (List.Forall₂ (PatternItem.Beside around))
      (parenthesis fuel flags done pos) (parenthesis fuel' flags done' pos') := by
  intro a t h hapart _
  obtain ⟨marked, u, haccept, h⟩ := run_bind_eq_ok.1 h
  obtain ⟨_, u', rfl, hu, haccept'⟩ := (accept_takes (by decide)).follows s s' hs _ _ haccept
  cases marked with
  | false =>
    obtain ⟨b, t', hb, ht, h'⟩ :=
      newGroup_followsWithin ih hfuel flags hdone u u' hu a t h hapart False.elim
    exact ⟨b, t', hb, ht, run_bind_eq_ok.2 ⟨_, _, haccept', h'⟩⟩
  | true =>
    obtain ⟨mark, rest, hrest, hmark, rfl⟩ := run_accept_true haccept
    rw [hrest, asksByName, hmark] at hasks
    obtain ⟨b, t', hb, ht, h'⟩ :=
      ih.extended fuel' flags pos pos' done done' _ u' hfuel hu hasks hdone a t h hapart False.elim
    exact ⟨b, t', hb, ht, run_bind_eq_ok.2 ⟨_, _, haccept', h'⟩⟩

theorem item_followsWithinAt (ih : KeepsUp around fuel) (hfuel : fuel ≤ fuel') (flags : Flags)
    {token : PatternToken} {done done' : List PatternItem} (hs : Reading.Near around s s')
    (hnamed : refersByName (token :: s.rest))
    (hdone : List.Forall₂ (PatternItem.Beside around) done done') :
    FollowsWithinAt around flags.verbose s s' (List.Forall₂ (PatternItem.Beside around))
      (item (fuel + 1) flags token done)
      (item (fuel' + 1) flags (token.moved around.offset) done') := by
  obtain ⟨hnumbered, hasks, -⟩ := refersByName_cons_iff.1 hnamed
  have hchar (set : CharSet) : List.Forall₂ (PatternItem.Beside around)
      (⟨.char set, .other⟩ :: done) (⟨.char set, .other⟩ :: done') :=
    .cons ⟨.char set, rfl⟩ hdone
  have hanchor (place : Anchor) : List.Forall₂ (PatternItem.Beside around)
      (⟨.anchor place, .place⟩ :: done) (⟨.anchor place, .place⟩ :: done') :=
    .cons ⟨.anchor place, rfl⟩ hdone
  obtain ⟨pos, c, escaped⟩ := token
  rw [PatternToken.moved, item, item]
  dsimp only
  cases escaped with
  | true =>
    refine FollowsAt.within ((escape_takes flags rfl hnumbered rfl).follows.bind ?_ s s' hs)
    rintro _ _ (n | category | place)
    · exact .pure (hchar _)
    · exact .pure (hchar _)
    · exact .pure (hanchor _)
  | false =>
  rw [if_neg Bool.false_ne_true, if_neg Bool.false_ne_true]
  by_cases hblank : flags.verbose && skippedBlanks.contains c
  · rw [if_pos hblank, if_pos hblank]
    exact FollowsAt.within (.pure hs hdone)
  rw [if_neg hblank, if_neg hblank]
  by_cases hcomment : flags.verbose && c = '#'
  · rw [if_pos hcomment, if_pos hcomment]
    have hverbose : flags.verbose := (Bool.and_eq_true_iff.1 hcomment).1
    intro a t h _ hend
    obtain ⟨_, u, hskip, ⟨⟩⟩ := run_bind_eq_ok.1 h
    have hnot : afterMark '\n' s.rest ≠ [] := by
      cases hskip
      exact hend hverbose
    obtain ⟨_, t', rfl, ht, hskip'⟩ := (skipLine_takesAt hs.rest hnot).followsAt hs _ _ hskip
    exact ⟨done', t', hdone, ht, run_bind_eq_ok.2 ⟨_, _, hskip', rfl⟩⟩
  rw [if_neg hcomment, if_neg hcomment]
  split
  · refine FollowsAt.within ((charSet_takes flags).follows.bind (fun set _ hset => ?_) s s' hs)
    subst hset
    exact .pure (hchar set)
  · exact FollowsAt.within (.pure hs (hchar _))
  · exact FollowsAt.within (.pure hs (hanchor _))
  · exact FollowsAt.within (.pure hs (hanchor _))
  · exact parenthesis_followsWithinAt ih hfuel flags hdone hs hasks
  · refine FollowsAt.within ?_
    split
    · refine (repeatBounds_takes _).follows.bind (fun bounds _ hbounds => ?_) s s' hs
      subst hbounds
      split
      · exact (repeatLast_takes hdone).follows
      · exact .pure (hchar _)
    · exact .pure hs (hchar _)

theorem namedItem_followsWithin (ih : KeepsUp around fuel) (hfuel : fuel ≤ fuel') (flags : Flags)
    {done done' : List PatternItem} (hdone : List.Forall₂ (PatternItem.Beside around) done done') :
    FollowsWithin around False (List.Forall₂ (PatternItem.Beside around)) (namedItem fuel flags done)
      (namedItem fuel' flags done') := by
  refine (accept_takes (by decide)).follows.bindWithin ?_
  rintro named _ rfl
  split
  · refine position_takes.follows.bindWithin fun _ _ _ => ?_
    refine (groupName_takes (by decide)).follows.bindWithin ?_
    rintro name _ rfl
    exact newGroup_followsWithin ih hfuel flags hdone
  · refine Follows.within ((expect_takes (by decide)).follows.bind fun _ _ _ => ?_)
    refine position_takes.follows.bind fun _ _ _ => ?_
    refine (groupName_takes (by decide)).follows.bind ?_
    rintro name _ rfl
    refine (namedGroup_follows name).bind ?_
    rintro index _ ⟨hindex, rfl⟩
    refine (reference_follows hindex _ _).bind ?_
    rintro index _ ⟨hindex, rfl⟩
    exact .pure (.cons ⟨.backref _ hindex, rfl⟩ hdone)

theorem behindItem_followsWithin (ih : KeepsUp around fuel) (hfuel : fuel ≤ fuel') (flags : Flags)
    {done done' : List PatternItem} (hdone : List.Forall₂ (PatternItem.Beside around) done done')
    (negated : Bool) :
    FollowsWithin around False (List.Forall₂ (PatternItem.Beside around))
      (behindItem fuel flags done negated) (behindItem fuel' flags done' negated) := by
  intro s s' hs
  refine FollowsWithinAt.get_bind (FollowsWithinAt.modify_bind hs.openBehind ?_)
  refine (ih.alternatives fuel' flags hfuel).bind ?_ (fun p => ?_) ?_
  · intro _ _ s r h
    obtain ⟨_, t, ⟨⟩, h⟩ := run_bind_eq_ok.1 h
    have hne := rest_ne_nil_of_expect_bind h
    exact hne
  · intro s c t h
    obtain ⟨_, u, ⟨⟩, h⟩ := run_bind_eq_ok.1 h
    have hnames := ((expect_takes (by decide)).keeps.bind
      fun _ => (lookBehind_keeps _ p).bind fun _ => .pure _).names _ c t h
    exact hnames
  · intro p p' hp u u' hu _
    refine FollowsWithinAt.modify_bind { hu with behind := hs.behind } (Follows.within ?_)
    refine (expect_takes (by decide)).follows.bind fun _ _ _ => ?_
    exact (lookBehind_follows hp).bind fun _ _ hp => .pure (.cons ⟨hp, rfl⟩ hdone)

theorem branches_followsWithin (ih : KeepsUp around fuel) (hfuel : fuel ≤ fuel') (flags : Flags)
    {done done' : List PatternItem} (hdone : List.Forall₂ (PatternItem.Beside around) done done')
    (index : Nat) :
    FollowsWithin around False (List.Forall₂ (PatternItem.Beside around))
      (branches fuel flags done index)
      (branches fuel' flags done' (index + around.groups.length)) := by
  have hclose {p p' : Pattern} (hp : Pattern.Beside around p p') : ∀ q q', Pattern.Beside around q q' →
      Follows around (List.Forall₂ (PatternItem.Beside around))
        (do expect ')'; return ⟨.ifGroup index p q, .other⟩ :: done)
        (do expect ')'; return ⟨.ifGroup (index + around.groups.length) p' q', .other⟩ :: done') :=
    fun q q' hq => (expect_takes (by decide)).follows.bind
      fun _ _ _ => .pure (.cons ⟨hp.ifGroup hq index, rfl⟩ hdone)
  have hsequence : FollowsWithin around True (Pattern.Beside around) (sequence fuel flags [])
      (sequence fuel' flags []) :=
    (ih.sequence fuel' flags [] [] hfuel .nil).ofImp fun _ => trivial
  refine hsequence.bind (fun _ _ _ _ => rest_ne_nil_of_run_branch)
    (fun p => (branch_keeps (keepsAll fuel) flags fun _ => .pure _).names) ?_
  intro p p' hp u u' hu hne
  refine FollowsAt.bindWithin ((accept_takesAt hu.rest (Or.inr (hne trivial))).followsAt hu) ?_
  rintro more _ rfl
  cases more with
  | true =>
    exact hsequence.bind (fun _ _ _ _ => rest_ne_nil_of_expect_bind)
      (fun q => ((expect_takes (by decide)).keeps.bind fun _ => .pure _).names)
      fun q q' hq v v' hv _ => (hclose hp q q' hq v v' hv).within
  | false => exact ((Follows.pure .empty).bind (hclose hp)).within

theorem extended_followsWithinAt (ih : KeepsUp around fuel) (hfuel : fuel ≤ fuel') (flags : Flags)
    {start start' : Nat} {done done' : List PatternItem} (hs : Reading.Near around s s')
    (hnamed : namesCondition s.rest)
    (hdone : List.Forall₂ (PatternItem.Beside around) done done') :
    FollowsWithinAt around False s s' (List.Forall₂ (PatternItem.Beside around))
      (extended (fuel + 1) flags start done) (extended (fuel' + 1) flags start' done') := by
  rw [extended_succ, extended_succ]
  refine takeSome_bind_followsWithinAt hs fun mark rest hrest => ?_
  have hu : Reading.Near around { s with rest := rest } (s'.among around rest) :=
    hs.withRest (by rw [hrest]; exact List.suffix_cons mark rest)
  obtain ⟨pos, c, escaped⟩ := mark
  rw [PatternToken.moved]
  dsimp only
  cases escaped with
  | true => intro a t h; cases h
  | false =>
  rw [if_neg Bool.false_ne_true, if_neg Bool.false_ne_true]
  have hbody (flags : Flags) {f : Pattern → Pattern}
      (hf : ∀ p p', Pattern.Beside around p p' → Pattern.Beside around (f p) (f p')) :
      FollowsWithin around False (List.Forall₂ (PatternItem.Beside around))
        (do return ⟨f (← enclosed fuel flags), .other⟩ :: done)
        (do return ⟨f (← enclosed fuel' flags), .other⟩ :: done') :=
    (enclosed_followsWithin ih hfuel flags).map fun p p' hp => .cons ⟨hf p p' hp, rfl⟩ hdone
  split
  · exact namedItem_followsWithin ih hfuel flags hdone _ _ hu
  · exact hbody flags (fun p p' hp => hp) _ _ hu
  · exact FollowsAt.within (skipComment_takes.follows.bind (fun _ _ _ => .pure hdone) _ _ hu)
  · exact hbody flags (fun p p' hp => hp.lookAhead false) _ _ hu
  · exact hbody flags (fun p p' hp => hp.lookAhead true) _ _ hu
  · refine takeSome_takes.follows.bindWithin ?_ _ _ hu
    rintro sign _ rfl
    rw [PatternToken.isOneOf_moved, PatternToken.is_moved]
    split
    · exact behindItem_followsWithin ih hfuel flags hdone _
    · intro s s' _ a t h
      cases h
  · rw [hrest] at hnamed
    refine (condition_followsAt hu hnamed).bindWithin ?_
    rintro index _ ⟨-, rfl⟩
    exact branches_followsWithin ih hfuel flags hdone index
  · exact hbody flags (fun p p' hp => hp.atomic) _ _ hu
  · refine FollowsWithinAt.modify_bind (?_ : Reading.Near around _ _) ?_
    · have := hs.withRest List.suffix_rfl
      rw [hrest] at this
      exact this
    · refine flagGroup_takes.follows.bindWithin ?_
      rintro flag _ rfl
      split
      · intro s s' _ a t h
        cases h
      · exact hbody _ fun p p' hp => hp

/-- All productions follow. -/
theorem keepsUp (around : Surroundings) (fuel : Nat) : KeepsUp around fuel := by
  induction fuel with
  | zero =>
    exact
      { alternatives := fun _ _ _ _ _ _ _ _ h => by cases h
        sequence := fun _ _ _ _ _ _ _ _ _ _ _ h => by cases h
        item := fun _ _ _ _ _ _ _ _ _ _ _ _ _ h => by cases h
        captured := fun _ _ _ _ _ _ _ _ _ _ h => by cases h
        extended := fun _ _ _ _ _ _ _ _ _ _ _ _ _ _ h => by cases h }
  | succ fuel ih =>
    have hmore {fuel' : Nat} (hfuel : fuel + 1 ≤ fuel') : ∃ n, fuel' = n + 1 ∧ fuel ≤ n :=
      ⟨fuel' - 1, by omega, by omega⟩
    constructor
    · intro fuel' flags hfuel
      obtain ⟨n, rfl, hn⟩ := hmore hfuel
      exact alternatives_followsWithin ih hn flags
    · intro fuel' flags done done' hfuel hdone
      obtain ⟨n, rfl, hn⟩ := hmore hfuel
      exact sequence_followsWithin ih hn flags hdone
    · intro fuel' flags token done done' s s' hfuel hs hnamed hdone
      obtain ⟨n, rfl, hn⟩ := hmore hfuel
      exact item_followsWithinAt ih hn flags hs hnamed hdone
    · intro fuel' flags index hfuel hindex
      obtain ⟨n, rfl, hn⟩ := hmore hfuel
      exact captured_followsWithin ih hn flags hindex
    · intro fuel' flags start start' done done' s s' hfuel hs hnamed hdone
      obtain ⟨n, rfl, hn⟩ := hmore hfuel
      exact extended_followsWithinAt ih hn flags hs hnamed hdone

end ReadM

end Precedence
