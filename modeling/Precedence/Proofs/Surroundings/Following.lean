import Mathlib
import Precedence.Proofs.Surroundings.Keeping

/-!
# Patterns that can stand among others

A pattern that is read by itself can be read among others as well, if it refers to groups by name only
and gives its groups no names that others have.

## Main definitions

- `Reading.Near` — two readings side by side, of which none is about to fail because of what others did
- `ReadM.Follows` — an action that succeeds after another one, and keeps two readings near
- `ReadM.FollowsWithin` — the same for actions that may give names, and may come to the end

## Main statements

- `ReadM.Follows.bind`, `ReadM.FollowsWithin.bind` — one action after the other
- `ReadM.openGroup_followsWithin` — a group is opened, if its name is not known among others
-/

namespace Precedence

/-- Two readings side by side whose look-behinds start at the same groups, and that have nothing to
check at the end, or the same. -/
structure Reading.Near (around : Surroundings) (s s' : Reading) : Prop
    extends Reading.Beside around s s' where
  behind : s'.behind = s.behind.map (· + around.groups.length)
  conditions : s.conditions = [] ∧ s'.conditions = []
  variableBehind : s'.variableBehind = s.variableBehind

theorem Reading.Near.withRest {around : Surroundings} {s s' : Reading} (h : Reading.Near around s s')
    {rest : List PatternToken} (hrest : rest <:+ s.rest) :
    Reading.Near around { s with rest := rest } (s'.among around rest) :=
  { h with toBeside := h.toBeside.withRest hrest }

theorem Reading.Near.tail {around : Surroundings} {s s' : Reading} (h : Reading.Near around s s')
    {token : PatternToken} {rest : List PatternToken} (hrest : s.rest = token :: rest) :
    s'.rest.head? = some (token.moved around.offset) ∧
      Reading.Near around { s with rest := s.rest.tail } { s' with rest := s'.rest.tail } :=
  (h.toBeside.tail hrest).imp_right fun htail => { h with toBeside := htail }

/-- Two readings start a look-behind, which may refer to the groups opened so far. -/
theorem Reading.Near.openBehind {around : Surroundings} {s s' : Reading}
    (h : Reading.Near around s s') :
    Reading.Near around { s with behind := some (s.behind.getD s.groups.length) }
      { s' with behind := some (s'.behind.getD s'.groups.length) } := by
  refine { h with behind := ?_ }
  change some _ = some _
  rw [h.behind, h.groups, List.length_append, Nat.add_comm around.groups.length]
  cases s.behind with
  | none => rfl
  | some opened => rfl

/-- None of some names is known before the pattern. -/
def Surroundings.Apart (around : Surroundings) (names : List (String × Nat)) : Prop :=
  ∀ entry ∈ names, around.names.lookup entry.1 = none

theorem Surroundings.Apart.of_prefix {around : Surroundings} {names names' : List (String × Nat)}
    (h : around.Apart names') (hnames : names <+: names') : around.Apart names :=
  fun entry hentry => h entry (hnames.subset hentry)

/-- If an action succeeds in a reading by itself, then so does another one among others. -/
def ReadM.FollowsAt {α β : Type} (around : Surroundings) (s s' : Reading) (V : α → β → Prop)
    (m : ReadM α) (m' : ReadM β) : Prop :=
  ∀ a t, m.run s = .ok (a, t) → ∃ b t', V a b ∧ Reading.Near around t t' ∧ m'.run s' = .ok (b, t')

/-- If an action succeeds in a reading by itself, then so does another one in a reading near it. -/
def ReadM.Follows {α β : Type} (around : Surroundings) (V : α → β → Prop) (m : ReadM α)
    (m' : ReadM β) : Prop :=
  ∀ s s', Reading.Near around s s' → FollowsAt around s s' V m m'

/-- If an action succeeds in a reading by itself, then so does another one among others, unless a name
is known there, or a condition holds and the first one comes to the end. -/
def ReadM.FollowsWithinAt {α β : Type} (around : Surroundings) (guard : Prop) (s s' : Reading)
    (V : α → β → Prop) (m : ReadM α) (m' : ReadM β) : Prop :=
  ∀ a t, m.run s = .ok (a, t) → around.Apart t.names → (guard → t.rest ≠ []) →
    ∃ b t', V a b ∧ Reading.Near around t t' ∧ m'.run s' = .ok (b, t')

/-- If an action succeeds in a reading by itself, then so does another one in a reading near it, unless
a name is known there, or a condition holds and the first one comes to the end. -/
def ReadM.FollowsWithin {α β : Type} (around : Surroundings) (guard : Prop) (V : α → β → Prop)
    (m : ReadM α) (m' : ReadM β) : Prop :=
  ∀ s s', Reading.Near around s s' → FollowsWithinAt around guard s s' V m m'

variable {around : Surroundings}

namespace ReadM

variable {α β γ δ : Type} {V : α → β → Prop} {W : γ → δ → Prop} {m : ReadM α} {m' : ReadM β}
  {k : α → ReadM γ} {k' : β → ReadM δ} {s s' : Reading} {guard guard' : Prop}

/-! ### Actions -/

theorem TakesAt.followsAt (h : TakesAt around s s' V m m') (hs : Reading.Near around s s') :
    FollowsAt around s s' V m m' := by
  intro a t hrun
  obtain ⟨b, rest, hV, hrest, rfl, hrun'⟩ := h a t hrun
  exact ⟨b, _, hV, hs.withRest hrest, hrun'⟩

theorem Takes.follows (h : Takes around V m m') : Follows around V m m' :=
  fun s s' hs => (h s s' hs.rest).followsAt hs

namespace FollowsAt

theorem pure {a : α} {b : β} (hs : Reading.Near around s s') (h : V a b) :
    FollowsAt around s s' V (Pure.pure a) (Pure.pure b) := by
  rintro _ _ ⟨⟩
  exact ⟨b, s', h, hs, rfl⟩

theorem bind (hm : FollowsAt around s s' V m m')
    (hk : ∀ a b, V a b → Follows around W (k a) (k' b)) :
    FollowsAt around s s' W (m >>= k) (m' >>= k') := by
  intro c t h
  obtain ⟨a, u, hrun, hnext⟩ := run_bind_eq_ok.1 h
  obtain ⟨b, u', hV, hu, hrun'⟩ := hm a u hrun
  obtain ⟨d, t', hW, ht, hnext'⟩ := hk a b hV u u' hu c t hnext
  exact ⟨d, t', hW, ht, run_bind_eq_ok.2 ⟨b, u', hrun', hnext'⟩⟩

theorem get_bind {k : Reading → ReadM γ} {k' : Reading → ReadM δ}
    (h : FollowsAt around s s' W (k s) (k' s')) : FollowsAt around s s' W (get >>= k) (get >>= k') := h

/-- An action that gives no names, before one that may. -/
theorem bindWithin (hm : FollowsAt around s s' V m m')
    (hk : ∀ a b, V a b → FollowsWithin around guard W (k a) (k' b)) :
    FollowsWithinAt around guard s s' W (m >>= k) (m' >>= k') := by
  intro c t h hapart hend
  obtain ⟨a, u, hrun, hnext⟩ := run_bind_eq_ok.1 h
  obtain ⟨b, u', hV, hu, hrun'⟩ := hm a u hrun
  obtain ⟨d, t', hW, ht, hnext'⟩ := hk a b hV u u' hu c t hnext hapart hend
  exact ⟨d, t', hW, ht, run_bind_eq_ok.2 ⟨b, u', hrun', hnext'⟩⟩

theorem within (hm : FollowsAt around s s' V m m') : FollowsWithinAt around guard s s' V m m' :=
  fun a t hrun _ _ => hm a t hrun

end FollowsAt

namespace Follows

theorem pure {a : α} {b : β} (h : V a b) : Follows around V (Pure.pure a) (Pure.pure b) :=
  fun _ _ hs => .pure hs h

theorem bind (hm : Follows around V m m') (hk : ∀ a b, V a b → Follows around W (k a) (k' b)) :
    Follows around W (m >>= k) (m' >>= k') :=
  fun s s' hs => (hm s s' hs).bind hk

theorem bindWithin (hm : Follows around V m m')
    (hk : ∀ a b, V a b → FollowsWithin around guard W (k a) (k' b)) :
    FollowsWithin around guard W (m >>= k) (m' >>= k') :=
  fun s s' hs => (hm s s' hs).bindWithin hk

theorem within (hm : Follows around V m m') : FollowsWithin around guard V m m' :=
  fun s s' hs => (hm s s' hs).within

end Follows

namespace FollowsWithinAt

theorem get_bind {k : Reading → ReadM γ} {k' : Reading → ReadM δ}
    (h : FollowsWithinAt around guard s s' W (k s) (k' s')) :
    FollowsWithinAt around guard s s' W (get >>= k) (get >>= k') := h

theorem modify_bind {f f' : Reading → Reading} {k : PUnit → ReadM γ} {k' : PUnit → ReadM δ}
    (hf : Reading.Near around (f s) (f' s')) (h : FollowsWithin around guard W (k ⟨⟩) (k' ⟨⟩)) :
    FollowsWithinAt around guard s s' W (modify f >>= k) (modify f' >>= k') := h (f s) (f' s') hf

end FollowsWithinAt

theorem FollowsWithin.ofImp (hm : FollowsWithin around guard V m m') (h : guard → guard') :
    FollowsWithin around guard' V m m' :=
  fun s s' hs a t hrun hapart hend => hm s s' hs a t hrun hapart fun hguard => hend (h hguard)

/-- An action that may give names and come to the end, before one that forgets no names and needs
another token. -/
theorem FollowsWithin.bind (hm : FollowsWithin around guard V m m')
    (hneeds : guard → ∀ a s r, (k a).run s = .ok r → s.rest ≠ [])
    (hnames : ∀ a s c t, (k a).run s = .ok (c, t) → s.names <+: t.names)
    (hk : ∀ a b, V a b → ∀ s s', Reading.Near around s s' → (guard → s.rest ≠ []) →
      FollowsWithinAt around guard' s s' W (k a) (k' b)) :
    FollowsWithin around guard' W (m >>= k) (m' >>= k') := by
  intro s s' hs c t h hapart hend
  obtain ⟨a, u, hrun, hnext⟩ := run_bind_eq_ok.1 h
  have hne (hguard : guard) : u.rest ≠ [] := hneeds hguard a u (c, t) hnext
  obtain ⟨b, u', hV, hu, hrun'⟩ :=
    hm s s' hs a u hrun (hapart.of_prefix (hnames a u c t hnext)) hne
  obtain ⟨d, t', hW, ht, hnext'⟩ := hk a b hV u u' hu hne c t hnext hapart hend
  exact ⟨d, t', hW, ht, run_bind_eq_ok.2 ⟨b, u', hrun', hnext'⟩⟩

theorem FollowsWithin.map {f : α → γ} {g : β → δ} (hm : FollowsWithin around guard V m m')
    (h : ∀ a b, V a b → W (f a) (g b)) :
    FollowsWithin around guard W (do return f (← m)) (do return g (← m')) := by
  intro s s' hs c t hreturn hapart hend
  obtain ⟨a, _, hrun, ⟨⟩⟩ := run_bind_eq_ok.1 hreturn
  obtain ⟨b, u', hV, hu, hrun'⟩ := hm s s' hs a t hrun hapart hend
  exact ⟨g b, u', h a b hV, hu, run_bind_eq_ok.2 ⟨b, u', hrun', rfl⟩⟩

/-- A token is taken, and what comes next knows that it was there. -/
theorem takeSome_bind_followsWithinAt {k : PatternToken → ReadM γ} {k' : PatternToken → ReadM δ}
    (hs : Reading.Near around s s')
    (hk : ∀ token rest, s.rest = token :: rest →
      FollowsWithinAt around guard { s with rest := rest } (s'.among around rest) W (k token)
        (k' (token.moved around.offset))) :
    FollowsWithinAt around guard s s' W (takeSome >>= k) (takeSome >>= k') := by
  intro c t h hapart hend
  obtain ⟨token, u, htake, hnext⟩ := run_bind_eq_ok.1 h
  obtain ⟨_, rest, rfl, -, hu, htake'⟩ := takeSome_takes s s' hs.rest token u htake
  obtain ⟨rest', hrest, rfl⟩ := run_takeSome htake
  obtain rfl : rest' = rest := congrArg Reading.rest hu
  obtain ⟨d, t', hW, ht, hnext'⟩ := hk token rest' hrest c t hnext hapart hend
  exact ⟨d, t', hW, ht, run_bind_eq_ok.2 ⟨_, _, htake', hnext'⟩⟩

/-- An action that keeps two readings side by side follows if it succeeds and changes nothing else. -/
theorem followsAt_of_beside (hm : Beside around V m m') (hs : Reading.Near around s s')
    (h : ∀ a t, m.run s = .ok (a, t) → t.behind = s.behind ∧ t.conditions = s.conditions ∧
      t.variableBehind = s.variableBehind ∧ ∃ b t', m'.run s' = .ok (b, t') ∧ t'.behind = s'.behind ∧
        t'.conditions = s'.conditions ∧ t'.variableBehind = s'.variableBehind) :
    FollowsAt around s s' V m m' := by
  intro a t hrun
  obtain ⟨hb, hc, hv, b, t', hrun', hb', hc', hv'⟩ := h a t hrun
  obtain ⟨hV, ht⟩ := hm s s' hs.toBeside a b t t' hrun hrun'
  refine ⟨b, t', hV, { ht with behind := ?_, conditions := ?_, variableBehind := ?_ }, hrun'⟩
  · rw [hb', hs.behind, hb]
  · rw [hc', hc]
    exact hs.conditions
  · rw [hv', hs.variableBehind, hv]

/-! ### Groups -/

theorem openGroup_followsWithin {name : Option String} {pos pos' : Nat} :
    FollowsWithin around guard (fun index index' => 0 < index ∧ index' = index + around.groups.length)
      (openGroup name pos) (openGroup name pos') := by
  intro s s' hs index t h hapart _
  refine followsAt_of_beside openGroup_beside hs (fun a u hrun => ?_) index t h
  cases name with
  | none =>
    cases hrun
    exact ⟨rfl, rfl, rfl, _, _, rfl, rfl, rfl, rfl⟩
  | some name =>
    obtain rfl := Prod.mk.inj (Except.ok.inj (hrun.symm.trans h)) |>.2
    obtain ⟨hnew, ⟨⟩⟩ := run_openGroup_some_iff.1 hrun
    refine ⟨rfl, rfl, rfl, _, _, run_openGroup_some_iff.2 ⟨?_, rfl⟩, rfl, rfl, rfl⟩
    have hfree : around.names.lookup name = none :=
      hapart _ (List.mem_append_right s.names (List.mem_singleton_self _))
    rw [hs.names, List.lookup_append, lookup_map_snd (· + around.groups.length), hfree, hnew]
    rfl

theorem closeGroup_follows {index : Nat} (hindex : 0 < index) {width width' : Width}
    (hwidth : width' = width) :
    Follows around Eq (closeGroup index width) (closeGroup (index + around.groups.length) width') := by
  intro s s' hs
  refine followsAt_of_beside (closeGroup_beside hindex hwidth) hs ?_
  rintro _ _ ⟨⟩
  exact ⟨rfl, rfl, rfl, _, _, rfl, rfl, rfl, rfl⟩

theorem checkBehind_follows {index : Nat} (hindex : 0 < index) (pos pos' : Nat) :
    Follows around Eq (checkBehind index pos) (checkBehind (index + around.groups.length) pos') := by
  intro s s' hs _ t h
  obtain ⟨hclosed, ⟨⟩⟩ := run_checkBehind_iff.1 h
  refine ⟨⟨⟩, s', rfl, hs, run_checkBehind_iff.2 ⟨?_, rfl⟩⟩
  intro opened hopened
  rw [hs.behind, Option.mem_map] at hopened
  obtain ⟨before, hbefore, rfl⟩ := hopened
  rw [hs.groups, getElem?_append_moved hindex]
  exact (hclosed before hbefore).imp_right (Nat.add_le_add_right · _)

theorem reference_follows {index : Nat} (hindex : 0 < index) (pos pos' : Nat) :
    Follows around (fun found found' => 0 < found ∧ found' = found + around.groups.length)
      (reference index pos) (reference (index + around.groups.length) pos') := by
  intro s s' hs found t h
  obtain ⟨-, hle, hclosed, hbehind, ⟨⟩⟩ := run_reference_iff.1 h
  refine ⟨_, s', ⟨hindex, rfl⟩, hs, run_reference_iff.2 ⟨Nat.add_pos_left hindex _, ?_, ?_, ?_, rfl⟩⟩
  · rw [hs.groups, List.length_append, Nat.add_comm]
    exact Nat.add_le_add_left hle _
  · rwa [hs.groups, getElem?_append_moved hindex]
  · obtain ⟨_, _, -, -, hbehind'⟩ := checkBehind_follows hindex pos pos' s s' hs _ _ hbehind
    obtain ⟨-, ⟨⟩⟩ := run_checkBehind_iff.1 hbehind'
    exact hbehind'

theorem namedGroup_follows (name : String) :
    Follows around (fun index index' => 0 < index ∧ index' = index + around.groups.length)
      (namedGroup name) (namedGroup name) := by
  intro s s' hs
  refine followsAt_of_beside (namedGroup_beside name) hs fun index t h => ?_
  obtain ⟨_, hlookup, ⟨⟩⟩ := run_namedGroup_iff.1 h
  have hmoved := (lookup_beside hs.toBeside hlookup).2
  exact ⟨rfl, rfl, rfl, index + around.groups.length, s', run_namedGroup_iff.2 ⟨_, hmoved, rfl⟩, rfl,
    rfl, rfl⟩

/-- A condition that asks about a group by its name asks about it among others. -/
theorem condition_followsAt (hs : Reading.Near around s s')
    (hname : isName ((before ')' s.rest).flatMap PatternToken.chars)) :
    FollowsAt around s s' (fun index index' => 0 < index ∧ index' = index + around.groups.length)
      condition condition := by
  intro index t h
  obtain ⟨name, u, htake, h⟩ := run_bind_eq_ok.1 h
  obtain ⟨_, u', rfl, hu, htake'⟩ := (takeUntil_takes (by decide)).follows s s' hs name u htake
  rw [← (run_takeUntil htake).1] at hname
  dsimp only at h
  rw [if_pos hname] at h
  have hfollows : Follows around
      (fun index index' => 0 < index ∧ index' = index + around.groups.length)
      (do
        let index ← namedGroup (String.ofList name)
        checkBehind index (← position)
        return index)
      (do
        let index ← namedGroup (String.ofList name)
        checkBehind index (← position)
        return index) := by
    refine (namedGroup_follows _).bind ?_
    rintro found _ ⟨hfound, rfl⟩
    refine position_takes.follows.bind fun _ _ _ => ?_
    exact (checkBehind_follows hfound _ _).bind fun _ _ _ => .pure ⟨hfound, rfl⟩
  obtain ⟨index', t', hindex, ht, h'⟩ := hfollows u u' hu index t h
  refine ⟨index', t', hindex, ht, run_bind_eq_ok.2 ⟨name, u', htake', ?_⟩⟩
  dsimp only
  rw [if_pos hname]
  exact h'

theorem lookBehind_follows {negated : Bool} {p p' : Pattern} (h : Pattern.Beside around p p') :
    Follows around (Pattern.Beside around) (lookBehind negated p) (lookBehind negated p') := by
  intro s s' hs q t hrun
  have hwidth : p'.width (widthOf s'.groups) = p.width (widthOf s.groups) :=
    h.width _ _ fun index hindex => by rw [hs.groups, widthOf_append hindex]
  rw [run_lookBehind] at hrun
  rw [run_lookBehind, hwidth]
  dsimp only at hrun ⊢
  split at hrun
  · cases hrun
  next hleast =>
    cases hrun
    rw [if_neg hleast]
    have hvariable (varies : Bool) : Reading.Near around
        { s with variableBehind := varies || s.variableBehind }
        { s' with variableBehind := varies || s'.variableBehind } :=
      { hs with variableBehind := congrArg (varies || ·) hs.variableBehind }
    exact ⟨_, _, h.lookBehind _ _, hvariable _, rfl⟩

end ReadM

end Precedence
