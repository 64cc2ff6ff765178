import Mathlib
import Precedence.Proofs.Surroundings.Grammar

/-!
# What reading keeps

Reading a part of a pattern gives names to groups, and takes none away; it leaves no look-behind open.

## Main definitions

- `Reading.Kept` — the names that were known are known, and the look-behind is the same
- `ReadM.Keeps` — actions that lead to such states

## Main statements

- `ReadM.keepsAll` — all productions of the grammar do
-/

namespace Precedence

/-- The names that were known are known, and the same look-behind is being read. -/
structure Reading.Kept (s t : Reading) : Prop where
  names : s.names <+: t.names
  behind : t.behind = s.behind

namespace Reading.Kept

variable {s t u : Reading}

theorem of_eq (hnames : t.names = s.names) (hbehind : t.behind = s.behind) : Reading.Kept s t :=
  ⟨hnames ▸ List.prefix_rfl, hbehind⟩

theorem trans (h : Reading.Kept s t) (h' : Reading.Kept t u) : Reading.Kept s u :=
  ⟨h.names.trans h'.names, h'.behind.trans h.behind⟩

end Reading.Kept

/-- An action after which the names are known that were known before it, and that leaves no
look-behind open. -/
def ReadM.Keeps {α : Type} (m : ReadM α) : Prop :=
  ∀ s a t, m.run s = .ok (a, t) → Reading.Kept s t

/-- Nothing before a pattern, and nothing after it. -/
def Surroundings.alone : Surroundings :=
  ⟨0, [], [], [], [], by rintro _ ⟨⟩⟩

namespace ReadM

variable {α β : Type} {m : ReadM α}

namespace Keeps

theorem pure (a : α) : Keeps (Pure.pure a) := by
  rintro s _ _ ⟨⟩
  exact .of_eq rfl rfl

theorem throw (e : PatternFault) : Keeps (throw e : ReadM α) :=
  fun _ _ _ => nofun

theorem bind {k : α → ReadM β} (hm : Keeps m) (hk : ∀ a, Keeps (k a)) :
    Keeps (m >>= k) := by
  intro s b t h
  obtain ⟨a, u, hrun, hnext⟩ := run_bind_eq_ok.1 h
  exact (hm s a u hrun).trans (hk a u b t hnext)

theorem get : Keeps (get : ReadM Reading) := by
  rintro s _ _ ⟨⟩
  exact .of_eq rfl rfl

theorem modify {f : Reading → Reading} (hf : ∀ s, Reading.Kept s (f s)) :
    Keeps (modify f : ReadM PUnit) := by
  rintro s _ _ ⟨⟩
  exact hf s

theorem names (hm : Keeps m) (s : Reading) (a : α) (t : Reading) (h : m.run s = .ok (a, t)) :
    s.names <+: t.names :=
  (hm s a t h).names

/-- An action within a look-behind, which is closed after it. -/
theorem within {behind : Reading → Option Nat} {k : α → ReadM β} (hm : Keeps m)
    (hk : ∀ a, Keeps (k a)) : Keeps (do
      let outer := (← MonadState.get).behind
      modifyThe Reading fun reading => { reading with behind := behind reading }
      let a ← m
      modifyThe Reading fun reading => { reading with behind := outer }
      k a) := by
  intro s b t h
  obtain ⟨_, _, ⟨⟩, h⟩ := run_bind_eq_ok.1 h
  obtain ⟨_, _, ⟨⟩, h⟩ := run_bind_eq_ok.1 h
  obtain ⟨a, u, hrun, h⟩ := run_bind_eq_ok.1 h
  obtain ⟨_, _, ⟨⟩, h⟩ := run_bind_eq_ok.1 h
  have hkept := hk a _ b t h
  exact ⟨(hm _ a u hrun).names.trans hkept.names, hkept.behind⟩

end Keeps

/-- Actions that only take tokens keep names. -/
theorem Takes.keeps {V : α → β → Prop} {m' : ReadM β} (h : Takes .alone V m m') :
    Keeps m := by
  intro s a t hrun
  obtain ⟨_, rest, -, -, rfl, -⟩ := h s (s.among .alone s.rest) rfl a t hrun
  exact .of_eq rfl rfl

theorem accept_keeps (c : Char) : Keeps (accept c) := by
  intro s a t h
  rw [run_accept] at h
  split at h
  · cases h
    exact .of_eq rfl rfl
  · cases h
    exact .of_eq rfl rfl

theorem openGroup_keeps (name : Option String) (pos : Nat) : Keeps (openGroup name pos) := by
  intro s index t h
  cases name with
  | none =>
    cases h
    exact .of_eq rfl rfl
  | some name =>
    obtain ⟨-, ⟨⟩⟩ := run_openGroup_some_iff.1 h
    exact ⟨List.prefix_append _ _, rfl⟩

theorem checkBehind_keeps (index pos : Nat) : Keeps (checkBehind index pos) := by
  intro s _ t h
  obtain ⟨-, ⟨⟩⟩ := run_checkBehind_iff.1 h
  exact .of_eq rfl rfl

theorem reference_keeps (index pos : Nat) : Keeps (reference index pos) := by
  intro s _ t h
  obtain ⟨-, -, -, -, ⟨⟩⟩ := run_reference_iff.1 h
  exact .of_eq rfl rfl

theorem namedGroup_keeps (name : String) : Keeps (namedGroup name) := by
  intro s index t h
  obtain ⟨_, -, ⟨⟩⟩ := run_namedGroup_iff.1 h
  exact .of_eq rfl rfl

theorem digitEscape_keeps (first : Char) (pos : Nat) : Keeps (digitEscape first pos) := by
  have hreference (digits : List Char) :
      Keeps (do return Escape.group (← reference (numeral 10 digits) pos)) :=
    (reference_keeps _ _).bind fun _ => .pure _
  have hdigits {k : List Char → ReadM Escape} (hnil : Keeps (k []))
      (hcons : ∀ digit others, Keeps (k (digit :: others))) (digits : List Char) :
      Keeps (k digits) := by
    cases digits with
    | nil => exact hnil
    | cons digit others => exact hcons digit others
  refine (takeUpTo_takes (by decide) 1).keeps.bind (hdigits (hreference _) fun second _ => ?_)
  dsimp only
  split
  · exact (takeUpTo_takes (by decide) 1).keeps.bind
      (hdigits (hreference _) fun _ _ => (octalCode_takes _).keeps)
  · exact (Keeps.pure _).bind (hdigits (hreference _) fun _ _ => (octalCode_takes _).keeps)

theorem escape_keeps (flags : Flags) (token : PatternToken) : Keeps (escape flags token) := by
  unfold escape
  dsimp only
  split
  · exact .pure _
  · exact .pure _
  · exact .pure _
  · split
    · exact (takeUpTo_takes (by decide) 2).keeps.bind fun _ => (octalCode_takes _).keeps
    · split
      · exact digitEscape_keeps _ _
      · exact (plainEscape_takes _).keeps

theorem condition_keeps : Keeps condition := by
  refine (takeUntil_takes (by decide)).keeps.bind fun name => ?_
  have hrest (index : Nat) : Keeps (do
      checkBehind index (← position)
      return index) :=
    position_takes.keeps.bind fun _ => (checkBehind_keeps _ _).bind fun _ => .pure _
  dsimp only
  split
  · exact (namedGroup_keeps _).bind hrest
  · split
    · refine Keeps.bind (.modify fun _ => ?_) fun _ => (Keeps.pure _).bind hrest
      exact .of_eq rfl rfl
    · exact (Keeps.throw _).bind hrest

theorem repeatLast_keeps (bounds : RepeatBounds) (done : List PatternItem) :
    Keeps (repeatLast bounds done) := by
  unfold repeatLast
  split
  · exact takeGreed_takes.keeps.bind fun _ => .pure _
  · exact .throw _

theorem skipLine_keeps : Keeps skipLine :=
  .modify fun _ => .of_eq rfl rfl

theorem lookBehind_keeps (negated : Bool) (p : Pattern) : Keeps (lookBehind negated p) := by
  intro s q t h
  rw [run_lookBehind] at h
  dsimp only at h
  split at h
  · cases h
  · cases h
    exact .of_eq rfl rfl

/-! ### Productions -/

/-- All productions keep names if at most `fuel` steps are taken. -/
structure KeepsAll (fuel : Nat) : Prop where
  alternatives : ∀ flags, Keeps (alternatives fuel flags)
  sequence : ∀ flags done, Keeps (sequence fuel flags done)
  item : ∀ flags token done, Keeps (item fuel flags token done)
  captured : ∀ flags index, Keeps (captured fuel flags index)
  extended : ∀ flags start done, Keeps (extended fuel flags start done)

variable {fuel : Nat}

theorem alternatives_keeps (ih : KeepsAll fuel) (flags : Flags) :
    Keeps (alternatives (fuel + 1) flags) := by
  rw [alternatives]
  refine (ih.sequence flags []).bind fun first => (accept_keeps '|').bind fun more => ?_
  split
  · exact (ih.alternatives flags).bind fun _ => .pure _
  · exact .pure _

theorem sequence_keeps (ih : KeepsAll fuel) (flags : Flags) (done : List PatternItem) :
    Keeps (sequence (fuel + 1) flags done) := by
  rw [sequence]
  refine Keeps.bind (.bind .get fun _ => .pure _) fun next => ?_
  split
  · exact .pure _
  · split
    · exact .pure _
    · refine Keeps.bind ?_ fun _ => (ih.item flags _ done).bind fun _ => ih.sequence flags _
      rintro s _ _ ⟨⟩
      exact .of_eq rfl rfl

theorem newGroup_keeps (ih : KeepsAll fuel) (flags : Flags) (done : List PatternItem)
    (name : Option String) (pos : Nat) : Keeps (newGroup fuel flags done name pos) :=
  (openGroup_keeps name pos).bind fun index => (ih.captured flags index).bind fun _ => .pure _

theorem parenthesis_keeps (ih : KeepsAll fuel) (flags : Flags) (done : List PatternItem)
    (pos : Nat) : Keeps (parenthesis fuel flags done pos) := by
  refine (accept_keeps '?').bind fun marked => ?_
  split
  · exact ih.extended flags pos done
  · exact newGroup_keeps ih flags done none pos

theorem item_keeps (ih : KeepsAll fuel) (flags : Flags) (token : PatternToken)
    (done : List PatternItem) : Keeps (item (fuel + 1) flags token done) := by
  rw [item]
  dsimp only
  split
  · refine (escape_keeps flags token).bind fun code => ?_
    cases code <;> exact .pure _
  · split
    · exact .pure _
    · split
      · exact skipLine_keeps.bind fun _ => .pure _
      · split
        · exact (charSet_takes flags).keeps.bind fun _ => .pure _
        · exact .pure _
        · exact .pure _
        · exact .pure _
        · exact parenthesis_keeps ih flags done _
        · split
          · refine (repeatBounds_takes _).keeps.bind fun bounds => ?_
            split
            · exact repeatLast_keeps _ done
            · exact .pure _
          · exact .pure _

/-- The text in parentheses, and what is made of it. -/
theorem enclosed_bind_keeps (ih : KeepsAll fuel) (flags : Flags) {k : Pattern → ReadM α}
    (hk : ∀ p, Keeps (k p)) :
    Keeps (do let body ← alternatives fuel flags; expect ')'; k body) :=
  (ih.alternatives flags).bind fun p => (expect_takes (by decide)).keeps.bind fun _ => hk p

theorem captured_keeps (ih : KeepsAll fuel) (flags : Flags) (index : Nat) :
    Keeps (captured (fuel + 1) flags index) := by
  rw [captured]
  refine enclosed_bind_keeps ih flags fun body => Keeps.get.bind fun reading => ?_
  exact Keeps.bind (.modify fun _ => .of_eq rfl rfl) fun _ => .pure _

theorem namedItem_keeps (ih : KeepsAll fuel) (flags : Flags) (done : List PatternItem) :
    Keeps (namedItem fuel flags done) := by
  refine (accept_keeps '<').bind fun named => ?_
  split
  · refine position_takes.keeps.bind fun pos => ?_
    refine (groupName_takes (by decide)).keeps.bind fun name => ?_
    exact newGroup_keeps ih flags done (some name) pos
  · refine (expect_takes (by decide)).keeps.bind fun _ => ?_
    refine position_takes.keeps.bind fun pos => ?_
    refine (groupName_takes (by decide)).keeps.bind fun name => ?_
    refine (namedGroup_keeps name).bind fun index => ?_
    exact (reference_keeps index pos).bind fun _ => .pure _

/-- A look-behind is closed before its width is checked. -/
theorem behindItem_keeps (ih : KeepsAll fuel) (flags : Flags) (done : List PatternItem)
    (negated : Bool) : Keeps (behindItem fuel flags done negated) := by
  refine (ih.alternatives flags).within fun body => ?_
  refine (expect_takes (by decide)).keeps.bind fun _ => ?_
  exact (lookBehind_keeps negated body).bind fun _ => .pure _

/-- The second branch of a condition. -/
theorem branch_keeps (ih : KeepsAll fuel) (flags : Flags) {k : Pattern → ReadM α}
    (hk : ∀ p, Keeps (k p)) : Keeps (do
      let whenUnset ← if ← accept '|' then sequence fuel flags [] else pure .empty
      expect ')'
      k whenUnset) := by
  have hclose (whenUnset : Pattern) : Keeps (do expect ')'; k whenUnset) :=
    (expect_takes (by decide)).keeps.bind fun _ => hk whenUnset
  refine (accept_keeps '|').bind fun more => ?_
  split
  · exact (ih.sequence flags []).bind hclose
  · exact (Keeps.pure _).bind hclose

theorem branches_keeps (ih : KeepsAll fuel) (flags : Flags) (done : List PatternItem)
    (index : Nat) : Keeps (branches fuel flags done index) :=
  (ih.sequence flags []).bind fun _ => branch_keeps ih flags fun _ => .pure _

theorem extended_keeps (ih : KeepsAll fuel) (flags : Flags) (start : Nat)
    (done : List PatternItem) : Keeps (extended (fuel + 1) flags start done) := by
  have hbody (flags : Flags) (f : Pattern → List PatternItem) :
      Keeps (do return f (← enclosed fuel flags)) :=
    (enclosed_bind_keeps ih flags fun body => .pure body).bind fun _ => .pure _
  rw [extended_succ]
  refine takeSome_takes.keeps.bind fun mark => ?_
  dsimp only
  split
  · exact .throw _
  · split
    · exact namedItem_keeps ih flags done
    · exact hbody flags _
    · exact skipComment_takes.keeps.bind fun _ => .pure _
    · exact hbody flags _
    · exact hbody flags _
    · refine takeSome_takes.keeps.bind fun sign => ?_
      split
      · exact behindItem_keeps ih flags done _
      · exact .throw _
    · exact condition_keeps.bind fun index => branches_keeps ih flags done index
    · exact hbody flags _
    · refine Keeps.bind (.modify fun _ => .of_eq rfl rfl) fun _ => ?_
      refine flagGroup_takes.keeps.bind fun flag => ?_
      split
      · exact .throw _
      · exact hbody _ _

/-- All productions keep names. -/
theorem keepsAll (fuel : Nat) : KeepsAll fuel := by
  induction fuel with
  | zero =>
    exact
      { alternatives := fun _ => .throw _
        sequence := fun _ _ => .throw _
        item := fun _ _ _ => .throw _
        captured := fun _ _ => .throw _
        extended := fun _ _ _ => .throw _ }
  | succ fuel ih =>
    exact
      { alternatives := alternatives_keeps ih
        sequence := sequence_keeps ih
        item := item_keeps ih
        captured := captured_keeps ih
        extended := extended_keeps ih }

end ReadM

end Precedence
