import Mathlib
import Precedence.Proofs.Surroundings.States

/-!
# Actions that keep readings side by side

Two readings are compared only as far as both succeed. What only tells whether a reading fails, and
where, is therefore left out of the comparison.

Most actions only take tokens. One of them that succeeds on a text by itself succeeds on the text among
others as well: it takes the same tokens there, and has the same result.

## Main definitions

- `ReadM.Beside` — actions that keep two readings side by side
- `ReadM.BesideWithin` — the same for actions that may come to the end of the shorter text
- `ReadM.Takes` — actions that only take tokens, and take the same ones in both readings

## Main statements

- `ReadM.Beside.bind`, `ReadM.BesideWithin.bind`, `ReadM.Takes.bind` — one action after the other
- `ReadM.Takes.beside` — actions that take the same tokens keep two readings side by side
- `ReadM.takeUpTo_takesAt`, `ReadM.takeUntil_takes` — stretches of characters
-/

namespace Precedence

/-- Two actions keep two readings side by side, which are in given states: if both succeed, their
results are related. -/
def ReadM.BesideAt {α β : Type} (around : Surroundings) (s s' : Reading) (V : α → β → Prop)
    (m : ReadM α) (m' : ReadM β) : Prop :=
  ∀ a b t t', m.run s = .ok (a, t) → m'.run s' = .ok (b, t') →
    V a b ∧ Reading.Beside around t t'

/-- Two actions keep two readings side by side. -/
def ReadM.Beside {α β : Type} (around : Surroundings) (V : α → β → Prop) (m : ReadM α)
    (m' : ReadM β) : Prop :=
  ∀ s s', Reading.Beside around s s' → BesideAt around s s' V m m'

/-- Two actions keep two readings side by side, which are in given states, unless a condition holds
and the first one comes to the end. -/
def ReadM.BesideWithinAt {α β : Type} (around : Surroundings) (guard : Prop) (s s' : Reading)
    (V : α → β → Prop) (m : ReadM α) (m' : ReadM β) : Prop :=
  ∀ a b t t', m.run s = .ok (a, t) → m'.run s' = .ok (b, t') → (guard → t.rest ≠ []) →
    V a b ∧ Reading.Beside around t t'

/-- Two actions keep two readings side by side, unless a condition holds and the first one comes to
the end. -/
def ReadM.BesideWithin {α β : Type} (around : Surroundings) (guard : Prop) (V : α → β → Prop)
    (m : ReadM α) (m' : ReadM β) : Prop :=
  ∀ s s', Reading.Beside around s s' → BesideWithinAt around guard s s' V m m'

/-- An action that succeeds in a reading by itself only takes tokens, and an action of a reading among
others takes the same tokens. -/
def ReadM.TakesAt {α β : Type} (around : Surroundings) (s s' : Reading) (V : α → β → Prop)
    (m : ReadM α) (m' : ReadM β) : Prop :=
  ∀ a t, m.run s = .ok (a, t) → ∃ b rest, V a b ∧ rest <:+ s.rest ∧ t = { s with rest := rest } ∧
    m'.run s' = .ok (b, s'.among around rest)

/-- Two actions take the same tokens in any two readings of which one has the tokens of the other one
to come. -/
def ReadM.Takes {α β : Type} (around : Surroundings) (V : α → β → Prop) (m : ReadM α)
    (m' : ReadM β) : Prop :=
  ∀ s s', Reading.Ahead around s s' → TakesAt around s s' V m m'

variable {around : Surroundings}

/-! ### Actions -/

namespace ReadM

variable {α β γ δ : Type} {V : α → β → Prop} {W : γ → δ → Prop} {m : ReadM α} {m' : ReadM β}
  {k : α → ReadM γ} {k' : β → ReadM δ} {s s' : Reading}

theorem run_bind_eq_ok {k : α → ReadM γ} {r : γ × Reading} :
    (m >>= k).run s = .ok r ↔ ∃ a t, m.run s = .ok (a, t) ∧ (k a).run t = .ok r := by
  rw [StateT.run_bind]
  cases m.run s with
  | error e => exact ⟨nofun, nofun⟩
  | ok p =>
    constructor
    · exact fun h => ⟨p.1, p.2, rfl, h⟩
    · rintro ⟨a, t, ⟨⟩, h⟩
      exact h

namespace BesideAt

theorem pure {a : α} {b : β} (hs : Reading.Beside around s s') (h : V a b) :
    BesideAt around s s' V (Pure.pure a) (Pure.pure b) := by
  rintro _ _ _ _ ⟨⟩ ⟨⟩
  exact ⟨h, hs⟩

theorem throwLeft (e : PatternFault) : BesideAt around s s' V (throw e) m' := nofun

theorem throwRight (e : PatternFault) : BesideAt around s s' V m (throw e) := by
  intro a b t t' _ h
  cases h

theorem bind (hm : BesideAt around s s' V m m') (hk : ∀ a b, V a b → Beside around W (k a) (k' b)) :
    BesideAt around s s' W (m >>= k) (m' >>= k') := by
  intro c d t t' h h'
  obtain ⟨a, u, hrun, hnext⟩ := run_bind_eq_ok.1 h
  obtain ⟨b, u', hrun', hnext'⟩ := run_bind_eq_ok.1 h'
  obtain ⟨hV, hu⟩ := hm a b u u' hrun hrun'
  exact hk a b hV u u' hu c d t t' hnext hnext'

theorem get_bind {k : Reading → ReadM γ} {k' : Reading → ReadM δ}
    (h : BesideAt around s s' W (k s) (k' s')) :
    BesideAt around s s' W (get >>= k) (get >>= k') := h

theorem modify_bind {f f' : Reading → Reading} {k : PUnit → ReadM γ} {k' : PUnit → ReadM δ}
    (hf : Reading.Beside around (f s) (f' s')) (h : Beside around W (k ⟨⟩) (k' ⟨⟩)) :
    BesideAt around s s' W (modify f >>= k) (modify f' >>= k') := h (f s) (f' s') hf

theorem within {guard : Prop} (hm : BesideAt around s s' V m m') :
    BesideWithinAt around guard s s' V m m' :=
  fun a b t t' hrun hrun' _ => hm a b t t' hrun hrun'

end BesideAt

namespace Beside

theorem pure {a : α} {b : β} (h : V a b) : Beside around V (Pure.pure a) (Pure.pure b) :=
  fun _ _ hs => .pure hs h

theorem throwLeft (e : PatternFault) : Beside around V (throw e) m' :=
  fun _ _ _ => .throwLeft e

theorem throwRight (e : PatternFault) : Beside around V m (throw e) :=
  fun _ _ _ => .throwRight e

theorem bind (hm : Beside around V m m') (hk : ∀ a b, V a b → Beside around W (k a) (k' b)) :
    Beside around W (m >>= k) (m' >>= k') :=
  fun s s' hs => (hm s s' hs).bind hk

end Beside

theorem modify_beside {f f' : Reading → Reading}
    (h : ∀ s s', Reading.Beside around s s' → Reading.Beside around (f s) (f' s')) :
    Beside around Eq (modify f : ReadM PUnit) (modify f') := by
  rintro s s' hs _ _ _ _ ⟨⟩ ⟨⟩
  exact ⟨rfl, h s s' hs⟩

/-- An action that may come to the end, before one that needs another token. -/
theorem BesideWithin.bind {guard : Prop} (hm : BesideWithin around guard V m m')
    (hneeds : ∀ a s r, (k a).run s = .ok r → s.rest ≠ [])
    (hk : ∀ a b, V a b → ∀ s s', Reading.Beside around s s' → s.rest ≠ [] →
      BesideAt around s s' W (k a) (k' b)) :
    Beside around W (m >>= k) (m' >>= k') := by
  intro s s' hs c d t t' h h'
  obtain ⟨a, u, hrun, hnext⟩ := run_bind_eq_ok.1 h
  obtain ⟨b, u', hrun', hnext'⟩ := run_bind_eq_ok.1 h'
  have hne : u.rest ≠ [] := hneeds a u (c, t) hnext
  obtain ⟨hV, hu⟩ := hm s s' hs a b u u' hrun hrun' fun _ => hne
  exact hk a b hV u u' hu hne c d t t' hnext hnext'

namespace TakesAt

theorem pure {a : α} {b : β} (hs : Reading.Ahead around s s') (h : V a b) :
    TakesAt around s s' V (Pure.pure a) (Pure.pure b) := by
  rintro _ _ ⟨⟩
  refine ⟨b, s.rest, h, List.suffix_rfl, rfl, ?_⟩
  rw [Reading.among, ← hs]
  rfl

theorem bind (hm : TakesAt around s s' V m m') (hk : ∀ a b, V a b → Takes around W (k a) (k' b)) :
    TakesAt around s s' W (m >>= k) (m' >>= k') := by
  intro c t h
  obtain ⟨a, u, hrun, hnext⟩ := run_bind_eq_ok.1 h
  obtain ⟨b, rest, hV, hrest, rfl, hrun'⟩ := hm a u hrun
  obtain ⟨d, rest', hW, hrest', rfl, hnext'⟩ :=
    hk a b hV { s with rest := rest } (s'.among around rest) rfl c t hnext
  exact ⟨d, rest', hW, hrest'.trans hrest, rfl, run_bind_eq_ok.2 ⟨b, _, hrun', hnext'⟩⟩

theorem get_bind {k : Reading → ReadM γ} {k' : Reading → ReadM δ}
    (h : TakesAt around s s' W (k s) (k' s')) : TakesAt around s s' W (get >>= k) (get >>= k') := h

theorem set_bind {rest : List PatternToken} {k : PUnit → ReadM γ} {k' : PUnit → ReadM δ}
    (hrest : rest <:+ s.rest) (h : Takes around W (k ⟨⟩) (k' ⟨⟩)) :
    TakesAt around s s' W (set { s with rest := rest } >>= k) (set (s'.among around rest) >>= k') := by
  intro c t hrun
  obtain ⟨d, rest', hW, hrest', rfl, hrun'⟩ :=
    h { s with rest := rest } (s'.among around rest) rfl c t hrun
  exact ⟨d, rest', hW, hrest'.trans hrest, rfl, hrun'⟩

theorem besideAt (h : TakesAt around s s' V m m') (hs : Reading.Beside around s s') :
    BesideAt around s s' V m m' := by
  intro a b t t' hrun hrun'
  obtain ⟨b', rest, hV, hrest, rfl, htakes⟩ := h a t hrun
  rw [hrun'] at htakes
  cases htakes
  exact ⟨hV, hs.withRest hrest⟩

end TakesAt

namespace Takes

theorem pure {a : α} {b : β} (h : V a b) : Takes around V (Pure.pure a) (Pure.pure b) :=
  fun _ _ hs => .pure hs h

theorem throw (e : PatternFault) : Takes around V (throw e) m' :=
  fun _ _ _ => nofun

theorem bind (hm : Takes around V m m') (hk : ∀ a b, V a b → Takes around W (k a) (k' b)) :
    Takes around W (m >>= k) (m' >>= k') :=
  fun s s' hs => (hm s s' hs).bind hk

/-- One of two actions, before a common next one. -/
theorem ite_bind {c : Prop} [Decidable c] {m n : ReadM α} {k : α → ReadM γ} {k' : α → ReadM δ}
    (hm : Takes around Eq m m) (hn : Takes around Eq n n) (hk : ∀ a, Takes around W (k a) (k' a)) :
    Takes around W (if c then m >>= k else n >>= k) (if c then m >>= k' else n >>= k') := by
  split
  · exact hm.bind fun a _ h => h ▸ hk a
  · exact hn.bind fun a _ h => h ▸ hk a

theorem map {f : α → γ} {g : β → δ} (hm : Takes around V m m') (h : ∀ a b, V a b → W (f a) (g b)) :
    Takes around W (f <$> m) (g <$> m') := by
  rw [map_eq_pure_bind, map_eq_pure_bind]
  exact hm.bind fun a b hV => .pure (h a b hV)

/-- Actions that take the same tokens keep two readings side by side. -/
theorem beside (h : Takes around V m m') : Beside around V m m' :=
  fun s s' hs => (h s s' hs.rest).besideAt hs

end Takes

/-! ### Tokens to come -/

theorem run_takeSome {token : PatternToken} {t : Reading} (h : takeSome.run s = .ok (token, t)) :
    ∃ rest, s.rest = token :: rest ∧ t = { s with rest := rest } := by
  obtain ⟨rest, size, groups, names, behind, conditions, variableBehind⟩ := s
  cases rest with
  | nil => cases h
  | cons token rest =>
    cases h
    exact ⟨rest, rfl, rfl⟩

theorem takeSome_takes :
    Takes around (fun token token' => token' = token.moved around.offset) takeSome takeSome := by
  intro s s' hs token t h
  obtain ⟨rest, hrest, rfl⟩ := run_takeSome h
  refine ⟨_, rest, rfl, ?_, rfl, ?_⟩
  · rw [hrest]
    exact List.suffix_cons token rest
  · obtain ⟨rest', size, groups, names, behind, conditions, variableBehind⟩ := s'
    rw [Reading.Ahead, hrest] at hs
    obtain rfl : rest' = _ := hs
    rfl

/-- A token is taken, and what comes next knows that it was there. -/
theorem takeSome_bind_besideAt {k : PatternToken → ReadM γ} {k' : PatternToken → ReadM δ}
    (hs : Reading.Beside around s s')
    (hk : ∀ token rest, s.rest = token :: rest →
      BesideAt around { s with rest := rest } (s'.among around rest) W (k token)
        (k' (token.moved around.offset))) :
    BesideAt around s s' W (takeSome >>= k) (takeSome >>= k') := by
  intro a b t t' h h'
  obtain ⟨token, u, htake, h⟩ := run_bind_eq_ok.1 h
  obtain ⟨token', u', htake', h'⟩ := run_bind_eq_ok.1 h'
  obtain ⟨_, rest, rfl, -, hu, htakes⟩ := takeSome_takes s s' hs.rest token u htake
  rw [htake'] at htakes
  cases htakes
  obtain ⟨rest', hrest, rfl⟩ := run_takeSome htake
  obtain rfl : rest' = rest := congrArg Reading.rest hu
  exact hk token rest' hrest a b t t' h h'

theorem run_accept (c : Char) (s : Reading) :
    (accept c).run s =
      if (s.rest.head?.map (·.is c)).getD false then .ok (true, { s with rest := s.rest.tail })
      else .ok (false, s) := by
  rw [accept, StateT.run_bind]
  change (if (s.rest.head?.map (·.is c)).getD false then _ else _ : ReadM Bool).run s = _
  split
  · rfl
  · rfl

theorem run_accept_true {c : Char} {t : Reading} (h : (accept c).run s = .ok (true, t)) :
    ∃ token rest, s.rest = token :: rest ∧ token.is c ∧ t = { s with rest := rest } := by
  obtain ⟨rest, size, groups, names, behind, conditions, variableBehind⟩ := s
  rw [run_accept] at h
  cases rest with
  | nil => cases h
  | cons token rest =>
    split at h
    next his =>
      cases h
      exact ⟨token, rest, rfl, his, rfl⟩
    next => cases h

theorem run_accept_false {c : Char} {t : Reading} (h : (accept c).run s = .ok (false, t)) :
    t = s := by
  rw [run_accept] at h
  split at h
  · cases h
  · cases h
    rfl

theorem accept_takesAt {c : Char} (hs : Reading.Ahead around s s') (hc : c ≠ '|' ∨ s.rest ≠ []) :
    TakesAt around s s' Eq (accept c) (accept c) := by
  intro found t h
  have hnext := hs.nextIs hc
  cases found with
  | true =>
    obtain ⟨token, rest, hrest, his, rfl⟩ := run_accept_true h
    refine ⟨true, rest, rfl, ?_, rfl, ?_⟩
    · rw [hrest]
      exact List.suffix_cons token rest
    · rw [hrest, List.head?_cons, Option.map_some, Option.getD_some] at hnext
      rw [run_accept, hnext, if_pos his, hs, hrest]
      rfl
  | false =>
    obtain rfl := run_accept_false h
    refine ⟨false, t.rest, rfl, List.suffix_rfl, rfl, ?_⟩
    rw [run_accept] at h
    rw [run_accept, hnext]
    split at h
    · cases h
    next hnot => rw [if_neg hnot, Reading.among, ← hs]

theorem accept_takes {c : Char} (hc : c ≠ '|') : Takes around Eq (accept c) (accept c) :=
  fun _ _ hs => accept_takesAt hs (Or.inl hc)

theorem expect_takes {c : Char} (hc : c ≠ '|') : Takes around Eq (expect c) (expect c) := by
  refine (accept_takes hc).bind ?_
  rintro found _ rfl
  cases found with
  | true => exact .pure rfl
  | false => exact .throw _

theorem rest_ne_nil_of_expect {c : Char} {r : Unit × Reading} (h : (expect c).run s = .ok r) :
    s.rest ≠ [] := by
  obtain ⟨found, t, haccept, hfound⟩ := run_bind_eq_ok.1 h
  rw [run_accept] at haccept
  intro hrest
  rw [hrest] at haccept
  cases haccept
  cases hfound

theorem position_takes : Takes around (fun _ _ => True) position position := by
  rintro s s' hs _ _ ⟨⟩
  refine ⟨(s'.rest.head?.map PatternToken.pos).getD s'.size, s.rest, trivial, List.suffix_rfl, rfl, ?_⟩
  rw [Reading.among, ← hs]
  rfl

/-- The tokens that are taken if at most `count` are characters of which each is one of some. -/
def taken (allowed : Char → Bool) (count : Nat) (rest : List PatternToken) : List PatternToken :=
  (rest.take count).takeWhile fun token => !token.escaped && allowed token.char

theorem length_taken_le (allowed : Char → Bool) (count : Nat) (rest : List PatternToken) :
    (taken allowed count rest).length ≤ rest.length :=
  (List.takeWhile_sublist _).length_le.trans (List.length_take_le' count rest)

theorem run_takeUpTo (allowed : Char → Bool) (count : Nat) (s : Reading) :
    (takeUpTo allowed count).run s =
      let tokens := taken allowed count s.rest
      .ok (tokens.map PatternToken.char, { s with rest := s.rest.drop tokens.length }) := by
  induction count generalizing s with
  | zero => rfl
  | succ count ih =>
    obtain ⟨rest, size, groups, names, behind, conditions, variableBehind⟩ := s
    cases rest with
    | nil => rfl
    | cons token rest =>
      rw [takeUpTo, taken, List.take_succ_cons, List.takeWhile_cons]
      change (if !token.escaped && allowed token.char then _ else _ : ReadM (List Char)).run _ = _
      split
      · exact congrArg (· >>= fun r => Except.ok (token.char :: r.1, r.2))
          (ih ⟨rest, size, groups, names, behind, conditions, variableBehind⟩)
      · rfl

/-- Characters of which none is a bar are taken up to the same place, whether at most equally many are
taken or there is no bound. -/
theorem taken_moved {allowed : Char → Bool} (hallowed : allowed '|' = false) {count count' : Nat}
    {rest : List PatternToken} (hcount : count = count' ∨ rest.length ≤ count ∧ rest.length ≤ count') :
    taken allowed count' (rest.map (·.moved around.offset) ++ around.after) =
      (taken allowed count rest).map (·.moved around.offset) := by
  have hcut : ∃ n, (rest.map (·.moved around.offset) ++ around.after).take count' =
      (rest.take count).map (·.moved around.offset) ++ around.after.take n := by
    refine ⟨count' - rest.length, ?_⟩
    rw [List.take_append, List.length_map, ← List.map_take]
    rcases hcount with rfl | ⟨hcount, hcount'⟩
    · rfl
    · rw [List.take_of_length_le hcount, List.take_of_length_le hcount']
  obtain ⟨n, hcut⟩ := hcut
  rw [taken, hcut, takeWhile_moved (fun _ => rfl) (Or.inr fun token htoken => ?_), taken]
  rw [List.head?_take] at htoken
  split at htoken
  · cases htoken
  · rw [(PatternToken.is_iff.1 (around.bar token htoken)).2, hallowed, Bool.and_false]

theorem takeUpTo_takesAt {allowed : Char → Bool} (hallowed : allowed '|' = false) {count count' : Nat}
    (hs : Reading.Ahead around s s')
    (hcount : count = count' ∨ s.rest.length ≤ count ∧ s.rest.length ≤ count') :
    TakesAt around s s' Eq (takeUpTo allowed count) (takeUpTo allowed count') := by
  intro a t h
  rw [run_takeUpTo] at h
  cases h
  refine ⟨_, _, rfl, List.drop_suffix _ _, rfl, ?_⟩
  have htaken : taken allowed count' s'.rest =
      (taken allowed count s.rest).map (·.moved around.offset) := by
    rw [hs]
    exact taken_moved hallowed hcount
  rw [run_takeUpTo, htaken]
  dsimp only
  rw [List.map_map, List.length_map, hs.among_drop (length_taken_le allowed count s.rest)]
  rfl

theorem takeUpTo_takes {allowed : Char → Bool} (hallowed : allowed '|' = false) (count : Nat) :
    Takes around Eq (takeUpTo allowed count) (takeUpTo allowed count) :=
  fun _ _ hs => takeUpTo_takesAt hallowed hs (Or.inl rfl)

/-- All characters are taken of which each is one of some, and none is a bar. -/
theorem takeAll_takes {allowed : Char → Bool} (hallowed : allowed '|' = false)
    {k : List Char → ReadM γ} {k' : List Char → ReadM δ}
    (hk : ∀ letters, Takes around W (k letters) (k' letters)) :
    Takes around W (do k (← takeUpTo allowed (← get).rest.length))
      (do k' (← takeUpTo allowed (← get).rest.length)) := by
  intro s s' hs
  refine TakesAt.get_bind ?_
  refine (takeUpTo_takesAt hallowed hs (Or.inr ⟨le_rfl, hs.length_le⟩)).bind ?_
  rintro letters _ rfl
  exact hk letters

/-- The tokens before a mark. -/
def before (mark : Char) (rest : List PatternToken) : List PatternToken :=
  rest.takeWhile (!·.is mark)

theorem run_takeUntil {mark : Char} {a : List Char} {t : Reading}
    (h : (takeUntil mark).run s = .ok (a, t)) :
    a = (before mark s.rest).flatMap PatternToken.chars ∧
      (expect mark).run { s with rest := s.rest.drop (before mark s.rest).length } = .ok ((), t) := by
  change (if (before mark s.rest).isEmpty then _ else _ : ReadM (List Char)).run s = _ at h
  split at h
  · cases h
  · obtain ⟨u, r, hrun, hreturn⟩ := run_bind_eq_ok.1 h
    obtain ⟨u', r', hexpect, hpure⟩ := run_bind_eq_ok.1 hreturn
    cases hrun
    cases hpure
    exact ⟨rfl, hexpect⟩

theorem before_ne_nil_of_run_takeUntil {mark : Char} {r : List Char × Reading}
    (h : (takeUntil mark).run s = .ok r) : before mark s.rest ≠ [] := by
  change (if (before mark s.rest).isEmpty then _ else _ : ReadM (List Char)).run s = _ at h
  split at h
  · cases h
  next hne => exact fun hnil => hne (List.isEmpty_iff.2 hnil)

theorem run_takeUntil_of_expect {mark : Char} {t : Reading} (hne : before mark s.rest ≠ [])
    (h : (expect mark).run { s with rest := s.rest.drop (before mark s.rest).length } = .ok ((), t)) :
    (takeUntil mark).run s = .ok ((before mark s.rest).flatMap PatternToken.chars, t) := by
  change (if (before mark s.rest).isEmpty then _ else _ : ReadM (List Char)).run s = _
  rw [if_neg fun hnil => hne (List.isEmpty_iff.1 hnil)]
  exact run_bind_eq_ok.2 ⟨_, _, rfl, run_bind_eq_ok.2 ⟨_, _, h, rfl⟩⟩

theorem exists_is_of_run_takeUntil {mark : Char} {r : List Char × Reading}
    (h : (takeUntil mark).run s = .ok r) : ∃ token ∈ s.rest, (!token.is mark) = false := by
  by_contra hnone
  have hall : before mark s.rest = s.rest :=
    List.takeWhile_eq_self_iff.2 fun token htoken => by
      by_contra hmark
      exact hnone ⟨token, htoken, Bool.eq_false_iff.2 hmark⟩
  have hexpect := (run_takeUntil h).2
  rw [hall, List.drop_length] at hexpect
  exact rest_ne_nil_of_expect hexpect rfl

theorem takeUntil_takes {mark : Char} (hmark : mark ≠ '|') :
    Takes around Eq (takeUntil mark) (takeUntil mark) := by
  intro s s' hs a t h
  have hbefore : before mark s'.rest = (before mark s.rest).map (·.moved around.offset) := by
    rw [before, hs]
    exact takeWhile_moved (fun _ => rfl) (Or.inl (exists_is_of_run_takeUntil h))
  have hlength : (before mark s.rest).length ≤ s.rest.length := (List.takeWhile_sublist _).length_le
  have hne := before_ne_nil_of_run_takeUntil h
  obtain ⟨rfl, hexpect⟩ := run_takeUntil h
  obtain ⟨⟨⟩, rest, -, hrest, rfl, hexpect'⟩ := expect_takes hmark
    { s with rest := s.rest.drop (before mark s.rest).length }
    { s' with rest := s'.rest.drop (before mark s.rest).length }
    (by rw [hs.among_drop hlength]; rfl) () t hexpect
  refine ⟨_, rest, rfl, hrest.trans (List.drop_suffix _ _), rfl, ?_⟩
  rw [← List.length_map (·.moved around.offset), ← hbefore] at hexpect'
  rw [run_takeUntil_of_expect (by simpa [hbefore] using hne) hexpect', hbefore, List.flatMap_map]
  rfl

end ReadM

end Precedence
