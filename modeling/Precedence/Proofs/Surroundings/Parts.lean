import Mathlib
import Precedence.Proofs.Surroundings.Actions

/-!
# Parts of patterns side by side

Everything in a pattern that holds no other patterns is read among others as it is read by itself:
groups, escapes, sets, repetitions, flags and names.

## Main statements

- `ReadM.namedGroup_beside` — a name stands for the same group
- `ReadM.charSet_takes` — a set
- `ReadM.braceBounds_takes` — a brace starts a repetition or stands for itself
- `ReadM.lookBehind_beside` — a look-behind has the same width
-/

namespace Precedence

variable {around : Surroundings}

namespace ReadM

variable {γ δ : Type} {W : γ → δ → Prop} {s s' : Reading}

/-! ### Groups -/

theorem run_openGroup_some_iff {name : String} {pos : Nat} {r : Nat × Reading} :
    (openGroup (some name) pos).run s = .ok r ↔ s.names.lookup name = none ∧
      r = (s.groups.length + 1, { s with
        groups := s.groups ++ [none], names := s.names ++ [(name, s.groups.length + 1)] }) := by
  constructor
  · intro h
    obtain ⟨_, _, ⟨⟩, h⟩ := run_bind_eq_ok.1 h
    cases hlookup : s.names.lookup name with
    | some earlier =>
      simp only [hlookup] at h
      cases h
    | none =>
      simp only [hlookup] at h
      cases h
      exact ⟨rfl, rfl⟩
  · rintro ⟨hlookup, rfl⟩
    refine run_bind_eq_ok.2 ⟨_, _, rfl, ?_⟩
    simp only [hlookup]
    rfl

theorem openGroup_beside {name : Option String} {pos pos' : Nat} :
    Beside around (fun index index' => 0 < index ∧ index' = index + around.groups.length)
      (openGroup name pos) (openGroup name pos') := by
  intro s s' hs index index' t t' h h'
  have hindex : s'.groups.length + 1 = s.groups.length + 1 + around.groups.length := by
    rw [hs.groups, List.length_append]
    omega
  have hgroups : s'.groups ++ [none] = around.groups ++ (s.groups ++ [none]) := by
    rw [hs.groups, List.append_assoc]
  have hlength : (s.groups ++ [none]).length = s.groups.length + 1 := List.length_append
  have hindices : ∀ entry ∈ s.names, 0 < entry.2 ∧ entry.2 ≤ (s.groups ++ [none]).length := by
    intro entry hentry
    rw [hlength]
    exact (hs.indices entry hentry).imp_right Nat.le_succ_of_le
  cases name with
  | none =>
    cases h
    cases h'
    exact ⟨⟨Nat.succ_pos _, hindex⟩, { hs with groups := hgroups, indices := hindices }⟩
  | some name =>
    obtain ⟨-, ⟨⟩⟩ := run_openGroup_some_iff.1 h
    obtain ⟨hnew, ⟨⟩⟩ := run_openGroup_some_iff.1 h'
    rw [hs.names, List.lookup_append, Option.or_eq_none_iff] at hnew
    refine ⟨⟨Nat.succ_pos _, hindex⟩, { hs with
      groups := hgroups
      names := ?_
      known := hs.known.trans (List.prefix_append _ _)
      fresh := ?_
      indices := ?_ }⟩
    · change s'.names ++ [(name, s'.groups.length + 1)] = _
      rw [hs.names, hindex, List.append_assoc, List.map_append]
      rfl
    · intro entry hentry
      rcases List.mem_append.1 hentry with hentry | hentry
      · exact hs.fresh entry hentry
      · rw [List.mem_singleton.1 hentry]
        exact hnew.1
    · intro entry hentry
      rcases List.mem_append.1 hentry with hentry | hentry
      · exact hindices entry hentry
      · rw [List.mem_singleton.1 hentry, hlength]
        exact ⟨Nat.succ_pos _, le_rfl⟩

theorem closeGroup_beside {index : Nat} (hindex : 0 < index) {width width' : Width}
    (hwidth : width' = width) :
    Beside around Eq (closeGroup index width) (closeGroup (index + around.groups.length) width') := by
  refine modify_beside fun s s' hs => { hs with groups := ?_, indices := fun entry hentry => ?_ }
  · change s'.groups.set _ _ = around.groups ++ s.groups.set _ _
    rw [hs.groups, hwidth, Nat.sub_add_comm hindex, Nat.add_comm (index - 1),
      List.set_append_right _ _ (Nat.le_add_right _ _), Nat.add_sub_cancel_left]
  · rw [List.length_set]
    exact hs.indices entry hentry

theorem lookup_map_snd {α β γ : Type} [BEq α] (f : β → γ) (a : α) (l : List (α × β)) :
    (l.map fun entry => (entry.1, f entry.2)).lookup a = (l.lookup a).map f := by
  induction l with
  | nil => rfl
  | cons entry l ih =>
    rw [List.map_cons, List.lookup_cons, List.lookup_cons, ih]
    split <;> rfl

theorem getElem?_append_moved {groups before : List (Option Width)} {index : Nat}
    (hindex : 0 < index) :
    (before ++ groups)[index + before.length - 1]? = groups[index - 1]? := by
  rw [Nat.sub_add_comm hindex, Nat.add_comm (index - 1),
    List.getElem?_append_right (Nat.le_add_right _ _), Nat.add_sub_cancel_left]

theorem widthOf_append {groups before : List (Option Width)} {index : Nat} (hindex : 0 < index) :
    widthOf (before ++ groups) (index + before.length) = widthOf groups index := by
  rw [widthOf, getElem?_append_moved hindex, widthOf]

/-- Within a look-behind, a group is closed and was opened before it. -/
theorem run_checkBehind_iff {index pos : Nat} {r : Unit × Reading} :
    (checkBehind index pos).run s = .ok r ↔
      (∀ opened ∈ s.behind, ((s.groups[index - 1]?).bind id).isSome ∧ index ≤ opened) ∧
        r = ((), s) := by
  obtain ⟨rest, size, groups, names, behind, conditions, variableBehind⟩ := s
  cases behind with
  | none =>
    constructor
    · rintro ⟨⟩
      exact ⟨by rintro _ ⟨⟩, rfl⟩
    · rintro ⟨-, rfl⟩
      rfl
  | some opened =>
    change (if ((groups[index - 1]?).bind id).isSome then
      if opened < index then malformed else pure () else throw (.openGroup pos) : ReadM Unit).run _ = _ ↔ _
    constructor
    · intro h
      split at h
      next hclosed =>
        split at h
        · cases h
        next hle =>
          cases h
          refine ⟨?_, rfl⟩
          rintro _ ⟨⟩
          exact ⟨hclosed, Nat.le_of_not_lt hle⟩
      · cases h
    · rintro ⟨h, rfl⟩
      obtain ⟨hclosed, hle⟩ := h opened rfl
      rw [if_pos hclosed, if_neg (Nat.not_lt_of_le hle)]
      rfl

/-- A group that is referred to exists and is closed. -/
theorem run_reference_iff {index pos : Nat} {r : Nat × Reading} :
    (reference index pos).run s = .ok r ↔
      0 < index ∧ index ≤ s.groups.length ∧ ((s.groups[index - 1]?).bind id).isSome ∧
        (checkBehind index pos).run s = .ok ((), s) ∧ r = (index, s) := by
  constructor
  · intro h
    obtain ⟨_, _, ⟨⟩, h⟩ := run_bind_eq_ok.1 h
    dsimp only at h
    split at h
    next hindex =>
      obtain ⟨closed, t, ⟨⟩, h⟩ := run_bind_eq_ok.1 h
      split at h
      next hclosed =>
        obtain ⟨_, u, hbehind, h⟩ := run_bind_eq_ok.1 h
        cases (run_checkBehind_iff.1 hbehind).2
        cases h
        rw [Bool.and_eq_true, decide_eq_true_eq, decide_eq_true_eq] at hindex
        exact ⟨hindex.1, hindex.2, hclosed, hbehind, rfl⟩
      · cases h
    · cases h
  · rintro ⟨hpos, hle, hclosed, hbehind, rfl⟩
    refine run_bind_eq_ok.2 ⟨_, _, rfl, ?_⟩
    dsimp only
    rw [decide_eq_true hpos, decide_eq_true hle, if_pos (Bool.and_self true)]
    refine run_bind_eq_ok.2 ⟨_, _, rfl, ?_⟩
    rw [if_pos hclosed]
    exact run_bind_eq_ok.2 ⟨_, _, hbehind, rfl⟩

theorem reference_beside {index : Nat} (hindex : 0 < index) (pos pos' : Nat) :
    Beside around (fun found found' => 0 < found ∧ found' = found + around.groups.length)
      (reference index pos) (reference (index + around.groups.length) pos') := by
  intro s s' hs a b t t' h h'
  obtain ⟨-, -, -, -, ⟨⟩⟩ := run_reference_iff.1 h
  obtain ⟨-, -, -, -, ⟨⟩⟩ := run_reference_iff.1 h'
  exact ⟨⟨hindex, rfl⟩, hs⟩

theorem checkBehind_beside (index index' pos pos' : Nat) :
    Beside around Eq (checkBehind index pos) (checkBehind index' pos') := by
  intro s s' hs a b t t' h h'
  obtain ⟨-, ⟨⟩⟩ := run_checkBehind_iff.1 h
  obtain ⟨-, ⟨⟩⟩ := run_checkBehind_iff.1 h'
  exact ⟨rfl, hs⟩

theorem run_namedGroup_iff {name : String} {r : Nat × Reading} :
    (namedGroup name).run s = .ok r ↔
      ∃ index, s.names.lookup name = some index ∧ r = (index, s) := by
  constructor
  · intro h
    obtain ⟨_, _, ⟨⟩, h⟩ := run_bind_eq_ok.1 h
    cases hlookup : s.names.lookup name with
    | none =>
      rw [hlookup] at h
      cases h
    | some index =>
      rw [hlookup] at h
      cases h
      exact ⟨index, rfl, rfl⟩
  · rintro ⟨index, hlookup, rfl⟩
    refine run_bind_eq_ok.2 ⟨s, s, rfl, ?_⟩
    rw [hlookup]
    rfl

/-- A name that is known by itself stands for the same group among others. -/
theorem lookup_beside {name : String} {index : Nat} (hs : Reading.Beside around s s')
    (h : s.names.lookup name = some index) :
    0 < index ∧ s'.names.lookup name = some (index + around.groups.length) := by
  obtain ⟨before, after, hnames, -⟩ := List.lookup_eq_some_iff.1 h
  have hmem : (name, index) ∈ s.names := by
    rw [hnames]
    exact List.mem_append_right _ List.mem_cons_self
  refine ⟨(hs.indices _ hmem).1, ?_⟩
  rw [hs.names, List.lookup_append, hs.fresh _ hmem, Option.none_or,
    lookup_map_snd (· + around.groups.length), h]
  rfl

theorem namedGroup_beside (name : String) :
    Beside around (fun index index' => 0 < index ∧ index' = index + around.groups.length)
      (namedGroup name) (namedGroup name) := by
  intro s s' hs index index' t t' h h'
  obtain ⟨_, hlookup, ⟨⟩⟩ := run_namedGroup_iff.1 h
  obtain ⟨_, hlookup', ⟨⟩⟩ := run_namedGroup_iff.1 h'
  obtain ⟨hindex, hmoved⟩ := lookup_beside hs hlookup
  exact ⟨⟨hindex, Option.some.inj (hlookup'.symm.trans hmoved)⟩, hs⟩

/-! ### Escapes and sets -/

/-- An escape stands for the same in both readings, which is no group. -/
inductive SameEscape : Escape → Escape → Prop
  | code (n : Nat) : SameEscape (.code n) (.code n)
  | category (category : Category) : SameEscape (.category category) (.category category)
  | place (anchor : Anchor) : SameEscape (.place anchor) (.place anchor)

theorem octalCode_takes (digits : List Char) :
    Takes around SameEscape (octalCode digits) (octalCode digits) := by
  rw [octalCode]
  split
  · exact .pure (.code _)
  · exact .throw _

theorem hexCode_takes (count : Nat) : Takes around SameEscape (hexCode count) (hexCode count) := by
  refine (takeUpTo_takes (by decide) count).bind ?_
  rintro digits _ rfl
  dsimp only
  split
  · exact .pure (.code _)
  · exact .throw _

theorem plainEscape_takes (c : Char) : Takes around SameEscape (plainEscape c) (plainEscape c) := by
  unfold plainEscape
  split
  · exact hexCode_takes 2
  · exact hexCode_takes 4
  · exact hexCode_takes 8
  · split
    · exact .throw _
    · exact .pure (.code _)

theorem escape_takes (flags : Flags) {token token' : PatternToken}
    (htoken : token' = token.moved around.offset) (hnumbered : token.isNumbered = false)
    (hescaped : token.escaped = true) :
    Takes around SameEscape (escape flags token) (escape flags token') := by
  subst htoken
  unfold escape
  dsimp only [PatternToken.char_moved]
  split
  · exact .pure (.category _)
  · exact .pure (.place _)
  · exact .pure (.code _)
  · split
    · exact (takeUpTo_takes (by decide) 2).bind fun digits _ hdigits => hdigits ▸ octalCode_takes _
    next hzero =>
      split
      next hdigit =>
        rw [PatternToken.isNumbered, hescaped, hdigit] at hnumbered
        simp [hzero] at hnumbered
      next => exact plainEscape_takes _

theorem setEscape_takes (flags : Flags) {token token' : PatternToken}
    (htoken : token' = token.moved around.offset) :
    Takes around Eq (setEscape flags token) (setEscape flags token') := by
  subst htoken
  have hitem {item : Escape → ReadM CharItem} (hcode : ∀ n, item (.code n) = return .single n)
      (hcategory : ∀ k, item (.category k) = return .category k)
      (hplace : ∀ anchor, item (.place anchor) = malformed) :
      ∀ code code' : Escape, SameEscape code code' → Takes around Eq (item code) (item code') := by
    rintro _ _ (n | category | anchor)
    · rw [hcode]
      exact .pure rfl
    · rw [hcategory]
      exact .pure rfl
    · rw [hplace]
      exact .throw _
  unfold setEscape
  dsimp only [PatternToken.char_moved]
  split
  · exact .bind (.pure (.code _)) (hitem (fun _ => rfl) (fun _ => rfl) (fun _ => rfl))
  · exact .bind (.pure (.category _)) (hitem (fun _ => rfl) (fun _ => rfl) (fun _ => rfl))
  · split
    · refine (takeUpTo_takes (by decide) 2).bind ?_
      rintro digits _ rfl
      exact (octalCode_takes _).bind (hitem (fun _ => rfl) (fun _ => rfl) (fun _ => rfl))
    · split
      · exact .throw _
      · exact (plainEscape_takes _).bind (hitem (fun _ => rfl) (fun _ => rfl) (fun _ => rfl))

theorem setItem_takes (flags : Flags) {token token' : PatternToken}
    (htoken : token' = token.moved around.offset) :
    Takes around Eq (setItem flags token) (setItem flags token') := by
  subst htoken
  rw [setItem, setItem, PatternToken.escaped_moved, PatternToken.char_moved]
  split
  · exact setEscape_takes flags rfl
  · exact .pure rfl

theorem setItems_takes (flags : Flags) {fuel fuel' : Nat} (hfuel : fuel ≤ fuel')
    (done : List CharItem) :
    Takes around Eq (setItems flags fuel done) (setItems flags fuel' done) := by
  induction fuel generalizing fuel' done with
  | zero => exact .throw _
  | succ fuel ih =>
    obtain ⟨fuel', rfl⟩ := Nat.exists_eq_succ_of_ne_zero (Nat.ne_zero_of_lt hfuel)
    have hfuel := Nat.le_of_succ_le_succ hfuel
    refine takeSome_takes.bind ?_
    rintro token _ rfl
    rw [PatternToken.is_moved]
    split
    · exact .pure rfl
    · refine (setItem_takes flags rfl).bind ?_
      rintro first _ rfl
      refine (accept_takes (by decide)).bind ?_
      rintro hyphen _ rfl
      split
      · refine takeSome_takes.bind ?_
        rintro token _ rfl
        rw [PatternToken.is_moved]
        split
        · exact .pure rfl
        · refine (setItem_takes flags rfl).bind ?_
          rintro last _ rfl
          split
          · split
            · exact .throw _
            · exact ih hfuel _
          · exact .throw _
      · exact ih hfuel _

theorem charSet_takes (flags : Flags) : Takes around Eq (charSet flags) (charSet flags) := by
  refine (accept_takes (by decide)).bind ?_
  rintro negated _ rfl
  intro s s' hs
  refine TakesAt.get_bind ?_
  have hfuel : s.rest.length + 1 ≤ s'.rest.length + 1 := Nat.succ_le_succ hs.length_le
  refine (setItems_takes flags hfuel []).bind (fun items _ hitems => ?_) s s' hs
  subst hitems
  split
  · exact .pure rfl
  · exact .pure rfl

/-! ### Repetitions -/

/-- The texts of bounds, given the tokens of each of them and those after the last one. -/
def closedBounds? (rest low high afterHigh : List PatternToken) :
    Option (List Char × List Char × List PatternToken) :=
  match rest, afterHigh with
  | first :: _, close :: after =>
    if close.is '}' && !first.is '}' then
      some (low.map PatternToken.char, high.map PatternToken.char, after)
    else none
  | _, _ => none

/-- The tokens of the upper bound and those after it, given the tokens of the lower one and those
after it. -/
def upperBound (low : List PatternToken) : List PatternToken → List PatternToken × List PatternToken
  | token :: tail =>
    if token.is ',' then (tail.takeWhile PatternToken.isDigit, tail.dropWhile PatternToken.isDigit)
    else (low, token :: tail)
  | [] => (low, [])

theorem boundTexts?_eq (rest : List PatternToken) :
    boundTexts? rest =
      let low := rest.takeWhile PatternToken.isDigit
      let high := upperBound low (rest.dropWhile PatternToken.isDigit)
      closedBounds? rest low high.1 high.2 := by
  have hdigit : (fun token : PatternToken => !token.escaped && token.char.isDigit) =
      PatternToken.isDigit := rfl
  unfold boundTexts?
  dsimp only
  rw [hdigit]
  cases hlow : rest.dropWhile PatternToken.isDigit with
  | nil => rfl
  | cons token tail =>
    dsimp only [upperBound]
    cases token.is ',' <;> rfl

theorem suffix_of_boundTexts? {rest after : List PatternToken} {low high : List Char}
    (h : boundTexts? rest = some (low, high, after)) : after <:+ rest := by
  rw [boundTexts?_eq] at h
  have hupper : ∀ low afterLow, (upperBound low afterLow).2 <:+ afterLow := by
    intro low afterLow
    unfold upperBound
    split
    · split
      · exact (List.dropWhile_suffix _).trans (List.suffix_cons _ _)
      · exact List.suffix_rfl
    · exact List.suffix_rfl
  dsimp only [closedBounds?] at h
  split at h
  next close after' hclose =>
    split at h
    · cases h
      refine (List.suffix_cons close _).trans ?_
      rw [← hclose]
      exact (hupper _ _).trans (List.dropWhile_suffix _)
    · cases h
  · cases h

section

variable {offset : Nat} {after : List PatternToken} (hbar : ∀ token ∈ after.head?, token.is '|')
include hbar

theorem isDigit_eq_false_of_bar : ∀ token ∈ after.head?, token.isDigit = false := by
  intro token htoken
  rw [PatternToken.isDigit, (PatternToken.is_iff.1 (hbar token htoken)).2]
  exact Bool.and_false _

theorem closedBounds?_moved (rest low high afterHigh : List PatternToken)
    (hrest : rest = [] → afterHigh = []) :
    closedBounds? (rest.map (·.moved offset) ++ after) (low.map (·.moved offset))
        (high.map (·.moved offset)) (afterHigh.map (·.moved offset) ++ after) =
      (closedBounds? rest low high afterHigh).map fun bounds =>
        (bounds.1, bounds.2.1, bounds.2.2.map (·.moved offset) ++ after) := by
  cases afterHigh with
  | nil =>
    cases after with
    | nil => cases rest <;> rfl
    | cons bar after =>
      have hclose : bar.is '}' = false := PatternToken.is_eq_false_of_bar (hbar bar rfl) (by decide)
      cases rest <;> simp [closedBounds?, hclose]
  | cons close afterHigh =>
    cases rest with
    | nil => cases hrest rfl
    | cons first rest =>
      simp only [closedBounds?, List.map_cons, List.cons_append, PatternToken.is_moved, List.map_map]
      split <;> rfl

theorem upperBound_moved (low afterLow : List PatternToken) :
    upperBound (low.map (·.moved offset)) (afterLow.map (·.moved offset) ++ after) =
      ((upperBound low afterLow).1.map (·.moved offset),
        (upperBound low afterLow).2.map (·.moved offset) ++ after) := by
  have hdigit := isDigit_eq_false_of_bar hbar
  cases afterLow with
  | nil =>
    cases after with
    | nil => rfl
    | cons bar after =>
      rw [List.map_nil, List.nil_append, upperBound,
        PatternToken.is_eq_false_of_bar (hbar bar rfl) (by decide)]
      rfl
  | cons token tail =>
    rw [List.map_cons, List.cons_append, upperBound, upperBound, PatternToken.is_moved,
      takeWhile_moved (fun _ => rfl) (Or.inr hdigit), dropWhile_moved (fun _ => rfl) (Or.inr hdigit)]
    split <;> rfl

theorem boundTexts?_moved (tokens : List PatternToken) :
    boundTexts? (tokens.map (·.moved offset) ++ after) =
      (boundTexts? tokens).map fun bounds =>
        (bounds.1, bounds.2.1, bounds.2.2.map (·.moved offset) ++ after) := by
  have hdigit := isDigit_eq_false_of_bar hbar
  rw [boundTexts?_eq, boundTexts?_eq, takeWhile_moved (fun _ => rfl) (Or.inr hdigit),
    dropWhile_moved (fun _ => rfl) (Or.inr hdigit)]
  dsimp only
  rw [upperBound_moved hbar]
  refine closedBounds?_moved hbar _ _ _ _ ?_
  rintro rfl
  rfl

end

theorem roundCount_takes (digits : List Char) :
    Takes around Eq (roundCount digits) (roundCount digits) := by
  unfold roundCount
  dsimp only
  split
  · exact .throw _
  · split
    · exact .throw _
    · exact .pure rfl

theorem braceBounds_takes : Takes around Eq braceBounds braceBounds := by
  intro s s' hs
  refine TakesAt.get_bind ?_
  rw [show boundTexts? s'.rest = _ from hs ▸ boundTexts?_moved around.bar s.rest]
  cases hbounds : boundTexts? s.rest with
  | none => exact .pure hs rfl
  | some bounds =>
    obtain ⟨low, high, after⟩ := bounds
    refine TakesAt.set_bind (suffix_of_boundTexts? hbounds) ?_
    refine .ite_bind (.pure rfl) (roundCount_takes low) fun least => ?_
    refine .ite_bind (.pure rfl) ((roundCount_takes high).map fun _ _ => congrArg some) fun most => ?_
    dsimp only
    split
    · split
      · exact .throw _
      · exact .pure rfl
    · exact .pure rfl

theorem repeatBounds_takes (mark : Char) :
    Takes around Eq (repeatBounds mark) (repeatBounds mark) := by
  unfold repeatBounds
  split
  · exact .pure rfl
  · exact .pure rfl
  · exact .pure rfl
  · exact braceBounds_takes

theorem takeGreed_takes : Takes around Eq takeGreed takeGreed := by
  refine (accept_takes (by decide)).bind ?_
  rintro lazy _ rfl
  split
  · exact .pure rfl
  · refine (accept_takes (by decide)).bind ?_
    rintro possessive _ rfl
    split
    · exact .pure rfl
    · exact .pure rfl

theorem repeatLast_takes {bounds : RepeatBounds} {done done' : List PatternItem}
    (hdone : List.Forall₂ (PatternItem.Beside around) done done') :
    Takes around (List.Forall₂ (PatternItem.Beside around)) (repeatLast bounds done)
      (repeatLast bounds done') := by
  cases hdone with
  | nil => exact .throw _
  | @cons item item' done done' hitem hdone =>
    obtain ⟨p, kind⟩ := item
    obtain ⟨p', kind'⟩ := item'
    obtain rfl : kind' = kind := hitem.kind
    cases kind' with
    | place => exact .throw _
    | repetition => exact .throw _
    | other =>
      refine takeGreed_takes.bind ?_
      rintro greed _ rfl
      exact .pure (.cons ⟨hitem.pattern.repeat _ _ _, rfl⟩ hdone)

/-! ### Flags, names and comments -/

theorem flagGroup_takes : Takes around Eq flagGroup flagGroup := by
  refine takeAll_takes (by decide) fun on => ?_
  dsimp only
  split
  · exact .throw _
  · refine takeSome_takes.bind ?_
    rintro close _ rfl
    rw [PatternToken.is_moved, PatternToken.is_moved, PatternToken.is_moved]
    split
    · exact .pure rfl
    · split
      · exact .pure rfl
      · split
        · refine takeAll_takes (by decide) fun off => ?_
          refine (expect_takes (by decide)).bind fun _ _ _ => ?_
          split
          · exact .throw _
          · exact .pure rfl
        · exact .throw _

theorem groupName_takes {mark : Char} (hmark : mark ≠ '|') :
    Takes around Eq (groupName mark) (groupName mark) := by
  refine (takeUntil_takes hmark).bind ?_
  rintro name _ rfl
  split
  · exact .pure rfl
  · exact .throw _

/-- A condition that asks about a group by its name is about the same group. -/
theorem condition_besideAt (hs : Reading.Beside around s s')
    (hname : isName ((before ')' s.rest).flatMap PatternToken.chars)) :
    BesideAt around s s' (fun index index' => 0 < index ∧ index' = index + around.groups.length)
      condition condition := by
  intro index index' t t' h h'
  obtain ⟨name, u, htake, h⟩ := run_bind_eq_ok.1 h
  obtain ⟨name', u', htake', h'⟩ := run_bind_eq_ok.1 h'
  obtain ⟨rfl, hu⟩ := (takeUntil_takes (by decide)).beside s s' hs _ _ _ _ htake htake'
  rw [← (run_takeUntil htake).1] at hname
  dsimp only at h h'
  rw [if_pos hname] at h h'
  refine (namedGroup_beside _).bind
    (W := fun index index' => 0 < index ∧ index' = index + around.groups.length) ?_ u u' hu index
    index' t t' h h'
  rintro found _ ⟨hfound, rfl⟩
  refine position_takes.beside.bind fun _ _ _ => ?_
  exact (checkBehind_beside _ _ _ _).bind fun _ _ _ => .pure ⟨hfound, rfl⟩

/-- The tokens after the first mark. -/
def afterMark (mark : Char) (rest : List PatternToken) : List PatternToken :=
  (rest.dropWhile (!·.is mark)).tail

/-- What comes after a mark that is among some tokens comes after it before more tokens as well. -/
theorem afterMark_moved {mark : Char} {rest : List PatternToken}
    (hmark : ∃ token ∈ rest, (!token.is mark) = false) :
    afterMark mark (rest.map (·.moved around.offset) ++ around.after) =
      (afterMark mark rest).map (·.moved around.offset) ++ around.after := by
  rw [afterMark, dropWhile_moved (fun _ => rfl) (Or.inl hmark), afterMark]
  cases hdrop : rest.dropWhile (!·.is mark) with
  | nil =>
    obtain ⟨token, hmem, hnot⟩ := hmark
    rw [List.dropWhile_eq_nil_iff.1 hdrop token hmem] at hnot
    cases hnot
  | cons token rest => rfl

theorem afterMark_suffix (mark : Char) (rest : List PatternToken) : afterMark mark rest <:+ rest :=
  (List.tail_suffix _).trans (List.dropWhile_suffix _)

/-- A mark is among some tokens if not all of them are skipped on the way to it. -/
theorem exists_is_of_dropWhile {mark : Char} {rest : List PatternToken}
    (h : rest.dropWhile (!·.is mark) ≠ []) : ∃ token ∈ rest, (!token.is mark) = false := by
  by_contra hnone
  refine h (List.dropWhile_eq_nil_iff.2 fun token htoken => ?_)
  by_contra hmark
  exact hnone ⟨token, htoken, Bool.eq_false_iff.2 hmark⟩

/-- A comment line is skipped up to the same place, unless it reaches the end. -/
theorem skipLine_takesAt (hs : Reading.Ahead around s s') (hend : afterMark '\n' s.rest ≠ []) :
    TakesAt around s s' Eq skipLine skipLine := by
  rintro _ _ ⟨⟩
  refine ⟨⟨⟩, afterMark '\n' s.rest, rfl, afterMark_suffix _ _, rfl, ?_⟩
  rw [Reading.among, ← afterMark_moved (exists_is_of_dropWhile fun hdrop => hend ?_), ← hs]
  · rfl
  · exact congrArg List.tail hdrop

theorem run_skipComment (s : Reading) :
    skipComment.run s = if (s.rest.dropWhile (!·.is ')')).isEmpty then .error .malformed
      else .ok ((), { s with rest := afterMark ')' s.rest }) := by
  change (if (s.rest.dropWhile (!·.is ')')).isEmpty then _ else _ : ReadM PUnit).run s = _
  split
  · rfl
  · rfl

theorem skipComment_takes : Takes around Eq skipComment skipComment := by
  intro s s' hs _ t h
  rw [run_skipComment] at h
  split at h
  · cases h
  next hrest =>
    cases h
    have hmark := exists_is_of_dropWhile (mt List.isEmpty_iff.2 hrest)
    have hrest' : ¬(s'.rest.dropWhile (!·.is ')')).isEmpty := by
      rw [hs, dropWhile_moved (fun _ => rfl) (Or.inl hmark), List.isEmpty_iff]
      simp [mt List.isEmpty_iff.2 hrest]
    refine ⟨⟨⟩, afterMark ')' s.rest, rfl, afterMark_suffix _ _, rfl, ?_⟩
    rw [run_skipComment, if_neg hrest', Reading.among, ← afterMark_moved hmark, ← hs]

theorem run_lookBehind (negated : Bool) (p : Pattern) (s : Reading) :
    (lookBehind negated p).run s =
      let width := p.width (widthOf s.groups)
      if repeatLimit < width.least then .error .malformed
      else .ok (.lookBehind negated width.least p,
        { s with variableBehind := width.fixed?.isNone || s.variableBehind }) := by
  change (if repeatLimit < (p.width (widthOf s.groups)).least then _ else _ : ReadM Pattern).run s = _
  dsimp only
  split
  · rfl
  · cases (p.width (widthOf s.groups)).fixed?.isNone
    · rfl
    · rfl

theorem lookBehind_beside {negated : Bool} {p p' : Pattern} (h : Pattern.Beside around p p') :
    Beside around (Pattern.Beside around) (lookBehind negated p) (lookBehind negated p') := by
  intro s s' hs q q' t t' hrun hrun'
  have hwidth : p'.width (widthOf s'.groups) = p.width (widthOf s.groups) :=
    h.width _ _ fun index hindex => by rw [hs.groups, widthOf_append hindex]
  rw [run_lookBehind] at hrun hrun'
  rw [hwidth] at hrun'
  dsimp only at hrun hrun'
  split at hrun
  · cases hrun
  next hleast =>
    rw [if_neg hleast] at hrun'
    cases hrun
    cases hrun'
    exact ⟨h.lookBehind _ _, { hs with }⟩

end ReadM

end Precedence
