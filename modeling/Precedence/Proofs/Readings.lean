import Mathlib
import Precedence.Proofs.Asking
import Precedence.Proofs.Traversal
import Precedence.Trace

/-!
# Rules that are read while a climb goes on

The rule of an item may be read by an action, which may fail at one look at the item and not at
another. If a reading fails, and not for want of a key, then the climb fails with that complaint at
once, and leaves the item that it looked at.

## Main definitions

- `Climber.outlook` — how a climb looks ahead if the rules are read by an action
- `Entry` — an entry of a log, which is something that happens during a climb
- `Hooks.logged`, `ActiveReader.logged` — callbacks and readers that keep a log
- `Logged` — what holds between the steps of a climb with a log

## Main statements

- `Climber.outlook_active` — a reader that finds the same whenever it reads an item
- `look_logged`, `primary_logged` — a look at the next operator, and a call for an operand
- `outerLogged_succ`, `innerLogged_succ` — a round of either loop
- `loops_logged` — both loops keep their log
- `runClimb_active` — climbs over grammars are such climbs
- `runClimb_failed_reading` — a climb in which a reading fails

## Design notes

A reading may depend on all that has happened before, so the loops need not come to an end. What is
stated holds for all fuel, that is for as long as the loops are followed. The climb with a log is
run beside the one without.
-/

namespace Precedence

variable {σ ε τ ρ α : Type}

/-! ### Rules that are read by actions -/

section

variable [RuleKey ρ] (climber : Climber ρ)

/-- How a climb looks ahead if the rules are read by an action. -/
def Climber.outlook (reader : ActiveReader σ ε τ ρ) (emptyInput : ε) (missingOperand : τ → ε) :
    Outlook σ ε τ where
  look := ClimbM.peekLevel (climber.activeLevel? reader)
  emptyInput := emptyInput
  missingOperand := missingOperand

theorem Climber.run_activeLevel? (reader : ActiveReader σ ε τ ρ) (item : τ) (s : σ) :
    (climber.activeLevel? reader item).run.run s =
      (climber.levelOf reader.isMissingKey reader.unhashable ((reader.ruleOf item).run.run s).1,
        ((reader.ruleOf item).run.run s).2) := by
  rw [Climber.activeLevel?, run_bind_ok (run_get s)]
  rcases (reader.ruleOf item).run.run s with ⟨result, s'⟩
  rw [run_bind_ok (run_set s s')]
  cases climber.levelOf reader.isMissingKey reader.unhashable result <;> rfl

/-- An item that has the same rule whenever it is read has the same level. -/
theorem Climber.activeLevel?_active (reader : RuleReader ε τ ρ) (item : τ) :
    (climber.activeLevel? reader.active item : Act σ ε (Option Level)) =
      MonadExcept.ofExcept (climber.level? reader item) := by
  refine act_ext fun s => ?_
  have hread : (reader.active.ruleOf item : Act σ ε ρ).run.run s = (reader.ruleOf item, s) := by
    change (MonadExcept.ofExcept (reader.ruleOf item) : Act σ ε ρ).run.run s = _
    cases reader.ruleOf item <;> rfl
  rw [climber.run_activeLevel?, hread]
  change (climber.level? reader item, s) = _
  cases climber.level? reader item <;> rfl

/-- If an item has the same rule whenever it is read, then a climb looks ahead as over a grammar. -/
theorem Climber.outlook_active (reader : RuleReader ε τ ρ) (emptyInput : ε)
    (missingOperand : τ → ε) :
    (climber.outlook reader.active emptyInput missingOperand : Outlook σ ε τ) =
      (climber.grammar reader emptyInput missingOperand).outlook := by
  have hlook : (ClimbM.peekLevel (climber.activeLevel? reader.active) : ClimbM σ ε τ _) =
      ClimbM.peekOperator (climber.grammar reader emptyInput missingOperand) := by
    refine bind_congr fun seen => ?_
    cases seen with
    | none => rfl
    | some item =>
      refine act_ext fun s => ?_
      dsimp only
      rw [run_bind, ClimbM.run_onUser, climber.activeLevel?_active]
      simp only [Climber.grammar]
      cases climber.level? reader item <;> rfl
  rw [Climber.outlook, hlook]
  rfl

end

/-! ### Logs -/

/-- What happens during a climb: a callback answers, the rule of an item is read, or the observer is
told something. -/
inductive Entry (ε τ ρ α : Type) where
  | call (response : Response ε τ α)
  | read (item : τ) (result : Except ε ρ)
  | note (content : Note τ)

/-- Callbacks that keep a log. -/
def Hooks.logged (hooks : Hooks σ ε τ α) : Hooks (σ × List (Entry ε τ ρ α)) ε τ α where
  primary asked item := (hooks.primary asked item).beside fun result log =>
    log ++ [.call (.operand item result)]
  combine asked left op right := (hooks.combine asked left op right).beside fun result log =>
    log ++ [.call (.operator left op right result)]
  observe note := modify fun s => (((hooks.observe note).run s.1).2, s.2 ++ [.note note])

/-- A reader that keeps a log. -/
def ActiveReader.logged (reader : ActiveReader σ ε τ ρ) :
    ActiveReader (σ × List (Entry ε τ ρ α)) ε τ ρ where
  ruleOf item := (reader.ruleOf item).beside fun result log => log ++ [.read item result]
  isMissingKey := reader.isMissingKey
  unhashable := reader.unhashable

namespace Entry

/-- The operand that a callback was called for. -/
def operand? : Entry ε τ ρ α → Option τ
  | call response => response.operand?
  | read _ _ => none
  | note _ => none

/-- The number of the calls for operands. -/
def operands (entries : List (Entry ε τ ρ α)) : Nat :=
  (entries.filterMap operand?).length

@[simp] theorem operands_concat_operand (entries : List (Entry ε τ ρ α)) (item : τ)
    (result : Except ε α) :
    operands (entries ++ [.call (.operand item result)]) = operands entries + 1 := by
  simp [operands, operand?, Response.operand?, Response.step, Step.operand?]

@[simp] theorem operands_concat_operator (entries : List (Entry ε τ ρ α)) (left : α) (op : τ)
    (right : α) (result : Except ε α) :
    operands (entries ++ [.call (.operator left op right result)]) = operands entries := by
  simp [operands, operand?, Response.operand?, Response.step, Step.operand?]

@[simp] theorem operands_concat_read (entries : List (Entry ε τ ρ α)) (item : τ)
    (result : Except ε ρ) : operands (entries ++ [.read item result]) = operands entries := by
  simp [operands, operand?]

@[simp] theorem operands_concat_note (entries : List (Entry ε τ ρ α)) (content : Note τ) :
    operands (entries ++ [.note content]) = operands entries := by
  simp [operands, operand?]

/-- No reading has failed, but for want of a key. -/
def AllRead (isMissingKey : ε → Bool) (entries : List (Entry ε τ ρ α)) : Prop :=
  ∀ item e, .read item (.error e) ∈ entries → isMissingKey e = true

theorem AllRead.concat {isMissingKey : ε → Bool} {entries : List (Entry ε τ ρ α)}
    {entry : Entry ε τ ρ α} (h : AllRead isMissingKey entries)
    (hentry : ∀ item e, entry = .read item (.error e) → isMissingKey e = true) :
    AllRead isMissingKey (entries ++ [entry]) := by
  intro item e hmem
  rcases List.mem_append.1 hmem with hmem | hmem
  · exact h item e hmem
  · exact hentry item e (List.mem_singleton.1 hmem).symm

end Entry

/-! ### Taken items -/

/-- Where a look finds no item, there is none to take. -/
theorem Buffer.next_of_peek_ended {buffer later : Buffer ε τ} {detail : Option ε}
    (h : buffer.peek = (.ended detail, later)) : buffer.next = (.ended detail, later) := by
  rw [peek] at h
  rcases hnext : buffer.next with ⟨outcome, rest⟩
  rw [hnext] at h
  cases outcome <;> simp_all

/-- `left` is what is left of some outcomes when `count` items have been taken, and the pauses
before and between them. -/
def Took (outcomes : List (Pull ε τ)) (count : Nat) (left : List (Pull ε τ)) : Prop :=
  ∃ taken, outcomes = taken ++ left ∧ (taken.filterMap Pull.item?).length = count

namespace Took

variable {outcomes left : List (Pull ε τ)} {count : Nat} {buffer later : Buffer ε τ}

theorem refl (outcomes : List (Pull ε τ)) : Took outcomes 0 outcomes :=
  ⟨[], rfl, rfl⟩

theorem item {a : τ} (h : Took outcomes count (.item a :: left)) :
    Took outcomes (count + 1) left := by
  obtain ⟨taken, rfl, rfl⟩ := h
  exact ⟨taken ++ [.item a], by simp, by simp [Pull.item?]⟩

/-- Where there is no item, no item is taken. -/
theorem pause (h : Took outcomes count buffer.remaining) {detail : Option ε}
    (hnext : buffer.next = (.ended detail, later)) : Took outcomes count later.remaining := by
  have hfirst := buffer.next_fst
  have hrest := buffer.remaining_next
  rw [hnext] at hfirst hrest
  rw [hrest]
  obtain ⟨taken, hsplit, hcount⟩ := h
  cases hremaining : buffer.remaining with
  | nil =>
    rw [hremaining] at hsplit
    exact ⟨taken, hsplit, hcount⟩
  | cons outcome rest =>
    rw [hremaining] at hfirst hsplit
    obtain rfl : .ended detail = outcome := hfirst
    exact ⟨taken ++ [.ended detail], by simp [hsplit], by simp [Pull.item?, hcount]⟩

end Took

/-! ### Steps -/

/-- A climb with a log, beside one without: no reading has failed, and of the items that the buffer
delivers, `ahead` have been taken beyond the last operand that there was a call for. -/
structure Logged (isMissingKey : ε → Bool) (outcomes : List (Pull ε τ)) (ahead : Nat)
    (s₁ : ClimbState (σ × List (Entry ε τ ρ α)) ε τ) (s₂ : ClimbState σ ε τ) : Prop where
  buffer : s₁.buffer = s₂.buffer
  user : s₁.user.1 = s₂.user
  read : Entry.AllRead isMissingKey s₁.user.2
  taken : ∃ count, Took outcomes count s₁.buffer.remaining ∧
    count + 1 = 2 * Entry.operands s₁.user.2 + ahead

/-- The same failure of both climbs. If a reading has failed, then that is the last entry, its
complaint is that of the climbs, and the item is the next that the buffer delivers. -/
structure FailsLogged (isMissingKey : ε → Bool) (outcomes : List (Pull ε τ)) (e₁ e₂ : ε)
    (s₁ : ClimbState (σ × List (Entry ε τ ρ α)) ε τ) (s₂ : ClimbState σ ε τ) : Prop where
  complaint : e₁ = e₂
  buffer : s₁.buffer = s₂.buffer
  user : s₁.user.1 = s₂.user
  reading : Entry.AllRead isMissingKey s₁.user.2 ∨ ∃ entries item rest count,
    s₁.user.2 = entries ++ [.read item (.error e₁)] ∧ Entry.AllRead isMissingKey entries ∧
      s₁.buffer.remaining = .item item :: rest ∧ Took outcomes count (.item item :: rest) ∧
      count + 1 = 2 * Entry.operands entries

section

variable {isMissingKey : ε → Bool} {outcomes : List (Pull ε τ)} {ahead : Nat}
  {s₁ : ClimbState (σ × List (Entry ε τ ρ α)) ε τ} {s₂ : ClimbState σ ε τ}

/-- A failure of something other than a reading. -/
theorem Logged.fails (h : Logged isMissingKey outcomes ahead s₁ s₂) (e : ε) :
    FailsLogged isMissingKey outcomes e e s₁ s₂ :=
  ⟨rfl, h.buffer, h.user, .inl h.read⟩

/-- Nothing comes after a reading that has failed. -/
theorem FailsLogged.of_read {e₁ e₂ : ε} (h : FailsLogged isMissingKey outcomes e₁ e₂ s₁ s₂)
    {front back : List (Entry ε τ ρ α)} {item : τ} {e : ε}
    (hlog : s₁.user.2 = front ++ .read item (.error e) :: back) (hkey : isMissingKey e = false) :
    e₁ = e ∧ back = [] ∧ ∃ taken rest, outcomes = taken ++ .item item :: rest ∧
      s₁.buffer.remaining = .item item :: rest ∧
      (taken.filterMap Pull.item?).length + 1 = 2 * Entry.operands front := by
  rcases h.reading with hread | ⟨entries, last, rest, count, hentries, hread, hnext, htook, hcount⟩
  · exact absurd (hread item e (by rw [hlog]; simp)) (by simp [hkey])
  · rw [hentries] at hlog
    rcases List.eq_nil_or_concat back with rfl | ⟨back, later, rfl⟩
    · obtain ⟨rfl, hlast⟩ := List.append_inj' hlog rfl
      cases hlast
      obtain ⟨taken, hsplit, rfl⟩ := htook
      exact ⟨rfl, rfl, taken, rest, hsplit, hnext, hcount⟩
    · rw [List.concat_eq_append, ← List.cons_append, ← List.append_assoc] at hlog
      obtain ⟨rfl, -⟩ := List.append_inj' hlog rfl
      exact absurd (hread item e (by simp)) (by simp [hkey])

/-- However both climbs end, they end alike, and nothing comes after a reading that has failed. -/
theorem Agree.of_read {end₁ : Except ε α × ClimbState (σ × List (Entry ε τ ρ α)) ε τ}
    {end₂ : Except ε α × ClimbState σ ε τ}
    (h : Agree (fun a₁ a₂ s₁ s₂ => a₁ = a₂ ∧ Logged isMissingKey outcomes ahead s₁ s₂)
      (FailsLogged isMissingKey outcomes) end₁ end₂) :
    end₁.1 = end₂.1 ∧ end₁.2.buffer = end₂.2.buffer ∧ end₁.2.user.1 = end₂.2.user ∧
      ∀ front item e back, end₁.2.user.2 = front ++ .read item (.error e) :: back →
        isMissingKey e = false → end₁.1 = .error e ∧ back = [] ∧
          ∃ taken rest, outcomes = taken ++ .item item :: rest ∧
            end₁.2.buffer.remaining = .item item :: rest ∧
            (taken.filterMap Pull.item?).length + 1 = 2 * Entry.operands front := by
  cases h with
  | ok h =>
    obtain ⟨rfl, hlogged⟩ := h
    refine ⟨rfl, hlogged.buffer, hlogged.user, fun front item e back hlog hkey => ?_⟩
    exact absurd (hlogged.read item e (by rw [hlog]; simp)) (by simp [hkey])
  | error h =>
    refine ⟨congrArg _ h.complaint, h.buffer, h.user, fun front item e back hlog hkey => ?_⟩
    obtain ⟨rfl, hback, hrest⟩ := h.of_read hlog hkey
    exact ⟨rfl, hback, hrest⟩

/-- An entry that is neither a reading nor a call for an operand. -/
theorem Logged.entry (h : Logged isMissingKey outcomes ahead s₁ s₂) (entry : Entry ε τ ρ α)
    (hread : ∀ item e, entry = .read item (.error e) → isMissingKey e = true)
    (hoperands : Entry.operands (s₁.user.2 ++ [entry]) = Entry.operands s₁.user.2) (user : σ) :
    Logged isMissingKey outcomes ahead
      (⟨s₁.buffer, user, s₁.user.2 ++ [entry]⟩ : ClimbState (σ × List (Entry ε τ ρ α)) ε τ)
      ⟨s₁.buffer, user⟩ :=
  ⟨rfl, rfl, h.read.concat hread, by rw [hoperands]; exact h.taken⟩

end

section

variable {isMissingKey : ε → Bool} {outcomes : List (Pull ε τ)} {ahead : Nat}

open ClimbM

/-- An operator that has been looked at is taken. -/
theorem nextOperator_logged (op : τ) :
    Coupled (fun s₁ s₂ => Logged isMissingKey outcomes ahead s₁ s₂ ∧
        ∃ rest, s₁.buffer.remaining = .item op :: rest)
      (next : ClimbM (σ × List (Entry ε τ ρ α)) ε τ _) (next : ClimbM σ ε τ _)
      (fun _ _ s₁ s₂ => Logged isMissingKey outcomes (ahead + 1) s₁ s₂)
      (FailsLogged isMissingKey outcomes) := by
  rintro s₁ s₂ ⟨hs, rest, hop⟩
  rw [run_next_of_cons hop, run_next_of_cons (hs.buffer ▸ hop), ← hs.buffer]
  obtain ⟨count, htook, hcount⟩ := hs.taken
  rw [hop] at htook
  refine .ok ⟨rfl, hs.user, hs.read, count + 1, ?_, by dsimp only; omega⟩
  rw [(Buffer.next_of_remaining_cons hop).2]
  exact htook.item

theorem next_logged :
    Coupled (Logged isMissingKey outcomes ahead) (next : ClimbM (σ × List (Entry ε τ ρ α)) ε τ _)
      (next : ClimbM σ ε τ _)
      (fun a₁ a₂ s₁ s₂ => a₁ = a₂ ∧ match a₁ with
        | none => Logged isMissingKey outcomes ahead s₁ s₂
        | some _ => Logged isMissingKey outcomes (ahead + 1) s₁ s₂)
      (FailsLogged isMissingKey outcomes) := by
  intro s₁ s₂ hs
  obtain ⟨count, htook, hcount⟩ := hs.taken
  rw [next, next, run_onBuffer, run_onBuffer, ← hs.buffer]
  rcases hnext : s₁.buffer.next with ⟨outcome, later⟩
  cases outcome with
  | item a =>
    rw [Buffer.remaining_of_next hnext] at htook
    exact .ok ⟨rfl, rfl, hs.user, hs.read, count + 1, htook.item, by dsimp only; omega⟩
  | ended detail => exact .ok ⟨rfl, rfl, hs.user, hs.read, count, htook.pause hnext, hcount⟩
  | fault e => exact .error ⟨rfl, rfl, hs.user, .inl hs.read⟩

theorem run_peekLevel_of_item (level? : τ → Act σ ε (Option Level)) {s : ClimbState σ ε τ} {a : τ}
    {later : Buffer ε τ} (hpeek : s.buffer.peek = (.item a, later)) :
    (peekLevel level?).run.run s = (((level? a).run.run s.user).1.map (·.map (a, ·)),
      ⟨later, ((level? a).run.run s.user).2⟩) := by
  have hseen : (peek : ClimbM σ ε τ _).run.run s = (.ok (some a), ⟨later, s.user⟩) := by
    rw [peek, run_onBuffer, hpeek]
  rw [peekLevel, run_bind_ok hseen]
  dsimp only
  rw [run_bind, run_onUser]
  rcases (level? a).run.run s.user with ⟨_ | level, user⟩ <;> rfl

theorem run_peekLevel_of_ended (level? : τ → Act σ ε (Option Level)) {s : ClimbState σ ε τ}
    {detail : Option ε} {later : Buffer ε τ} (hpeek : s.buffer.peek = (.ended detail, later)) :
    (peekLevel level?).run.run s = (.ok none, ⟨later, s.user⟩) := by
  rw [peekLevel, run_bind, peek, run_onBuffer, hpeek]
  rfl

theorem run_peekLevel_of_fault (level? : τ → Act σ ε (Option Level)) {s : ClimbState σ ε τ} {e : ε}
    {later : Buffer ε τ} (hpeek : s.buffer.peek = (.fault e, later)) :
    (peekLevel level?).run.run s = (.error e, ⟨later, s.user⟩) := by
  rw [peekLevel, run_bind, peek, run_onBuffer, hpeek]

/-- A look at the next item reads its rule. -/
theorem look_logged [RuleKey ρ] (climber : Climber ρ) (reader : ActiveReader σ ε τ ρ) :
    Coupled (Logged reader.isMissingKey outcomes 0)
      (peekLevel (climber.activeLevel? reader.logged) :
        ClimbM (σ × List (Entry ε τ ρ α)) ε τ _)
      (peekLevel (climber.activeLevel? reader) : ClimbM σ ε τ _)
      (fun a₁ a₂ s₁ s₂ => a₁ = a₂ ∧ Logged reader.isMissingKey outcomes 0 s₁ s₂ ∧
        ∀ op level, a₁ = some (op, level) → ∃ rest, s₁.buffer.remaining = .item op :: rest)
      (FailsLogged reader.isMissingKey outcomes) := by
  intro s₁ s₂ hs
  obtain ⟨count, htook, hcount⟩ := hs.taken
  rcases hpeek : s₁.buffer.peek with ⟨outcome, later⟩
  have hpeek₂ : s₂.buffer.peek = (outcome, later) := hs.buffer ▸ hpeek
  cases outcome with
  | ended detail =>
    have hnext := Buffer.next_of_peek_ended hpeek
    rw [run_peekLevel_of_ended _ hpeek, run_peekLevel_of_ended _ hpeek₂]
    exact .ok ⟨rfl, ⟨rfl, hs.user, hs.read, count, htook.pause hnext, hcount⟩, nofun⟩
  | fault e =>
    rw [run_peekLevel_of_fault _ hpeek, run_peekLevel_of_fault _ hpeek₂]
    exact .error ⟨rfl, rfl, hs.user, .inl hs.read⟩
  | item a =>
    obtain ⟨rest, hremaining, hlater⟩ := Buffer.remaining_of_peek hpeek
    rw [hremaining] at htook
    have hseen : Logged reader.isMissingKey outcomes 0
        (⟨later, s₁.user⟩ : ClimbState (σ × List (Entry ε τ ρ α)) ε τ) ⟨later, s₂.user⟩ :=
      ⟨rfl, hs.user, hs.read, count, hlater ▸ htook, hcount⟩
    rw [run_peekLevel_of_item _ hpeek, run_peekLevel_of_item _ hpeek₂, climber.run_activeLevel?,
      climber.run_activeLevel?, ActiveReader.logged]
    simp only [run_beside]
    rw [hs.user]
    rcases (reader.ruleOf a).run.run s₂.user with ⟨result, user⟩
    have hsees (level : Option Level) (op : τ) (seen : Level)
        (h : level.map (a, ·) = some (op, seen)) : ∃ rest, later.remaining = .item op :: rest := by
      obtain ⟨_, -, ⟨⟩⟩ := Option.map_eq_some_iff.1 h
      exact ⟨rest, hlater⟩
    cases result with
    | error e =>
      cases hkey : reader.isMissingKey e with
      | true =>
        have hread := hseen.entry (.read a (.error e)) (by rintro _ _ ⟨⟩; exact hkey)
          (Entry.operands_concat_read _ _ _) user
        simp only [Climber.levelOf, hkey]
        exact .ok ⟨rfl, hread, nofun⟩
      | false =>
        simp only [Climber.levelOf, hkey]
        refine .error ⟨rfl, rfl, rfl, .inr ?_⟩
        exact ⟨s₁.user.2, a, rest, count, rfl, hs.read, hlater, htook, hcount⟩
    | ok rule =>
      have hread := hseen.entry (.read a (.ok rule)) (by rintro _ _ ⟨⟩)
        (Entry.operands_concat_read _ _ _) user
      simp only [Climber.levelOf]
      cases climber.table.lookup rule with
      | error className => exact .error (hread.fails _)
      | ok level => exact .ok ⟨rfl, hread, hsees level⟩

variable (hooks : Hooks σ ε τ α)

/-- A call for an operand that has been taken after an operator. -/
theorem primary_logged (item : τ) :
    Coupled (Logged isMissingKey outcomes 2)
      (onUser (hooks.logged.primary · item) : ClimbM (σ × List (Entry ε τ ρ α)) ε τ α)
      (onUser (hooks.primary · item) : ClimbM σ ε τ α)
      (fun a₁ a₂ s₁ s₂ => a₁ = a₂ ∧ Logged isMissingKey outcomes 0 s₁ s₂)
      (FailsLogged isMissingKey outcomes) := by
  intro s₁ s₂ hs
  obtain ⟨count, htook, hcount⟩ := hs.taken
  rw [run_onUser, run_onUser, Hooks.logged]
  simp only [run_beside]
  rw [← hs.buffer, hs.user]
  rcases (hooks.primary s₁.buffer.asked item).run.run s₂.user with ⟨result, user⟩
  have hcalled : Logged isMissingKey outcomes 0
      (⟨s₁.buffer, user, s₁.user.2 ++ [.call (.operand item result)]⟩ :
        ClimbState (σ × List (Entry ε τ ρ α)) ε τ) ⟨s₁.buffer, user⟩ := by
    refine ⟨rfl, rfl, hs.read.concat (by rintro _ _ ⟨⟩), count, htook, ?_⟩
    rw [Entry.operands_concat_operand]
    omega
  cases result with
  | ok a => exact .ok ⟨rfl, hcalled⟩
  | error e => exact .error (hcalled.fails e)

theorem combine_logged (left : α) (op : τ) (right : α) :
    Coupled (Logged isMissingKey outcomes ahead)
      (onUser (hooks.logged.combine · left op right) : ClimbM (σ × List (Entry ε τ ρ α)) ε τ α)
      (onUser (hooks.combine · left op right) : ClimbM σ ε τ α)
      (fun a₁ a₂ s₁ s₂ => a₁ = a₂ ∧ Logged isMissingKey outcomes ahead s₁ s₂)
      (FailsLogged isMissingKey outcomes) := by
  rintro ⟨buffer, user₁, log⟩ ⟨_, user₂⟩ hs
  obtain rfl : buffer = _ := hs.buffer
  obtain rfl : user₁ = user₂ := hs.user
  rw [run_onUser, run_onUser, Hooks.logged]
  simp only [run_beside]
  rcases (hooks.combine buffer.asked left op right).run.run user₁ with ⟨result, user⟩
  have hcalled := hs.entry (.call (.operator left op right result)) (by rintro _ _ ⟨⟩)
    (Entry.operands_concat_operator _ _ _ _ _) user
  cases result with
  | ok a => exact .ok ⟨rfl, hcalled⟩
  | error e => exact .error (hcalled.fails e)

theorem observe_logged (content : Note τ) :
    Coupled (Logged isMissingKey outcomes ahead)
      (onUser fun _ => (hooks.logged : Hooks (σ × List (Entry ε τ ρ α)) ε τ α).observe content :
        ClimbM (σ × List (Entry ε τ ρ α)) ε τ Unit)
      (onUser fun _ => hooks.observe content : ClimbM σ ε τ Unit)
      (fun _ _ s₁ s₂ => Logged isMissingKey outcomes ahead s₁ s₂)
      (FailsLogged isMissingKey outcomes) := by
  rintro ⟨buffer, user₁, log⟩ ⟨_, user₂⟩ hs
  obtain rfl : buffer = _ := hs.buffer
  obtain rfl : user₁ = user₂ := hs.user
  rw [run_onUser, run_onUser]
  exact .ok (hs.entry (.note content) (by rintro _ _ ⟨⟩) (Entry.operands_concat_note _ _) _)

end

/-! ### Loops -/

section

variable [RuleKey ρ] (outcomes : List (Pull ε τ)) (climber : Climber ρ)
  (reader : ActiveReader σ ε τ ρ) (emptyInput : ε) (missingOperand : τ → ε) (hooks : Hooks σ ε τ α)

/-- The outer loop keeps its log. -/
def OuterLogged (fuel : Nat) : Prop :=
  ∀ floor left, Coupled (Logged reader.isMissingKey outcomes 0)
    ((climber.outlook reader.logged emptyInput missingOperand).climbFrom
      (hooks.logged : Hooks (σ × List (Entry ε τ ρ α)) ε τ α) fuel floor left)
    ((climber.outlook reader emptyInput missingOperand).climbFrom hooks fuel floor left)
    (fun a₁ a₂ s₁ s₂ => a₁ = a₂ ∧ Logged reader.isMissingKey outcomes 0 s₁ s₂)
    (FailsLogged reader.isMissingKey outcomes)

/-- The inner loop keeps its log. -/
def InnerLogged (fuel : Nat) : Prop :=
  ∀ prec right, Coupled (Logged reader.isMissingKey outcomes 0)
    ((climber.outlook reader.logged emptyInput missingOperand).absorb
      (hooks.logged : Hooks (σ × List (Entry ε τ ρ α)) ε τ α) fuel prec right)
    ((climber.outlook reader emptyInput missingOperand).absorb hooks fuel prec right)
    (fun a₁ a₂ s₁ s₂ => a₁ = a₂ ∧ Logged reader.isMissingKey outcomes 0 s₁ s₂)
    (FailsLogged reader.isMissingKey outcomes)

open ClimbM

variable {outcomes climber reader emptyInput missingOperand hooks}

/-- A round of the outer loop takes an operator and its operand, and calls for the operand. -/
theorem outerLogged_succ {fuel : Nat}
    (ihFrom : OuterLogged outcomes climber reader emptyInput missingOperand hooks fuel)
    (ihAbsorb : InnerLogged outcomes climber reader emptyInput missingOperand hooks fuel) :
    OuterLogged outcomes climber reader emptyInput missingOperand hooks (fuel + 1) := by
  intro floor left
  rw [Outlook.climbFrom, Outlook.climbFrom]
  refine Coupled.bind (look_logged climber reader) fun seen _ => Coupled.of_rel ?_
  rintro rfl
  rcases seen with _ | ⟨op, level⟩
  · exact Coupled.pure fun _ _ hs => ⟨rfl, hs.1⟩
  dsimp only
  split
  · exact Coupled.pure fun _ _ hs => ⟨rfl, hs.1⟩
  refine Coupled.bind ((nextOperator_logged op).mono (fun _ _ hs => ⟨hs.1, hs.2 op level rfl⟩)
    (fun _ _ _ _ hs => hs) fun _ _ _ _ hs => hs) fun _ _ => ?_
  refine Coupled.bind next_logged fun taken _ => Coupled.of_rel ?_
  rintro rfl
  cases taken with
  | none => exact Coupled.throw fun _ _ hs => hs.fails _
  | some item =>
    refine Coupled.bind (primary_logged hooks item) fun operand _ => Coupled.of_rel ?_
    rintro rfl
    refine Coupled.bind (ihAbsorb _ operand) fun right _ => Coupled.of_rel ?_
    rintro rfl
    refine Coupled.bind (observe_logged hooks _) fun _ _ => ?_
    refine Coupled.bind (combine_logged hooks left op right) fun value _ => Coupled.of_rel ?_
    rintro rfl
    exact ihFrom floor value

/-- A round of the inner loop only looks ahead. -/
theorem innerLogged_succ {fuel : Nat}
    (ihFrom : OuterLogged outcomes climber reader emptyInput missingOperand hooks fuel)
    (ihAbsorb : InnerLogged outcomes climber reader emptyInput missingOperand hooks fuel) :
    InnerLogged outcomes climber reader emptyInput missingOperand hooks (fuel + 1) := by
  intro prec right
  rw [Outlook.absorb, Outlook.absorb]
  refine Coupled.bind (look_logged climber reader) fun seen _ => Coupled.of_rel ?_
  rintro rfl
  rcases seen with _ | ⟨op, level⟩
  · exact Coupled.pure fun _ _ hs => ⟨rfl, hs.1⟩
  dsimp only
  split
  · refine Coupled.bind ((observe_logged hooks _).mono (fun _ _ hs => hs.1)
      (fun _ _ _ _ hs => hs) fun _ _ _ _ hs => hs) fun _ _ => ?_
    refine Coupled.bind (ihFrom level.prec right) fun value _ => Coupled.of_rel ?_
    rintro rfl
    exact ihAbsorb prec value
  · exact Coupled.pure fun _ _ hs => ⟨rfl, hs.1⟩

/-- Both loops keep their log. -/
theorem loops_logged (fuel : Nat) :
    OuterLogged outcomes climber reader emptyInput missingOperand hooks fuel ∧
      InnerLogged outcomes climber reader emptyInput missingOperand hooks fuel := by
  induction fuel with
  | zero => exact ⟨fun _ _ _ _ hs => .ok ⟨rfl, hs⟩, fun _ _ _ _ hs => .ok ⟨rfl, hs⟩⟩
  | succ fuel ih => exact ⟨outerLogged_succ ih.1 ih.2, innerLogged_succ ih.1 ih.2⟩

variable (climber reader emptyInput missingOperand hooks) in
theorem climb_logged (fuel : Buffer ε τ → Nat) :
    Coupled (Logged reader.isMissingKey outcomes 1)
      ((climber.outlook reader.logged emptyInput missingOperand).climb
        (hooks.logged : Hooks (σ × List (Entry ε τ ρ α)) ε τ α) fuel)
      ((climber.outlook reader emptyInput missingOperand).climb hooks fuel)
      (fun a₁ a₂ s₁ s₂ => a₁ = a₂ ∧ Logged reader.isMissingKey outcomes 0 s₁ s₂)
      (FailsLogged reader.isMissingKey outcomes) := by
  rw [Outlook.climb, Outlook.climb]
  refine Coupled.bind next_logged fun first _ => Coupled.of_rel ?_
  rintro rfl
  cases first with
  | none => exact Coupled.throw fun _ _ hs => hs.fails _
  | some first =>
    refine Coupled.bind (primary_logged hooks first) fun left _ => Coupled.of_rel ?_
    rintro rfl s₁ s₂ hs
    rw [run_bind_ok (run_get s₁), run_bind_ok (run_get s₂), hs.buffer]
    exact (loops_logged _).1 0 left s₁ s₂ hs

end

section

variable [RuleKey ρ] (climber : Climber ρ) (emptyInput : ε) (missingOperand : τ → ε)
  (hooks : Hooks σ ε τ α)

/-- A climb over the operators of a climber is one whose reader finds the same whenever it reads an
item. -/
theorem runClimb_active (reader : RuleReader ε τ ρ) (buffer : Buffer ε τ) :
    runClimb (climber.grammar reader emptyInput missingOperand) hooks buffer =
      (climber.outlook reader.active emptyInput missingOperand).runClimb hooks (·.size + 2)
        buffer := by
  rw [climber.outlook_active]
  rfl

/-- The log of a climb tells all readings of rules, all calls of the callbacks and all that the
observer is told. If a reading fails, and not for want of a key, then it is the last entry, whatever
the readings before it have found, the climb fails with its complaint, and the buffer delivers the
item whose rule was read, and all that come after it. Before that item there are an operand for each
call for an operand, and the operators between them. -/
theorem runClimb_failed_reading (reader : ActiveReader σ ε τ ρ) (fuel : Buffer ε τ → Nat)
    (buffer : Buffer ε τ) (s : σ) :
    let plain :=
      ((climber.outlook reader emptyInput missingOperand).runClimb hooks fuel buffer).run s
    let ends := ((climber.outlook reader.logged emptyInput missingOperand).runClimb hooks.logged
      fuel buffer).run (s, [])
    let log := ends.2.2
    (ends.1 = plain.1 ∧ ends.2.1 = plain.2) ∧
      ∀ front item e back, log = front ++ .read item (.error e) :: back →
        reader.isMissingKey e = false →
          plain.1.1 = .error e ∧ back = [] ∧
            ∃ taken rest, buffer.remaining = taken ++ .item item :: rest ∧
              plain.1.2.remaining = .item item :: rest ∧
              (taken.filterMap Pull.item?).length + 1 = 2 * Entry.operands front := by
  intro plain ends log
  -- No operator comes before the first operand, so a climb starts as if it had taken one.
  have hstart : Logged reader.isMissingKey buffer.remaining 1
      (⟨buffer, s, []⟩ : ClimbState (σ × List (Entry ε τ ρ α)) ε τ) ⟨buffer, s⟩ :=
    ⟨rfl, rfl, by rintro _ _ ⟨⟩, 0, .refl _, rfl⟩
  obtain ⟨hresult, hbuffer, huser, hread⟩ :=
    (climb_logged climber reader emptyInput missingOperand hooks fuel _ _ hstart).of_read
  have hends : ends.1 = plain.1 := Prod.ext hresult hbuffer
  refine ⟨⟨hends, huser⟩, fun front item e back hlog hkey => ?_⟩
  rw [← hends]
  exact hread front item e back hlog hkey

end

/-- A reader that fails when it reads for the third time. -/
def fadingReader : ActiveReader Nat String Kind Kind where
  ruleOf kind := do
    let count ← get
    set (count + 1)
    if count = 2 then throw "unreadable" else pure kind
  isMissingKey _ := false
  unhashable := id

/-- Callbacks beside a count of readings. -/
def countingHooks : Hooks Nat String Kind (Tree Kind) where
  primary _ item := pure (.leaf item)
  combine _ left op right := pure (.node op left right)
  observe _ := pure ()

/-- The rule of a times after a sum is read by the inner loop, and once more by the climb that this
loop starts. If it is only then that it cannot be read, the climb fails nevertheless, and leaves the
times. -/
theorem runClimb_failed_reading_times :
    let outlook := (⟨Kind.groups, Kind.table⟩ : Climber Kind).outlook fadingReader "empty" Kind.name
    let buffer : Buffer String Kind := .ofList [.num, .op .plus, .num, .op .times, .num]
    let plain := (outlook.runClimb countingHooks (·.size + 2) buffer).run 0
    let ends := (((⟨Kind.groups, Kind.table⟩ : Climber Kind).outlook fadingReader.logged "empty"
      Kind.name).runClimb countingHooks.logged (·.size + 2) buffer).run (0, [])
    let front : List (Entry String Kind Kind (Tree Kind)) :=
      [.call (.operand .num (.ok (.leaf .num))), .read (.op .plus) (.ok (.op .plus)),
        .call (.operand .num (.ok (.leaf .num))), .read (.op .times) (.ok (.op .times)),
        .note (.absorbing (.op .times) 2)]
    ends.2.2 = front ++ .read (.op .times) (.error "unreadable") :: [] ∧
      fadingReader.isMissingKey "unreadable" = false ∧ Entry.operands front = 2 ∧
      plain.1.1 = .error "unreadable" ∧
      plain.1.2.remaining = [Kind.op .times, .num].map .item := by
  intro outlook buffer plain ends front
  have hlog : ends.2.2 = front ++ .read (.op .times) (.error "unreadable") :: [] := rfl
  have hkey : fadingReader.isMissingKey "unreadable" = false := rfl
  obtain ⟨herror, -, -⟩ :=
    (runClimb_failed_reading ⟨Kind.groups, Kind.table⟩ "empty" Kind.name countingHooks fadingReader
      (·.size + 2) buffer 0).2 front _ _ [] hlog hkey
  exact ⟨hlog, hkey, rfl, herror, rfl⟩

/-- Callbacks that build the tree of a climb. -/
def growing : Callbacks Unit ε τ (Tree τ) where
  primary item := pure (.leaf item)
  combine left op right := pure (.node op left right)

/-- If reading the rule of a times fails for want of a key, then the climb does not fail: it ends
before the times with the sum of the two numbers. -/
theorem runClimb_unreadable_key :
    let fault : Fault := ⟨"KeyError", [.text "q"]⟩
    let reader := (RuleAccess.failing (.text "*") fault).reader
    let groups : List (Group Value) :=
      [.left [.text "+", .text "-"], .left [.text "*", .text "/"], .right [.text "^"]]
    let climber : Climber Value := ⟨groups, ⟨Table.levelled 1 groups⟩⟩
    let pair (rule : String) (i : Int) : Value :=
      .pair (.leaf (.text rule) (.index i) (.index (i + 1)))
    let ends := (runClimb (climber.grammar reader emptyInput missingOperand)
      (growing.hooks fun _ => (pure () : StateM Unit Unit))
      (.ofList [pair "n" 0, pair "+" 1, pair "n" 2, pair "*" 3, pair "n" 4])).run ((), ())
    reader.ruleOf (pair "*" 3) = .error fault ∧
      ends.1.1 = .ok (.node (pair "+" 1) (.leaf (pair "n" 0)) (.leaf (pair "n" 2))) ∧
      ends.1.2.remaining = [pair "*" 3, pair "n" 4].map .item :=
  ⟨rfl, rfl, rfl⟩

end Precedence
