import Mathlib
import Precedence.Proofs.Equality
import Precedence.Table

/-!
# Building tables

A table is built of listed entries one by one. Where rules may be replaced, an entry takes the place of
the first equal one and the level of the last. Where they may not, there is a table only if all rules
differ, and it is the list itself. Rules are called equal if they are the same key.

## Main definitions

- `Table.Distinct` — entries no two of which have equal rules
- `Table.firstOnes`, `Table.lastOnes` — the entries that equal none before, or none after them
- `Table.lastLevel?` — the level of the last entry of a rule
- `Table.overwritten` — the entries that are left when rules are replaced

## Main statements

- `Table.find?_insert` — the levels after an entry is put into a table
- `Table.entries_insertAll` — the table of entries that are put into it one by one
- `Table.addAll_of_distinct`, `Table.addAll_of_duplicate` — tables without replacement
- `Table.addAll_replace` — tables with replacement
- `Table.distinct_lastOnes`, `Table.lastLevel?_lastOnes` — the last entries of all rules are distinct
  and have the same levels
-/

namespace Precedence

namespace Table

variable {ρ : Type} [RuleKey ρ]

/-- All the rules of some entries can be keys. -/
abbrev AllKeys (entries : List (ρ × Level)) : Prop :=
  ∀ entry ∈ entries, RuleKey.unhashable? entry.1 = none

/-- No two entries have equal rules. -/
abbrev Distinct (entries : List (ρ × Level)) : Prop :=
  entries.Pairwise fun a b => RuleKey.same a.1 b.1 = false

/-- The entries whose rules equal none before them, neither in the list nor in `earlier`. -/
def firstOnes (earlier : List ρ) : List (ρ × Level) → List (ρ × Level)
  | [] => []
  | entry :: rest =>
    if earlier.any fun rule => RuleKey.same rule entry.1 then firstOnes (earlier ++ [entry.1]) rest
    else entry :: firstOnes (earlier ++ [entry.1]) rest

/-- The items whose rules equal none after them, neither in the list nor in `later`. -/
def lastOnes {α : Type} (ruleOf : α → ρ) (later : List ρ) : List α → List α
  | [] => []
  | a :: rest =>
    if (rest.map ruleOf ++ later).any fun rule => RuleKey.same (ruleOf a) rule then
      lastOnes ruleOf later rest
    else a :: lastOnes ruleOf later rest

/-- The level of the last entry of a rule. -/
def lastLevel? (entries : List (ρ × Level)) (rule : ρ) : Option Level :=
  (entries.reverse.find? fun entry => RuleKey.same entry.1 rule).map (·.2)

/-- The entries that are left when rules are replaced: every rule stays where it was first, with the
level that it was given last. -/
def overwritten (entries : List (ρ × Level)) : List (ρ × Level) :=
  (firstOnes [] entries).map fun entry => (entry.1, (lastLevel? entries entry.1).getD entry.2)

/-! ### Entries one by one -/

/-- Put entries into a table, one by one. -/
def insertAll (entries : List (ρ × Level)) (table : Table ρ) : Table ρ :=
  entries.foldl (fun table entry => table.insert entry.1 entry.2) table

theorem insertAll_append_singleton (entries : List (ρ × Level)) (entry : ρ × Level) (table : Table ρ) :
    insertAll (entries ++ [entry]) table = (insertAll entries table).insert entry.1 entry.2 := by
  simp [insertAll]

theorem lastLevel?_append_singleton (entries : List (ρ × Level)) (entry : ρ × Level) (rule : ρ) :
    lastLevel? (entries ++ [entry]) rule =
      if RuleKey.same entry.1 rule then some entry.2 else lastLevel? entries rule := by
  rw [lastLevel?, List.reverse_append, List.reverse_singleton, List.singleton_append, List.find?_cons]
  cases RuleKey.same entry.1 rule <;> rfl

theorem lastLevel?_cons (entry : ρ × Level) (entries : List (ρ × Level)) (rule : ρ) :
    lastLevel? (entry :: entries) rule =
      (lastLevel? entries rule).or (if RuleKey.same entry.1 rule then some entry.2 else none) := by
  rw [lastLevel?, List.reverse_cons, List.find?_append, Option.map_or, lastLevel?,
    List.find?_singleton]
  cases RuleKey.same entry.1 rule <;> rfl

theorem lastLevel?_eq_none_iff {entries : List (ρ × Level)} {rule : ρ} :
    lastLevel? entries rule = none ↔ ∀ entry ∈ entries, RuleKey.same entry.1 rule = false := by
  simp [lastLevel?]

theorem find?_eq_none_iff {table : Table ρ} {rule : ρ} :
    table.find? rule = none ↔ ∀ entry ∈ table.entries, RuleKey.same entry.1 rule = false := by
  simp [find?]

theorem firstOnes_append (entries entries' : List (ρ × Level)) (earlier : List ρ) :
    firstOnes earlier (entries ++ entries') =
      firstOnes earlier entries ++ firstOnes (earlier ++ entries.map (·.1)) entries' := by
  induction entries generalizing earlier with
  | nil => simp [firstOnes]
  | cons entry rest ih =>
    rw [List.cons_append, firstOnes, firstOnes, ih]
    split <;> simp

theorem firstOnes_sublist (entries : List (ρ × Level)) (earlier : List ρ) :
    (firstOnes earlier entries).Sublist entries := by
  induction entries generalizing earlier with
  | nil => exact .slnil
  | cons entry rest ih =>
    rw [firstOnes]
    split
    · exact (ih _).cons _
    · exact (ih _).cons_cons _

theorem insert_of_find?_eq_none {table : Table ρ} {rule : ρ} (h : table.find? rule = none)
    (level : Level) : table.insert rule level = ⟨table.entries ++ [(rule, level)]⟩ := by
  rw [find?_eq_none_iff] at h
  rw [insert, if_neg]
  simpa using h

theorem insert_of_find?_ne_none {table : Table ρ} {rule : ρ} (h : table.find? rule ≠ none)
    (level : Level) :
    table.insert rule level =
      ⟨table.entries.map fun entry =>
        if RuleKey.same entry.1 rule then (entry.1, level) else entry⟩ := by
  rw [Ne, find?_eq_none_iff] at h
  rw [insert, if_pos]
  simpa using h

/-- Where the levels of some rules are replaced, the same entries are found. -/
theorem find?_replace (entries : List (ρ × Level)) (replaced : ρ → Bool) (level : Level) (rule : ρ) :
    (⟨entries.map fun entry => if replaced entry.1 then (entry.1, level) else entry⟩ : Table ρ).find?
        rule =
      (entries.find? fun entry => RuleKey.same entry.1 rule).map fun entry =>
        if replaced entry.1 then level else entry.2 := by
  rw [find?, List.find?_map, Option.map_map]
  congr 1
  · funext entry
    rw [Function.comp_apply]
    split <;> rfl
  · congr 1
    funext entry
    rw [Function.comp_apply]
    split <;> rfl

theorem AllKeys.insert {table : Table ρ} (h : AllKeys table.entries) {rule : ρ}
    (hrule : RuleKey.unhashable? rule = none) (level : Level) :
    AllKeys (table.insert rule level).entries := by
  by_cases hfind : table.find? rule = none
  · rw [insert_of_find?_eq_none hfind, AllKeys, List.forall_mem_append]
    exact ⟨h, by simpa using hrule⟩
  · rw [insert_of_find?_ne_none hfind, AllKeys, List.forall_mem_map]
    intro entry hentry
    split <;> exact h entry hentry

theorem allKeys_insertAll {entries : List (ρ × Level)} (h : AllKeys entries) :
    AllKeys (insertAll entries empty).entries := by
  induction entries using List.reverseRecOn with
  | nil => exact List.forall_mem_nil _
  | append_singleton entries entry ih =>
    rw [AllKeys, List.forall_mem_append, List.forall_mem_singleton] at h
    rw [insertAll_append_singleton]
    exact (ih h.1).insert h.2 entry.2

theorem add_eq_of_find?_eq_none {table : Table ρ} {rule : ρ}
    (hrule : RuleKey.unhashable? rule = none) (h : table.find? rule = none) (replace : Bool)
    (level : Level) : table.add replace rule level = .ok (table.insert rule level) := by
  rw [add, lookup, hrule]
  simp only [h]

theorem addAll_append (replace : Bool) (table : Table ρ) (entries entries' : List (ρ × Level)) :
    table.addAll replace (entries ++ entries') =
      table.addAll replace entries >>= (·.addAll replace entries') := by
  induction entries generalizing table with
  | nil => rfl
  | cons entry rest ih =>
    rw [List.cons_append, addAll, addAll]
    cases table.add replace entry.1 entry.2 with
    | error e => rfl
    | ok table => exact ih table

theorem addAll_singleton (replace : Bool) (table : Table ρ) (entry : ρ × Level) :
    table.addAll replace [entry] = table.add replace entry.1 entry.2 := by
  rw [addAll]
  cases table.add replace entry.1 entry.2 <;> rfl

/-! ### Tables -/

/-- Where rules may be replaced, all entries are put into the table. -/
theorem addAll_replace (table : Table ρ) {entries : List (ρ × Level)} (h : AllKeys entries) :
    table.addAll true entries = .ok (insertAll entries table) := by
  induction entries generalizing table with
  | nil => rfl
  | cons entry rest ih =>
    rw [AllKeys, List.forall_mem_cons] at h
    have hadd : table.add true entry.1 entry.2 = .ok (table.insert entry.1 entry.2) := by
      rw [add, lookup, h.1]
      cases table.find? entry.1 <;> rfl
    rw [addAll, hadd]
    exact ih _ h.2

/-- Where rules may not be replaced, distinct entries are a table. -/
theorem addAll_of_distinct {entries : List (ρ × Level)} (h : AllKeys entries)
    (hdistinct : Distinct entries) :
    empty.addAll false entries = .ok ⟨entries⟩ ∧ insertAll entries empty = ⟨entries⟩ := by
  induction entries using List.reverseRecOn with
  | nil => exact ⟨rfl, rfl⟩
  | append_singleton entries entry ih =>
    rw [AllKeys, List.forall_mem_append, List.forall_mem_singleton] at h
    obtain ⟨hbefore, -, hlast⟩ := List.pairwise_append.1 hdistinct
    obtain ⟨hadd, hinsert⟩ := ih h.1 hbefore
    have hnew : (⟨entries⟩ : Table ρ).find? entry.1 = none :=
      find?_eq_none_iff.2 fun e he => hlast e he entry (List.mem_singleton_self entry)
    have hput := insert_of_find?_eq_none hnew entry.2
    rw [addAll_append, hadd, insertAll_append_singleton, hinsert, hput]
    refine ⟨?_, rfl⟩
    rw [← hput, ← add_eq_of_find?_eq_none h.2 hnew false]
    exact addAll_singleton false _ entry

/-- Entries that are not distinct have a first one whose rule equals one before it. -/
theorem exists_duplicate {entries : List (ρ × Level)} (h : ¬Distinct entries) :
    ∃ before entry after, entries = before ++ entry :: after ∧ Distinct before ∧
      ∃ earlier ∈ before, RuleKey.same earlier.1 entry.1 = true := by
  induction entries using List.reverseRecOn with
  | nil => exact absurd .nil h
  | append_singleton entries entry ih =>
    by_cases hdistinct : Distinct entries
    · refine ⟨entries, entry, [], rfl, hdistinct, ?_⟩
      by_contra hnone
      push Not at hnone
      refine h (List.pairwise_append.2 ⟨hdistinct, List.pairwise_singleton _ _, fun e he e' he' => ?_⟩)
      rw [List.mem_singleton.1 he']
      exact Bool.eq_false_iff.2 (hnone e he)
    · obtain ⟨before, e, after, rfl, hbefore⟩ := ih hdistinct
      exact ⟨before, e, after ++ [entry], by simp, hbefore⟩

/-! ### The last entries -/

theorem lastOnes_append {α : Type} (ruleOf : α → ρ) (later : List ρ) (items items' : List α) :
    lastOnes ruleOf later (items ++ items') =
      lastOnes ruleOf (items'.map ruleOf ++ later) items ++ lastOnes ruleOf later items' := by
  induction items with
  | nil => rfl
  | cons a rest ih =>
    rw [List.cons_append, lastOnes, lastOnes, ih, List.map_append, List.append_assoc]
    split <;> rfl

theorem lastOnes_map {α β : Type} (ruleOf : β → ρ) (f : α → β) (later : List ρ) (items : List α) :
    lastOnes ruleOf later (items.map f) = (lastOnes (ruleOf ∘ f) later items).map f := by
  induction items with
  | nil => rfl
  | cons a rest ih =>
    rw [List.map_cons, lastOnes, lastOnes, ih, List.map_map, Function.comp_apply]
    split <;> rfl

theorem lastOnes_sublist {α : Type} (ruleOf : α → ρ) (later : List ρ) (items : List α) :
    (lastOnes ruleOf later items).Sublist items := by
  induction items with
  | nil => exact .slnil
  | cons a rest ih =>
    rw [lastOnes]
    split
    · exact ih.cons a
    · exact ih.cons_cons a

/-- The last entries of all rules are distinct. -/
theorem distinct_lastOnes (entries : List (ρ × Level)) : Distinct (lastOnes (·.1) [] entries) := by
  induction entries with
  | nil => exact .nil
  | cons entry rest ih =>
    rw [lastOnes]
    split
    · exact ih
    next hlast =>
      refine ih.cons fun e he => ?_
      have hrest := (lastOnes_sublist (·.1) [] rest).subset he
      simp only [List.append_nil, List.any_map, List.any_eq_true, not_exists, not_and] at hlast
      exact Bool.eq_false_iff.2 (hlast e hrest)

/-! ### Equal rules -/

variable [LawfulRuleKey ρ]

/-- For rules that can be keys it does not matter which of them is compared with the other. -/
theorem same_comm {a b : ρ} (ha : RuleKey.unhashable? a = none) (hb : RuleKey.unhashable? b = none) :
    RuleKey.same a b = RuleKey.same b a :=
  Bool.eq_iff_iff.2 ⟨LawfulRuleKey.symm ha hb, LawfulRuleKey.symm hb ha⟩

/-- An equal rule is equal to the same rules. -/
theorem same_congr {a b c : ρ} (ha : RuleKey.unhashable? a = none)
    (hb : RuleKey.unhashable? b = none) (hc : RuleKey.unhashable? c = none)
    (h : RuleKey.same a b = true) : RuleKey.same a c = RuleKey.same b c :=
  Bool.eq_iff_iff.2 ⟨LawfulRuleKey.trans hb ha hc (LawfulRuleKey.symm ha hb h),
    LawfulRuleKey.trans ha hb hc h⟩

/-- Equal rules have the same level. -/
theorem find?_congr {table : Table ρ} (h : AllKeys table.entries) {a b : ρ}
    (ha : RuleKey.unhashable? a = none) (hb : RuleKey.unhashable? b = none)
    (hsame : RuleKey.same a b = true) : table.find? a = table.find? b := by
  rw [find?, find?]
  refine congrArg _ (List.find?_congr fun entry hentry => ?_)
  rw [same_comm (h entry hentry) ha, same_congr ha hb (h entry hentry) hsame,
    same_comm hb (h entry hentry)]

/-- The level of a rule after an entry is put into a table: that of the entry if the rules are equal,
and otherwise the one before. -/
theorem find?_insert {table : Table ρ} (h : AllKeys table.entries) {rule other : ρ}
    (hrule : RuleKey.unhashable? rule = none) (hother : RuleKey.unhashable? other = none)
    (level : Level) :
    (table.insert rule level).find? other =
      if RuleKey.same rule other then some level else table.find? other := by
  by_cases hfind : table.find? rule = none
  · rw [insert_of_find?_eq_none hfind, find?, List.find?_append, List.find?_singleton, Option.map_or]
    cases hsame : RuleKey.same rule other with
    | false => simp [find?]
    | true =>
      rw [← find?, ← find?_congr h hrule hother hsame, hfind]
      rfl
  · rw [insert_of_find?_ne_none hfind, find?_replace table.entries (RuleKey.same · rule)]
    cases hsame : RuleKey.same rule other with
    | false =>
      rw [if_neg Bool.false_ne_true, find?]
      cases hfound : table.entries.find? fun entry => RuleKey.same entry.1 other with
      | none => rfl
      | some entry =>
        have hentry := h entry (List.mem_of_find?_eq_some hfound)
        have hequal := List.find?_some hfound
        have hkept : RuleKey.same entry.1 rule = false := by
          rw [same_congr hentry hother hrule hequal, same_comm hother hrule, hsame]
        rw [Option.map_some, Option.map_some, hkept, if_neg Bool.false_ne_true]
    | true =>
      rw [find?_congr h hrule hother hsame, find?] at hfind
      cases hfound : table.entries.find? fun entry => RuleKey.same entry.1 other with
      | none => exact absurd (by rw [hfound]; rfl) hfind
      | some entry =>
        have hentry := h entry (List.mem_of_find?_eq_some hfound)
        have hequal := List.find?_some hfound
        have hreplaced : RuleKey.same entry.1 rule = true := by
          rw [same_comm hentry hrule, same_congr hrule hother hentry hsame, same_comm hother hentry,
            hequal]
        rw [Option.map_some, hreplaced]
        rfl

/-- After entries are put into the empty table, a rule has the level of its last entry. -/
theorem find?_insertAll {entries : List (ρ × Level)} (h : AllKeys entries) {rule : ρ}
    (hrule : RuleKey.unhashable? rule = none) :
    (insertAll entries empty).find? rule = lastLevel? entries rule := by
  induction entries using List.reverseRecOn with
  | nil => rfl
  | append_singleton entries entry ih =>
    rw [AllKeys, List.forall_mem_append, List.forall_mem_singleton] at h
    rw [insertAll_append_singleton, lastLevel?_append_singleton,
      find?_insert (allKeys_insertAll h.1) h.2 hrule, ih h.1]

/-- After entries are put into the empty table, every rule is where it was first, with the level that
it was given last. -/
theorem entries_insertAll {entries : List (ρ × Level)} (h : AllKeys entries) :
    (insertAll entries empty).entries = overwritten entries := by
  induction entries using List.reverseRecOn with
  | nil => rfl
  | append_singleton entries entry ih =>
    rw [AllKeys, List.forall_mem_append, List.forall_mem_singleton] at h
    have hfind := find?_insertAll h.1 h.2
    have hkeys : ∀ e ∈ firstOnes [] entries, RuleKey.unhashable? e.1 = none :=
      fun e he => h.1 e ((firstOnes_sublist entries []).subset he)
    rw [insertAll_append_singleton, overwritten, firstOnes_append, List.nil_append, firstOnes, firstOnes]
    simp only [lastLevel?_append_singleton]
    by_cases hlast : lastLevel? entries entry.1 = none
    · rw [insert_of_find?_eq_none (hfind.trans hlast), ih h.1, overwritten]
      have hnew := lastLevel?_eq_none_iff.1 hlast
      rw [if_neg (by simpa using hnew), List.map_append, List.map_singleton, hlast]
      have hself : (if RuleKey.same entry.1 entry.1 then some entry.2 else none).getD entry.2 =
          entry.2 := by
        cases RuleKey.same entry.1 entry.1 <;> rfl
      rw [hself]
      refine congrArg (· ++ [(entry.1, entry.2)]) (List.map_congr_left fun e he => ?_)
      rw [same_comm h.2 (hkeys e he), hnew e ((firstOnes_sublist entries []).subset he),
        if_neg Bool.false_ne_true]
    · rw [insert_of_find?_ne_none (by rwa [hfind]), ih h.1, overwritten, List.map_map]
      have hold := mt lastLevel?_eq_none_iff.2 hlast
      rw [if_pos (by simpa using hold), List.append_nil]
      refine List.map_congr_left fun e he => ?_
      rw [Function.comp_apply, same_comm h.2 (hkeys e he)]
      cases RuleKey.same e.1 entry.1 <;> rfl

/-- A rule that equals one of distinct entries has its level. -/
theorem find?_of_distinct {entries : List (ρ × Level)} (h : AllKeys entries)
    (hdistinct : Distinct entries) {entry : ρ × Level} (hentry : entry ∈ entries) {rule : ρ}
    (hrule : RuleKey.unhashable? rule = none) (hsame : RuleKey.same entry.1 rule = true) :
    (⟨entries⟩ : Table ρ).find? rule = some entry.2 := by
  induction entries with
  | nil => cases hentry
  | cons first rest ih =>
    rw [AllKeys, List.forall_mem_cons] at h
    obtain ⟨hfirst, hrest⟩ := List.pairwise_cons.1 hdistinct
    rw [find?, List.find?_cons]
    rcases List.mem_cons.1 hentry with rfl | hentry
    · rw [hsame]
      rfl
    · have hother : RuleKey.same first.1 rule = false := by
        rw [same_comm h.1 hrule, ← same_congr (h.2 entry hentry) hrule h.1 hsame,
          same_comm (h.2 entry hentry) h.1]
        exact hfirst entry hentry
      rw [hother]
      exact ih h.2 hrest hentry

/-- Where rules may not be replaced, the first entry whose rule equals one before it is refused. -/
theorem addAll_of_duplicate {before after : List (ρ × Level)} {earlier entry : ρ × Level}
    (h : AllKeys (before ++ entry :: after)) (hdistinct : Distinct before)
    (hearlier : earlier ∈ before) (hsame : RuleKey.same earlier.1 entry.1 = true) :
    empty.addAll false (before ++ entry :: after) =
      .error (.duplicate entry.1 earlier.2 entry.2) := by
  rw [AllKeys, List.forall_mem_append, List.forall_mem_cons] at h
  have hfind := find?_of_distinct h.1 hdistinct hearlier h.2.1 hsame
  rw [addAll_append, (addAll_of_distinct h.1 hdistinct).1]
  change addAll false ⟨before⟩ (entry :: after) = _
  rw [addAll, add, lookup, h.2.1]
  simp only [hfind, Bool.false_eq_true, if_false]
  rfl

/-- The last entries of all rules have the same levels as all entries. -/
theorem lastLevel?_lastOnes {entries : List (ρ × Level)} (h : AllKeys entries) {rule : ρ}
    (hrule : RuleKey.unhashable? rule = none) :
    lastLevel? (lastOnes (·.1) [] entries) rule = lastLevel? entries rule := by
  induction entries with
  | nil => rfl
  | cons entry rest ih =>
    rw [AllKeys, List.forall_mem_cons] at h
    rw [lastOnes, lastLevel?_cons]
    split
    next hany =>
      -- A later entry equals this one, so it is found whenever this one would be.
      simp only [List.append_nil, List.any_map, List.any_eq_true, Function.comp_apply] at hany
      obtain ⟨other, hother, hsame⟩ := hany
      rw [ih h.2]
      cases hlast : lastLevel? rest rule with
      | some level => rfl
      | none =>
        rw [Option.none_or, same_congr h.1 (h.2 other hother) hrule hsame,
          lastLevel?_eq_none_iff.1 hlast other hother, if_neg Bool.false_ne_true]
    · rw [lastLevel?_cons, ih h.2]

end Table

end Precedence
