import Mathlib
import Precedence.Proofs.Quantities
import Precedence.Value.Equality

/-!
# Equal rules

Among the values that can be keys, being the same key is to stand for the same thing: numbers of all
kinds for their quantity, tuples for the keys of their items, tokens and exceptions for themselves. A
float that is no number stands for itself too, although it does not equal itself. Sameness is
therefore an equivalence.

## Main definitions

- `Key` — what a value that can be a key stands for
- `Value.key?` — that key
- `LawfulRuleKey` — an equivalence of the rules that can be keys

## Main statements

- `Value.sameItem_iff` — values are the same key if they stand for the same thing
- `Value.exists_key` — every value that can be a key stands for something
- `Value.sameItem_eq_same` — for a value that equals itself, to be the same key is to be equal
-/

namespace Precedence

/-- What a number stands for: its quantity, or itself if it has none and so has no order either. -/
inductive Amount where
  | quantity (q : Quantity)
  | unordered (identity : Nat)

/-- What a value that can be a key stands for. -/
inductive Key where
  | nothing
  | number (amount : Amount)
  | text (s : String)
  | tuple (items : List Key)
  | member (enumeration name : String)
  | token (identity : Nat)
  | fault (identity : Nat)
  | classOf (cls : ObjectClass)

/-- What a float stands for. -/
def floatAmount (x : Float) (identity : Nat) : Amount :=
  (floatQuantity? x).elim (.unordered identity) .quantity

/-- What a number stands for. -/
def Value.amount? : Value → Option Amount
  | .real x identity => some (floatAmount x identity)
  | v => v.count?.map fun i : Int => .quantity (.finite i)

mutual

/-- The key that a value stands for. -/
def Value.key? : Value → Option Key
  | .nothing => some .nothing
  | .text s => some (.text s)
  | .tuple items => (keysOf? items).map .tuple
  | .member enumeration name _ => some (.member enumeration name)
  | .token _ identity => some (.token identity)
  | .fault _ _ identity => some (.fault identity)
  | .classOf cls => some (.classOf cls)
  | v => v.amount?.map .number
termination_by structural v => v

/-- The keys that values stand for. -/
def keysOf? : List Value → Option (List Key)
  | [] => some []
  | v :: rest => do
    let key ← v.key?
    let keys ← keysOf? rest
    pure (key :: keys)
termination_by structural items => items

end

theorem keysOf?_cons_eq_some_iff {v : Value} {rest : List Value} {keys : List Key} :
    keysOf? (v :: rest) = some keys ↔
      ∃ key others, v.key? = some key ∧ keysOf? rest = some others ∧ keys = key :: others := by
  simp only [keysOf?, Option.bind_eq_bind, Option.bind_eq_some_iff, Option.pure_def,
    Option.some.injEq]
  grind

/-! ### Numbers -/

@[simp] theorem floatAmount_eq_quantity_iff (x : Float) (identity : Nat) (q : Quantity) :
    floatAmount x identity = .quantity q ↔ floatQuantity? x = some q := by
  rw [floatAmount]
  cases floatQuantity? x <;> simp

@[simp] theorem floatAmount_eq_unordered_iff (x : Float) (identity i : Nat) :
    floatAmount x identity = .unordered i ↔ floatQuantity? x = none ∧ identity = i := by
  rw [floatAmount]
  cases floatQuantity? x <;> simp

/-- Two numbers are equal just if they have the same quantity. -/
theorem sameNumber?_iff (a b : Value) :
    (sameNumber? a b).getD false = true ↔
      ∃ q, a.amount? = some (.quantity q) ∧ b.amount? = some (.quantity q) := by
  cases a with
  | real x =>
    cases b with
    | real y => simpa [sameNumber?, Value.amount?] using float_beq_iff x y
    | bool | int => simp [sameNumber?, Value.amount?, Value.count?, floatToInt?_eq_some_iff]
    | _ => simp [sameNumber?, Value.amount?, Value.count?]
  | bool | int =>
    cases b with
    | real y => simp [sameNumber?, Value.amount?, Value.count?, floatToInt?_eq_some_iff]
    | bool | int =>
      simp only [sameNumber?, Value.amount?, Value.count?, Option.bind_some, Option.map_some,
        Option.getD_some, beq_iff_eq, Option.some.injEq, Amount.quantity.injEq,
        Quantity.finite.injEq, Int.cast_inj, exists_eq_left']
      exact eq_comm
    | _ => simp [sameNumber?, Value.amount?, Value.count?]
  | _ => cases b <;> simp [sameNumber?, Value.amount?, Value.count?]

/-- Only a float without a quantity differs from itself. -/
theorem float_bne_self_iff (x : Float) : (x != x) = true ↔ floatQuantity? x = none := by
  rw [bne, Bool.not_eq_true', ← Bool.not_eq_true, float_beq_iff]
  cases floatQuantity? x <;> simp

/-- Two numbers are one and the same float that is no number just if both stand for it. -/
theorem Value.sameNaN_iff (a b : Value) :
    a.sameNaN b = true ↔
      ∃ i, a.amount? = some (.unordered i) ∧ b.amount? = some (.unordered i) := by
  cases a with
  | real x i =>
    cases b with
    | real y j =>
      simp only [Value.sameNaN, Bool.and_eq_true, float_bne_self_iff, beq_iff_eq, Value.amount?,
        Option.some.injEq, floatAmount_eq_unordered_iff]
      grind
    | _ => simp [Value.sameNaN, Value.amount?, Value.count?]
  | _ => simp [Value.sameNaN, Value.amount?, Value.count?]

/-- Two numbers are the same key just if they stand for the same. -/
theorem sameAmount_iff (a b : Value) :
    (a.sameNaN b || (sameNumber? a b).getD false) = true ↔
      ∃ amount, a.amount? = some amount ∧ b.amount? = some amount := by
  rw [Bool.or_eq_true, Value.sameNaN_iff, sameNumber?_iff]
  constructor
  · rintro (⟨i, h⟩ | ⟨q, h⟩)
    · exact ⟨_, h⟩
    · exact ⟨_, h⟩
  · rintro ⟨q | i, h⟩
    · exact .inr ⟨q, h⟩
    · exact .inl ⟨i, h⟩

/-! ### Keys -/

/-- Two values are the same key just if they stand for the same, provided that this is so of the items
of tuples. -/
theorem Value.sameItem_iff_of_items {a b : Value} (ha : a.unhashable? = none)
    (hb : b.unhashable? = none)
    (hitems : ∀ xs ys, a = .tuple xs → b = .tuple ys →
      (sameItems xs ys = true ↔ ∃ keys, keysOf? xs = some keys ∧ keysOf? ys = some keys)) :
    a.sameItem b = true ↔ ∃ key, a.key? = some key ∧ b.key? = some key := by
  have hpair (p : ValuePair) : unhashablePair? p ≠ none := by
    obtain ⟨rule, start, stop, inner⟩ := p
    rw [unhashablePair?]
    cases rule.unhashable? <;> nofun
  rw [Value.sameItem]
  cases a with
  | nothing =>
    cases b <;> simp [Value.sameNaN, Value.same, Value.key?, sameNumber?, Value.amount?, Value.count?]
  | text | token | fault | classOf =>
    cases b <;> simp [Value.sameNaN, Value.same, Value.key?, sameNumber?, Value.amount?, Value.count?]
    exact eq_comm
  | member =>
    cases b <;> simp [Value.sameNaN, Value.same, Value.key?, sameNumber?, Value.amount?, Value.count?]
    exact and_congr eq_comm eq_comm
  | tuple =>
    cases b with
    | tuple => simpa [Value.sameNaN, Value.same, Value.key?] using hitems _ _ rfl rfl
    | _ => simp [Value.sameNaN, Value.same, Value.key?, sameNumber?, Value.amount?, Value.count?]
  | bool | int | real =>
    cases b with
    | bool | int | real => simpa [Value.same, Value.key?] using sameAmount_iff _ _
    | _ => simp [Value.sameNaN, Value.same, Value.key?, sameNumber?, Value.amount?, Value.count?]
  | list | dict | slice => cases ha
  | pair p => exact absurd ha (hpair p)

theorem hashable_cons {v : Value} {rest : List Value} (h : firstUnhashable? (v :: rest) = none) :
    v.unhashable? = none ∧ firstUnhashable? rest = none := by
  rw [firstUnhashable?] at h
  cases hv : v.unhashable? with
  | none => exact ⟨rfl, by rwa [hv] at h⟩
  | some name => rw [hv] at h; cases h

mutual

/-- Values are the same key just if they stand for the same. -/
theorem Value.sameItem_iff {a b : Value} (ha : a.unhashable? = none) (hb : b.unhashable? = none) :
    a.sameItem b = true ↔ ∃ key, a.key? = some key ∧ b.key? = some key :=
  Value.sameItem_iff_of_items ha hb fun xs ys hxs hys =>
    sameItems_iff (by rwa [hxs] at ha) (by rwa [hys] at hb)
termination_by sizeOf a
decreasing_by
  rw [hxs, Value.tuple.sizeOf_spec]
  exact Nat.lt_add_of_pos_left Nat.one_pos

/-- Sequences have the same items just if these stand for the same keys. -/
theorem sameItems_iff {xs ys : List Value} (hxs : firstUnhashable? xs = none)
    (hys : firstUnhashable? ys = none) :
    sameItems xs ys = true ↔ ∃ keys, keysOf? xs = some keys ∧ keysOf? ys = some keys := by
  match xs, ys with
  | [], [] => simp [sameItems, keysOf?]
  | x :: xs, y :: ys =>
    obtain ⟨hx, hxs⟩ := hashable_cons hxs
    obtain ⟨hy, hys⟩ := hashable_cons hys
    rw [sameItems, ← Value.sameItem, Bool.and_eq_true, Value.sameItem_iff hx hy,
      sameItems_iff hxs hys]
    simp only [keysOf?_cons_eq_some_iff]
    grind
  | [], y :: ys =>
    refine ⟨nofun, ?_⟩
    rintro ⟨keys, ⟨⟩, hys⟩
    obtain ⟨_, _, _, _, ⟨⟩⟩ := keysOf?_cons_eq_some_iff.1 hys
  | x :: xs, [] =>
    refine ⟨nofun, ?_⟩
    rintro ⟨keys, hxs, ⟨⟩⟩
    obtain ⟨_, _, _, _, ⟨⟩⟩ := keysOf?_cons_eq_some_iff.1 hxs
termination_by sizeOf xs

end

mutual

/-- Every value that can be a key stands for something. -/
theorem Value.exists_key {v : Value} (h : v.unhashable? = none) : ∃ key, v.key? = some key := by
  match v with
  | .nothing | .bool _ | .int _ | .real .. | .text _ | .member .. | .token .. | .fault ..
  | .classOf _ => exact ⟨_, rfl⟩
  | .tuple items =>
    obtain ⟨keys, hkeys⟩ := exists_keys h
    exact ⟨.tuple keys, by rw [Value.key?, hkeys, Option.map_some]⟩
  | .list _ | .dict _ | .slice .. => cases h
  | .pair (.mk rule _ _ _) =>
    rw [Value.unhashable?, unhashablePair?] at h
    cases hrule : rule.unhashable? <;> rw [hrule] at h <;> cases h
termination_by sizeOf v

/-- All items of a sequence that can be keys stand for something. -/
theorem exists_keys {items : List Value} (h : firstUnhashable? items = none) :
    ∃ keys, keysOf? items = some keys := by
  match items with
  | [] => exact ⟨[], rfl⟩
  | v :: rest =>
    obtain ⟨hv, hrest⟩ := hashable_cons h
    obtain ⟨key, hkey⟩ := Value.exists_key hv
    obtain ⟨keys, hkeys⟩ := exists_keys hrest
    exact ⟨key :: keys, keysOf?_cons_eq_some_iff.2 ⟨key, keys, hkey, hkeys, rfl⟩⟩
termination_by sizeOf items

end

/-- For a value that equals itself, to be the same key is to be equal. -/
theorem Value.sameItem_eq_same {a : Value} (h : a.same a = true) (b : Value) :
    a.sameItem b = a.same b := by
  have hnumber : a.sameNaN b = false := by
    cases a with
    | real x i =>
      have hself : (x == x) = true := h
      cases b <;> simp [Value.sameNaN, bne, hself]
    | _ => rfl
  rw [Value.sameItem, hnumber, Bool.false_or]

/-! ### Rules that can be keys -/

/-- Sameness is an equivalence of the rules that can be keys. -/
class LawfulRuleKey (ρ : Type) [RuleKey ρ] : Prop where
  refl {a : ρ} (ha : RuleKey.unhashable? a = none) : RuleKey.same a a = true
  symm {a b : ρ} (ha : RuleKey.unhashable? a = none) (hb : RuleKey.unhashable? b = none)
    (h : RuleKey.same a b = true) : RuleKey.same b a = true
  trans {a b c : ρ} (ha : RuleKey.unhashable? a = none) (hb : RuleKey.unhashable? b = none)
    (hc : RuleKey.unhashable? c = none) (hab : RuleKey.same a b = true)
    (hbc : RuleKey.same b c = true) : RuleKey.same a c = true

instance : LawfulRuleKey Value where
  refl ha := by
    obtain ⟨key, hkey⟩ := Value.exists_key ha
    exact (Value.sameItem_iff ha ha).2 ⟨key, hkey, hkey⟩
  symm ha hb h := by
    obtain ⟨key, hka, hkb⟩ := (Value.sameItem_iff ha hb).1 h
    exact (Value.sameItem_iff hb ha).2 ⟨key, hkb, hka⟩
  trans ha hb hc hab hbc := by
    obtain ⟨key, hka, hkb⟩ := (Value.sameItem_iff ha hb).1 hab
    obtain ⟨key', hkb', hkc⟩ := (Value.sameItem_iff hb hc).1 hbc
    obtain rfl : key = key' := Option.some.inj (hkb.symm.trans hkb')
    exact (Value.sameItem_iff ha hc).2 ⟨key, hka, hkc⟩

end Precedence
