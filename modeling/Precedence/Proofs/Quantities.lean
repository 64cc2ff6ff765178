import Mathlib
import Precedence.Number.Binary64

/-!
# What floats stand for

A float stands for a rational number or for an infinity, unless it is not a number. Two floats are
equal just if they stand for the same, and so are a float and an integer. The two zeros stand for the
same number; of every other number there is one float only.

## Main definitions

- `Quantity` — a rational number or an infinity
- `floatQuantity?` — what a float stands for
- `Unpacks` — how the parts of a float are read off its bits
- `IsCanonical` — the form of the finite floats

## Main statements

- `unpacks_unpack` — the parts of a float
- `IsCanonical.unique` — of a number there is one form only
- `float_beq_iff` — which floats are equal
- `floatToInt?_eq_some_iff` — which floats equal an integer
-/

namespace Precedence

open Float.Model Float.Model.UnpackedFloat

/-- What a number stands for. -/
inductive Quantity where
  | finite (q : ℚ)
  | infinite (sign : Sign)

/-- What the parts of a float stand for. -/
def unpackedQuantity? : UnpackedFloat → Option Quantity
  | .infinity sign => some (.infinite sign)
  | .notANumber => none
  | .zero _ => some (.finite 0)
  | .finite sign units exponent _ => some (.finite (sign.apply units * 2 ^ exponent))

/-- What a float stands for. -/
def floatQuantity? (x : Float) : Option Quantity :=
  unpackedQuantity? x.toModel.unpack

/-! ### The parts of a float -/

/-- The bits of a float. -/
abbrev Bits := BitVec Format.binary64.numBits

namespace Bits

/-- The exponent as it is written. -/
def biased (bits : Bits) : Nat := bits.toNat / 2 ^ 52 % 2 ^ 11

/-- The significand as it is written. -/
def fraction (bits : Bits) : Nat := bits.toNat % 2 ^ 52

/-- Whether the sign bit is set. -/
def negative (bits : Bits) : Bool := 2 ^ 63 ≤ bits.toNat

theorem fraction_lt (bits : Bits) : bits.fraction < 2 ^ 52 :=
  Nat.mod_lt _ (Nat.two_pow_pos 52)

theorem toNat_unpackMantissa (bits : Bits) : (unpackMantissa bits).toNat = bits.fraction := by
  simp [unpackMantissa, fraction]

theorem toNat_unpackExponent (bits : Bits) : (unpackExponent bits).toNat = bits.biased := by
  simp [unpackExponent, biased, Nat.shiftRight_eq_div_pow]

theorem unpackSign_eq (bits : Bits) : unpackSign bits = if bits.negative then 1#1 else 0#1 := by
  have hlt : bits.toNat < 2 ^ 64 := bits.isLt
  apply BitVec.eq_of_toNat_eq
  simp only [unpackSign, negative, BitVec.toNat_cast, BitVec.extractLsb_toNat,
    Nat.shiftRight_eq_div_pow, decide_eq_true_iff]
  split <;> simp only [BitVec.toNat_ofNat] <;> omega

end Bits

/-- The sign of negative numbers, or that of the others. -/
def signOf (negative : Bool) : Sign :=
  if negative then .negative else .positive

/-- How the parts of a float are read off its bits. -/
inductive Unpacks (bits : Bits) : UnpackedFloat → Prop
  | infinity (h : bits.biased = 0x7ff) : Unpacks bits (.infinity (signOf bits.negative))
  | notANumber (h : bits.biased = 0x7ff) : Unpacks bits .notANumber
  | zero (h : bits.biased = 0) (hf : bits.fraction = 0) :
      Unpacks bits (.zero (signOf bits.negative))
  | subnormal (h : bits.biased = 0) (hf : 0 < bits.fraction) :
      Unpacks bits (.finite (signOf bits.negative) bits.fraction (-1074) hf)
  | normal (h : bits.biased ≠ 0) (h' : bits.biased ≠ 0x7ff) :
      Unpacks bits (.finite (signOf bits.negative) (2 ^ 52 + bits.fraction) (bits.biased - 1075)
        (Nat.add_pos_left (Nat.two_pow_pos 52) _))

theorem unpacks_unpack (bits : Bits) : Unpacks bits (UnpackedFloat.unpack .binary64 bits) := by
  have hones : unpackExponent bits = -1#_ ↔ bits.biased = 0x7ff := by
    rw [← BitVec.toNat_inj, bits.toNat_unpackExponent]
    rfl
  have hzeros : unpackExponent bits = 0#_ ↔ bits.biased = 0 := by
    rw [← BitVec.toNat_inj, bits.toNat_unpackExponent]
    rfl
  have hfraction : unpackMantissa bits = 0#_ ↔ bits.fraction = 0 := by
    rw [← BitVec.toNat_inj, bits.toNat_unpackMantissa]
    rfl
  have hsign : Sign.ofBitVec (unpackSign bits) = signOf bits.negative := by
    rw [bits.unpackSign_eq]
    cases bits.negative <;> rfl
  have hleading : (1#1 ++ unpackMantissa bits).toNat = 2 ^ 52 + bits.fraction := by
    rw [BitVec.toNat_append, ← Nat.shiftLeft_add_eq_or_of_lt (unpackMantissa bits).isLt,
      bits.toNat_unpackMantissa]
    rfl
  rw [UnpackedFloat.unpack]
  by_cases hall : bits.biased = 0x7ff
  · rw [if_pos (hones.2 hall), hsign]
    split
    · exact .infinity hall
    · exact .notANumber hall
  · rw [if_neg (hones.not.2 hall)]
    by_cases hnone : bits.biased = 0
    · rw [if_pos (hzeros.2 hnone), hsign]
      split
      next hzero => exact .zero hnone (hfraction.1 hzero)
      next hpos =>
        convert Unpacks.subnormal hnone (Nat.pos_of_ne_zero (hfraction.not.1 hpos)) using 2
        · exact bits.toNat_unpackMantissa
        · rw [bits.toNat_unpackExponent, hnone]
          rfl
    · rw [if_neg (hzeros.not.2 hnone), hsign]
      convert Unpacks.normal hnone hall using 2
      rw [bits.toNat_unpackExponent]
      rfl

/-- The form of the finite floats: the units are fewer than `2 ^ 53`, and at least half as many unless
the exponent is the least one. -/
structure IsCanonical (units : Nat) (exponent : Int) : Prop where
  units_lt : units < 2 ^ 53
  le_exponent : -1074 ≤ exponent
  le_units : 2 ^ 52 ≤ units ∨ exponent = -1074

/-- A number has one canonical form only. -/
theorem IsCanonical.unique {m m' : Nat} {e e' : Int} (h : IsCanonical m e) (h' : IsCanonical m' e')
    (heq : (m : ℚ) * 2 ^ e = m' * 2 ^ e') : m = m' ∧ e = e' := by
  wlog hle : e ≤ e' generalizing m m' e e'
  · exact (this h' h heq.symm (by omega)).imp Eq.symm Eq.symm
  obtain ⟨k, rfl⟩ : ∃ k : Nat, e' = e + k := ⟨(e' - e).toNat, by omega⟩
  have hm : m = m' * 2 ^ k := by
    rw [zpow_add₀ two_ne_zero, zpow_natCast, mul_comm ((2 : ℚ) ^ e), ← mul_assoc] at heq
    exact_mod_cast mul_right_cancel₀ (zpow_ne_zero e two_ne_zero) heq
  cases k with
  | zero => exact ⟨by rw [hm, pow_zero, mul_one], by rw [Nat.cast_zero, add_zero]⟩
  | succ j =>
    -- A larger exponent is not the least one, so there are too many units for the smaller one.
    have hlow := h.le_exponent
    have hfull : 2 ^ 52 ≤ m' := h'.le_units.resolve_right (by omega)
    have hone : 1 ≤ 2 ^ j := Nat.one_le_two_pow
    have hmany : 2 ^ 53 ≤ m := calc
      2 ^ 53 = 2 ^ 52 * (2 * 1) := rfl
      _ ≤ m' * (2 * 2 ^ j) := Nat.mul_le_mul hfull (Nat.mul_le_mul_left 2 hone)
      _ = m := by rw [hm, pow_succ, mul_comm 2]
    exact absurd h.units_lt (not_lt.2 hmany)

/-- The parts that are read off bits have this form. -/
theorem Unpacks.isCanonical {bits : Bits} {sign : Sign} {m : Nat} {e : Int} {hm : 0 < m}
    (h : Unpacks bits (.finite sign m e hm)) : IsCanonical m e := by
  have hlt := bits.fraction_lt
  cases h with
  | subnormal => exact ⟨by omega, le_rfl, .inr rfl⟩
  | normal => exact ⟨by omega, by omega, .inl (Nat.le_add_right _ _)⟩

/-! ### Equal floats -/

/-- A finite float that is not zero does not stand for zero. -/
theorem apply_mul_ne_zero (sign : Sign) {m : Nat} (e : Int) (hm : 0 < m) :
    (sign.apply m : ℚ) * 2 ^ e ≠ 0 := by
  refine mul_ne_zero ?_ (zpow_ne_zero e two_ne_zero)
  rw [Int.cast_ne_zero]
  cases sign <;> simp only [Sign.apply] <;> omega

/-- Two finite floats other than zero stand for the same just if they have the same parts. -/
theorem apply_mul_eq_iff {sign sign' : Sign} {m m' : Nat} {e e' : Int} (hm : 0 < m) (hm' : 0 < m')
    (h : IsCanonical m e) (h' : IsCanonical m' e') :
    (sign.apply m : ℚ) * 2 ^ e = sign'.apply m' * 2 ^ e' ↔ sign = sign' ∧ e = e' ∧ m = m' := by
  refine ⟨fun heq => ?_, ?_⟩
  · have hpos : (0 : ℚ) < m * 2 ^ e := by positivity
    have hpos' : (0 : ℚ) < m' * 2 ^ e' := by positivity
    cases sign <;> cases sign' <;>
      simp only [Sign.apply, Int.cast_neg, Int.cast_natCast, neg_mul, neg_inj] at heq
    · exact ⟨rfl, (h.unique h' heq).symm⟩
    · linarith only [hpos, hpos', heq]
    · linarith only [hpos, hpos', heq]
    · exact ⟨rfl, (h.unique h' heq).symm⟩
  · rintro ⟨rfl, rfl, rfl⟩
    rfl

/-- Two floats compare equal just if they stand for the same. -/
theorem compare_eq_iff {a b : Bits} {x y : UnpackedFloat} (hx : Unpacks a x) (hy : Unpacks b y) :
    x.compare y = some .eq ↔ ∃ q, unpackedQuantity? x = some q ∧ unpackedQuantity? y = some q := by
  have hsome (q r : Quantity) : (∃ p, some q = some p ∧ some r = some p) ↔ q = r := by
    simp only [Option.some.injEq, exists_eq_left', eq_comm]
  match x, y with
  | .finite s m e hm, .finite s' m' e' hm' =>
    rw [unpackedQuantity?, unpackedQuantity?, hsome, Quantity.finite.injEq,
      apply_mul_eq_iff hm hm' hx.isCanonical hy.isCanonical]
    cases s <;> cases s' <;> simp [UnpackedFloat.compare, Ordering.then_eq_eq]
  | .finite s m e hm, .zero _ =>
    rw [unpackedQuantity?, unpackedQuantity?, hsome, Quantity.finite.injEq]
    cases s <;> simp [UnpackedFloat.compare, apply_mul_ne_zero _ e hm]
  | .zero _, .finite s m e hm =>
    rw [unpackedQuantity?, unpackedQuantity?, hsome, Quantity.finite.injEq, eq_comm (a := (0 : ℚ))]
    cases s <;> simp [UnpackedFloat.compare, apply_mul_ne_zero _ e hm]
  | .zero _, .zero _ => simp [UnpackedFloat.compare, unpackedQuantity?]
  | .infinity s, .infinity s' => 
    cases s <;> cases s' <;> simp [UnpackedFloat.compare, unpackedQuantity?, compare]
  | .infinity s, .zero _ | .infinity s, .finite .. | .zero _, .infinity s | .finite .., .infinity s =>
    cases s <;> simp [UnpackedFloat.compare, unpackedQuantity?]
  | .notANumber, _ => simp [UnpackedFloat.compare, unpackedQuantity?]
  | x, .notANumber => cases x <;> simp [UnpackedFloat.compare, unpackedQuantity?]

/-- Two floats are equal just if they stand for the same. -/
theorem float_beq_iff (x y : Float) :
    (x == y) = true ↔ ∃ q, floatQuantity? x = some q ∧ floatQuantity? y = some q := by
  refine Iff.trans ?_ (compare_eq_iff (unpacks_unpack _) (unpacks_unpack _))
  change (x.toModel.unpack.compare y.toModel.unpack == some .eq) = true ↔ _
  rw [beq_iff_eq]

/-! ### Floats that equal an integer -/

theorem apply_zero (sign : Sign) : sign.apply 0 = 0 := by
  cases sign <;> rfl

/-- What the parts of a finite float stand for. -/
def Binary64.value (x : Binary64) : ℚ :=
  (signOf x.negative).apply x.units * 2 ^ x.exponent

theorem ofFloat?_eq (x : Float) :
    Binary64.ofFloat? x =
      let bits : Bits := x.toModel.toBits.toBitVec
      if bits.biased = 0x7ff then none
      else if bits.biased = 0 then some ⟨bits.negative, bits.fraction, -1074⟩
      else some ⟨bits.negative, 2 ^ 52 + bits.fraction, bits.biased - 1075⟩ :=
  rfl

/-- The parts of a finite float stand for what the float does. -/
theorem floatQuantity?_eq_finite_iff (x : Float) (q : ℚ) :
    floatQuantity? x = some (.finite q) ↔ ∃ p, Binary64.ofFloat? x = some p ∧ p.value = q := by
  have hunpacks := unpacks_unpack x.toModel.toBits.toBitVec
  rw [ofFloat?_eq, floatQuantity?, Float.Model.unpack]
  generalize (x.toModel.toBits.toBitVec : Bits) = bits at hunpacks ⊢
  generalize UnpackedFloat.unpack .binary64 bits = unpacked at hunpacks ⊢
  cases hunpacks with
  | infinity h => simp [unpackedQuantity?, h]
  | notANumber h => simp [unpackedQuantity?, h]
  | zero h hf => simp [unpackedQuantity?, h, hf, Binary64.value, apply_zero]
  | subnormal h hf => simp [unpackedQuantity?, h, Binary64.value]
  | normal h h' => simp [unpackedQuantity?, h, h', Binary64.value]

/-- The natural number of some units, if they make one. -/
theorem wholeUnits_eq_some_iff (units : Nat) (exponent : Int) (n : Nat) [Decidable (0 ≤ exponent)] :
    (if 0 ≤ exponent then some (units * Nat.pow 2 exponent.toNat)
      else if units % Nat.pow 2 (-exponent).toNat = 0 then
        some (units / Nat.pow 2 (-exponent).toNat)
      else none) = some n ↔ (units : ℚ) * 2 ^ exponent = n := by
  simp only [Nat.pow_eq]
  by_cases hexp : 0 ≤ exponent
  · obtain ⟨k, rfl⟩ := Int.eq_ofNat_of_zero_le hexp
    rw [if_pos hexp, Int.toNat_natCast, zpow_natCast, Option.some.injEq]
    exact_mod_cast Iff.rfl
  · obtain ⟨k, rfl⟩ : ∃ k : Nat, exponent = -k := ⟨(-exponent).toNat, by omega⟩
    have hpow : 0 < 2 ^ k := Nat.two_pow_pos k
    rw [if_neg hexp, neg_neg, Int.toNat_natCast, zpow_neg, zpow_natCast, ← div_eq_mul_inv,
      div_eq_iff (by positivity)]
    have hcast : (units : ℚ) = n * 2 ^ k ↔ units = n * 2 ^ k := by exact_mod_cast Iff.rfl
    rw [hcast]
    split
    next hmod =>
      rw [Option.some.injEq, Nat.div_eq_iff_eq_mul_left hpow (Nat.dvd_of_mod_eq_zero hmod)]
    next hmod =>
      refine ⟨nofun, ?_⟩
      rintro rfl
      exact absurd (Nat.mul_mod_left n (2 ^ k)) hmod

/-- The integer that the parts of a float make is what they stand for. -/
theorem Binary64.toInt?_eq_some_iff (x : Binary64) (i : Int) : x.toInt? = some i ↔ x.value = i := by
  obtain ⟨negative, units, exponent⟩ := x
  have hwhole : Binary64.toInt? ⟨negative, units, exponent⟩ = some i ↔
      ∃ n : Nat, (units : ℚ) * 2 ^ exponent = n ∧ (signOf negative).apply n = i := by
    simp only [Binary64.toInt?, Option.map_eq_some_iff, Option.bind_eq_bind,
      Option.bind_eq_some_iff, wholeUnits_eq_some_iff]
    cases negative <;> simp [signOf, Sign.apply]
  rw [hwhole, Binary64.value]
  have hunits : (0 : ℚ) ≤ units * 2 ^ exponent := by positivity
  constructor
  · rintro ⟨n, hn, rfl⟩
    cases negative <;> simp [signOf, Sign.apply, hn]
  · intro hi
    refine ⟨i.natAbs, ?_⟩
    cases negative <;> simp only [signOf, Sign.apply, Int.cast_neg, Int.cast_natCast, neg_mul,
      Bool.false_eq_true, if_true, if_false] at hi ⊢
    · have hnonneg : 0 ≤ i := by exact_mod_cast hi ▸ hunits
      have habs := Int.natAbs_of_nonneg hnonneg
      exact ⟨by rw [hi, ← Int.cast_natCast, habs], habs⟩
    · have hnonpos : i ≤ 0 := by exact_mod_cast hi ▸ neg_nonpos.2 hunits
      have habs := Int.ofNat_natAbs_of_nonpos hnonpos
      exact ⟨by rw [neg_eq_iff_eq_neg.1 hi, ← Int.cast_neg, ← habs, Int.cast_natCast],
        by rw [habs, neg_neg]⟩

/-- A float equals an integer just if it stands for it. -/
theorem floatToInt?_eq_some_iff (x : Float) (i : Int) :
    floatToInt? x = some i ↔ floatQuantity? x = some (.finite i) := by
  simp only [floatToInt?, Option.bind_eq_some_iff, Binary64.toInt?_eq_some_iff,
    floatQuantity?_eq_finite_iff]

end Precedence
