import Mathlib
import Precedence.Testing.Signature

/-!
# Calls with arguments

A call is accepted just if no parameter is given twice, every argument is for a parameter or may be
there besides, and every parameter gets a value: the positional argument at its place, or else the
argument with its name, or else its default.

## Main definitions

- `Signature.Accepts` — the calls that are accepted
- `Arguments.value?` — the value of a parameter

## Main statements

- `Signature.bind_eq_ok_iff` — the calls that are accepted, and the values of the parameters
- `Signature.exists_complaint_of_bind` — what is said about all other calls names the function
-/

namespace Precedence

/-- The value of the parameter at an index. -/
def Arguments.value? (args : Arguments) (index : Nat) (parameter : Parameter) : Option Value :=
  args.positional[index]?.or (Signature.valueOf? args parameter)

namespace Signature

variable {signature : Signature} {args : Arguments}

/-- A call is accepted: no positional argument is for a parameter that is also given by its name; there
are neither unknown names nor too many positional arguments, unless there may be more; and the
parameters that no positional argument is for are given by their names or have defaults. -/
structure Accepts (signature : Signature) (args : Arguments) : Prop where
  once : ∀ entry ∈ args.named,
    ∀ parameter ∈ signature.parameters.take args.positional.length, parameter.name ≠ entry.1
  known : signature.moreNamed = false → ∀ entry ∈ args.named,
    ∃ parameter ∈ signature.parameters, parameter.name = entry.1
  few : signature.morePositional = false → args.positional.length ≤ signature.parameters.length
  full : ∀ parameter ∈ signature.parameters.drop args.positional.length,
    (∃ entry ∈ args.named, entry.1 = parameter.name) ∨ parameter.default?.isSome

theorem valueOf?_isSome_iff (parameter : Parameter) :
    (valueOf? args parameter).isSome ↔
      (∃ entry ∈ args.named, entry.1 = parameter.name) ∨ parameter.default?.isSome := by
  rw [valueOf?]
  cases hfind : args.named.find? (·.1 == parameter.name) with
  | none =>
    have hnone : ¬ ∃ entry ∈ args.named, entry.1 = parameter.name := by
      rintro ⟨entry, hentry, hname⟩
      exact List.find?_eq_none.1 hfind entry hentry (beq_iff_eq.2 hname)
    exact (or_iff_right hnone).symm
  | some entry =>
    have hname : entry.1 = parameter.name := by simpa using List.find?_some hfind
    exact iff_of_true rfl (.inl ⟨entry, List.mem_of_find?_eq_some hfind, hname⟩)

theorem namedFault?_eq_none_iff :
    signature.namedFault? args = none ↔ ∀ entry ∈ args.named,
      (∀ parameter ∈ signature.parameters.take args.positional.length, parameter.name ≠ entry.1) ∧
        (signature.moreNamed = false →
          ∃ parameter ∈ signature.parameters, parameter.name = entry.1) := by
  rw [namedFault?, List.findSome?_eq_none_iff]
  refine forall₂_congr fun entry _ => ?_
  have hany (parameters : List Parameter) :
      parameters.any (·.name == entry.1) = true ↔
        ∃ parameter ∈ parameters, parameter.name = entry.1 := by
    simp
  dsimp only
  simp only [Bool.or_eq_true, hany, taken]
  split_ifs with htaken hknown
  · obtain ⟨parameter, hparameter, hname⟩ := htaken
    exact iff_of_false nofun fun h => h.1 parameter hparameter hname
  · refine iff_of_true rfl ⟨fun parameter hparameter hname => ?_, fun hmore => ?_⟩
    · exact htaken ⟨parameter, hparameter, hname⟩
    · exact hknown.resolve_left (by simp [hmore])
  · obtain ⟨hmore, hnone⟩ := not_or.1 hknown
    exact iff_of_false nofun fun h => hnone (h.2 (Bool.not_eq_true _ ▸ hmore))

theorem excessFault?_eq_none_iff :
    signature.excessFault? args = none ↔
      (signature.morePositional = false → args.positional.length ≤ signature.parameters.length) := by
  rw [excessFault?]
  split_ifs with h
  · simp only [Bool.or_eq_true, decide_eq_true_eq] at h
    exact iff_of_true rfl fun hmore => h.resolve_left (by simp [hmore])
  · simp only [Bool.or_eq_true, decide_eq_true_eq, not_or, Bool.not_eq_true] at h
    exact iff_of_false nofun fun hle => h.2 (hle h.1)

theorem missingFault?_eq_none_iff :
    signature.missingFault? args = none ↔
      ∀ parameter ∈ signature.parameters.drop args.positional.length,
        (valueOf? args parameter).isSome := by
  rw [missingFault?, ite_eq_left_iff]
  simp [Option.isSome_iff_ne_none]

/-- The values of parameters that have one are found at their places. -/
theorem getElem?_filterMap_valueOf? {parameters : List Parameter}
    (h : ∀ parameter ∈ parameters, (valueOf? args parameter).isSome) (i : Nat) :
    (parameters.filterMap (valueOf? args))[i]? = parameters[i]?.bind (valueOf? args) := by
  induction parameters generalizing i with
  | nil => rfl
  | cons parameter rest ih =>
    obtain ⟨hparameter, hrest⟩ := List.forall_mem_cons.1 h
    obtain ⟨v, hv⟩ := Option.isSome_iff_exists.1 hparameter
    rw [List.filterMap_cons_some hv]
    cases i with
    | zero => exact hv.symm
    | succ i => exact ih hrest i

/-- The positional arguments come first, as far as there are parameters for them. -/
theorem getElem?_values (h : ∀ parameter ∈ signature.parameters.drop args.positional.length,
      (valueOf? args parameter).isSome) (i : Nat) :
    (args.positional.take signature.parameters.length ++
        (signature.parameters.drop args.positional.length).filterMap (valueOf? args))[i]? =
      signature.parameters[i]?.bind (args.value? i) := by
  rw [List.getElem?_append, List.length_take, getElem?_filterMap_valueOf? h, List.getElem?_drop]
  split_ifs with hi
  · obtain ⟨hparameter, hpositional⟩ := lt_min_iff.1 hi
    rw [List.getElem?_take_of_lt hparameter, List.getElem?_eq_getElem hparameter,
      List.getElem?_eq_getElem hpositional, Option.bind_some, Arguments.value?,
      List.getElem?_eq_getElem hpositional, Option.some_or]
  · rcases le_total args.positional.length signature.parameters.length with hle | hle
    · rw [min_eq_right hle] at hi ⊢
      have hnone : args.positional[i]? = none := List.getElem?_eq_none (not_lt.1 hi)
      have hvalue : args.value? i = valueOf? args := by
        funext parameter
        rw [Arguments.value?, hnone, Option.none_or]
      rw [Nat.add_sub_cancel' (not_lt.1 hi), hvalue]
    · rw [min_eq_left hle] at hi ⊢
      rw [List.getElem?_eq_none (by omega), List.getElem?_eq_none (by omega), Option.bind_none,
        Option.bind_none]

/-- The complaint about a call that is not accepted. -/
def fault? (signature : Signature) (args : Arguments) : Option Fault :=
  (signature.namedFault? args).orElse fun _ =>
    (signature.excessFault? args).orElse fun _ => signature.missingFault? args

theorem bind_eq : signature.bind args =
    match signature.fault? args with
    | some fault => .error fault
    | none => .ok (args.positional.take signature.parameters.length ++
        (signature.parameters.drop args.positional.length).filterMap (valueOf? args)) := rfl

theorem fault?_eq_none_iff : signature.fault? args = none ↔ signature.Accepts args := by
  simp only [fault?, Option.orElse_eq_or, Option.or_eq_none_iff, namedFault?_eq_none_iff,
    excessFault?_eq_none_iff, missingFault?_eq_none_iff, valueOf?_isSome_iff]
  constructor
  · rintro ⟨hnamed, hfew, hfull⟩
    exact ⟨fun entry hentry => (hnamed entry hentry).1,
      fun hmore entry hentry => (hnamed entry hentry).2 hmore, hfew, hfull⟩
  · rintro ⟨honce, hknown, hfew, hfull⟩
    exact ⟨fun entry hentry => ⟨honce entry hentry, fun hmore => hknown hmore entry hentry⟩, hfew,
      hfull⟩

/-- Which calls are accepted, and what the values of the parameters are then. -/
theorem bind_eq_ok_iff {values : List Value} :
    signature.bind args = .ok values ↔ signature.Accepts args ∧
      ∀ i, values[i]? = signature.parameters[i]?.bind (args.value? i) := by
  rw [bind_eq, ← fault?_eq_none_iff]
  cases hfault : signature.fault? args with
  | some fault => exact iff_of_false nofun fun h => nomatch h.1
  | none =>
    have hfull : ∀ parameter ∈ signature.parameters.drop args.positional.length,
        (valueOf? args parameter).isSome := fun parameter hparameter =>
      (valueOf?_isSome_iff parameter).2 ((fault?_eq_none_iff.1 hfault).full parameter hparameter)
    have hvalues := getElem?_values hfull
    simp only [Except.ok.injEq, true_and]
    constructor
    · rintro rfl i
      exact hvalues i
    · intro h
      exact List.ext_getElem? fun i => (hvalues i).trans (h i).symm

/-- What is said about a call that is not accepted names the function. -/
theorem exists_complaint_of_bind {fault : Fault} (h : signature.bind args = .error fault) :
    ∃ message, fault = signature.complaint message := by
  rw [bind_eq] at h
  cases hfault : signature.fault? args with
  | none => rw [hfault] at h; cases h
  | some complaint =>
    rw [hfault] at h
    obtain rfl := Except.error.inj h
    simp only [fault?, Option.orElse_eq_or, Option.or_eq_some_iff] at hfault
    rcases hfault with hnamed | ⟨-, hexcess | ⟨-, hmissing⟩⟩
    · obtain ⟨entry, -, hentry⟩ := List.exists_of_findSome?_eq_some hnamed
      dsimp only at hentry
      split_ifs at hentry <;> exact ⟨_, (Option.some.inj hentry).symm⟩
    · rw [excessFault?] at hexcess
      split_ifs at hexcess <;> exact ⟨_, (Option.some.inj hexcess).symm⟩
    · rw [missingFault?] at hmissing
      split_ifs at hmissing
      exact ⟨_, (Option.some.inj hmissing).symm⟩

end Signature

end Precedence
