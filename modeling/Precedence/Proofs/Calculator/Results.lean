import Mathlib
import Precedence.Calculator.Session
import Precedence.Proofs.Calculator.Structure

/-!
# Results on one line

What the calculator prints for a value or a tree takes one line, and nothing is written on the way
unless the calculator was asked to be verbose.

## Main definitions

- `OneLine` — texts without a newline
- `Act.Quiet` — actions that leave their state as it is

## Main statements

- `oneLine_text?` — the text of a number
- `oneLine_plain_tree` — the text of the tree of a source
- `quiet_tree`, `quiet_evaluate` — nothing is written on the way
-/

namespace Precedence

variable {σ ε ρ β α γ : Type}

/-! ### Texts without a newline -/

/-- A text without a newline. -/
def OneLine (text : String) : Prop :=
  '\n' ∉ text.toList

instance (text : String) : Decidable (OneLine text) :=
  inferInstanceAs (Decidable (¬ _))

theorem oneLine_ofList {xs : List Char} : OneLine (String.ofList xs) ↔ '\n' ∉ xs := by
  rw [OneLine, String.toList_ofList]

theorem OneLine.append {a b : String} (ha : OneLine a) (hb : OneLine b) : OneLine (a ++ b) := by
  rw [OneLine, String.toList_append, List.mem_append]
  exact not_or.2 ⟨ha, hb⟩

theorem oneLine_repr (n : Nat) : '\n' ∉ (Nat.repr n).toList := by
  rw [Nat.toList_repr]
  intro h
  exact absurd (Nat.isDigit_of_mem_toDigits (by omega) (by omega) h) (by decide)

theorem oneLine_layout (d : Decimal) : '\n' ∉ d.layout := by
  have hdigits := oneLine_repr d.digits
  have hsize := oneLine_repr (d.point - 1).natAbs
  unfold Decimal.layout
  dsimp only
  generalize (Nat.repr d.digits).toList = digits at hdigits ⊢
  generalize (Nat.repr (d.point - 1).natAbs).toList = size at hsize ⊢
  split
  · split
    · simp [hdigits]
    · split
      · simp [hdigits]
      · have htake : '\n' ∉ digits.take d.point.toNat := fun h => hdigits (List.mem_of_mem_take h)
        have hdrop : '\n' ∉ digits.drop d.point.toNat := fun h => hdigits (List.mem_of_mem_drop h)
        simp [htake, hdrop]
  · simp only [List.mem_append, List.mem_cons, not_or]
    refine ⟨?_, by decide, ?_, ?_⟩
    · rcases digits with - | ⟨c, - | ⟨c', rest⟩⟩ <;> simp_all
    · split <;> decide
    · split <;> simp [hsize]

theorem oneLine_floatText (x : Float) : OneLine (floatText x) := by
  rw [floatText]
  split
  case h_1 negative units exponent _ =>
    have hbody : '\n' ∉ (if units = 0 then ['0', '.', '0']
        else (shortestDecimal units exponent).layout) := by
      split
      · decide
      · exact oneLine_layout _
    rw [oneLine_ofList]
    split
    · simp [hbody]
    · exact hbody
  case h_2 =>
    rw [OneLine]
    split
    · decide
    · split <;> decide

theorem oneLine_text? {n : Number} {text : String} (h : n.text? = some text) : OneLine text := by
  cases n with
  | int i =>
    rw [Number.text?] at h
    split at h
    · cases h
    · obtain rfl := Option.some.inj h
      cases i with
      | ofNat m => exact oneLine_repr m
      | negSucc m =>
        have hsign : OneLine "-" := by decide
        exact hsign.append (oneLine_repr _)
  | real x =>
    obtain rfl := Option.some.inj h
    exact oneLine_floatText x

/-! ### Trees -/

theorem ne_newline_hexDigit (n : Nat) : hexDigit (n % 16) ≠ '\n' := by
  have hcases : ∀ k < 16, hexDigit k ≠ '\n' := by decide
  exact hcases _ (Nat.mod_lt _ (by omega))

theorem oneLine_hexDigits (width n : Nat) : '\n' ∉ hexDigits width n := by
  induction width generalizing n with
  | zero => simp [hexDigits]
  | succ width ih =>
    rw [hexDigits, List.mem_append, List.mem_singleton]
    exact not_or.2 ⟨ih _, (ne_newline_hexDigit n).symm⟩

theorem oneLine_escapeChar {mark : Char} (hmark : mark ≠ '\n') (c : Char) :
    '\n' ∉ escapeChar mark c := by
  rw [escapeChar]
  split
  case isTrue h =>
    have hc : c ≠ '\n' := by
      rintro rfl
      simp [hmark.symm] at h
    simp [hc.symm]
  case isFalse =>
    split
    case isTrue => decide
    case isFalse hc =>
      have hx := oneLine_hexDigits 2 c.toNat
      have hu := oneLine_hexDigits 4 c.toNat
      have hU := oneLine_hexDigits 8 c.toNat
      split_ifs <;> simp [hx, hu, hU, Ne.symm hc]

/-- A quoted text shows a newline by its escape. -/
theorem oneLine_quoted (text : String) : OneLine (quoted text) := by
  have hmark : quoteMark text.toList ≠ '\n' := by
    rw [quoteMark]
    split <;> decide
  rw [quoted, oneLine_ofList, quotedChars]
  rw [List.cons_append, List.mem_cons, List.mem_append, List.mem_flatMap, List.mem_singleton]
  rintro (h | ⟨c, -, hc⟩ | h)
  · exact hmark h.symm
  · exact oneLine_escapeChar hmark c hc
  · exact hmark h.symm

theorem oneLine_shown (t : Tree String) : OneLine t.shown := by
  have hopening : OneLine "(" := by decide
  have hcomma : OneLine ", " := by decide
  have hclosing : OneLine ")" := by decide
  induction t with
  | leaf text => exact oneLine_quoted text
  | node op left right ihLeft ihRight =>
    have htuple : (Tree.node op left right).shown =
        "(" ++ (quoted op ++ ", " ++ left.shown ++ ", " ++ right.shown) ++ ")" := rfl
    rw [htuple]
    exact (hopening.append
      ((((oneLine_quoted op).append hcomma).append ihLeft |>.append hcomma).append ihRight)).append
      hclosing

/-- The leaves of a tree are texts of numbers. -/
theorem mem_leaves_of_derives {text : Token → String} {s : Symbol} {tokens : List Token}
    {t : Tree String} (h : Derives text s tokens t) :
    ∀ leaf ∈ t.leaves, ∃ token ∈ tokens, token.rule = .num ∧ text token = leaf := by
  induction h with
  | sum _ _ _ _ ihLeft ihRight | prod _ _ _ _ ihLeft ihRight | pow _ _ _ ihLeft ihRight =>
    intro leaf hleaf
    rcases List.mem_append.1 hleaf with hleaf | hleaf
    · obtain ⟨token, htoken, hrule⟩ := ihLeft leaf hleaf
      exact ⟨token, by simp [htoken], hrule⟩
    · obtain ⟨token, htoken, hrule⟩ := ihRight leaf hleaf
      exact ⟨token, by simp [htoken], hrule⟩
  | sumOfProd _ ih | prodOfPow _ ih | powOfAtom _ ih => exact ih
  | @num token h =>
    intro leaf hleaf
    exact ⟨token, List.mem_singleton_self _, h, (List.mem_singleton.1 hleaf).symm⟩
  | parens _ _ _ ih =>
    intro leaf hleaf
    obtain ⟨token, htoken, hrule⟩ := ih leaf hleaf
    exact ⟨token, by simp [htoken], hrule⟩

/-- A lone number is shown as it is, and the notation of a tree has no newline either. -/
theorem oneLine_plain_tree {source : Source} {verbose : Bool} {log : Log} {t : Tree String}
    (h : ((source.tree verbose).run.run log).1 = .ok t) : OneLine t.plain := by
  cases t with
  | leaf text =>
    obtain ⟨token, htoken, hrule, rfl⟩ :=
      mem_leaves_of_derives ((tree_eq_ok_iff source verbose log _).1 h) text
        (List.mem_singleton_self _)
    intro hmem
    rcases isNumeralChar_of_mem (isNumeral_of_mem_tokens htoken hrule) _ hmem with hdigit | hchar
    · exact absurd hdigit (by decide)
    · exact absurd hchar (by decide)
  | node op left right => exact oneLine_shown _

/-! ### Actions that write nothing -/

/-- An action that leaves its state as it is. -/
def Act.Quiet (m : Act σ ε α) : Prop :=
  ∀ s, (m.run.run s).2 = s

namespace Act.Quiet

theorem bind {m : Act σ ε α} {k : α → Act σ ε γ} (hm : m.Quiet) (hk : ∀ a, (k a).Quiet) :
    (m >>= k).Quiet := by
  intro s
  have hs := hm s
  rw [run_bind]
  revert hs
  rcases m.run.run s with ⟨result, s'⟩
  rintro rfl
  cases result with
  | ok a => exact hk a s'
  | error e => rfl

/-- A quiet action is coupled with itself in a state that it is not to leave. -/
theorem like {m : Act σ ε α} (h : m.Quiet) {V : α → α → Prop} (hV : ∀ a, V a a) (s : σ) :
    Act.Like V (fun s₁ s₂ => s₁ = s ∧ s₂ = s) m m := by
  refine Act.Like.of_fst_eq hV ?_
  rintro s₁ s₂ ⟨rfl, rfl⟩
  exact ⟨rfl, h _, h _⟩

end Act.Quiet

/-- Reducing pairs is quiet if looking at a pair, combining values and telling the observer are. -/
theorem Nesting.quiet_reduceInner {nesting : Nesting σ ε ρ β α} (hsilent : nesting.Silent)
    (hvisit : ∀ pair, (nesting.visit pair).Quiet)
    (hcombine : ∀ left op right, (nesting.combine left op right).Quiet) (pair : Pair ρ β) :
    (nesting.reduceInner pair).Quiet := by
  intro s
  have hlike : Nesting.Like Eq (fun s₁ s₂ => s₁ = s ∧ s₂ = s) nesting nesting :=
    { level? := rfl
      visit := fun pair => (hvisit pair).like option_rel_refl s
      combine := fun op a b v w ha hb => by
        rw [ha, hb]
        exact (hcombine v op w).like (fun _ => rfl) s
      observe := fun note s₁ s₂ hs => ⟨(hsilent note s₁).trans hs.1, (hsilent note s₂).trans hs.2⟩
      emptyInner := rfl
      emptyInput := rfl
      missingOperand := rfl
      excess := rfl }
  exact ((hlike.reduceInner pair).fst_eq ⟨rfl, rfl⟩).2.1

theorem quiet_ofExcept (x : Except ε α) : (MonadExcept.ofExcept x : Act σ ε α).Quiet := by
  intro s
  cases x <;> rfl

theorem quiet_visitOperand {leaf : Token → CalcM α} (hleaf : ∀ token, (leaf token).Quiet)
    (token : Token) : (visitOperand leaf token).Quiet := by
  rw [visitOperand]
  split
  · rw [map_eq_pure_bind]
    exact (hleaf token).bind fun _ _ => rfl
  · exact fun _ => rfl
  · exact fun _ => rfl

theorem quiet_reduction {leaf : Token → CalcM α}
    (hleaf : ∀ token, (leaf token).Quiet)
    (node : Token → α → α → Except (CalcFault Token) α) (pair : Token) :
    ((reduction false leaf node).reduceInner pair).Quiet :=
  Nesting.quiet_reduceInner (fun _ _ => rfl) (quiet_visitOperand hleaf)
    (fun _ _ _ => quiet_ofExcept _) pair

theorem quiet_readTokens (source : Source) (frames : List Frame) (tokens : List Token) :
    (source.readTokens false frames tokens).Quiet := by
  induction tokens generalizing frames with
  | nil => exact fun _ => rfl
  | cons token tokens ih =>
    refine Act.Quiet.bind (fun _ => rfl) fun _ => ?_
    cases Frame.push frames token with
    | error fault => exact fun _ => rfl
    | ok frames => exact ih frames

theorem quiet_expression (source : Source) : (source.expression false).Quiet := by
  refine (quiet_readTokens source _ _).bind fun frames => ?_
  rw [fault_lexing]
  dsimp only
  cases Frame.close source.length frames <;> exact fun _ => rfl

/-- Nothing is written while a tree is made. -/
theorem quiet_tree (source : Source) : (source.tree false).Quiet :=
  (quiet_expression source).bind fun expr => quiet_reduction (fun _ _ => rfl) _ expr

/-- Nothing is written while a value is computed. -/
theorem quiet_evaluate (source : Source) : (source.evaluate false).Quiet :=
  (quiet_expression source).bind fun expr => quiet_reduction (fun _ => quiet_ofExcept _) _ expr

end Precedence
