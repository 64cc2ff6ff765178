import Mathlib
import Precedence.Testing.Traceback

/-!
# Shortened tracebacks

A message of a traceback that names a file is shown with its path shortened and is otherwise kept as it
is. Any other message is kept altogether.

## Main definitions

- `FrameLine.WellFormed` — a message that names a file by a path and a line number

## Main statements

- `FrameLine.ofChars?_eq_some_iff` — such messages are recognised, and no others
- `shortenMessage_chars` — the path is shortened
- `shortenMessage_of_ne` — all other messages are kept
- `shortenPath_below_workDir`, `shortenPath_below_home`, `shortenPath_elsewhere` — how a path is shortened
-/

namespace Precedence

namespace FrameLine

/-- A path that may be quoted is not empty and has no quote and no newline in it, and what follows it
starts with a digit. -/
structure WellFormed (line : FrameLine) : Prop where
  file_ne_nil : line.file ≠ []
  plain : ∀ c ∈ line.file, c ≠ '\x22' ∧ c ≠ '\n'
  numbered : ∃ c ∈ line.rest.head?, isDigit c = true

theorem after?_eq_some_iff {start text rest : List Char} :
    after? start text = some rest ↔ text = start ++ rest := by
  rw [after?]
  constructor
  · intro h
    split_ifs at h with hstart
    obtain ⟨back, rfl⟩ := List.isPrefixOf_iff_prefix.1 hstart
    rw [List.drop_left, Option.some.injEq] at h
    rw [h]
  · rintro rfl
    rw [if_pos (List.isPrefixOf_iff_prefix.2 (List.prefix_append _ _)), List.drop_left]

theorem after?_eq_none_iff {start text : List Char} :
    after? start text = none ↔ ¬ start <+: text := by
  rw [← List.isPrefixOf_iff_prefix, after?]
  split_ifs with hstart <;> simp [hstart]

/-- A character that may be in a quoted path. -/
def inPath (c : Char) : Bool :=
  c != '\x22' && c != '\n'

theorem inPath_iff {c : Char} : inPath c = true ↔ c ≠ '\x22' ∧ c ≠ '\n' := by
  simp [inPath]

/-- What is read of a message after its opening: the path, up to the first character that cannot be in
it, and then the line number. -/
theorem ofChars?_eq (message : List Char) :
    ofChars? message = (after? opening message).bind fun text =>
      (after? between (text.dropWhile inPath)).bind fun rest =>
        if text.takeWhile inPath ≠ [] ∧ ∃ c ∈ rest.head?, isDigit c = true then
          some ⟨text.takeWhile inPath, rest⟩
        else none := by
  refine bind_congr fun text => bind_congr fun rest => ?_
  have hcond : (!(text.takeWhile inPath).isEmpty && (rest.head?.map isDigit).getD false) = true ↔
      text.takeWhile inPath ≠ [] ∧ ∃ c ∈ rest.head?, isDigit c = true := by
    cases rest <;> simp
  change (guard ((!(text.takeWhile inPath).isEmpty && (rest.head?.map isDigit).getD false) = true) >>=
    fun _ => some (⟨text.takeWhile inPath, rest⟩ : FrameLine)) = _
  rw [guard, if_congr hcond rfl rfl]
  split_ifs <;> rfl

/-- Messages that name a file are recognised, and no others. -/
theorem ofChars?_eq_some_iff {message : List Char} {line : FrameLine} :
    ofChars? message = some line ↔ message = line.chars ∧ line.WellFormed := by
  simp only [ofChars?_eq, Option.bind_eq_some_iff, after?_eq_some_iff,
    Option.ite_none_right_eq_some, Option.some.injEq]
  constructor
  · rintro ⟨text, rfl, rest, hrest, ⟨hfile, hdigit⟩, rfl⟩
    refine ⟨?_, hfile, fun c hc => inPath_iff.1 (List.mem_takeWhile_imp hc), hdigit⟩
    rw [chars, List.append_assoc, List.append_assoc, ← hrest, List.takeWhile_append_dropWhile]
  · rintro ⟨rfl, hfile, hplain, hdigit⟩
    have hpath : ∀ c ∈ line.file, inPath c = true := fun c hc => inPath_iff.2 (hplain c hc)
    have hbetween : (between ++ line.rest).takeWhile inPath = [] ∧
        (between ++ line.rest).dropWhile inPath = between ++ line.rest := ⟨rfl, rfl⟩
    have htake : (line.file ++ (between ++ line.rest)).takeWhile inPath = line.file := by
      rw [List.takeWhile_append_of_pos hpath, hbetween.1, List.append_nil]
    have hdrop : (line.file ++ (between ++ line.rest)).dropWhile inPath = between ++ line.rest := by
      rw [List.dropWhile_append_of_pos hpath, hbetween.2]
    refine ⟨line.file ++ (between ++ line.rest), ?_, line.rest, hdrop, ?_⟩
    · rw [chars, List.append_assoc, List.append_assoc]
    · rw [htake]
      exact ⟨⟨hfile, hdigit⟩, rfl⟩

end FrameLine

/-! ### Shortened paths -/

section

variable {workDir home path : List Char}

/-- A path below the working directory is shown relative to it, with a dot before a bare name. -/
theorem shortenPath_below_workDir :
    shortenPath workDir home (workDir ++ path) =
      if '/' ∈ path then path else ['.', '/'] ++ path := by
  rw [shortenPath, FrameLine.after?_eq_some_iff.2 rfl]
  simp

/-- A path below the home directory, but not below the working directory, is shown with a tilde. -/
theorem shortenPath_below_home (h : ¬ workDir <+: home ++ path) :
    shortenPath workDir home (home ++ path) = ['~', '/'] ++ path := by
  rw [shortenPath, FrameLine.after?_eq_none_iff.2 h, FrameLine.after?_eq_some_iff.2 rfl]
  rfl

/-- A path below neither directory is kept. -/
theorem shortenPath_elsewhere (hwork : ¬ workDir <+: path) (hhome : ¬ home <+: path) :
    shortenPath workDir home path = path := by
  rw [shortenPath, FrameLine.after?_eq_none_iff.2 hwork, FrameLine.after?_eq_none_iff.2 hhome]

end

/-! ### Shortened messages -/

variable {workDir home : String}

/-- A message that names a file is kept, except that the path is shortened. -/
theorem shortenMessage_chars {line : FrameLine} (h : line.WellFormed) :
    shortenMessage workDir home (String.ofList line.chars) =
      String.ofList
        { line with file := shortenPath workDir.toList home.toList line.file }.chars := by
  have hline : FrameLine.ofChars? (String.ofList line.chars).toList = some line :=
    FrameLine.ofChars?_eq_some_iff.2 ⟨String.toList_ofList, h⟩
  rw [shortenMessage, hline]

/-- A message that names no file is kept. -/
theorem shortenMessage_of_ne {message : String}
    (h : ∀ line : FrameLine, line.WellFormed → message.toList ≠ line.chars) :
    shortenMessage workDir home message = message := by
  rw [shortenMessage]
  cases hline : FrameLine.ofChars? message.toList with
  | none => rfl
  | some line =>
    obtain ⟨hmessage, hformed⟩ := FrameLine.ofChars?_eq_some_iff.1 hline
    exact absurd hmessage (h line hformed)

end Precedence
