import Mathlib
import Precedence.Testing.Path

/-!
# Places of paths

The place of a path is given by the names from the root, without dots. A path that is joined to
another one, or seen from a directory, is followed from where the other one leads.

## Main definitions

- `IsName` — the name of an entry of a directory
- `follow` — the place that a path leads to, followed from another place
- `pathText` — the text of a path with some components

## Main statements

- `follow_joinPath` — a path below a directory is followed from the place of the directory
- `absoluteParts_below` — names below a path are added to its place
- `absoluteParts_relativePath` — a path leads to the same place as seen from a directory
-/

namespace Precedence

/-- The name of an entry of a directory. -/
@[mk_iff]
structure IsName (name : String) : Prop where
  ne_empty : name ≠ ""
  ne_dot : name ≠ "."
  ne_dots : name ≠ ".."
  slash_notMem : '/' ∉ name.toList

/-! ### Components -/

namespace splitPath

theorem go_ne_nil (cs : List Char) : go cs ≠ [] := by
  cases cs with
  | nil => exact List.cons_ne_nil _ _
  | cons c cs =>
    rw [go]
    split
    · exact List.cons_ne_nil _ _
    · split <;> exact List.cons_ne_nil _ _

theorem go_append_slash (cs ds : List Char) : go (cs ++ '/' :: ds) = go cs ++ go ds := by
  induction cs with
  | nil => simp [go]
  | cons c cs ih =>
    rw [List.cons_append, go, go, ih]
    by_cases hc : c = '/'
    · rw [if_pos hc, if_pos hc, List.cons_append]
    · rw [if_neg hc, if_neg hc]
      cases hparts : go cs with
      | nil => exact absurd hparts (go_ne_nil cs)
      | cons part parts => rfl

theorem go_of_notMem {cs : List Char} (h : '/' ∉ cs) : go cs = [String.ofList cs] := by
  induction cs with
  | nil => rfl
  | cons c cs ih =>
    obtain ⟨hc, hcs⟩ := List.ne_and_not_mem_of_not_mem_cons h
    rw [go, if_neg (Ne.symm hc), ih hcs]
    simp

theorem notMem_of_mem_go {cs : List Char} {part : String} (h : part ∈ go cs) :
    '/' ∉ part.toList := by
  induction cs generalizing part with
  | nil =>
    obtain rfl := List.mem_singleton.1 h
    exact List.not_mem_nil
  | cons c cs ih =>
    rw [go] at h
    by_cases hc : c = '/'
    · rw [if_pos hc] at h
      rcases List.mem_cons.1 h with rfl | hmem
      · exact List.not_mem_nil
      · exact ih hmem
    · rw [if_neg hc] at h
      cases hparts : go cs with
      | nil => exact absurd hparts (go_ne_nil cs)
      | cons first parts =>
        rw [hparts] at h ih
        rcases List.mem_cons.1 h with rfl | hmem
        · simpa [Ne.symm hc] using ih List.mem_cons_self
        · exact ih (List.mem_cons_of_mem _ hmem)

end splitPath

theorem splitPath_eq (path : String) : splitPath path = splitPath.go path.toList := rfl

theorem splitPath_of_notMem {part : String} (h : '/' ∉ part.toList) : splitPath part = [part] := by
  rw [splitPath_eq, splitPath.go_of_notMem h, String.ofList_toList]

theorem splitPath_append_slash (front back : String) :
    splitPath (front ++ "/" ++ back) = splitPath front ++ splitPath back := by
  simp [splitPath_eq, ← splitPath.go_append_slash]

/-- Components that are put together are found again. -/
theorem splitPath_intercalate {parts : List String} (hne : parts ≠ [])
    (h : ∀ part ∈ parts, '/' ∉ part.toList) : splitPath ("/".intercalate parts) = parts := by
  induction parts with
  | nil => exact absurd rfl hne
  | cons part parts ih =>
    obtain ⟨hpart, hparts⟩ := List.forall_mem_cons.1 h
    cases parts with
    | nil =>
      rw [String.intercalate_singleton]
      exact splitPath_of_notMem hpart
    | cons next rest =>
      rw [String.intercalate_cons_cons, splitPath_append_slash, splitPath_of_notMem hpart,
        ih (List.cons_ne_nil _ _) hparts]
      rfl

/-! ### Following a path -/

/-- The place that a path leads to from another place. Places are given by their names, the last one
first. -/
def follow (place : List String) (path : String) : List String :=
  (splitPath path).foldl followPart place

variable {place : List String} {workDir directory path name : String}

theorem absoluteParts_eq (workDir path : String) :
    absoluteParts workDir path = (follow [] (joinPath workDir path)).reverse := rfl

theorem IsName.followPart_eq (h : IsName name) (place : List String) :
    followPart place name = name :: place := by
  rw [followPart, if_neg (by simp [h.ne_empty, h.ne_dot]), if_neg h.ne_dots]

theorem IsName.follow_eq (h : IsName name) (place : List String) :
    follow place name = name :: place := by
  rw [follow, splitPath_of_notMem h.slash_notMem]
  exact h.followPart_eq place

theorem foldl_followPart_names {names : List String} (h : ∀ name ∈ names, IsName name)
    (place : List String) : names.foldl followPart place = names.reverse ++ place := by
  induction names generalizing place with
  | nil => rfl
  | cons name names ih =>
    obtain ⟨hname, hnames⟩ := List.forall_mem_cons.1 h
    rw [List.foldl_cons, hname.followPart_eq, ih hnames]
    simp

theorem foldl_followPart_dots {front : List String} (up back : List String)
    (h : front.length = up.length) :
    (up.map fun _ => "..").foldl followPart (front ++ back) = back := by
  induction up generalizing front with
  | nil => rw [List.eq_nil_of_length_eq_zero h, List.map_nil, List.foldl_nil, List.nil_append]
  | cons name up ih =>
    obtain ⟨first, front, rfl⟩ := List.exists_cons_of_length_eq_add_one h
    exact ih (Nat.succ.inj h)

theorem isName_of_mem_foldl {parts : List String} (hparts : ∀ part ∈ parts, '/' ∉ part.toList)
    (hplace : ∀ name ∈ place, IsName name) :
    ∀ name ∈ parts.foldl followPart place, IsName name := by
  induction parts generalizing place with
  | nil => exact hplace
  | cons part parts ih =>
    obtain ⟨hpart, hparts⟩ := List.forall_mem_cons.1 hparts
    refine ih hparts ?_
    by_cases hstay : part = "" ∨ part = "."
    · rwa [followPart, if_pos (by simpa using hstay)]
    · rw [followPart, if_neg (by simpa using hstay)]
      obtain ⟨hempty, hdot⟩ := not_or.1 hstay
      split
      · exact fun name hname => hplace name (List.mem_of_mem_tail hname)
      · exact List.forall_mem_cons.2 ⟨⟨hempty, hdot, ‹_›, hpart⟩, hplace⟩

theorem isName_of_mem_absoluteParts (h : name ∈ absoluteParts workDir path) : IsName name :=
  isName_of_mem_foldl (fun _ => splitPath.notMem_of_mem_go) (List.forall_mem_nil _) name
    (List.mem_reverse.1 h)

/-! ### Joined paths -/

theorem startsWith_slash_iff : path.startsWith "/" = true ↔ ['/'] <+: path.toList :=
  String.startsWith_string_iff

theorem endsWith_iff {text ending : String} :
    text.endsWith ending = true ↔ ending.toList <:+ text.toList := by
  rw [String.endsWith_eq_endsWith_toSlice, String.Slice.endsWith_string_iff, String.copy_toSlice]

theorem exists_of_endsWith_slash (h : path.endsWith "/" = true) : ∃ front, path = front ++ "/" := by
  obtain ⟨front, hfront⟩ := endsWith_iff.1 h
  exact ⟨String.ofList front, by rw [← String.toList_inj]; simpa using hfront.symm⟩

theorem not_startsWith_of_notMem (h : '/' ∉ path.toList) : ¬ path.startsWith "/" := by
  rw [startsWith_slash_iff]
  exact fun hslash => h (hslash.subset (List.mem_singleton_self _))

theorem splitPath_of_startsWith (h : path.startsWith "/" = true) :
    ∃ parts, splitPath path = "" :: parts := by
  obtain ⟨rest, hrest⟩ := startsWith_slash_iff.1 h
  rw [splitPath_eq, ← hrest]
  exact ⟨_, if_pos rfl⟩

/-- A path below a directory is followed from the place of the directory. -/
theorem follow_joinPath (h : ¬ path.startsWith "/") (place : List String) :
    follow place (joinPath directory path) = follow (follow place directory) path := by
  have hslash (front : String) :
      follow place (front ++ "/" ++ path) = follow (follow place front) path := by
    rw [follow, splitPath_append_slash, List.foldl_append]
    rfl
  rw [joinPath, if_neg h]
  by_cases hempty : directory = ""
  · subst hempty
    rw [if_pos (by rfl), String.empty_append]
    rfl
  · by_cases hends : directory.endsWith "/"
    · obtain ⟨front, rfl⟩ := exists_of_endsWith_slash hends
      rw [if_pos (by simp [hends]), hslash]
      congr 1
      rw [← String.append_empty (s := front ++ "/"), follow, follow, splitPath_append_slash,
        List.foldl_append]
      rfl
    · rw [if_neg (by simp [hempty, hends]), hslash]

theorem IsName.startsWith_joinPath (h : IsName name) :
    (joinPath path name).startsWith "/" = path.startsWith "/" := by
  have hname := not_startsWith_of_notMem h.slash_notMem
  rw [joinPath, if_neg hname]
  by_cases hempty : path = ""
  · subst hempty
    rw [if_pos (by rfl), String.empty_append, Bool.eq_false_of_not_eq_true hname]
    rfl
  · obtain ⟨c, cs, hpath⟩ := List.exists_cons_of_ne_nil (mt String.toList_eq_nil_iff.1 hempty)
    rw [Bool.eq_iff_iff, startsWith_slash_iff, startsWith_slash_iff, hpath]
    split <;> simp [hpath]

/-- The name of an entry is added to the place of a path when it is joined to the path. -/
theorem follow_joinPath_name (h : IsName name) :
    follow [] (joinPath workDir (joinPath path name)) =
      name :: follow [] (joinPath workDir path) := by
  have hjoined : follow [] (joinPath path name) = name :: follow [] path := by
    rw [follow_joinPath (not_startsWith_of_notMem h.slash_notMem), h.follow_eq]
  by_cases habsolute : path.startsWith "/"
  · have hsame {other : String} (hother : other.startsWith "/" = true) :
        joinPath workDir other = other := by
      rw [joinPath, if_pos hother]
    rw [hsame habsolute, hsame (h.startsWith_joinPath.trans habsolute), hjoined]
  · rw [follow_joinPath habsolute, follow_joinPath (by rwa [h.startsWith_joinPath]),
      follow_joinPath (not_startsWith_of_notMem h.slash_notMem), h.follow_eq]

/-- Names below a path are added to its place. -/
theorem absoluteParts_below {names : List String} (h : ∀ name ∈ names, IsName name)
    (workDir path : String) :
    absoluteParts workDir (names.foldl joinPath path) = absoluteParts workDir path ++ names := by
  induction names generalizing path with
  | nil => rw [List.foldl_nil, List.append_nil]
  | cons name names ih =>
    obtain ⟨hname, hnames⟩ := List.forall_mem_cons.1 h
    rw [List.foldl_cons, ih hnames, absoluteParts_eq, follow_joinPath_name hname, absoluteParts_eq]
    simp

/-! ### Relative paths -/

/-- The text of a path with some components. -/
def pathText : List String → String
  | [] => "."
  | parts => "/".intercalate parts

/-- The components of a text are followed one after the other, and it does not start at the root. -/
theorem follow_pathText {parts : List String}
    (h : ∀ part ∈ parts, part ≠ "" ∧ '/' ∉ part.toList) :
    ¬ (pathText parts).startsWith "/" ∧
      ∀ place, follow place (pathText parts) = parts.foldl followPart place := by
  cases parts with
  | nil => exact ⟨not_startsWith_of_notMem (by decide), fun place => rfl⟩
  | cons part parts =>
    have hsplit : splitPath (pathText (part :: parts)) = part :: parts :=
      splitPath_intercalate (List.cons_ne_nil _ _) fun part hpart => (h part hpart).2
    refine ⟨fun hslash => ?_, fun place => by rw [follow, hsplit]⟩
    obtain ⟨rest, hrest⟩ := splitPath_of_startsWith hslash
    rw [hsplit] at hrest
    exact (h part List.mem_cons_self).1 (List.cons.inj hrest).1

theorem exists_common (as bs : List String) :
    ∃ common, as = common ++ (dropCommon as bs).1 ∧ bs = common ++ (dropCommon as bs).2 := by
  induction as, bs using dropCommon.induct with
  | case1 as b bs ih =>
    obtain ⟨common, has, hbs⟩ := ih
    rw [dropCommon, if_pos rfl]
    exact ⟨b :: common, congrArg _ has, congrArg _ hbs⟩
  | case2 a as b bs hne =>
    rw [dropCommon, if_neg hne]
    exact ⟨[], rfl, rfl⟩
  | case3 as bs hnone =>
    rw [dropCommon.eq_2 _ _ hnone]
    exact ⟨[], rfl, rfl⟩

/-- A path as seen from a directory leads up to a common parent and down again. -/
theorem exists_relativePath (workDir path directory : String) :
    ∃ common up down, absoluteParts workDir directory = common ++ up ∧
      absoluteParts workDir path = common ++ down ∧
      relativePath workDir path directory = pathText ((up.map fun _ => "..") ++ down) := by
  obtain ⟨common, hup, hdown⟩ :=
    exists_common (absoluteParts workDir directory) (absoluteParts workDir path)
  generalize hleft : dropCommon (absoluteParts workDir directory) (absoluteParts workDir path) =
    left at hup hdown
  obtain ⟨up, down⟩ := left
  refine ⟨common, up, down, hup, hdown, ?_⟩
  rw [relativePath, hleft]
  rfl

/-- A path leads to the same place as seen from a directory. -/
theorem absoluteParts_relativePath (workDir path directory : String) :
    absoluteParts (joinPath workDir directory) (relativePath workDir path directory) =
      absoluteParts workDir path := by
  obtain ⟨common, up, down, hup, hdown, hpath⟩ := exists_relativePath workDir path directory
  have hnames : ∀ name ∈ down, IsName name := fun name hname =>
    isName_of_mem_absoluteParts (hdown ▸ List.mem_append_right _ hname)
  have hparts : ∀ part ∈ (up.map fun _ => "..") ++ down, part ≠ "" ∧ '/' ∉ part.toList := by
    intro part hpart
    rcases List.mem_append.1 hpart with hdots | hname
    · obtain ⟨-, -, rfl⟩ := List.mem_map.1 hdots
      decide
    · exact ⟨(hnames part hname).ne_empty, (hnames part hname).slash_notMem⟩
  obtain ⟨hrelative, hfollow⟩ := follow_pathText hparts
  have hstart : follow [] (joinPath workDir directory) = up.reverse ++ common.reverse := by
    rw [← List.reverse_append, ← hup, absoluteParts_eq, List.reverse_reverse]
  rw [hpath, absoluteParts_eq, follow_joinPath hrelative, hfollow, hstart, List.foldl_append,
    foldl_followPart_dots up _ List.length_reverse, foldl_followPart_names hnames,
    ← List.reverse_append, List.reverse_reverse, ← hdown]

end Precedence
