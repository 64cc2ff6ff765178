import Mathlib
import Precedence.Proofs.Testing.Places
import Precedence.Testing.Runner

/-!
# Finding and running tests

The runner runs the files that it is asked for and the test files below the directories that it is
asked for, each once and in order, whatever statuses the scripts end with.

## Main definitions

- `FileTree.LeadsTo` — what names lead to, from directory to directory
- `FileTree.IsTest` — the names that lead to a test file
- `FileTree.Proper` — the entries of every directory have different names
- `ComesBefore` — the order of files in a tree
- `FileTree.ListsTests` — the names of all test files in order
- `Finds` — the files that a path stands for
- `Runs` — a script is run

## Main statements

- `FileTree.ListsTests.unique` — there is only one list of the test files of a tree
- `FileTree.Proper.exists_names` — the runner lists the test files below a directory
- `runTestsAt_finds` — the scripts that are run

## Design notes

What a path leads to is given by the file system, as it is when the runner looks: its scratch
directory is there already. A file is told by the names that lead to it, and the place of a script
is compared with that of the file, so that nothing depends on how paths are written.
-/

namespace Precedence

/-! ### Trees -/

namespace FileTree

/-- What names lead to. Each is that of an entry of the directory that the earlier ones lead to. -/
inductive LeadsTo : FileTree → List String → FileTree → Prop
  | here {tree} : LeadsTo tree [] tree
  | into {entries name below names tree} (hentry : (name, below) ∈ entries)
      (h : LeadsTo below names tree) : LeadsTo (directory entries) (name :: names) tree

/-- Names below a tree lead to a test file: a file whose name ends with the extension of tests. -/
def IsTest (tree : FileTree) (names : List String) : Prop :=
  tree.LeadsTo names file ∧
    ∃ name, names.getLast? = some name ∧ testExtension.toList <:+ name.toList

/-- The entries of every directory have names, and no two of them have the same one. -/
inductive Proper : FileTree → Prop
  | file : Proper file
  | directory {entries} (hnodup : (entries.map Prod.fst).Nodup)
      (hnames : ∀ entry ∈ entries, IsName entry.1) (hbelow : ∀ entry ∈ entries, Proper entry.2) :
      Proper (directory entries)

end FileTree

open FileTree

variable {path name : String} {tree : FileTree} {entries : List (String × FileTree)}
  {names names' : List String} {files files' : List (List String)}

theorem FileTree.Proper.isName_of_leadsTo {below : FileTree} (hproper : tree.Proper)
    (h : tree.LeadsTo names below) : ∀ name ∈ names, IsName name := by
  induction h with
  | here => exact List.forall_mem_nil _
  | into hentry _ ih =>
    cases hproper with
    | directory _ hnames hbelow =>
      exact List.forall_mem_cons.2 ⟨hnames _ hentry, ih (hbelow _ hentry)⟩

theorem FileTree.Proper.of_walk {parts : List String} {above : List FileTree} {below : FileTree}
    (hproper : tree.Proper) (habove : ∀ tree ∈ above, tree.Proper)
    (h : walk parts tree above = some below) : below.Proper := by
  induction parts generalizing tree above with
  | nil =>
    obtain rfl := Option.some.inj h
    exact hproper
  | cons part parts ih =>
    cases tree with
    | file => cases h
    | directory entries =>
      simp only [walk, isDirectory, Bool.not_true, Bool.false_eq_true, if_false] at h
      by_cases hstay : (part = "" || part = ".") = true
      · rw [if_pos hstay] at h
        exact ih hproper habove h
      · rw [if_neg hstay] at h
        by_cases hup : part = ".."
        · rw [if_pos hup] at h
          cases above with
          | nil => cases h
          | cons parent above =>
            obtain ⟨hparent, habove⟩ := List.forall_mem_cons.1 habove
            exact ih hparent habove h
        · rw [if_neg hup] at h
          obtain ⟨next, hnext, hrest⟩ := Option.bind_eq_some_iff.1 h
          cases hproper with
          | directory hnodup hnames hbelow =>
            obtain ⟨front, back, hentries, -⟩ := List.lookup_eq_some_iff.1 hnext
            have hentry : (part, next) ∈ entries := by
              rw [show entries = front ++ (part, next) :: back from hentries]
              exact List.mem_append_right _ List.mem_cons_self
            exact ih (hbelow _ hentry)
              (List.forall_mem_cons.2 ⟨.directory hnodup hnames hbelow, habove⟩) hrest

/-- What a path leads to in a proper tree is proper. -/
theorem FileTree.Proper.of_find? {below : FileTree} (hproper : tree.Proper)
    (h : tree.find? path = some below) : below.Proper := by
  rw [find?] at h
  split at h
  · cases h
  · exact hproper.of_walk (List.forall_mem_nil _) h

/-! ### The order of files -/

/-- The order of files in a tree: the files of a directory come in the order of their names, then
those below its subdirectories, in the order of the names of these. -/
inductive ComesBefore : List String → List String → Prop
  | files {a b : String} (h : a < b) : ComesBefore [a] [b]
  | own {a b c : String} {rest : List String} : ComesBefore [a] (b :: c :: rest)
  | apart {a b c d : String} {rest rest' : List String} (h : a < b) :
      ComesBefore (a :: c :: rest) (b :: d :: rest')
  | within {a : String} {rest rest' : List String} (h : ComesBefore rest rest') :
      ComesBefore (a :: rest) (a :: rest')

theorem ComesBefore.asymm (h : ComesBefore names names') : ¬ ComesBefore names' names := by
  induction h with
  | files h =>
    intro h'
    cases h' with
    | files h' => exact String.lt_irrefl _ (String.lt_trans h h')
    | within h' => exact String.lt_irrefl _ h
  | own =>
    intro h'
    cases h' with
    | within h' => cases h'
  | apart h =>
    intro h'
    cases h' with
    | apart h' => exact String.lt_irrefl _ (String.lt_trans h h')
    | within h' => exact String.lt_irrefl _ h
  | within h ih =>
    intro h'
    cases h' with
    | files h' => exact String.lt_irrefl _ h'
    | own => cases h
    | apart h' => exact String.lt_irrefl _ h'
    | within h' => exact ih h'

theorem ComesBefore.ne (h : ComesBefore names names') : names ≠ names' := by
  rintro rfl
  exact h.asymm h

/-- The names of all test files below a tree, in order. -/
structure FileTree.ListsTests (tree : FileTree) (files : List (List String)) : Prop where
  ordered : files.Pairwise ComesBefore
  mem_iff : ∀ names, names ∈ files ↔ tree.IsTest names

theorem FileTree.ListsTests.exists_cons (h : tree.ListsTests files) (hmem : names ∈ files) :
    ∃ first rest, names = first :: rest := by
  refine List.exists_cons_of_ne_nil ?_
  rintro rfl
  obtain ⟨-, name, hlast, -⟩ := (h.mem_iff []).1 hmem
  cases hlast

/-- There is only one list of the test files of a tree, and it has each of them once. -/
theorem FileTree.ListsTests.unique (h : tree.ListsTests files) (h' : tree.ListsTests files') :
    files = files' := by
  have hperm : files.Perm files' :=
    (List.perm_ext_iff_of_nodup (h.ordered.imp ComesBefore.ne) (h'.ordered.imp ComesBefore.ne)).2
      fun names => (h.mem_iff names).trans (h'.mem_iff names).symm
  exact hperm.eq_of_pairwise (fun _ _ _ _ hle hge => absurd hge hle.asymm) h.ordered h'.ordered

/-! ### Test files of a tree -/

theorem FileTree.not_isTest_file : ¬ file.IsTest names := by
  rintro ⟨hleads, name, hlast, -⟩
  cases hleads
  cases hlast

/-- The test files below a directory are its own ones, and those below its entries. -/
theorem FileTree.isTest_directory_iff :
    (directory entries).IsTest names ↔
      (∃ name, (name, file) ∈ entries ∧ testExtension.toList <:+ name.toList ∧ [name] = names) ∨
      ∃ entry ∈ entries, ∃ rest, entry.2.IsTest rest ∧ entry.1 :: rest = names := by
  constructor
  · rintro ⟨hleads, last, hlast, hextension⟩
    cases hleads with
    | @into _ name below rest _ hentry hbelow =>
      cases rest with
      | nil =>
        cases hbelow
        obtain rfl := Option.some.inj hlast
        exact Or.inl ⟨_, hentry, hextension, rfl⟩
      | cons next rest =>
        rw [List.getLast?_cons_cons] at hlast
        exact Or.inr ⟨_, hentry, _, ⟨hbelow, last, hlast, hextension⟩, rfl⟩
  · rintro (⟨name, hentry, hextension, rfl⟩ |
      ⟨entry, hentry, rest, ⟨hleads, last, hlast, hend⟩, rfl⟩)
    · exact ⟨.into hentry .here, name, rfl, hextension⟩
    · refine ⟨.into hentry hleads, last, ?_, hend⟩
      rw [List.getLast?_cons, hlast]
      rfl

/-- The names of the test files among the entries of a directory. -/
def ownNames (entries : List (String × FileTree)) : List String :=
  entries.filterMap fun (name, tree) =>
    if !tree.isDirectory && name.endsWith testExtension then some name else none

theorem ownTests_eq (path : String) (entries : List (String × FileTree)) :
    ownTests path entries = ((ownNames entries).mergeSort nameOrder).map (joinPath path) := rfl

theorem mem_ownNames_iff :
    name ∈ ownNames entries ↔ (name, file) ∈ entries ∧ testExtension.toList <:+ name.toList := by
  rw [ownNames, List.mem_filterMap]
  constructor
  · rintro ⟨⟨name', tree⟩, hentry, hsome⟩
    cases tree with
    | directory _ => cases hsome
    | file =>
      obtain ⟨hends, rfl⟩ : name'.endsWith testExtension = true ∧ name' = name := by
        simpa [isDirectory] using hsome
      exact ⟨hentry, endsWith_iff.1 hends⟩
  · rintro ⟨hentry, hends⟩
    exact ⟨_, hentry, by simp [isDirectory, endsWith_iff.2 hends]⟩

theorem ownNames_sublist (entries : List (String × FileTree)) :
    (ownNames entries).Sublist (entries.map Prod.fst) := by
  induction entries with
  | nil => exact .slnil
  | cons entry entries ih =>
    obtain ⟨name, tree⟩ := entry
    by_cases htest : (!tree.isDirectory && name.endsWith testExtension) = true
    · have hcons : ownNames ((name, tree) :: entries) = name :: ownNames entries :=
        List.filterMap_cons_some (if_pos htest)
      rw [hcons]
      exact ih.cons_cons name
    · have hcons : ownNames ((name, tree) :: entries) = ownNames entries :=
        List.filterMap_cons_none (if_neg htest)
      rw [hcons]
      exact ih.cons name

theorem nameOrder_trans (a b c : String) (hab : nameOrder a b = true) (hbc : nameOrder b c = true) :
    nameOrder a c = true :=
  decide_eq_true (String.le_trans (of_decide_eq_true hab) (of_decide_eq_true hbc))

theorem nameOrder_total (a b : String) : (nameOrder a b || nameOrder b a) = true := by
  simpa [nameOrder] using String.le_total a b

/-- Sorting things with different names puts them in the strict order of their names. -/
theorem pairwise_lt_mergeSort {α : Type} {f : α → String} {l : List α} (h : (l.map f).Nodup) :
    (l.mergeSort fun a b => nameOrder (f a) (f b)).Pairwise fun a b => f a < f b := by
  have hsorted : (l.mergeSort fun a b => nameOrder (f a) (f b)).Pairwise fun a b =>
      nameOrder (f a) (f b) = true :=
    List.pairwise_mergeSort (fun a b c => nameOrder_trans (f a) (f b) (f c))
      (fun a b => nameOrder_total (f a) (f b)) l
  have hnodup : (l.mergeSort fun a b => nameOrder (f a) (f b)).Pairwise fun a b => f a ≠ f b :=
    List.pairwise_map.1 ((((List.mergeSort_perm l _).map f).nodup_iff).2 h)
  refine (hsorted.and hnodup).imp fun {a b} ⟨hle, hne⟩ => ?_
  by_contra hlt
  exact hne (String.le_antisymm (of_decide_eq_true hle) (String.not_lt.1 hlt))

theorem testsOfEntries_eq (path : String) (entries : List (String × FileTree)) :
    testsOfEntries path entries =
      entries.map fun entry => (entry.1, entry.2.testsBelow (joinPath path entry.1)) := by
  induction entries with
  | nil => rfl
  | cons entry entries ih => rw [testsOfEntries, ih, List.map_cons]

section

variable {below : String × FileTree → List (List String)}

/-- The names of the test files below a directory, put together from those below its entries. -/
def filesOfEntries (entries : List (String × FileTree))
    (below : String × FileTree → List (List String)) : List (List String) :=
  ((ownNames entries).mergeSort nameOrder).map (fun name => [name]) ++
    (entries.mergeSort fun a b => nameOrder a.1 b.1).flatMap fun entry =>
      (below entry).map fun names => entry.1 :: names

theorem mem_filesOfEntries_iff
    (h : ∀ entry ∈ entries, entry.2.ListsTests (below entry)) :
    names ∈ filesOfEntries entries below ↔ (directory entries).IsTest names := by
  simp only [filesOfEntries, isTest_directory_iff, List.mem_append, List.mem_map, List.mem_flatMap,
    List.mem_mergeSort, mem_ownNames_iff, and_assoc]
  refine or_congr_right (exists_congr fun entry => and_congr_right fun hentry => ?_)
  exact exists_congr fun rest => and_congr_left' ((h entry hentry).mem_iff rest)

theorem pairwise_filesOfEntries (hnodup : (entries.map Prod.fst).Nodup)
    (h : ∀ entry ∈ entries, entry.2.ListsTests (below entry)) :
    (filesOfEntries entries below).Pairwise ComesBefore := by
  have hown : ((ownNames entries).mergeSort nameOrder).Pairwise (· < ·) :=
    pairwise_lt_mergeSort (f := id)
      (by rw [List.map_id]; exact hnodup.sublist (ownNames_sublist entries))
  refine List.pairwise_append.2 ⟨List.pairwise_map.2 (hown.imp .files),
    List.pairwise_flatMap.2 ⟨fun entry hentry => ?_, ?_⟩, ?_⟩
  · have hordered := (h entry (List.mem_mergeSort.1 hentry)).ordered
    exact List.pairwise_map.2 (hordered.imp .within)
  · refine (pairwise_lt_mergeSort hnodup).imp_of_mem fun {a b} ha hb hlt => ?_
    simp only [List.forall_mem_map]
    intro names hnames names' hnames'
    obtain ⟨first, rest, rfl⟩ := (h a (List.mem_mergeSort.1 ha)).exists_cons hnames
    obtain ⟨first', rest', rfl⟩ := (h b (List.mem_mergeSort.1 hb)).exists_cons hnames'
    exact .apart hlt
  · simp only [List.forall_mem_map, List.forall_mem_flatMap]
    intro name _ entry hentry names hnames
    obtain ⟨first, rest, rfl⟩ := (h entry (List.mem_mergeSort.1 hentry)).exists_cons hnames
    exact .own

/-- The runner lists the files below a directory if it lists those below its entries. -/
theorem testsBelow_directory
    (h : ∀ entry ∈ entries, entry.2.testsBelow (joinPath path entry.1) =
      (below entry).map fun names => names.foldl joinPath (joinPath path entry.1)) :
    (directory entries).testsBelow path =
      (filesOfEntries entries below).map fun names => names.foldl joinPath path := by
  have hsort := List.map_mergeSort (l := entries) (r := fun a b => nameOrder a.1 b.1)
    (s := fun a b => nameOrder a.1 b.1)
    (f := fun entry => (entry.1, entry.2.testsBelow (joinPath path entry.1))) fun _ _ _ _ => rfl
  rw [testsBelow, ownTests_eq, testsOfEntries_eq, ← hsort, filesOfEntries, List.map_append,
    List.map_map, List.flatMap_map, List.map_flatMap]
  congr 1
  refine List.flatMap_congr fun entry hentry => ?_
  rw [h entry (List.mem_mergeSort.1 hentry), List.map_map]
  rfl

end

/-- The runner lists the test files below a directory. -/
theorem FileTree.Proper.exists_names (h : tree.Proper) (path : String) :
    ∃ files, tree.ListsTests files ∧
      tree.testsBelow path = files.map fun names => names.foldl joinPath path := by
  revert h
  -- The induction is on the walk, which goes through the entries of every directory.
  refine testsBelow.induct
    (fun path tree => tree.Proper → ∃ files, tree.ListsTests files ∧
      tree.testsBelow path = files.map fun names => names.foldl joinPath path)
    (fun path entries => ∀ entry ∈ entries, entry.2.Proper → ∃ files, entry.2.ListsTests files ∧
      entry.2.testsBelow (joinPath path entry.1) =
        files.map fun names => names.foldl joinPath (joinPath path entry.1))
    ?file ?directory ?nil ?cons path tree
  case file =>
    exact fun path _ =>
      ⟨[], ⟨.nil, fun names => iff_of_false List.not_mem_nil not_isTest_file⟩, rfl⟩
  case directory =>
    intro path entries ih hproper
    cases hproper with
    | directory hnodup _ hbelow =>
      choose! below hlists htexts using fun entry hentry => ih entry hentry (hbelow entry hentry)
      exact ⟨filesOfEntries entries below, ⟨pairwise_filesOfEntries hnodup hlists,
        fun names => mem_filesOfEntries_iff hlists⟩, testsBelow_directory htexts⟩
  case nil =>
    exact fun path => List.forall_mem_nil _
  case cons =>
    exact fun path name tree rest ih ihrest => List.forall_mem_cons.2 ⟨ih, ihrest⟩

/-! ### Files of paths -/

/-- The names below a path of the files that the path stands for: no names at all if it leads to a
file, and those of all test files below it if it leads to a directory. There are no files if it leads
nowhere. -/
inductive Finds (leadsTo : String → Option FileTree) (path : String) : List (List String) → Prop
  | file (h : leadsTo path = some .file) : Finds leadsTo path [[]]
  | below {tests : List (List String)} {children : List (String × FileTree)}
      (h : leadsTo path = some (.directory children))
      (hlists : (directory children).ListsTests tests) : Finds leadsTo path tests
  | missing (h : leadsTo path = none) : Finds leadsTo path []

variable {leadsTo : String → Option FileTree} {workDir : String} {environment : Environment}
  {statusOf : Nat → String → Int} {paths : List String}

/-- The runner finds the files that a path stands for. -/
theorem exists_finds (h : ∀ tree, leadsTo path = some tree → tree.Proper) :
    ∃ files, Finds leadsTo path files ∧
      testsOf path (leadsTo path) = files.map fun names => names.foldl joinPath path := by
  cases hleads : leadsTo path with
  | none => exact ⟨[], .missing hleads, rfl⟩
  | some tree =>
    cases tree with
    | file => exact ⟨[[]], .file hleads, rfl⟩
    | directory entries =>
      obtain ⟨files, hlists, htexts⟩ := (h _ hleads).exists_names path
      exact ⟨files, .below hleads hlists, htexts⟩

theorem Finds.isName (h : Finds leadsTo path files)
    (hproper : ∀ tree, leadsTo path = some tree → tree.Proper) (hnames : names ∈ files) :
    ∀ name ∈ names, IsName name := by
  cases h with
  | file _ =>
    obtain rfl := List.mem_singleton.1 hnames
    exact List.forall_mem_nil _
  | below hleads hlists =>
    exact (hproper _ hleads).isName_of_leadsTo ((hlists.mem_iff names).1 hnames).1
  | missing _ => cases hnames

/-- Paths with the names of files below them, and every file by itself. -/
def foundFiles (found : List (String × List (List String))) : List (String × List String) :=
  found.flatMap fun entry => entry.2.map fun names => (entry.1, names)

theorem exists_found (h : ∀ path tree, leadsTo path = some tree → tree.Proper)
    (paths : List String) :
    ∃ found, found.map Prod.fst = paths ∧ (∀ entry ∈ found, Finds leadsTo entry.1 entry.2) ∧
      testFilesOf leadsTo paths =
        (foundFiles found).map fun entry => entry.2.foldl joinPath entry.1 := by
  induction paths with
  | nil => exact ⟨[], rfl, List.forall_mem_nil _, rfl⟩
  | cons path paths ih =>
    obtain ⟨files, hfinds, htexts⟩ := exists_finds (h path)
    obtain ⟨found, hasked, hfound, hrest⟩ := ih
    refine ⟨(path, files) :: found, congrArg _ hasked, List.forall_mem_cons.2 ⟨hfinds, hfound⟩, ?_⟩
    rw [testFilesOf, List.flatMap_cons, htexts, ← testFilesOf, hrest, foundFiles, foundFiles,
      List.flatMap_cons, List.map_append, List.map_map]
    rfl

/-! ### Runs -/

/-- A call runs the script with some names below a path, in the scratch directory. -/
structure Runs (workDir : String) (environment : Environment) (entry : String × List String)
    (call : ScriptCall) : Prop where
  place : absoluteParts (joinPath workDir scratchDirectory) call.script =
    absoluteParts workDir entry.1 ++ entry.2
  directory : call.directory = scratchDirectory
  environment : call.environment = environment.forScripts workDir

theorem calls_runTestFiles :
    (runTestFiles leadsTo workDir environment statusOf paths).calls =
      (testFilesOf leadsTo paths).map fun path =>
        ⟨relativePath workDir path scratchDirectory, scratchDirectory,
          environment.forScripts workDir⟩ := by
  simp only [runTestFiles, List.map_map]
  rfl

/-- The status is 0 if every script ended with status 0, and 1 otherwise. -/
theorem status_runTestFiles :
    let run := runTestFiles leadsTo workDir environment statusOf paths
    (run.status = 0 ∨ run.status = 1) ∧
      (run.status = 0 ↔
        ∀ index call, run.calls[index]? = some call → statusOf index call.script = 0) := by
  intro run
  have hzero : run.status = 0 ↔
      ∀ index call, run.calls[index]? = some call → statusOf index call.script = 0 := by
    simpa [run, runTestFiles, List.mem_zipIdx_iff_getElem?] using forall_comm
  refine ⟨?_, hzero⟩
  simp only [run, runTestFiles]
  split
  · exact Or.inl rfl
  · exact Or.inr rfl

end Precedence
